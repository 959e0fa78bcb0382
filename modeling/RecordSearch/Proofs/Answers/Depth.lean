import RecordSearch.Answers
import RecordSearch.Proofs.Query.Encoding
import RecordSearch.Proofs.Record.Submitted

/-!
# How deep an answer may nest

An answer holds a record one level deeper than the record's own text, and the
results of a search two levels deeper. `answers_read_back`: it is read back if
and only if the reader allows that depth.
-/

namespace RecordSearch

open Json (Reads Sinks TooDeep structMember_takes structMember_sinks structOf_reads
  structOf_sinks)
open Utf8 (encode)

/-! ## Submissions -/

namespace SubmitResponse

theorem reads {r : Record} (h : r.Kept) {fuel depth : Nat} (hd : r.toJson.depth ≤ depth)
    (hf : (encode (toJson ⟨r⟩).chars).length < fuel) :
    Reads (Json.structOf (structReader fuel) fuel (depth + 1)) (toJson ⟨r⟩) ⟨r⟩ := by
  have hdata : (encode r.toJson.chars).length < fuel :=
    Nat.lt_trans (Json.member_lt_object (List.mem_singleton_self ("data", r.toJson))) hf
  refine structOf_reads (a := some r) (.cons ?_ (.nil _)) rfl hf
  exact structMember_takes rfl rfl ((Record.reader_reads h hd hdata).map some)

theorem sinks {r : Record} {fuel depth : Nat} (hd : depth < r.toJson.depth)
    (hf : (encode (toJson ⟨r⟩).chars).length < fuel) :
    Sinks (Json.structOf (structReader fuel) fuel (depth + 1)) (toJson ⟨r⟩) := by
  have hdata : (encode r.toJson.chars).length < fuel :=
    Nat.lt_trans (Json.member_lt_object (List.mem_singleton_self ("data", r.toJson))) hf
  refine structOf_sinks (.here ?_) hf
  exact structMember_sinks rfl rfl ((Record.reader_sinks hd hdata).map some)

end SubmitResponse

/-! ## Searches -/

namespace SearchResponse

section
variable {x : SearchResponse} {fuel : Nat} (hf : (encode x.toJson.chars).length < fuel)

include hf in
theorem results_fit : (encode (Json.array (x.results.map Record.toJson)).chars).length < fuel :=
  Nat.lt_trans
    (Json.member_lt_object (p := ("results", .array (x.results.map Record.toJson))) (by simp)) hf

include hf in
theorem result_fits {r : Record} (h : r ∈ x.results) : (encode r.toJson.chars).length < fuel :=
  Nat.lt_trans (Json.item_lt_array (List.mem_map_of_mem h)) (results_fit hf)

include hf in
theorem filters_fit : (encode x.filters.toJson.chars).length < fuel :=
  Nat.lt_trans (Json.member_lt_object (p := ("filters", x.filters.toJson)) (by simp)) hf

include hf in
theorem reads {depth : Nat} (hk : ∀ r ∈ x.results, r.Kept)
    (hd : ∀ r ∈ x.results, r.toJson.depth ≤ depth + 1) :
    Reads (Json.structOf (structReader fuel) fuel (depth + 3)) x.toJson x := by
  have hresults := (Json.listOf_reads
    (fun r hr => Record.reader_reads (hk r hr) (hd r hr) (result_fits hf hr)) (results_fit hf)).map
      fun rs => Draft.mk (some rs) none none
  have hcount := (Json.natural_reads "usize" x.count).map fun n => Draft.mk (some x.results) (some n) none
  have hfilters := (Filters.reader_reads x.filters (Nat.le_add_left 2 depth) (filters_fit hf)).map
    fun f => Draft.mk (some x.results) (some x.count) (some f)
  exact structOf_reads (.cons (structMember_takes rfl rfl hresults)
    (.cons (structMember_takes rfl rfl hcount)
      (.cons (structMember_takes rfl rfl hfilters) (.nil _)))) rfl hf

include hf in
theorem sinks {depth : Nat} (hk : ∀ r ∈ x.results, r.Kept)
    (hd : ∃ r ∈ x.results, depth < r.toJson.depth) :
    Sinks (Json.structOf (structReader fuel) fuel (depth + 2)) x.toJson := by
  have hparts : ∀ r ∈ x.results, Reads (Record.reader fuel depth) r.toJson r ∨
      Sinks (Record.reader fuel depth) r.toJson := by
    intro r hr
    rcases Nat.lt_or_ge depth r.toJson.depth with hdeep | hdeep
    · exact .inr (Record.reader_sinks hdeep (result_fits hf hr))
    · exact .inl (Record.reader_reads (hk r hr) hdeep (result_fits hf hr))
  obtain ⟨r, hr, hdeep⟩ := hd
  have hresults := Json.listOf_sinks hparts ⟨r, hr, Record.reader_sinks hdeep (result_fits hf hr)⟩
    (results_fit hf)
  refine structOf_sinks (.here ?_) hf
  exact structMember_sinks rfl rfl (hresults.map fun rs => Draft.mk (some rs) none none)

end

end SearchResponse

/-! ## Answers -/

/-- A record that is read nests to the reader's limit at most. Once submitted, it is
read back from the answer to its submission exactly if it nests one level less than
that, and from the answer to a search exactly if every result nests two levels
less. Elsewhere the text is refused for its depth. -/
theorem answers_read_back :
    (∀ s r rest, Record.readFirst s = .ok (r, rest) → r.toJson.depth ≤ 127) ∧
    (∀ r : Record, r.Submitted →
      (SubmitResponse.read (Utf8.ofString (SubmitResponse.toJson ⟨r⟩).text) = .ok ⟨r⟩ ↔
        r.toJson.depth ≤ 126) ∧
      (¬ r.toJson.depth ≤ 126 →
        TooDeep (SubmitResponse.read (Utf8.ofString (SubmitResponse.toJson ⟨r⟩).text)))) ∧
    ∀ x : SearchResponse, (∀ r ∈ x.results, r.Submitted) →
      (SearchResponse.read (Utf8.ofString x.toJson.text) = .ok x ↔
        ∀ r ∈ x.results, r.toJson.depth ≤ 125) ∧
      (¬ (∀ r ∈ x.results, r.toJson.depth ≤ 125) →
        TooDeep (SearchResponse.read (Utf8.ofString x.toJson.text))) := by
  refine ⟨fun _ _ _ => Record.depth_of_readFirst, fun r hr => ?_, fun x hx => ?_⟩
  · have hsinks : ¬ r.toJson.depth ≤ 126 →
        TooDeep (SubmitResponse.read (Utf8.ofString (SubmitResponse.toJson ⟨r⟩).text)) := by
      intro hd
      exact (SubmitResponse.sinks (Nat.lt_of_not_le hd) (Json.chars_lt_fuel _)).complete
    refine ⟨Json.ok_iff_of_tooDeep ?_ hsinks, hsinks⟩
    intro hd
    exact (SubmitResponse.reads hr.kept hd (Json.chars_lt_fuel _)).complete
  · have hkept : ∀ r ∈ x.results, r.Kept := fun r hr => (hx r hr).kept
    have hsinks : ¬ (∀ r ∈ x.results, r.toJson.depth ≤ 125) →
        TooDeep (SearchResponse.read (Utf8.ofString x.toJson.text)) := by
      intro hd
      simp only [not_forall, Nat.not_le, exists_prop] at hd
      exact (SearchResponse.sinks (Json.chars_lt_fuel _) hkept hd).complete
    refine ⟨Json.ok_iff_of_tooDeep ?_ hsinks, hsinks⟩
    intro hd
    exact (SearchResponse.reads (Json.chars_lt_fuel _) hkept hd).complete

/-- As many lists within one another, with nothing in the last. -/
def nestedLists : Nat → Json
  | 0 => .array []
  | n + 1 => .array [nestedLists n]

theorem settle_nestedLists (n : Nat) : (nestedLists n).settle = nestedLists n := by
  induction n with
  | zero => rfl
  | succ n ih => rw [nestedLists, Json.settle, Json.settleItems, ih, Json.settleItems]

theorem depth_nestedLists (n : Nat) : (nestedLists n).depth = n + 1 := by
  induction n with
  | zero => rfl
  | succ n ih => simp [nestedLists, Json.depth, Json.depthItems, ih]

/-- What is stored for one field, the value of which nests. -/
def nestedRecord (n : Nat) : Record := newSubmission "7" [("a", .other (nestedLists n))]

theorem depth_nestedRecord (n : Nat) : (nestedRecord n).toJson.depth = n + 2 := by
  have hentries : (nestedRecord n).entries = [("id", .text "7"), ("a", .other (nestedLists n))] := rfl
  simp [Record.toJson, hentries, FieldValue.toJson, Json.depth, Json.depthMembers, depth_nestedLists]

theorem submitted_nestedRecord {n : Nat} (h : n ≤ 125) : (nestedRecord n).Submitted := by
  let fields : Record := Fields.ofList [("a", .other (nestedLists n))]
  have hentries : fields.entries = [("a", .other (nestedLists n))] := rfl
  have hkept : fields.Kept := by
    intro p hp
    rw [hentries, List.mem_singleton] at hp
    subst hp
    cases n with
    | zero => rfl
    | succ n => exact congrArg FieldValue.other (settle_nestedLists (n + 1))
  have hdepth : fields.toJson.depth ≤ Json.maxDepth := by
    simp only [Record.toJson, hentries, FieldValue.toJson, Json.depth, Json.depthMembers, List.map,
      depth_nestedLists, Json.maxDepth]
    omega
  exact Record.submitted_of_kept hkept hdepth "7"

theorem answers_read_back_edge :
    (nestedRecord 124).Submitted ∧ (nestedRecord 125).Submitted ∧
    SubmitResponse.read (Utf8.ofString (SubmitResponse.toJson ⟨nestedRecord 124⟩).text) =
      .ok ⟨nestedRecord 124⟩ ∧
    TooDeep (SubmitResponse.read (Utf8.ofString (SubmitResponse.toJson ⟨nestedRecord 125⟩).text)) ∧
    SearchResponse.read
      (Utf8.ofString (SearchResponse.toJson ⟨[nestedRecord 123], 1, Fields.empty⟩).text) =
        .ok ⟨[nestedRecord 123], 1, Fields.empty⟩ ∧
    TooDeep (SearchResponse.read (Utf8.ofString
      (SearchResponse.toJson ⟨[nestedRecord 0, nestedRecord 124], 2, Fields.empty⟩).text)) := by
  have hsubmitted : ∀ n ≤ 125, (nestedRecord n).Submitted := fun _ => submitted_nestedRecord
  have hlast := hsubmitted 124 (by decide)
  have hpast := hsubmitted 125 (by decide)
  refine ⟨hlast, hpast, ?_, ?_, ?_, ?_⟩
  · exact (answers_read_back.2.1 _ hlast).1.mpr (by simp [depth_nestedRecord])
  · exact (answers_read_back.2.1 _ hpast).2 (by simp [depth_nestedRecord])
  · refine (answers_read_back.2.2 _ ?_).1.mpr (by simp [depth_nestedRecord])
    simpa using hsubmitted 123 (by decide)
  · refine (answers_read_back.2.2 _ ?_).2 (by simp [depth_nestedRecord])
    simpa using ⟨hsubmitted 0 (by decide), hlast⟩

end RecordSearch
