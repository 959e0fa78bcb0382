import RecordSearch.Proofs.Csv.Cutting
import RecordSearch.Proofs.Text.Validity
import RecordSearch.Upload.Extract

/-!
# Cells that are not UTF-8

Commas, line ends and quotes are ASCII, so cutting valid bytes leaves valid cells,
whatever the quotes are like. What is refused is refused for its first cell that is
not valid: `extractCsv_first_fault`.
-/

namespace RecordSearch.Csv

open Utf8 (Valid LongestValid encode)

/-! ## Cells of valid bytes -/

/-- Empty, or begins with an ASCII byte. -/
def AsciiFirst (u : Bytes) : Prop := ∀ b, u.head? = some b → b.toNat < 128

theorem valid_apart {t u : Bytes} (hu : AsciiFirst u) (h : Valid (t ++ u)) : Valid t ∧ Valid u := by
  cases u with
  | nil =>
    rw [List.append_nil] at h
    exact ⟨h, Utf8.valid_nil⟩
  | cons b u =>
    have hb := hu b rfl
    obtain ⟨ht, hv⟩ := h.cut hb
    exact ⟨ht, (Utf8.valid_ascii hb).append hv⟩

theorem valid_tail {b : UInt8} {u : Bytes} (hb : b.toNat < 128) (h : Valid (b :: u)) : Valid u :=
  (Valid.cut (t := []) hb h).2

theorem asciiFirst_cons {b : UInt8} (hb : b.toNat < 128) (u : Bytes) : AsciiFirst (b :: u) := by
  intro a ha
  cases ha
  exact hb

theorem lineEnd_ascii {b : UInt8} (h : Reader.isLineEnd b = true) : b.toNat < 128 := by
  simp only [Reader.isLineEnd, Bool.or_eq_true, beq_iff_eq] at h
  rcases h with rfl | rfl <;> decide

/-- The bytes before the cell's may end within a character that the cell goes on with. -/
theorem valid_enclosed {s c u : Bytes} (hs : Enclosed s c u) (hu : AsciiFirst u) :
    ∀ p, Valid (p ++ s) → Valid (p ++ c) ∧ Valid u := by
  induction hs with
  | unclosed =>
    intro p h
    exact ⟨h, Utf8.valid_nil⟩
  | closed _ _ =>
    intro p h
    obtain ⟨hp, hrest⟩ := h.cut (by decide)
    obtain ⟨ht, hu⟩ := valid_apart hu hrest
    exact ⟨hp.append ht, hu⟩
  | @doubled s c u _ ih =>
    intro p h
    obtain ⟨hp, hrest⟩ := h.cut (by decide)
    obtain ⟨hc, hu⟩ := ih hu [34] hrest
    exact ⟨hp.append hc, hu⟩
  | @byte b s c u _ _ ih =>
    intro p h
    have hassoc : ∀ x, p ++ b :: x = (p ++ [b]) ++ x := by simp
    rw [hassoc] at h ⊢
    exact ih hu _ h

theorem valid_cell {s c u : Bytes} (hs : CellAt s c u) (hu : AsciiFirst u) (h : Valid s) :
    Valid c ∧ Valid u := by
  cases hs with
  | bare => exact valid_apart hu h
  | quoted hs => exact valid_enclosed hs hu [] (valid_tail (by decide) h)

theorem valid_record {s u : Bytes} {cells : List Bytes} (hs : RecordAt s cells u) (hu : AsciiFirst u)
    (h : Valid s) : (∀ c ∈ cells, Valid c) ∧ Valid u := by
  induction hs with
  | last hs =>
    obtain ⟨hc, hu⟩ := valid_cell hs hu h
    exact ⟨List.forall_mem_singleton.mpr hc, hu⟩
  | cons hs _ ih =>
    obtain ⟨hc, hrest⟩ := valid_cell hs (asciiFirst_cons (by decide) _) h
    obtain ⟨hcells, hv⟩ := ih hu (valid_tail (by decide) hrest)
    exact ⟨List.forall_mem_cons.mpr ⟨hc, hcells⟩, hv⟩

theorem valid_cut {s : Bytes} {table : List (List Bytes)} (hs : Cut s table) (h : Valid s) :
    ∀ cells ∈ table, ∀ c ∈ cells, Valid c := by
  induction hs with
  | nil =>
    intro cells hc
    cases hc
  | emptyLine hb _ ih => exact ih (valid_tail (lineEnd_ascii hb) h)
  | last _ hs =>
    have hcells := (valid_record hs (fun _ e => by cases e) h).1
    exact List.forall_mem_singleton.mpr hcells
  | cons _ hs he _ ih =>
    obtain ⟨hcells, hrest⟩ := valid_record hs (asciiFirst_cons (lineEnd_ascii he) _) h
    exact List.forall_mem_cons.mpr ⟨hcells, ih (valid_tail (lineEnd_ascii he) hrest)⟩

theorem valid_unmarked {s : Bytes} (h : Valid s) : Valid (unmarked s) := by
  unfold unmarked
  split
  · exact Utf8.valid_after '\uFEFF' h
  · exact h

/-! ## The first fault -/

/-- A cell is not valid and those before it are: its place and the length of its
longest valid beginning. -/
inductive FirstInvalid : List Bytes → Nat → Nat → Prop
  | mk (left : List Bytes) {cell : Bytes} {right : List Bytes} {n : Nat} : (∀ c ∈ left, Valid c) →
      ¬ Valid cell → LongestValid cell n → FirstInvalid (left ++ cell :: right) left.length n

/-- The first record with a cell that is not valid, and its first such cell. -/
inductive FirstFault : List (List Bytes) → Nat → Nat → Nat → Prop
  | mk (before : List (List Bytes)) {cells : List Bytes} {after : List (List Bytes)} {i n : Nat} :
      (∀ row ∈ before, ∀ c ∈ row, Valid c) → FirstInvalid cells i n →
      FirstFault (before ++ cells :: after) before.length i n

theorem FirstInvalid.cons {cells : List Bytes} {i n : Nat} (h : FirstInvalid cells i n) {c : Bytes}
    (hc : Valid c) : FirstInvalid (c :: cells) (i + 1) n := by
  cases h with
  | mk left hleft hcell hn =>
    exact .mk (c :: left) (List.forall_mem_cons.mpr ⟨hc, hleft⟩) hcell hn

theorem FirstFault.cons {table : List (List Bytes)} {r i n : Nat} (h : FirstFault table r i n)
    {cells : List Bytes} (hc : ∀ c ∈ cells, Valid c) : FirstFault (cells :: table) (r + 1) i n := by
  cases h with
  | mk before hbefore hcells =>
    exact .mk (cells :: before) (List.forall_mem_cons.mpr ⟨hc, hbefore⟩) hcells

theorem FirstInvalid.not_valid {cells : List Bytes} {i n : Nat} (h : FirstInvalid cells i n) :
    ¬ ∀ c ∈ cells, Valid c := by
  cases h with
  | mk _ _ hcell _ =>
    intro hv
    exact hcell (hv _ (List.mem_append_right _ (List.mem_cons_self ..)))

theorem FirstFault.not_valid {table : List (List Bytes)} {r i n : Nat} (h : FirstFault table r i n) :
    ¬ ∀ cells ∈ table, ∀ c ∈ cells, Valid c := by
  cases h with
  | mk _ _ hcells =>
    intro hv
    exact hcells.not_valid (hv _ (List.mem_append_right _ (List.mem_cons_self ..)))

theorem cellTexts_cases (record : Nat) (place : Place) : ∀ (cells : List Bytes) (field : Nat)
    (acc : List String),
    (∃ ts, cellTexts record place field acc cells = .ok ts ∧ ∀ c ∈ cells, Valid c) ∨
    ∃ e i, cellTexts record place field acc cells = .error e ∧ e.record = record ∧
      e.field = field + i ∧ FirstInvalid cells i e.validUpTo
  | [], field, acc => .inl ⟨_, rfl, fun _ h => by cases h⟩
  | c :: cells, field, acc => by
    unfold cellTexts
    rcases Utf8.toString?_cases c with ⟨t, ht, hv⟩ | ⟨e, he, hv, hn⟩
    · simp only [ht]
      rcases cellTexts_cases record place cells (field + 1) (t :: acc) with
        ⟨ts, hts, hcells⟩ | ⟨e, i, he, hr, hf, hi⟩
      · exact .inl ⟨ts, hts, List.forall_mem_cons.mpr ⟨hv, hcells⟩⟩
      · exact .inr ⟨e, i + 1, he, hr, by omega, hi.cons hv⟩
    · simp only [he]
      exact .inr ⟨_, 0, rfl, rfl, rfl, .mk [] (fun _ h => by cases h) hv hn⟩

theorem recordTexts_cases : ∀ (located : List Located) (record : Nat) (acc : List (List String)),
    (∃ ts, recordTexts record acc located = .ok ts ∧
      ∀ cells ∈ located.map Located.cells, ∀ c ∈ cells, Valid c) ∨
    ∃ e r, recordTexts record acc located = .error e ∧ e.record = record + r ∧
      FirstFault (located.map Located.cells) r e.field e.validUpTo
  | [], record, acc => .inl ⟨_, rfl, fun _ h => by cases h⟩
  | l :: located, record, acc => by
    unfold recordTexts
    rcases cellTexts_cases record l.place l.cells 0 [] with ⟨ts, hts, hcells⟩ | ⟨e, i, he, hr, hf, hi⟩
    · simp only [hts]
      rcases recordTexts_cases located (record + 1) (ts :: acc) with
        ⟨table, htable, hrest⟩ | ⟨e, r, he, hr, hfault⟩
      · exact .inl ⟨table, htable, List.forall_mem_cons.mpr ⟨hcells, hrest⟩⟩
      · exact .inr ⟨e, r + 1, he, by omega, hfault.cons hcells⟩
    · simp only [he]
      rw [Nat.zero_add] at hf
      exact .inr ⟨e, 0, rfl, hr, .mk [] (fun _ h => by cases h) (hf ▸ hi)⟩

/-! ## The main statement -/

theorem extractCsv_cases (s : Bytes) :
    (∃ rows, extractCsv s = .ok rows ∧ ∀ cells ∈ (records s).map Located.cells, ∀ c ∈ cells, Valid c) ∨
    ∃ fault, extractCsv s = .error (.csv fault) ∧
      FirstFault ((records s).map Located.cells) fault.record fault.field fault.validUpTo := by
  rcases recordTexts_cases (records s) 0 [] with ⟨ts, hts, hv⟩ | ⟨e, r, he, hr, hfault⟩
  · exact .inl ⟨table ts, by rw [extractCsv, rows, hts]; rfl, hv⟩
  · rw [Nat.zero_add] at hr
    exact .inr ⟨e, by rw [extractCsv, rows, he]; rfl, hr ▸ hfault⟩

/-- Every input is cut into records in one way. Extraction succeeds if all cells are
valid, as all are in a valid input, and a fault is that of the first one that is not. -/
theorem extractCsv_first_fault (s : Bytes) : ∃ table, (∀ t, Cut (unmarked s) t ↔ t = table) ∧
    (Valid s → ∃ rows, extractCsv s = .ok rows) ∧
    ((∃ rows, extractCsv s = .ok rows) ↔ ∀ cells ∈ table, ∀ c ∈ cells, Valid c) ∧
    ∀ e, extractCsv s = .error e → ∃ fault, e = .csv fault ∧
      FirstFault table fault.record fault.field fault.validUpTo := by
  refine ⟨(records s).map Located.cells, fun _ => cut_iff, ?_⟩
  rcases extractCsv_cases s with ⟨rows, hrows, hv⟩ | ⟨fault, herror, hfault⟩
  · rw [hrows]
    refine ⟨fun _ => ⟨rows, rfl⟩, ⟨fun _ => hv, fun _ => ⟨rows, rfl⟩⟩, ?_⟩
    intro e he
    cases he
  · have hnot : ¬ ∃ rows, extractCsv s = .ok rows := by
      rw [herror]
      simp
    refine ⟨?_, ⟨fun h => absurd h hnot, fun hv => absurd hv hfault.not_valid⟩, ?_⟩
    · intro hs
      exact absurd (valid_cut (cut_iff.mpr rfl) (valid_unmarked hs)) hfault.not_valid
    · intro e he
      rw [herror] at he
      cases he
      exact ⟨fault, rfl, hfault⟩

/-- Quotes that open nothing, close nothing or are never closed, and ragged rows. -/
def oddText : List Char := "x\"y\",\"é\"z\n\r\n,,\n\"é,\n".toList

/-- After a header and an empty line a record begins with a quoted letter and half
of another one. -/
def brokenBytes : Bytes := encode "a,b\n\n\"é\"".toList ++ 0xC3 :: encode ",ok\nc".toList ++ [0xFF]

theorem extractCsv_first_fault_broken :
    Valid (encode oddText) ∧ (∃ rows, extractCsv (encode oddText) = .ok rows) ∧
    extractCsv brokenBytes = .error (.csv ⟨1, ⟨4, 2⟩, 0, 2⟩) ∧
    ∃ table, (∀ t, Cut (unmarked brokenBytes) t ↔ t = table) ∧ FirstFault table 1 0 2 := by
  have hrun : (match extractCsv brokenBytes with
      | .error (.csv fault) => some fault
      | _ => none) = some ⟨1, ⟨4, 2⟩, 0, 2⟩ := by decide +kernel
  have hbroken : extractCsv brokenBytes = .error (.csv ⟨1, ⟨4, 2⟩, 0, 2⟩) := by
    split at hrun
    · rename_i fault he
      rw [he, Option.some.inj hrun]
    · cases hrun
  obtain ⟨-, -, hvalid, -⟩ := extractCsv_first_fault (encode oddText)
  obtain ⟨table, hcut, -, -, hfault⟩ := extractCsv_first_fault brokenBytes
  obtain ⟨fault, he, h⟩ := hfault _ hbroken
  cases he
  exact ⟨⟨oddText, rfl⟩, hvalid ⟨oddText, rfl⟩, hbroken, table, hcut, h⟩

end RecordSearch.Csv
