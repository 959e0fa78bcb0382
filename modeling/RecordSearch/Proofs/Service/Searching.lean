import RecordSearch.Proofs.Service.Growth
import RecordSearch.Proofs.Text.Percent

/-!
# Searching over requests

A query that is sent in any of its encodings is the query that is asked for, so
the answer tells what the query selects of the stored records
(`search_answers`).
-/

namespace RecordSearch

open Http (Request Response Target)

/-! ## Targets -/

theorem splitOrigin_of_noColon {s : List Char} (h : ':' ∉ s) : Http.splitOrigin s = ([], s) := by
  have hd := Text.dropWhile_run (Text.run_of_notMem h) Text.stops_nil
  rw [List.append_nil] at hd
  rw [Http.splitOrigin, hd]

theorem target_ofString {path query : List Char} (hne : path ≠ []) (hp : '?' ∉ path)
    (hc : ':' ∉ path ++ '?' :: query) (hf : '#' ∉ path ++ '?' :: query) :
    Target.ofString (String.ofList (path ++ '?' :: query)) =
      ⟨"", String.ofList path, some (String.ofList query)⟩ := by
  have hrest := Text.takeWhile_run (Text.run_of_notMem hf) Text.stops_nil
  rw [List.append_nil] at hrest
  have hrun := Text.run_of_notMem hp
  have hstop : Text.Stops (fun c => decide (c ≠ '?')) ('?' :: query) := Text.stops_sep query
  have hempty : path.isEmpty = false := by simpa using hne
  rw [Target.ofString, String.toList_ofList, splitOrigin_of_noColon hc]
  simp only [hrest, Text.takeWhile_run hrun hstop, Text.dropWhile_run hrun hstop, hempty]
  rfl

/-! ## Queries in requests -/

def searchTarget (e : List Char) : Target :=
  Target.ofString (String.ofList ("/api/search?search=".toList ++ e))

theorem searchTarget_eq {s : Bytes} {e : List Char} (h : Percent.Encodes s e) :
    searchTarget e = ⟨"", "/api/search", some (String.ofList ("search".toList ++ '=' :: e))⟩ := by
  have hout : ∀ {c : Char}, Percent.isCode c = false → c ∉ "/api/search".toList →
      c ∉ "?search=".toList → c ∉ "/api/search".toList ++ '?' :: ("search".toList ++ '=' :: e) := by
    intro c hc hp hq hm
    have he : c ∈ "/api/search".toList ++ ("?search=".toList ++ e) := hm
    rw [List.mem_append, List.mem_append] at he
    rcases he with he | he | he
    · exact hp he
    · exact hq he
    · rw [h.isCode c he] at hc
      cases hc
  have hsplit : "/api/search?search=".toList ++ e =
      "/api/search".toList ++ '?' :: ("search".toList ++ '=' :: e) := rfl
  rw [searchTarget, hsplit]
  exact target_ofString (by decide) (by decide) (hout (by decide) (by decide) (by decide))
    (hout (by decide) (by decide) (by decide))

theorem searchParam_encodes {q : String} {e : List Char} (h : Percent.Encodes (Utf8.ofString q) e) :
    searchParam (some (String.ofList ("search".toList ++ '=' :: e))) = .ok (some q) := by
  have hname : Percent.Encodes (Utf8.ofString "search") "search".toList := by
    have hsafe : "search".toList.all Percent.isSafe = true := by decide
    exact Percent.encodes_safe (List.all_eq_true.mp hsafe)
  have hfields := Percent.formFields_single hname h
  rw [searchParam, Option.getD_some, Utf8.ofString, String.toList_ofList, hfields]
  rfl

/-! ## The main statement -/

/-- What a search tells: the records, their number and the filters in order. -/
def findings (records : List Record) (count : UInt64) (filters : Filters) : Json :=
  .object [
    ("results", listing records),
    ("count", .number (.natural count)),
    ("filters", .object (filters.entries.map fun p => (p.1, p.2.toJson)))]

theorem answerSearch_of_query {r : Request} {q : String} (hq : q ≠ "")
    (hr : searchParam r.target.query = .ok (some q)) (store : Store) :
    answerSearch store r = .json 200 (searchResponse store q).toJson := by
  have hempty : q.isEmpty = false := by
    rw [← Bool.not_eq_true, String.isEmpty_iff]
    exact hq
  rw [answerSearch, hr]
  simp [hempty]

/-- The count is a machine word, which the records in a memory do not exceed. -/
theorem search_answers (s : Service) (id : String) (store : Store) (r : Request) (q : String)
    (hq : q ≠ "") (e : List Char) (he : Percent.Encodes (Utf8.ofString q) e) (hm : r.method = "GET")
    (ht : r.target = searchTarget e) :
    ∃ response results, ∃ count : UInt64, s.answer id store r = (response, store) ∧
      response.status = 200 ∧ Tells response (findings results count (Query.parse q)) ∧
      results = (Query.parse q).evaluate store.records ∧ results.Sublist store.records ∧
      (results.length < UInt64.size → count.toNat = results.length) := by
  rw [searchTarget_eq he] at ht
  have hpath : r.target.path = Route.search.path := by rw [ht]; rfl
  have hparam : searchParam r.target.query = .ok (some q) := by
    rw [ht]
    exact searchParam_encodes he
  have hanswer := answer_of_get s id store hm .search hpath rfl
  have hrun : (Route.search.run s id store r).1 =
      .json 200 (searchResponse store q).toJson := answerSearch_of_query hq hparam store
  rw [hrun] at hanswer
  have hstore : (s.answer id store r).2 = store :=
    answer_of_other s id store fun hp => absurd (hm.symm.trans hp) (by decide)
  refine ⟨_, _, ((Query.parse q).evaluate store.records).length.toUInt64, Prod.ext hanswer hstore,
    rfl, (tells_withHeaders _).mpr (tells_json _ _), rfl, List.filter_sublist, ?_⟩
  intro hlt
  exact UInt64.toNat_ofNat_of_lt hlt

theorem search_answers_escaped :
    Percent.Encodes (Utf8.ofString "id:2 é") "id%3A2+%c3%A9".toList ∧
    ∃ response results, ∃ count : UInt64,
      Service.answer ⟨.anyOrigin, ⟨[]⟩, .absent, 0⟩ "7" Store.withSamples
          ⟨"GET", searchTarget "id%3A2+%c3%A9".toList, [], []⟩ = (response, Store.withSamples) ∧
      response.status = 200 ∧ Tells response (findings results count (Query.parse "id:2 é")) ∧
      results = (Query.parse "id:2 é").evaluate Store.withSamples.records ∧ count.toNat = 1 := by
  have he : Percent.Encodes (Utf8.ofString "id:2 é") "id%3A2+%c3%A9".toList :=
    .safe rfl <| .safe rfl <| .escape (.inl rfl) (.inr rfl) <| .safe rfl <| .plus <|
    .escape (.inl rfl) (.inl rfl) <| .escape (.inr rfl) (.inl rfl) .nil
  obtain ⟨response, results, count, ha, hs, ht, hr, _, hc⟩ :=
    search_answers ⟨.anyOrigin, ⟨[]⟩, .absent, 0⟩ "7" Store.withSamples
      ⟨"GET", searchTarget "id%3A2+%c3%A9".toList, [], []⟩ "id:2 é" (by decide) _ he rfl rfl
  have hone : results.length = 1 := by
    rw [hr]
    decide +kernel
  exact ⟨he, response, results, count, ha, hs, ht, hr, hone ▸ hc (hone ▸ by decide)⟩

end RecordSearch
