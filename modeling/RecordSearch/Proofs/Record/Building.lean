import Mathlib.Data.List.Forall2
import RecordSearch.Proofs.Fields.Agreement
import RecordSearch.Proofs.Json.Equality
import RecordSearch.Proofs.Record.RoundTrip

/-!
# Ways to build a record

A record is the same whether its fields are inserted one by one, collected from a
list or read from a text that lists them, with whatever repeats: `built_alike`.
-/

namespace RecordSearch

/-! ## What a field holds -/

/-- Texts and numbers are held as such, and any other value is held settled. -/
inductive FieldValue.Held : FieldValue → Prop
  | text (s : String) : Held (.text s)
  | number (n : Number) : Held (.number n)
  | other {v : Json} : ¬ v.IsPlain → v.settle = v → Held (.other v)

theorem FieldValue.Held.keeps {x : FieldValue} (h : x.Held) : FieldValue.Keeps x.toJson x := by
  have hx : FieldValue.ofJson x.toJson = x := by
    cases h with
    | text s => rfl
    | number n => rfl
    | other hv hs => rw [FieldValue.toJson, FieldValue.ofJson_of_not_isPlain hv, hs]
  have hk := FieldValue.keeps_ofJson x.toJson
  rwa [hx] at hk

namespace Record

/-! ## Members and fields -/

def listed (l : List (String × FieldValue)) : Json := .object (l.map fun p => (p.1, p.2.toJson))

/-- The members of an object list some fields: the names are the same, and each
value is kept as that of the field. -/
def Lists (members : List (String × Json)) (l : List (String × FieldValue)) : Prop :=
  List.Forall₂ (fun m p => m.1 = p.1 ∧ FieldValue.Keeps m.2 p.2) members l

theorem lists_of_held {l : List (String × FieldValue)} (h : ∀ p ∈ l, p.2.Held) :
    Lists (l.map fun p => (p.1, p.2.toJson)) l := by
  rw [Lists, List.forall₂_map_left_iff]
  apply List.forall₂_same.mpr
  intro p hp
  exact ⟨rfl, (h p hp).keeps⟩

theorem ofMembers_of_lists {members : List (String × Json)} {l : List (String × FieldValue)}
    (h : Lists members l) : ofMembers members = Fields.ofList l := by
  have hl : Json.mapValues FieldValue.ofJson members = l := by
    induction h with
    | nil => rfl
    | @cons m p _ _ hm _ ih =>
      obtain ⟨hname, hkeeps⟩ := hm
      rw [Json.mapValues, List.map_cons, ← Json.mapValues, ih, hname, ← hkeeps.eq]
  rw [ofMembers, hl]

theorem read_lists {s : Bytes} {members : List (String × Json)} {l : List (String × FieldValue)}
    (hs : Json.parse s = .ok (.object members)) (h : Lists members l) : read s = .ok (Fields.ofList l) :=
  read_eq_ok.mpr ⟨members, hs, (ofMembers_of_lists h).symm⟩

/-! ## The main statement -/

/-- A record has the names of a list where they first appear, each with its last value. -/
structure Collects (r : Record) (l : List (String × FieldValue)) : Prop where
  names : r.names = (l.map Prod.fst).eraseDups
  value : ∀ name, r.get? name = lastValue? l name
  size : r.size = (l.map Prod.fst).toFinset.card

theorem collects_ofList (l : List (String × FieldValue)) : Collects (Fields.ofList l) l :=
  ⟨Fields.names_ofList l, Fields.get?_ofList l, Fields.size_ofList l⟩

theorem equal_reverse (r : Record) : equal (Fields.ofList r.entries.reverse) r = true :=
  Fields.agree_of_get? FieldValue.equal_refl (Fields.get?_ofList_reverse r)

/-- The record that is collected from its own fields is the same one, and backwards
it is one with the same fields in another order. -/
theorem built_alike (l : List (String × FieldValue)) : ∃ r : Record, Collects r l ∧
    l.foldl (fun r p => r.insert p.1 p.2) Fields.empty = r ∧ Fields.ofList l = r ∧
    (∀ s members, Json.parse s = .ok (.object members) → Lists members l → read s = .ok r) ∧
    ((∀ p ∈ l, p.2.Held) → (listed l).depth ≤ Json.maxDepth →
      read (Utf8.ofString (listed l).text) = .ok r) ∧
    Fields.ofList r.entries = r ∧ equal (Fields.ofList r.entries.reverse) r = true := by
  refine ⟨Fields.ofList l, collects_ofList l, rfl, rfl, ?_, ?_, Fields.ofList_entries _, equal_reverse _⟩
  · intro s members hs h
    exact read_lists hs h
  · intro hl hd
    exact read_lists (Json.parse_text hd) (lists_of_held hl)

/-- A repeated name, the zero below zero and, in the text, an object that is not settled. -/
def nestedFields : List (String × FieldValue) :=
  [("a", .text "x"), ("b", .other (.object [("k", .null), ("m", .array [.bool true])])),
    ("a", .number (.real ⟨true, ⟨0, by decide⟩⟩)), ("", .other .null)]

def nestedMembers : List (String × Json) :=
  [("a", .string "x"),
    ("b", .object [("m", .array [.bool true]), ("k", .number (.natural 1)), ("k", .null)]),
    ("a", .number (.real ⟨true, ⟨0, by decide⟩⟩)), ("", .null)]

theorem built_alike_nested : Lists nestedMembers nestedFields ∧ (∀ p ∈ nestedFields, p.2.Held) ∧
    (listed nestedFields).depth ≤ Json.maxDepth ∧
    read (Utf8.ofString (Json.object nestedMembers).text) = .ok (Fields.ofList nestedFields) ∧
    read (Utf8.ofString (listed nestedFields).text) = .ok (Fields.ofList nestedFields) := by
  have hlists : Lists nestedMembers nestedFields :=
    .cons ⟨rfl, FieldValue.keeps_ofJson _⟩ <| .cons ⟨rfl, FieldValue.keeps_ofJson _⟩ <|
      .cons ⟨rfl, FieldValue.keeps_ofJson _⟩ <| .cons ⟨rfl, FieldValue.keeps_ofJson _⟩ .nil
  have hheld : ∀ p ∈ nestedFields, p.2.Held := by
    simp only [nestedFields, List.forall_mem_cons]
    refine ⟨.text _, .other ?_ rfl, .number _, .other ?_ rfl, ?_⟩
    · intro h
      cases h
    · intro h
      cases h
    · intro p hp
      cases hp
  have hdepth : (listed nestedFields).depth ≤ Json.maxDepth := by decide
  have hparse : Json.parse (Utf8.ofString (Json.object nestedMembers).text) = .ok (.object nestedMembers) :=
    Json.parse_text (by decide)
  obtain ⟨r, -, -, hr, htext, hown, -⟩ := built_alike nestedFields
  rw [hr]
  exact ⟨hlists, hheld, hdepth, htext _ _ hparse hlists, hown hheld hdepth⟩

end Record

end RecordSearch
