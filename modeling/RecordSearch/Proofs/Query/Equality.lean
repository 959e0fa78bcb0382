import Mathlib.Data.List.Forall2
import RecordSearch.Proofs.Fields.Agreement
import RecordSearch.Proofs.Json.Equality
import RecordSearch.Query.Constraint

/-!
# Matching and equality

Records are equal if they hold equal values under the same names, in whatever
order, and filters are equal alike. Equal filters accept equal records alike, so
they select the same places of a list: `matching_respects_equality`.
-/

namespace RecordSearch

/-! ## Values -/

/-- Equal numbers are of one kind; floating point numbers are equal by value, so
the two zeros are equal. -/
inductive Number.Same : Number → Number → Prop
  | natural (n : UInt64) : Same (.natural n) (.natural n)
  | negative (m : Fin 0x8000000000000000) : Same (.negative m) (.negative m)
  | real {x y : Binary64} : x.signedUnits = y.signedUnits → Same (.real x) (.real y)

theorem Number.equal_iff {m n : Number} : m.equal n = true ↔ Same m n := by
  constructor
  · intro h
    cases m <;> cases n <;> simp [Number.equal, Binary64.equal] at h
    · subst h; exact .natural _
    · subst h; exact .negative _
    · exact .real h
  · intro h
    cases h with
    | natural n => exact Number.equal_refl _
    | negative m => exact Number.equal_refl _
    | real h => simp [Number.equal, Binary64.equal, h]

inductive FieldValue.Same : FieldValue → FieldValue → Prop
  | text (s : String) : Same (.text s) (.text s)
  | number {m n : Number} : m.Same n → Same (.number m) (.number n)
  | other {v w : Json} : v.equal w = true → Same (.other v) (.other w)

theorem FieldValue.equal_iff {x y : FieldValue} : x.equal y = true ↔ Same x y := by
  constructor
  · intro h
    cases x <;> cases y <;> simp [FieldValue.equal] at h
    · subst h; exact .text _
    · exact .number (Number.equal_iff.mp h)
    · exact .other h
  · intro h
    cases h with
    | text s => exact FieldValue.equal_refl _
    | number h => exact Number.equal_iff.mpr h
    | other h => exact h

/-! ## Records and filters -/

theorem Record.equal_iff {r s : Record} :
    r.equal s = true ↔ ∀ name, Option.Rel FieldValue.Same (r.get? name) (s.get? name) := by
  simp only [Record.equal, Fields.agree_iff_rel, FieldValue.equal_iff]

theorem Record.equal_refl (r : Record) : r.equal r = true :=
  Fields.agree_of_get? FieldValue.equal_refl fun _ => rfl

theorem forall₂_equal_refl (records : List Record) :
    List.Forall₂ (fun r s => r.equal s = true) records records :=
  List.forall₂_same.mpr fun r _ => r.equal_refl

namespace Filters

theorem equal_iff {f g : Filters} : f.equal g = true ↔ ∀ field, f.get? field = g.get? field := by
  rw [equal, Fields.agree_iff_rel]
  apply forall_congr'
  intro field
  cases f.get? field <;> cases g.get? field <;> simp

/-- Reordered filters are equal filters. -/
theorem equal_of_perm {f g : Filters} (h : f.entries.Perm g.entries) : f.equal g = true := by
  apply equal_iff.mpr
  intro field
  apply Option.ext
  intro c
  rw [← Fields.mem_entries, ← Fields.mem_entries, h.mem_iff]

theorem accepts_iff {f : Filters} {r : Record} :
    f.accepts r = true ↔ ∀ field c, f.get? field = some c → c.admits (r.get? field) = true := by
  simp only [accepts, List.all_eq_true, Prod.forall, Fields.mem_entries]

end Filters

/-! ## Matching -/

theorem Number.Same.inRange {m n : Number} (h : m.Same n) (min max : UInt64) :
    m.inRange min max = n.inRange min max := by
  cases h with
  | natural n => rfl
  | negative m => rfl
  | real h => simp only [Number.inRange, h]

theorem Constraint.admits_same (c : Constraint) {x y : Option FieldValue}
    (h : Option.Rel FieldValue.Same x y) : c.admits x = c.admits y := by
  cases h with
  | none => rfl
  | some h =>
    cases h with
    | text s => rfl
    | number h =>
      cases c with
      | numericRange min max => exact h.inRange min max
      | exactPhrase | fieldMatch => rfl
    | other h => cases c <;> rfl

namespace Filters

theorem accepts_equal {f g : Filters} {r s : Record} (hf : f.equal g = true) (hr : r.equal s = true) :
    f.accepts r = g.accepts s := by
  rw [Bool.eq_iff_iff, accepts_iff, accepts_iff]
  refine forall_congr' fun field => forall_congr' fun c => ?_
  rw [equal_iff.mp hf field, c.admits_same (Record.equal_iff.mp hr field)]

/-! ## Places in a list -/

/-- The places of the records that filters select, the first record being at `start`. -/
def placesFrom (f : Filters) (start : Nat) (records : List Record) : List Nat :=
  (f.select Prod.fst (records.zipIdx start)).map Prod.snd

def places (f : Filters) (records : List Record) : List Nat := f.placesFrom 0 records

theorem placesFrom_cons (f : Filters) (start : Nat) (r : Record) (records : List Record) :
    f.placesFrom start (r :: records) =
      if f.accepts r then start :: f.placesFrom (start + 1) records
      else f.placesFrom (start + 1) records := by
  unfold placesFrom select
  rw [List.zipIdx_cons, List.filter_cons]
  by_cases h : f.accepts r <;> simp [h]

/-- What filters select of a list stands at their places in it. -/
theorem evaluate_eq_places (f : Filters) (records : List Record) :
    f.evaluate records = (f.places records).filterMap (records[·]?) := by
  have hnumbered : (f.select Prod.fst records.zipIdx).map Prod.fst = f.evaluate records := by
    have h := List.filter_map (f := Prod.fst) (p := f.accepts) (l := records.zipIdx)
    rw [List.zipIdx_map_fst] at h
    exact h.symm
  rw [places, placesFrom, List.filterMap_map, ← hnumbered, ← List.filterMap_eq_map]
  apply List.filterMap_congr
  intro p hp
  have hmem := List.mem_zipIdx_iff_getElem?.mp (List.mem_of_mem_filter hp)
  exact hmem.symm

theorem placesFrom_equal {f g : Filters} (hf : f.equal g = true) {records others : List Record}
    (h : List.Forall₂ (fun r s => r.equal s = true) records others) :
    ∀ start, f.placesFrom start records = g.placesFrom start others := by
  induction h with
  | nil => intro _; rfl
  | cons hr _ ih =>
    intro start
    rw [placesFrom_cons, placesFrom_cons, accepts_equal hf hr, ih]

/-! ## The main statement -/

/-- What it is to be equal, and that equal filters and records are not told apart. -/
theorem matching_respects_equality (f g : Filters) :
    (∀ r s : Record, r.equal s = true ↔
      ∀ name, Option.Rel FieldValue.Same (r.get? name) (s.get? name)) ∧
    (f.equal g = true ↔ ∀ field, f.get? field = g.get? field) ∧
    (∀ records, f.evaluate records = (f.places records).filterMap (records[·]?)) ∧
    (f.equal g = true →
      (∀ r s : Record, r.equal s = true → f.accepts r = g.accepts s) ∧
      ∀ records others : List Record, List.Forall₂ (fun r s => r.equal s = true) records others →
        f.places records = g.places others) ∧
    ∀ (before after : List Record) (r s : Record), r.equal s = true → f.entries.Perm g.entries →
      f.places (before ++ r :: after) = g.places (before ++ s :: after) := by
  refine ⟨fun _ _ => Record.equal_iff, equal_iff, f.evaluate_eq_places, ?_, ?_⟩
  · intro hf
    constructor
    · intro r s hr
      exact accepts_equal hf hr
    · intro records others h
      exact placesFrom_equal hf h 0
  · intro before after r s hr hperm
    have hlists := List.rel_append (forall₂_equal_refl before) (.cons hr (forall₂_equal_refl after))
    exact placesFrom_equal (equal_of_perm hperm) hlists 0

/-- Two records that differ in the sign of a zero and in the order of their fields. -/
def zeroBelow : Record :=
  Fields.ofList [("n", .number (.real { (default : Binary64) with negative := true })), ("s", .text "Σ"),
    ("o", .other .null)]

def zeroAbove : Record :=
  Fields.ofList [("o", .other .null), ("s", .text "Σ"), ("n", .number (.real default))]

def zeroFilters : Filters := Fields.ofList [("n", .numericRange 0 0), ("s", .exactPhrase "Σ")]

def zeroFiltersTurned : Filters := Fields.ofList [("s", .exactPhrase "Σ"), ("n", .numericRange 0 0)]

theorem matching_respects_equality_zeros :
    zeroFilters.equal zeroFiltersTurned = true ∧ zeroBelow.equal zeroAbove = true ∧
    zeroFilters.entries.Perm zeroFiltersTurned.entries ∧
    zeroFiltersTurned.accepts zeroAbove = true ∧
    zeroFiltersTurned.places [Fields.empty, zeroAbove] = [1] := by
  have hf : zeroFilters.equal zeroFiltersTurned = true := by decide +kernel
  have hr : zeroBelow.equal zeroAbove = true := by decide +kernel
  have haccepts : zeroFilters.accepts zeroBelow = true := by decide +kernel
  have hplaces : zeroFilters.places [Fields.empty, zeroBelow] = [1] := by decide +kernel
  have hperm : zeroFilters.entries.Perm zeroFiltersTurned.entries := .swap ..
  obtain ⟨_, _, _, hmatch, hplace⟩ := matching_respects_equality zeroFilters zeroFiltersTurned
  refine ⟨hf, hr, hperm, ?_, ?_⟩
  · rw [← (hmatch hf).1 _ _ hr]
    exact haccepts
  · rw [← hplaces]
    exact (hplace [Fields.empty] [] _ _ hr hperm).symm

end Filters

end RecordSearch
