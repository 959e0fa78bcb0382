import Mathlib.Data.List.Forall2
import RecordSearch.Proofs.Json.Outcomes

/-!
# Members taken one after another

A reader of an object may go from state to state with its members, or make
something of each value. `membersFrom_eq_ok`: what it comes to depends on the
members alone, as plain values in the order of the text.
-/

namespace RecordSearch.Json

section
variable {α β σ : Type}

/-! ## Members in order -/

theorem membersFrom_collect {read : Bytes → Outcome α} {fuel : Nat} {first : Bool}
    {acc l : List (String × α)} {s t : Bytes} :
    membersFrom (collect read) fuel first acc s = .ok (l, t) ↔
      ∃ m, membersFrom (collect read) fuel first [] s = .ok (m, t) ∧ l = m ++ acc := by
  induction fuel generalizing first acc l s with
  | zero => simp [membersFrom, failAt]
  | succ fuel ih =>
    simp only [membersFrom_succ_eq_ok, collect_eq_ok]
    constructor
    · intro h
      rcases h with ⟨hs, rfl⟩ | ⟨u, key, v, _, w, hs, hk, ⟨x, hx, rfl⟩, hl⟩
      · exact ⟨[], .inl ⟨hs, rfl⟩, rfl⟩
      · obtain ⟨m, hm, rfl⟩ := ih.mp hl
        exact ⟨m ++ [(key, x)], .inr ⟨u, key, v, _, w, hs, hk, ⟨x, hx, rfl⟩, ih.mpr ⟨m, hm, rfl⟩⟩,
          by simp⟩
    · intro h
      obtain ⟨_, ⟨hs, rfl⟩ | ⟨u, key, v, _, w, hs, hk, ⟨x, hx, rfl⟩, hl⟩, rfl⟩ := h
      · exact .inl ⟨hs, rfl⟩
      · obtain ⟨m, hm, rfl⟩ := ih.mp hl
        exact .inr ⟨u, key, v, _, w, hs, hk, ⟨x, hx, rfl⟩, ih.mpr ⟨m, hm, by simp⟩⟩

theorem members_eq_ok {read : Bytes → Outcome α} {fuel : Nat} {l : List (String × α)} {s t : Bytes} :
    members read fuel s = .ok (l, t) ↔
      membersFrom (collect read) fuel true [] s = .ok (l.reverse, t) := by
  rw [members_eq]
  cases membersFrom (collect read) fuel true [] s with
  | error e => simp [Except.map]
  | ok r => simp [Except.map, Prod.ext_iff, List.reverse_eq_iff]

section
variable {read : Bytes → Outcome α} {entry : σ → String → Bytes → Outcome σ}
  {step : σ → String × α → σ → Prop}
  (hentry : ∀ a key s b t, entry a key s = .ok (b, t) ↔
    ∃ x, valueOf key read s = .ok (x, t) ∧ step a (key, x) b)

include hentry in
theorem membersFrom_leads {fuel : Nat} {first : Bool} {a c : σ} {s t : Bytes} :
    membersFrom entry fuel first a s = .ok (c, t) ↔
      ∃ l, membersFrom (collect read) fuel first [] s = .ok (l.reverse, t) ∧ Leads step a l c := by
  induction fuel generalizing first a s with
  | zero => simp [membersFrom, failAt]
  | succ fuel ih =>
    simp only [membersFrom_succ_eq_ok, collect_eq_ok, hentry]
    constructor
    · intro h
      rcases h with ⟨hs, rfl⟩ | ⟨u, key, v, b, w, hs, hk, ⟨x, hx, hb⟩, hc⟩
      · exact ⟨[], .inl ⟨hs, rfl⟩, .nil c⟩
      · obtain ⟨l, hl, hlead⟩ := ih.mp hc
        exact ⟨(key, x) :: l, .inr ⟨u, key, v, _, w, hs, hk, ⟨x, hx, rfl⟩,
          membersFrom_collect.mpr ⟨_, hl, by simp⟩⟩, .cons hb hlead⟩
    · intro h
      obtain ⟨l, ⟨hs, hl⟩ | ⟨u, key, v, _, w, hs, hk, ⟨x, hx, rfl⟩, hm⟩, hlead⟩ := h
      · rw [List.reverse_eq_nil_iff] at hl
        subst hl
        exact .inl ⟨hs, leads_nil.mp hlead⟩
      · -- the member taken is the first of the list
        obtain ⟨m, hm, he⟩ := membersFrom_collect.mp hm
        obtain rfl : l = (key, x) :: m.reverse := by simpa using congrArg List.reverse he
        obtain ⟨b, hb, hlead⟩ := leads_cons.mp hlead
        have hc := ih.mpr ⟨m.reverse, by rwa [List.reverse_reverse], hlead⟩
        exact .inr ⟨u, key, v, b, w, hs, hk, ⟨x, hx, hb⟩, hc⟩

include hentry in
theorem membersFrom_eq_ok {fuel : Nat} {a c : σ} {s t : Bytes} :
    membersFrom entry fuel true a s = .ok (c, t) ↔
      ∃ l, members read fuel s = .ok (l, t) ∧ Leads step a l c := by
  simp only [membersFrom_leads hentry, members_eq_ok]

end

/-! ## Values made into others -/

/-- One more member, with its value made into another. -/
def Remade (R : α → β → Prop) (a : List (String × β)) (p : String × α) (b : List (String × β)) : Prop :=
  ∃ y, R p.2 y ∧ b = (p.1, y) :: a

theorem leads_remade {R : α → β → Prop} {acc c : List (String × β)} {l : List (String × α)} :
    Leads (Remade R) acc l c ↔
      ∃ m, List.Forall₂ (fun p q => p.1 = q.1 ∧ R p.2 q.2) l m ∧ c = m.reverse ++ acc := by
  induction l generalizing acc with
  | nil => simp [leads_nil]
  | cons p l ih =>
    simp only [leads_cons, Remade, ih, List.forall₂_cons_left_iff]
    constructor
    · intro h
      obtain ⟨_, ⟨y, hy, rfl⟩, m, hm, rfl⟩ := h
      exact ⟨(p.1, y) :: m, ⟨(p.1, y), m, ⟨rfl, hy⟩, hm, rfl⟩, by simp⟩
    · intro h
      obtain ⟨_, ⟨q, m, ⟨hname, hy⟩, hm, rfl⟩, rfl⟩ := h
      exact ⟨_, ⟨q.2, hy, rfl⟩, m, hm, by simp [hname]⟩

theorem members_related {read : Bytes → Outcome α} {make : Bytes → Outcome β} {R : α → β → Prop}
    (h : ∀ s y t, make s = .ok (y, t) ↔ ∃ x, read s = .ok (x, t) ∧ R x y) {fuel : Nat} {s t : Bytes}
    {m : List (String × β)} : members make fuel s = .ok (m, t) ↔
      ∃ l, members read fuel s = .ok (l, t) ∧
        List.Forall₂ (fun p q => p.1 = q.1 ∧ R p.2 q.2) l m := by
  have hentry : ∀ a key s b t, collect make a key s = .ok (b, t) ↔
      ∃ x, valueOf key read s = .ok (x, t) ∧ Remade R a (key, x) b := by
    intro a key s b t
    simp only [collect_eq_ok, valueOf_related h, Remade]
    constructor
    · intro h
      obtain ⟨y, ⟨x, hx, hy⟩, rfl⟩ := h
      exact ⟨x, hx, y, hy, rfl⟩
    · intro h
      obtain ⟨x, hx, y, hy, rfl⟩ := h
      exact ⟨y, ⟨x, hx, hy⟩, rfl⟩
  rw [members_eq_ok, membersFrom_eq_ok hentry]
  simp only [leads_remade, List.append_nil, List.reverse_inj, exists_eq_right']

/-! ## One name among the members -/

/-- The values that the members of a name have, in their order. -/
def valuesOf (name : String) (l : List (String × α)) : List α :=
  (l.filter fun p => p.1 == name).map Prod.snd

theorem valuesOf_cons_eq {name : String} {p : String × α} (h : p.1 = name) (l : List (String × α)) :
    valuesOf name (p :: l) = p.2 :: valuesOf name l := by
  simp [valuesOf, h]

theorem valuesOf_cons_ne {name : String} {p : String × α} (h : p.1 ≠ name) (l : List (String × α)) :
    valuesOf name (p :: l) = valuesOf name l := by
  simp [valuesOf, h]

theorem valuesOf_filter_ne {name other : String} (h : name ≠ other) (l : List (String × α)) :
    valuesOf name (l.filter fun p => p.1 != other) = valuesOf name l := by
  rw [valuesOf, valuesOf, List.filter_filter]
  congr 1
  apply List.filter_congr
  intro p _
  by_cases hp : p.1 = name
  · simp [hp, h]
  · simp [hp]

/-- A member of the name fills what is empty, and no other member changes it. -/
def Slot (name : String) (R : α → β → Prop) (a : Option β) (p : String × α) (b : Option β) : Prop :=
  if p.1 = name then a = none ∧ ∃ x, R p.2 x ∧ some x = b else b = a

variable {name : String} {R : α → β → Prop}

theorem slot_eq {a b : Option β} {p : String × α} (h : p.1 = name) :
    Slot name R a p b ↔ a = none ∧ ∃ x, R p.2 x ∧ some x = b := by
  rw [Slot, if_pos h]

theorem slot_ne {a b : Option β} {p : String × α} (h : p.1 ≠ name) : Slot name R a p b ↔ b = a := by
  rw [Slot, if_neg h]

theorem leads_slot_some {x : β} {b : Option β} {l : List (String × α)} :
    Leads (Slot name R) (some x) l b ↔ valuesOf name l = [] ∧ b = some x := by
  induction l with
  | nil => simp [leads_nil, valuesOf]
  | cons p l ih =>
    by_cases h : p.1 = name
    · simp [leads_cons, slot_eq h, valuesOf_cons_eq h]
    · simp [leads_cons, slot_ne h, valuesOf_cons_ne h, ih]

theorem leads_slot_none {x : β} {l : List (String × α)} :
    Leads (Slot name R) none l (some x) ↔ ∃ v, valuesOf name l = [v] ∧ R v x := by
  induction l with
  | nil => simp [leads_nil, valuesOf]
  | cons p l ih =>
    by_cases h : p.1 = name
    · rw [leads_cons, valuesOf_cons_eq h]
      constructor
      · intro h
        obtain ⟨b, hb, hl⟩ := h
        obtain ⟨-, y, hy, rfl⟩ := (slot_eq h).mp hb
        obtain ⟨hnone, he⟩ := leads_slot_some.mp hl
        cases he
        exact ⟨p.2, by rw [hnone], hy⟩
      · intro h
        obtain ⟨v, hv, hx⟩ := h
        obtain ⟨rfl, hnone⟩ := List.cons_eq_cons.mp hv
        exact ⟨some x, (slot_eq h).mpr ⟨rfl, x, hx, rfl⟩, leads_slot_some.mpr ⟨hnone, rfl⟩⟩
    · simp [leads_cons, slot_ne h, valuesOf_cons_ne h, ih]

end

/-! ## Readers with their values changed -/

section
variable {α β : Type} (f : α → β) (read : Bytes → Outcome α)

def mapped (s : Bytes) : Outcome β := (read s).map fun r => (f r.1, r.2)

def mapValues (l : List (String × α)) : List (String × β) := l.map fun p => (p.1, f p.2)

theorem valueOf_mapped (key : String) (s : Bytes) :
    valueOf key (mapped f read) s = (valueOf key read s).map fun r => (f r.1, r.2) := by
  rw [valueOf, valueOf]
  cases colon s with
  | error e => rfl
  | ok t =>
    simp only [mapped]
    cases read t <;> rfl

theorem collect_mapped (acc : List (String × α)) (key : String) (s : Bytes) :
    collect (mapped f read) (mapValues f acc) key s =
      (collect read acc key s).map fun r => (mapValues f r.1, r.2) := by
  rw [collect, collect, valueOf_mapped]
  cases valueOf key read s <;> rfl

theorem membersFrom_mapped (fuel : Nat) (first : Bool) (acc : List (String × α)) (s : Bytes) :
    membersFrom (collect (mapped f read)) fuel first (mapValues f acc) s =
      (membersFrom (collect read) fuel first acc s).map fun r => (mapValues f r.1, r.2) := by
  induction fuel generalizing first acc s with
  | zero => rfl
  | succ fuel ih =>
    rw [membersFrom, membersFrom]
    cases within .unnamed (nextKey first s) with
    | error e => rfl
    | ok next =>
      cases next with
      | closed t => rfl
      | more t =>
        dsimp only
        cases within .unnamed (stringTail t) with
        | error e => rfl
        | ok k =>
          simp only [collect_mapped]
          cases collect read acc k.1 k.2 with
          | error e => rfl
          | ok r => exact ih false r.1 r.2

theorem members_mapped (fuel : Nat) (s : Bytes) :
    members (mapped f read) fuel s = (members read fuel s).map fun r => (mapValues f r.1, r.2) := by
  have h := membersFrom_mapped f read fuel true [] s
  rw [members_eq, members_eq]
  rw [show mapValues f [] = [] from rfl] at h
  rw [h]
  cases membersFrom (collect read) fuel true [] s with
  | error e => rfl
  | ok r => simp only [Except.map, mapValues, List.map_reverse]

end

end RecordSearch.Json
