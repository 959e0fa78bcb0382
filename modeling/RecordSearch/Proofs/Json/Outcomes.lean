import Mathlib.Tactic.SplitIfs
import RecordSearch.Json.Shape

/-!
# What reading comes to

Each reader by the results it gives: what was read, and from which bytes on. A
list ends or takes one more item, and a value is told apart by its first byte.
-/

namespace RecordSearch

/-! ## Steps along a list -/

section
variable {σ α : Type} {step : σ → α → σ → Prop}

/-- The elements of a list lead from one state to another. -/
inductive Leads (step : σ → α → σ → Prop) : σ → List α → σ → Prop
  | nil (a : σ) : Leads step a [] a
  | cons {a b c : σ} {x : α} {l : List α} :
      step a x b → Leads step b l c → Leads step a (x :: l) c

theorem leads_nil {a c : σ} : Leads step a [] c ↔ c = a := by
  constructor
  · intro h
    cases h
    rfl
  · intro h
    subst h
    exact .nil c

theorem leads_cons {a c : σ} {x : α} {l : List α} :
    Leads step a (x :: l) c ↔ ∃ b, step a x b ∧ Leads step b l c := by
  constructor
  · intro h
    cases h with
    | cons hx hl => exact ⟨_, hx, hl⟩
  · intro h
    obtain ⟨b, hx, hl⟩ := h
    exact .cons hx hl

theorem leads_prod {τ : Type} {first : σ → α → σ → Prop} {second : τ → α → τ → Prop} {a c : σ × τ}
    {l : List α} : Leads (fun a x b => first a.1 x b.1 ∧ second a.2 x b.2) a l c ↔
      Leads first a.1 l c.1 ∧ Leads second a.2 l c.2 := by
  induction l generalizing a with
  | nil => simp only [leads_nil, Prod.ext_iff]
  | cons x l ih =>
    simp only [leads_cons, ih]
    constructor
    · intro h
      obtain ⟨b, ⟨hx, hy⟩, hl, hm⟩ := h
      exact ⟨⟨b.1, hx, hl⟩, ⟨b.2, hy, hm⟩⟩
    · intro h
      obtain ⟨⟨b, hx, hl⟩, ⟨d, hy, hm⟩⟩ := h
      exact ⟨(b, d), ⟨hx, hy⟩, hl, hm⟩

end

namespace Json

section
variable {ε α β σ : Type}

/-! ## Results -/

theorem map_eq_ok {r : Except ε α} {f : α → β} {y : β} (h : r.map f = .ok y) :
    ∃ x, r = .ok x ∧ f x = y := by
  cases r with
  | error e => cases h
  | ok x => exact ⟨x, rfl, Except.ok.inj h⟩

theorem within_eq_ok {step : Step} {r : Except Failure α} {x : α} :
    within step r = .ok x ↔ r = .ok x := by
  cases r with
  | error e => simp [within]
  | ok y => rfl

theorem map_eq_ok_iff {r : Except ε α} {f : α → β} {y : β} :
    r.map f = .ok y ↔ ∃ x, r = .ok x ∧ f x = y := by
  constructor
  · exact map_eq_ok
  · intro h
    obtain ⟨x, rfl, rfl⟩ := h
    rfl

theorem bind_eq_ok {r : Except ε α} {f : α → Except ε β} {y : β} :
    r >>= f = .ok y ↔ ∃ x, r = .ok x ∧ f x = .ok y := by
  cases r with
  | error e =>
    constructor
    · intro h
      cases h
    · intro h
      obtain ⟨x, h, -⟩ := h
      cases h
  | ok x =>
    constructor
    · intro h
      exact ⟨x, rfl, h⟩
    · intro h
      obtain ⟨y, h, hy⟩ := h
      cases h
      exact hy

theorem foldlM_eq_ok {f : σ → α → Except ε σ} {a c : σ} {l : List α} :
    l.foldlM f a = .ok c ↔ Leads (fun a x b => f a x = .ok b) a l c := by
  induction l generalizing a with
  | nil =>
    rw [leads_nil, List.foldlM_nil]
    exact ⟨fun h => (Except.ok.inj h).symm, fun h => h ▸ rfl⟩
  | cons x l ih => simp only [leads_cons, List.foldlM_cons, bind_eq_ok, ih]

theorem required_eq_ok {lack : Fault} {a : Option α} {x : α} :
    required lack a = .ok x ↔ a = some x := by
  cases a <;> simp [required]

theorem changed_eq_ok {r : Outcome α} {f : α → β} {y : β} {t : Bytes} :
    (r.map fun p => (f p.1, p.2)) = .ok (y, t) ↔ ∃ x, r = .ok (x, t) ∧ f x = y := by
  simp [map_eq_ok_iff]

theorem complete_eq_ok {r : Outcome α} {x : α} :
    complete r = .ok x ↔ ∃ t, r = .ok (x, t) ∧ skipBlanks t = [] := by
  cases r with
  | error e => exact ⟨(by cases ·), fun ⟨_, h, _⟩ => (by cases h)⟩
  | ok p =>
    obtain ⟨y, t⟩ := p
    rw [complete]
    constructor
    · intro h
      split at h
      · rename_i ht
        cases h
        exact ⟨t, rfl, ht⟩
      · cases h
    · intro h
      obtain ⟨u, h, hu⟩ := h
      cases h
      rw [hu]

theorem refuse_ne_ok (expected : String) (s : Bytes) (x : α) : refuse expected s ≠ .ok x := by
  intro h
  unfold refuse at h
  split at h
  · cases h
  split at h
  · cases h
  split at h
  · cases h
  split at h <;> cases h

/-! ## One item -/

/-- The list ends here, or an item is read and the rest follows. -/
theorem itemsFrom_succ_eq_ok {read : Bytes → Outcome α} {fuel i : Nat} {acc xs : List α}
    {s t : Bytes} : itemsFrom read (fuel + 1) i acc s = .ok (xs, t) ↔
      (nextItem (i == 0) s = .ok (.closed t) ∧ xs = acc.reverse) ∨
      ∃ u x v, nextItem (i == 0) s = .ok (.more u) ∧ read u = .ok (x, v) ∧
        itemsFrom read fuel (i + 1) (x :: acc) v = .ok (xs, t) := by
  constructor
  · intro h
    rw [itemsFrom] at h
    split at h
    · cases h
    · rename_i hs
      cases h
      exact .inl ⟨hs, rfl⟩
    · rename_i u hs
      split at h
      · cases h
      · rename_i x v hx
        exact .inr ⟨u, x, v, hs, within_eq_ok.mp hx, h⟩
  · intro h
    rcases h with ⟨hs, rfl⟩ | ⟨u, x, v, hs, hx, hl⟩
    · simp only [itemsFrom, hs]
    · simp only [itemsFrom, hs, hx, hl, within]

theorem itemsFrom_acc {read : Bytes → Outcome α} {fuel i : Nat} {acc xs : List α} {s t : Bytes} :
    itemsFrom read fuel i acc s = .ok (xs, t) ↔
      ∃ ys, itemsFrom read fuel i [] s = .ok (ys, t) ∧ xs = acc.reverse ++ ys := by
  induction fuel generalizing i acc xs s with
  | zero => simp [itemsFrom, failAt]
  | succ fuel ih =>
    simp only [itemsFrom_succ_eq_ok]
    constructor
    · intro h
      rcases h with ⟨hs, rfl⟩ | ⟨u, x, v, hs, hx, hl⟩
      · exact ⟨[], .inl ⟨hs, rfl⟩, by simp⟩
      · obtain ⟨ys, hys, rfl⟩ := ih.mp hl
        exact ⟨x :: ys, .inr ⟨u, x, v, hs, hx, ih.mpr ⟨ys, hys, rfl⟩⟩, by simp⟩
    · intro h
      obtain ⟨_, ⟨hs, rfl⟩ | ⟨u, x, v, hs, hx, hl⟩, rfl⟩ := h
      · exact .inl ⟨hs, by simp⟩
      · obtain ⟨ys, hys, rfl⟩ := ih.mp hl
        exact .inr ⟨u, x, v, hs, hx, ih.mpr ⟨ys, hys, by simp⟩⟩

theorem items_cons_eq_ok {read : Bytes → Outcome α} {fuel : Nat} {x : α} {xs : List α} {s t : Bytes} :
    items read fuel s = .ok (x :: xs, t) ↔ ∃ u v, nextItem true s = .ok (.more u) ∧
      read u = .ok (x, v) ∧ itemsFrom read (fuel - 1) 1 [] v = .ok (xs, t) := by
  cases fuel with
  | zero => simp [items, itemsFrom, failAt]
  | succ fuel =>
    rw [items, itemsFrom_succ_eq_ok]
    constructor
    · intro h
      rcases h with ⟨-, h⟩ | ⟨u, y, v, hs, hy, hl⟩
      · cases h
      · obtain ⟨ys, hys, h⟩ := itemsFrom_acc.mp hl
        cases h
        exact ⟨u, v, hs, hy, hys⟩
    · intro h
      obtain ⟨u, v, hs, hx, hl⟩ := h
      exact .inr ⟨u, x, v, hs, hx, itemsFrom_acc.mpr ⟨xs, hl, rfl⟩⟩

/-! ## One member -/

theorem valueOf_eq_ok {read : Bytes → Outcome α} {key : String} {s t : Bytes} {x : α} :
    valueOf key read s = .ok (x, t) ↔ ∃ u, colon s = .ok u ∧ read u = .ok (x, t) := by
  rw [valueOf]
  cases colon s with
  | error e => simp
  | ok u => simp [within_eq_ok]

theorem valueOf_related {read : Bytes → Outcome α} {make : Bytes → Outcome β} {R : α → β → Prop}
    (h : ∀ s y t, make s = .ok (y, t) ↔ ∃ x, read s = .ok (x, t) ∧ R x y) {key : String} {s t : Bytes}
    {y : β} : valueOf key make s = .ok (y, t) ↔ ∃ x, valueOf key read s = .ok (x, t) ∧ R x y := by
  simp only [valueOf_eq_ok, h]
  constructor
  · intro h
    obtain ⟨u, hu, x, hx, hy⟩ := h
    exact ⟨x, ⟨u, hu, hx⟩, hy⟩
  · intro h
    obtain ⟨x, ⟨u, hu, hx⟩, hy⟩ := h
    exact ⟨u, hu, x, hx, hy⟩

def collect (read : Bytes → Outcome α) (acc : List (String × α)) (key : String) (s : Bytes) :
    Outcome (List (String × α)) :=
  match valueOf key read s with
  | .error e => .error e
  | .ok (v, t) => .ok ((key, v) :: acc, t)

theorem members_eq {read : Bytes → Outcome α} (fuel : Nat) (s : Bytes) :
    members read fuel s = (membersFrom (collect read) fuel true [] s).map fun r => (r.1.reverse, r.2) := by
  unfold members
  split
  · rename_i e h
    have hc : membersFrom (collect read) fuel true [] s = .error e := h
    rw [hc]
    rfl
  · rename_i acc t h
    have hc : membersFrom (collect read) fuel true [] s = .ok (acc, t) := h
    rw [hc]
    rfl

theorem collect_eq_ok {read : Bytes → Outcome α} {acc l : List (String × α)} {key : String}
    {s t : Bytes} : collect read acc key s = .ok (l, t) ↔
      ∃ x, valueOf key read s = .ok (x, t) ∧ l = (key, x) :: acc := by
  rw [collect]
  cases valueOf key read s with
  | error e => simp
  | ok r =>
    obtain ⟨x, u⟩ := r
    constructor
    · intro h
      cases h
      exact ⟨x, rfl, rfl⟩
    · intro h
      obtain ⟨y, h, rfl⟩ := h
      cases h
      rfl

/-- The list of members ends here, or a member is taken and the rest follows. -/
theorem membersFrom_succ_eq_ok {entry : σ → String → Bytes → Outcome σ} {fuel : Nat} {first : Bool}
    {a c : σ} {s t : Bytes} : membersFrom entry (fuel + 1) first a s = .ok (c, t) ↔
      (nextKey first s = .ok (.closed t) ∧ c = a) ∨
      ∃ u key v b w, nextKey first s = .ok (.more u) ∧ stringTail u = .ok (key, v) ∧
        entry a key v = .ok (b, w) ∧ membersFrom entry fuel false b w = .ok (c, t) := by
  constructor
  · intro h
    rw [membersFrom] at h
    split at h
    · cases h
    · rename_i u hs
      cases h
      exact .inl ⟨within_eq_ok.mp hs, rfl⟩
    · rename_i u hs
      split at h
      · cases h
      · rename_i key v hk
        split at h
        · cases h
        · rename_i b w he
          exact .inr ⟨u, key, v, b, w, within_eq_ok.mp hs, within_eq_ok.mp hk, he, h⟩
  · intro h
    rcases h with ⟨hs, rfl⟩ | ⟨u, key, v, b, w, hs, hk, he, hc⟩
    · simp only [membersFrom, hs, within]
    · simp only [membersFrom, hs, hk, he, hc, within]

/-! ## First bytes -/

theorem scalarOr_eq_string {nested : Bytes → Outcome Json} {s t : Bytes} {x : String}
    (h : ∀ u, nested u ≠ .ok (.string x, t)) : scalarOr nested s = .ok (.string x, t) ↔
      ∃ u, skipBlanks s = 34 :: u ∧ stringTail u = .ok (x, t) := by
  rw [scalarOr]
  cases skipBlanks s with
  | nil => simp [failAt]
  | cons b u =>
    by_cases hb : b = 34
    · subst hb
      simp [map_eq_ok_iff, Text.isDigit]
    · dsimp only
      split_ifs <;> simp [map_eq_ok_iff, h, hb, failAfter]

theorem value_eq_string {fuel depth : Nat} {s t : Bytes} {x : String} :
    value fuel depth s = .ok (.string x, t) ↔
      ∃ u, skipBlanks s = 34 :: u ∧ stringTail u = .ok (x, t) := by
  cases depth with
  | zero => exact scalarOr_eq_string fun u h => by cases h
  | succ depth =>
    apply scalarOr_eq_string
    intro u h
    split at h
    · cases h
    · split_ifs at h <;> simp [map_eq_ok_iff] at h

theorem stringAs_eq_ok {expected : String} {s t : Bytes} {x : String} :
    stringAs expected s = .ok (x, t) ↔ ∃ u, skipBlanks s = 34 :: u ∧ stringTail u = .ok (x, t) := by
  rw [stringAs]
  split
  · rename_i u hs
    simp [hs]
  · rename_i h
    constructor
    · intro hr
      exact absurd hr (refuse_ne_ok _ _ _)
    · intro h
      obtain ⟨u, hu, -⟩ := h
      exact absurd hu (h u)

theorem skipBlanks_skipBlanks (s : Bytes) : skipBlanks (skipBlanks s) = skipBlanks s := by
  induction s with
  | nil => rfl
  | cons b s ih =>
    rw [skipBlanks]
    split
    · exact ih
    · rename_i hb
      rw [skipBlanks, if_neg hb]

theorem opened_eq_ok {b : UInt8} {depth : Nat} {inner : Nat → Bytes → Outcome α}
    {otherwise : Bytes → Outcome α} {s t : Bytes} {x : α} :
    opened b depth inner otherwise s = .ok (x, t) ↔
      (∃ d u, depth = d + 1 ∧ skipBlanks s = b :: u ∧ inner d u = .ok (x, t)) ∨
      ∃ c u, skipBlanks s = c :: u ∧ c ≠ b ∧ otherwise (c :: u) = .ok (x, t) := by
  rw [opened]
  cases skipBlanks s with
  | nil => simp [failAt]
  | cons c u =>
    by_cases hc : c = b
    · subst hc
      cases depth with
      | zero => simp [failAfter]
      | succ d => simp
    · simp only [if_neg hc]
      constructor
      · intro h
        exact .inr ⟨c, u, rfl, hc, h⟩
      · intro h
        rcases h with ⟨d, v, -, hv, -⟩ | ⟨d, v, hv, -, h⟩
        · cases hv
          exact absurd rfl hc
        · cases hv
          exact h

theorem mapOf_eq_ok {fuel depth : Nat} {read : Nat → Bytes → Outcome α} {s t : Bytes}
    {l : List (String × α)} :
    mapOf fuel read (depth + 1) s = .ok (l, t) ↔
      ∃ u, skipBlanks s = 123 :: u ∧ members (read depth) fuel u = .ok (l, t) := by
  rw [mapOf, opened_eq_ok]
  simp [refuse_ne_ok]

end

end Json

end RecordSearch
