import Mathlib.Data.Finset.Card
import RecordSearch.Proofs.Fields.Merge

/-!
# Collections that agree

A collection has as many values as there are distinct names. Two collections
agree if they look up alike, in whatever order their names stand.
-/

namespace RecordSearch.Fields

variable {α : Type}

/-! ## Sizes -/

theorem size_eq_card (f : Fields α) : f.size = f.names.toFinset.card := by
  have hn : f.names.Nodup := f.nodup
  rw [List.toFinset_card_of_nodup hn, names, List.length_map, size]

theorem size_ofList (l : List (String × α)) : (ofList l).size = (l.map Prod.fst).toFinset.card := by
  rw [size_eq_card, names_ofList]
  congr 1
  ext name
  simp

/-! ## Agreement -/

theorem mem_names {f : Fields α} {name : String} : name ∈ f.names ↔ ∃ v, f.get? name = some v := by
  simp only [names, List.mem_map, Prod.exists, mem_entries]
  constructor
  · intro h
    obtain ⟨_, v, hv, rfl⟩ := h
    exact ⟨v, hv⟩
  · intro h
    obtain ⟨v, hv⟩ := h
    exact ⟨name, v, hv, rfl⟩

theorem agree_iff {same : α → α → Bool} {f g : Fields α} : f.agree same g = true ↔
    f.size = g.size ∧ ∀ name v, f.get? name = some v → ∃ w, g.get? name = some w ∧ same v w = true := by
  simp only [agree, Bool.and_eq_true, beq_iff_eq, List.all_eq_true, Prod.forall, mem_entries]
  apply and_congr_right
  intro _
  refine forall_congr' fun name => forall_congr' fun v => imp_congr_right fun _ => ?_
  cases g.get? name with
  | none => simp
  | some w => simp

theorem names_of_agree {same : α → α → Bool} {f g : Fields α} (h : f.agree same g = true) (name : String) :
    name ∈ f.names ↔ name ∈ g.names := by
  obtain ⟨hsize, hvalue⟩ := agree_iff.mp h
  have hsub : f.names.toFinset ⊆ g.names.toFinset := by
    intro n hn
    obtain ⟨v, hv⟩ := mem_names.mp (List.mem_toFinset.mp hn)
    obtain ⟨w, hw, _⟩ := hvalue n v hv
    exact List.mem_toFinset.mpr (mem_names.mpr ⟨w, hw⟩)
  -- as many names on both sides, so none is left over in the second collection
  rw [size_eq_card, size_eq_card] at hsize
  have hnames := Finset.eq_of_subset_of_card_le hsub (Nat.le_of_eq hsize.symm)
  rw [← List.mem_toFinset, hnames, List.mem_toFinset]

/-- Every name has values that are the same, or no value on either side. -/
theorem agree_iff_rel {same : α → α → Bool} {f g : Fields α} : f.agree same g = true ↔
    ∀ name, Option.Rel (fun v w => same v w = true) (f.get? name) (g.get? name) := by
  constructor
  · intro h name
    cases hf : f.get? name with
    | none =>
      cases hg : g.get? name with
      | none => exact .none
      | some w =>
        obtain ⟨v, hv⟩ := mem_names.mp ((names_of_agree h name).mpr (mem_names.mpr ⟨w, hg⟩))
        rw [hf] at hv
        cases hv
    | some v =>
      obtain ⟨w, hw, hsame⟩ := (agree_iff.mp h).2 name v hf
      rw [hw]
      exact .some hsame
  · intro h
    have hnames : f.names.toFinset = g.names.toFinset := by
      ext name
      have hrel := h name
      rw [List.mem_toFinset, List.mem_toFinset, mem_names, mem_names]
      generalize f.get? name = x at hrel ⊢
      generalize g.get? name = y at hrel ⊢
      cases hrel <;> simp
    refine agree_iff.mpr ⟨?_, ?_⟩
    · rw [size_eq_card, size_eq_card, hnames]
    · intro name v hv
      have hrel := h name
      rw [hv] at hrel
      generalize g.get? name = y at hrel ⊢
      cases hrel with
      | some hsame => exact ⟨_, rfl, hsame⟩

theorem agree_of_get? {same : α → α → Bool} (hsame : ∀ v, same v v = true) {f g : Fields α}
    (h : ∀ name, f.get? name = g.get? name) : f.agree same g = true := by
  apply agree_iff_rel.mpr
  intro name
  rw [← h name]
  cases f.get? name with
  | none => exact .none
  | some v => exact .some (hsame v)

theorem get?_ofList_reverse (f : Fields α) (name : String) :
    (ofList f.entries.reverse).get? name = f.get? name := by
  rw [get?_ofList, lastValue?, List.reverse_reverse, get?]

end RecordSearch.Fields
