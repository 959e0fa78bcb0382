import RecordSearch.Proofs.Json.Outcomes

/-!
# The depth of what is read

`depth_le_of_value`: a value that is read opens no more arrays and objects within
one another than the reader allows.
-/

namespace RecordSearch.Json

section
variable {α : Type} {read : Bytes → Outcome α} {P : α → Prop}

/-! ## Lists keep what their readers promise -/

theorem itemsFrom_all (hp : ∀ s x t, read s = .ok (x, t) → P x) {fuel i : Nat} {acc xs : List α}
    {s t : Bytes} (ha : ∀ x ∈ acc, P x) (h : itemsFrom read fuel i acc s = .ok (xs, t)) :
    ∀ x ∈ xs, P x := by
  induction fuel generalizing i acc s with
  | zero => cases h
  | succ fuel ih =>
    rcases itemsFrom_succ_eq_ok.mp h with ⟨-, rfl⟩ | ⟨u, x, v, -, hx, hl⟩
    · exact fun y hy => ha y (List.mem_reverse.mp hy)
    · exact ih (List.forall_mem_cons.mpr ⟨hp _ _ _ hx, ha⟩) hl

theorem items_all (hp : ∀ s x t, read s = .ok (x, t) → P x) {fuel : Nat} {s t : Bytes} {xs : List α}
    (h : items read fuel s = .ok (xs, t)) : ∀ x ∈ xs, P x :=
  itemsFrom_all hp (fun _ hx => by cases hx) h

theorem membersFrom_all (hp : ∀ s x t, read s = .ok (x, t) → P x) {fuel : Nat} {first : Bool}
    {acc l : List (String × α)} {s t : Bytes} (ha : ∀ p ∈ acc, P p.2)
    (h : membersFrom (collect read) fuel first acc s = .ok (l, t)) : ∀ p ∈ l, P p.2 := by
  induction fuel generalizing first acc s with
  | zero => cases h
  | succ fuel ih =>
    rcases membersFrom_succ_eq_ok.mp h with ⟨-, rfl⟩ | ⟨u, key, v, b, w, -, -, hc, hl⟩
    · exact ha
    · obtain ⟨x, hx, rfl⟩ := collect_eq_ok.mp hc
      obtain ⟨y, -, hy⟩ := valueOf_eq_ok.mp hx
      exact ih (List.forall_mem_cons.mpr ⟨hp _ _ _ hy, ha⟩) hl

theorem members_all (hp : ∀ s x t, read s = .ok (x, t) → P x) {fuel : Nat} {s t : Bytes}
    {l : List (String × α)} (h : members read fuel s = .ok (l, t)) : ∀ p ∈ l, P p.2 := by
  rw [members_eq] at h
  obtain ⟨m, hm, rfl⟩ := changed_eq_ok.mp h
  intro p hmem
  exact membersFrom_all hp (fun _ hx => by cases hx) hm p (List.mem_reverse.mp hmem)

end

/-! ## Values -/

theorem depth_map {α : Type} {r : Except Failure α} {f : α → Json × Bytes} {v : Json} {t : Bytes}
    (hf : ∀ x, (f x).1.depth = 0) (h : r.map f = .ok (v, t)) : v.depth = 0 := by
  obtain ⟨x, -, hx⟩ := map_eq_ok h
  have := hf x
  rwa [hx] at this

/-- A value is no array or object, or it was read as one from its bracket on. -/
theorem scalarOr_ok {nested : Bytes → Outcome Json} {s t : Bytes} {v : Json}
    (h : scalarOr nested s = .ok (v, t)) : v.depth = 0 ∨
      ∃ b u, skipBlanks s = b :: u ∧ (b = 91 ∨ b = 123) ∧ nested (b :: u) = .ok (v, t) := by
  unfold scalarOr at h
  split at h
  · cases h
  rename_i b u hs
  split at h
  · exact .inl (depth_map (fun _ => rfl) h)
  split at h
  · exact .inl (depth_map (fun _ => rfl) h)
  split at h
  · exact .inl (depth_map (fun _ => rfl) h)
  split at h
  · exact .inl (depth_map (fun _ => rfl) h)
  split at h
  · exact .inl (depth_map (fun _ => rfl) h)
  split at h
  · exact .inl (depth_map (fun _ => rfl) h)
  split at h
  · rename_i hb
    exact .inr ⟨b, u, hs, by simpa using hb, h⟩
  · cases h

theorem depthItems_le_iff {d : Nat} {items : List Json} :
    depthItems items ≤ d ↔ ∀ v ∈ items, v.depth ≤ d := by
  induction items with
  | nil => simp [depthItems]
  | cons v rest ih => rw [depthItems, Nat.max_le, ih, List.forall_mem_cons]

theorem depthMembers_le_iff {d : Nat} {l : List (String × Json)} :
    depthMembers l ≤ d ↔ ∀ p ∈ l, p.2.depth ≤ d := by
  induction l with
  | nil => simp [depthMembers]
  | cons p rest ih =>
    obtain ⟨name, v⟩ := p
    rw [depthMembers, Nat.max_le, ih, List.forall_mem_cons]

/-! ## Values that nest -/

/-- A value that nests is an array or an object, read from its bracket on. -/
theorem value_nested {fuel depth : Nat} {s t : Bytes} {v : Json} (hv : 0 < v.depth) :
    value fuel (depth + 1) s = .ok (v, t) ↔
      (∃ u xs, skipBlanks s = 91 :: u ∧ items (value fuel depth) fuel u = .ok (xs, t) ∧ .array xs = v) ∨
      ∃ u l, skipBlanks s = 123 :: u ∧ members (value fuel depth) fuel u = .ok (l, t) ∧ .object l = v := by
  constructor
  · intro h
    rcases scalarOr_ok h with hzero | ⟨b, u, hs, rfl | rfl, hu⟩
    · omega
    · obtain ⟨xs, hxs, rfl⟩ := changed_eq_ok.mp hu
      exact .inl ⟨u, xs, hs, hxs, rfl⟩
    · obtain ⟨l, hl, rfl⟩ := changed_eq_ok.mp hu
      exact .inr ⟨u, l, hs, hl, rfl⟩
  · intro h
    rw [value, scalarOr]
    rcases h with ⟨u, xs, hs, hu, rfl⟩ | ⟨u, l, hs, hu, rfl⟩
    · simp [hs, hu, Text.isDigit, Except.map]
    · simp [hs, hu, Text.isDigit, Except.map]

theorem depth_le_of_value (fuel depth : Nat) {s t : Bytes} {v : Json}
    (h : value fuel depth s = .ok (v, t)) : v.depth ≤ depth := by
  induction depth generalizing s t v with
  | zero =>
    rcases scalarOr_ok h with hv | ⟨b, u, -, -, hu⟩
    · omega
    · cases hu
  | succ depth ih =>
    rcases Nat.eq_zero_or_pos v.depth with hv | hv
    · omega
    · rcases (value_nested hv).mp h with ⟨u, xs, -, hxs, rfl⟩ | ⟨u, l, -, hl, rfl⟩
      · rw [Json.depth, Nat.add_le_add_iff_right, depthItems_le_iff]
        exact items_all (fun _ _ _ hx => ih hx) hxs
      · rw [Json.depth, Nat.add_le_add_iff_right, depthMembers_le_iff]
        exact members_all (fun _ _ _ hx => ih hx) hl

theorem value_eq_array {fuel depth : Nat} {s t : Bytes} {xs : List Json} :
    value fuel (depth + 1) s = .ok (.array xs, t) ↔
      ∃ u, skipBlanks s = 91 :: u ∧ items (value fuel depth) fuel u = .ok (xs, t) := by
  rw [value_nested (by simp [Json.depth])]
  simp

theorem value_eq_object {fuel depth : Nat} {s t : Bytes} {l : List (String × Json)} :
    value fuel (depth + 1) s = .ok (.object l, t) ↔
      ∃ u, skipBlanks s = 123 :: u ∧ members (value fuel depth) fuel u = .ok (l, t) := by
  rw [value_nested (by simp [Json.depth])]
  simp

theorem parse_eq_object {s : Bytes} {l : List (String × Json)} :
    parse s = .ok (.object l) ↔ ∃ u t, skipBlanks s = 123 :: u ∧
      members (value (fuelFor s) 126) (fuelFor s) u = .ok (l, t) ∧ skipBlanks t = [] := by
  rw [parse, complete_eq_ok]
  constructor
  · intro h
    obtain ⟨t, h, ht⟩ := h
    obtain ⟨u, hs, hu⟩ := value_eq_object.mp h
    exact ⟨u, t, hs, hu, ht⟩
  · intro h
    obtain ⟨u, t, hs, hu, ht⟩ := h
    exact ⟨t, value_eq_object.mpr ⟨u, hs, hu⟩, ht⟩

end RecordSearch.Json
