import RecordSearch.Json

/-!
# Settled values

Settling sorts the members of an object, keeps one value for each name and does
so within the values too. A settled value is left as it is by settling again, and
settling never nests deeper.
-/

namespace RecordSearch.Json

/-! ## Sorted members -/

def Rising (l : List (String × Json)) : Prop := l.Pairwise fun p q => p.1 < q.1

theorem mem_addMember {name : String} {v : Json} {p : String × Json} : ∀ {l : List (String × Json)},
    p ∈ addMember name v l → p = (name, v) ∨ p ∈ l
  | [], h => .inl (List.mem_singleton.mp h)
  | (n, w) :: l, h => by
    rw [addMember] at h
    split at h
    · exact List.mem_cons.mp h
    split at h
    · exact .inr h
    · rcases List.mem_cons.mp h with rfl | h
      · exact .inr (List.mem_cons_self ..)
      · exact (mem_addMember h).imp_right (List.mem_cons_of_mem _)

theorem rising_addMember {name : String} {v : Json} : ∀ {l : List (String × Json)}, Rising l →
    Rising (addMember name v l)
  | [], _ => List.pairwise_singleton ..
  | (n, w) :: l, h => by
    obtain ⟨hn, hl⟩ := List.pairwise_cons.mp h
    rw [addMember]
    split
    · rename_i hlt
      refine List.pairwise_cons.mpr ⟨fun p hp => ?_, h⟩
      rcases List.mem_cons.mp hp with rfl | hp
      · exact hlt
      · exact String.lt_trans hlt (hn p hp)
    split
    · exact h
    · rename_i hlt hne
      have hgt : n < name := by
        rcases Decidable.em (n < name) with hgt | hgt
        · exact hgt
        · exact absurd (String.le_antisymm (String.not_lt.mp hgt) (String.not_lt.mp hlt)) hne
      refine List.pairwise_cons.mpr ⟨fun p hp => ?_, rising_addMember hl⟩
      rcases mem_addMember hp with rfl | hp
      · exact hgt
      · exact hn p hp

theorem rising_settleMembers : ∀ l : List (String × Json), Rising (settleMembers l)
  | [] => List.Pairwise.nil
  | (name, v) :: l => by
    rw [settleMembers]
    exact rising_addMember (rising_settleMembers l)

theorem addMember_of_lt {name : String} {v : Json} {l : List (String × Json)}
    (h : ∀ p ∈ l, name < p.1) : addMember name v l = (name, v) :: l := by
  cases l with
  | nil => rfl
  | cons p l => rw [addMember, if_pos (h p (List.mem_cons_self ..))]

/-! ## Settling again -/

theorem settleMembers_of_rising : ∀ {l : List (String × Json)}, Rising l →
    (∀ p ∈ l, settle p.2 = p.2) → settleMembers l = l
  | [], _, _ => by rw [settleMembers]
  | (name, v) :: l, h, hs => by
    obtain ⟨hn, hl⟩ := List.pairwise_cons.mp h
    have hv : settle v = v := hs _ (List.mem_cons_self ..)
    rw [settleMembers, settleMembers_of_rising hl fun p hp => hs p (List.mem_cons_of_mem _ hp), hv]
    exact addMember_of_lt hn

mutual

theorem settle_settle : ∀ v : Json, v.settle.settle = v.settle
  | .null => rfl
  | .bool _ => rfl
  | .number _ => rfl
  | .string _ => rfl
  | .array items => by rw [settle, settle, settleItems_settleItems items]
  | .object l => by
    rw [settle, settle, settleMembers_of_rising (rising_settleMembers l) (settle_members l)]

theorem settleItems_settleItems : ∀ items : List Json,
    settleItems (settleItems items) = settleItems items
  | [] => rfl
  | v :: rest => by rw [settleItems, settleItems, settle_settle v, settleItems_settleItems rest]

theorem settle_members : ∀ (l : List (String × Json)), ∀ p ∈ settleMembers l, settle p.2 = p.2
  | [], p, h => by
    rw [settleMembers] at h
    cases h
  | (name, v) :: rest, p, h => by
    rw [settleMembers] at h
    rcases mem_addMember h with rfl | h
    · exact settle_settle v
    · exact settle_members rest p h

end

/-! ## Depth -/

theorem depthMembers_addMember (name : String) (v : Json) : ∀ l : List (String × Json),
    depthMembers (addMember name v l) ≤ max v.depth (depthMembers l)
  | [] => Nat.le_refl (max v.depth 0)
  | (n, w) :: l => by
    have ih := depthMembers_addMember name v l
    rw [addMember]
    split
    · exact Nat.le_refl (max v.depth (depthMembers ((n, w) :: l)))
    split
    · exact Nat.le_max_right ..
    · rw [depthMembers, depthMembers]
      omega

mutual

theorem depth_settle : ∀ v : Json, v.settle.depth ≤ v.depth
  | .null => Nat.le_refl _
  | .bool _ => Nat.le_refl _
  | .number _ => Nat.le_refl _
  | .string _ => Nat.le_refl _
  | .array items => by
    rw [settle, depth, depth]
    exact Nat.succ_le_succ (depthItems_settleItems items)
  | .object l => by
    rw [settle, depth, depth]
    exact Nat.succ_le_succ (depthMembers_settleMembers l)

theorem depthItems_settleItems : ∀ items : List Json, depthItems (settleItems items) ≤ depthItems items
  | [] => Nat.le_refl _
  | v :: rest => by
    have hv := depth_settle v
    have hrest := depthItems_settleItems rest
    rw [settleItems, depthItems, depthItems]
    omega

theorem depthMembers_settleMembers : ∀ l : List (String × Json),
    depthMembers (settleMembers l) ≤ depthMembers l
  | [] => Nat.le_refl _
  | (name, v) :: rest => by
    have hv := depth_settle v
    have hrest := depthMembers_settleMembers rest
    have hadd := depthMembers_addMember name v.settle (settleMembers rest)
    rw [settleMembers, depthMembers]
    omega

end

end RecordSearch.Json
