import RecordSearch.Proofs.Json.Depth
import RecordSearch.Proofs.Json.Members
import RecordSearch.Proofs.Json.Tokens

/-!
# What values take

A value is read from bytes at the head of the input, and is read from them again
before any others that begin like the rest (`value_local`). An object ends with
its brace, so whatever may follow it (`members_take`).
-/

namespace RecordSearch.Json

section
variable {α : Type}

/-- What is read comes from bytes at the head of the input, and fuel for no more
than these bytes reads it from them again. -/
def Local (read : Nat → Bytes → Outcome α) : Prop :=
  ∀ ⦃fuel s x t⦄, read fuel s = .ok (x, t) → ∃ w, w ≠ [] ∧ s = w ++ t ∧
    ∀ {more u}, w.length ≤ more → BeginAlike t u → read more (w ++ u) = .ok (x, u)

/-! ## Between items and members -/

theorem nextItem_closed_takes {first : Bool} {s t : Bytes} (h : nextItem first s = .ok (.closed t)) :
    ∃ w, w ≠ [] ∧ s = w ++ t ∧ ∀ u, nextItem first (w ++ u) = .ok (.closed u) := by
  unfold nextItem at h
  split at h
  · cases h
  rename_i b s' hs
  obtain ⟨w, rfl, hw⟩ := skipBlanks_takes hs
  split at h
  · rename_i hb
    cases h
    refine ⟨w ++ [b], by simp, by simp, fun u => ?_⟩
    rw [List.append_assoc, List.singleton_append]
    simp only [nextItem, hw, if_pos hb]
  · split at h
    · cases h
    split at h
    · split at h
      · cases h
      · split at h <;> cases h
    · cases h

theorem nextItem_more_takes {first : Bool} {s t : Bytes} (h : nextItem first s = .ok (.more t)) :
    ∃ w, s = w ++ t ∧ ∀ u, BeginAlike t u → nextItem first (w ++ u) = .ok (.more u) := by
  unfold nextItem at h
  split at h
  · cases h
  rename_i b s' hs
  obtain ⟨w, rfl, hw⟩ := skipBlanks_takes hs
  split at h
  · cases h
  rename_i hb
  split at h
  · rename_i hfirst
    cases h
    refine ⟨w, rfl, fun u hu => ?_⟩
    obtain ⟨v, rfl⟩ := hu.eq_cons
    simp only [nextItem, hw, if_neg hb, if_pos hfirst]
  rename_i hfirst
  split at h
  · rename_i hcomma
    split at h
    · cases h
    rename_i c v hv
    obtain ⟨w', rfl, hw'⟩ := skipBlanks_takes hv
    split at h
    · cases h
    rename_i hc
    cases h
    refine ⟨w ++ b :: w', by simp, fun u hu => ?_⟩
    obtain ⟨v, rfl⟩ := hu.eq_cons
    rw [List.append_assoc, List.cons_append]
    simp only [nextItem, hw, hw', if_neg hb, if_neg hfirst, if_pos hcomma, if_neg hc]
  · cases h

theorem nextKey_closed_takes {first : Bool} {s t : Bytes} (h : nextKey first s = .ok (.closed t)) :
    ∃ w, w ≠ [] ∧ s = w ++ t ∧ ∀ u, nextKey first (w ++ u) = .ok (.closed u) := by
  unfold nextKey at h
  split at h
  · cases h
  rename_i b s' hs
  obtain ⟨w, rfl, hw⟩ := skipBlanks_takes hs
  split at h
  · rename_i hb
    cases h
    refine ⟨w ++ [b], by simp, by simp, fun u => ?_⟩
    rw [List.append_assoc, List.singleton_append]
    simp only [nextKey, hw, if_pos hb]
  · split at h
    · split at h <;> cases h
    split at h
    · split at h
      · cases h
      · split at h
        · cases h
        · split at h <;> cases h
    · cases h

theorem nextKey_more_takes {first : Bool} {s t : Bytes} (h : nextKey first s = .ok (.more t)) :
    ∃ w, w ≠ [] ∧ s = w ++ t ∧ ∀ u, nextKey first (w ++ u) = .ok (.more u) := by
  unfold nextKey at h
  split at h
  · cases h
  rename_i b s' hs
  obtain ⟨w, rfl, hw⟩ := skipBlanks_takes hs
  split at h
  · cases h
  rename_i hb
  split at h
  · rename_i hfirst
    split at h
    · rename_i hquote
      cases h
      refine ⟨w ++ [b], by simp, by simp, fun u => ?_⟩
      rw [List.append_assoc, List.singleton_append]
      simp only [nextKey, hw, if_neg hb, if_pos hfirst, if_pos hquote]
    · cases h
  rename_i hfirst
  split at h
  · rename_i hcomma
    split at h
    · cases h
    rename_i c v hv
    obtain ⟨w', rfl, hw'⟩ := skipBlanks_takes hv
    split at h
    · rename_i hquote
      cases h
      refine ⟨w ++ b :: (w' ++ [c]), by simp, by simp, fun u => ?_⟩
      rw [List.append_assoc, List.cons_append, List.append_assoc, List.singleton_append]
      simp only [nextKey, hw, hw', if_neg hb, if_neg hfirst, if_pos hcomma, if_pos hquote]
    · split at h <;> cases h
  · cases h

theorem colon_takes {s t : Bytes} (h : colon s = .ok t) :
    ∃ w, s = w ++ t ∧ ∀ u, colon (w ++ u) = .ok u := by
  unfold colon at h
  split at h
  · cases h
  rename_i b s' hs
  obtain ⟨w, rfl, hw⟩ := skipBlanks_takes hs
  split at h
  · rename_i hb
    cases h
    refine ⟨w ++ [b], by simp, fun u => ?_⟩
    rw [List.append_assoc, List.singleton_append]
    simp only [colon, hw, if_pos hb]
  · cases h

/-! ## Lists of items and members -/

section
variable {read : Nat → Bytes → Outcome α} (hr : Local read)
include hr

theorem itemsFrom_take {fuel count i : Nat} {acc xs : List α} {s t : Bytes}
    (h : itemsFrom (read fuel) count i acc s = .ok (xs, t)) :
    ∃ w, w ≠ [] ∧ s = w ++ t ∧ ∀ {more left u}, w.length ≤ more → w.length ≤ left →
      itemsFrom (read more) left i acc (w ++ u) = .ok (xs, u) := by
  induction count generalizing i acc s with
  | zero => cases h
  | succ count ih =>
    rcases itemsFrom_succ_eq_ok.mp h with ⟨hclosed, rfl⟩ | ⟨r, x, r', hmore, hx, hrest⟩
    · obtain ⟨w, hne, rfl, hw⟩ := nextItem_closed_takes hclosed
      refine ⟨w, hne, rfl, fun {more left u} _ hleft => ?_⟩
      have hpos := List.length_pos_iff.mpr hne
      obtain ⟨left, rfl⟩ : ∃ n, left = n + 1 := ⟨left - 1, by omega⟩
      exact itemsFrom_succ_eq_ok.mpr (.inl ⟨hw u, rfl⟩)
    · obtain ⟨w, rfl, hw⟩ := nextItem_more_takes hmore
      obtain ⟨w', hne', rfl, hw'⟩ := hr hx
      obtain ⟨w'', hne'', rfl, hw''⟩ := ih hrest
      refine ⟨w ++ (w' ++ w''), by simp [hne'], by simp only [List.append_assoc],
        fun {more left u} hmost hleft => ?_⟩
      have hpos := List.length_pos_iff.mpr hne'
      simp only [List.length_append] at hmost hleft
      obtain ⟨left, rfl⟩ : ∃ n, left = n + 1 := ⟨left - 1, by omega⟩
      -- what follows an item begins with the rest of the list, which takes a byte
      have halike : BeginAlike (w'' ++ t) (w'' ++ u) := BeginAlike.of_ne_nil hne''
      simp only [List.append_assoc]
      exact itemsFrom_succ_eq_ok.mpr (.inr ⟨_, x, _, hw _ (halike.append w'), hw' (by omega) halike,
        hw'' (by omega) (by omega)⟩)

theorem items_take {fuel : Nat} {s t : Bytes} {xs : List α} (h : items (read fuel) fuel s = .ok (xs, t)) :
    ∃ w, s = w ++ t ∧ ∀ {more u}, w.length ≤ more → items (read more) more (w ++ u) = .ok (xs, u) := by
  obtain ⟨w, _, hs, hw⟩ := itemsFrom_take hr h
  exact ⟨w, hs, fun hmost => hw hmost hmost⟩

theorem valueOf_takes {fuel : Nat} {key : String} {s t : Bytes} {x : α}
    (h : valueOf key (read fuel) s = .ok (x, t)) : ∃ w, s = w ++ t ∧ ∀ {more u}, w.length ≤ more →
      BeginAlike t u → valueOf key (read more) (w ++ u) = .ok (x, u) := by
  obtain ⟨r, hcolon, hx⟩ := valueOf_eq_ok.mp h
  obtain ⟨w, rfl, hw⟩ := colon_takes hcolon
  obtain ⟨w', _, rfl, hw'⟩ := hr hx
  refine ⟨w ++ w', by simp only [List.append_assoc], fun {more u} hmost hu => ?_⟩
  rw [List.length_append] at hmost
  rw [List.append_assoc]
  exact valueOf_eq_ok.mpr ⟨_, hw _, hw' (by omega) hu⟩

theorem membersFrom_take {fuel count : Nat} {first : Bool} {acc l : List (String × α)} {s t : Bytes}
    (h : membersFrom (collect (read fuel)) count first acc s = .ok (l, t)) :
    ∃ w, w ≠ [] ∧ s = w ++ t ∧ ∀ {more left u}, w.length ≤ more → w.length ≤ left →
      membersFrom (collect (read more)) left first acc (w ++ u) = .ok (l, u) := by
  induction count generalizing first acc s with
  | zero => cases h
  | succ count ih =>
    rcases membersFrom_succ_eq_ok.mp h with ⟨hclosed, rfl⟩ | ⟨r, key, r', b, r'', hmore, hkey, htaken, hrest⟩
    · obtain ⟨w, hne, rfl, hw⟩ := nextKey_closed_takes hclosed
      refine ⟨w, hne, rfl, fun {more left u} _ hleft => ?_⟩
      have hpos := List.length_pos_iff.mpr hne
      obtain ⟨left, rfl⟩ : ∃ n, left = n + 1 := ⟨left - 1, by omega⟩
      exact membersFrom_succ_eq_ok.mpr (.inl ⟨hw u, rfl⟩)
    · obtain ⟨x, hx, rfl⟩ := collect_eq_ok.mp htaken
      obtain ⟨w, hne, rfl, hw⟩ := nextKey_more_takes hmore
      obtain ⟨w₁, rfl, hw₁⟩ := stringTail_takes hkey
      obtain ⟨w₂, rfl, hw₂⟩ := valueOf_takes hr hx
      obtain ⟨w₃, hne₃, rfl, hw₃⟩ := ih hrest
      refine ⟨w ++ (w₁ ++ (w₂ ++ w₃)), by simp [hne], by simp only [List.append_assoc],
        fun {more left u} hmost hleft => ?_⟩
      have hpos := List.length_pos_iff.mpr hne
      simp only [List.length_append] at hmost hleft
      obtain ⟨left, rfl⟩ : ∃ n, left = n + 1 := ⟨left - 1, by omega⟩
      simp only [List.append_assoc]
      exact membersFrom_succ_eq_ok.mpr (.inr ⟨_, key, _, _, _, hw _, hw₁ _,
        collect_eq_ok.mpr ⟨x, hw₂ (by omega) (BeginAlike.of_ne_nil hne₃), rfl⟩, hw₃ (by omega) (by omega)⟩)

theorem members_take {fuel : Nat} {s t : Bytes} {l : List (String × α)}
    (h : members (read fuel) fuel s = .ok (l, t)) : ∃ w, s = w ++ t ∧ ∀ {more u}, w.length ≤ more →
      members (read more) more (w ++ u) = .ok (l, u) := by
  obtain ⟨w, _, hs, hw⟩ := membersFrom_take hr (members_eq_ok.mp h)
  exact ⟨w, hs, fun hmost => members_eq_ok.mpr (hw hmost hmost)⟩

end

end

/-! ## Values -/

/-- What is read from a first byte on takes that byte, and what stands before it. -/
theorem taken_with_head {α : Type} (branch : Nat → Bytes → Outcome α) {read : Nat → Bytes → Outcome α}
    {b : UInt8} {w r t : Bytes} {x : α} (hread : ∀ fuel u, read fuel (w ++ b :: u) = branch fuel u)
    (hbranch : ∃ w', r = w' ++ t ∧
      ∀ {more u}, w'.length < more → BeginAlike t u → branch more (w' ++ u) = .ok (x, u)) :
    ∃ v, v ≠ [] ∧ w ++ b :: r = v ++ t ∧
      ∀ {more u}, v.length ≤ more → BeginAlike t u → read more (v ++ u) = .ok (x, u) := by
  obtain ⟨w', rfl, hw'⟩ := hbranch
  refine ⟨w ++ b :: w', by simp, by simp, fun {more u} hmost hu => ?_⟩
  rw [List.length_append, List.length_cons] at hmost
  rw [List.append_assoc, List.cons_append, hread]
  exact hw' (by omega) hu

theorem map_word_takes {cs : List Char} {v x : Json} {s t : Bytes}
    (h : ((word cs s).map fun u => (x, u)) = .ok (v, t)) :
    ∃ w, s = w ++ t ∧ ∀ u, ((word cs (w ++ u)).map fun u => (x, u)) = .ok (v, u) := by
  obtain ⟨u, hword, he⟩ := map_eq_ok h
  cases he
  obtain ⟨w, rfl, hw⟩ := word_takes hword
  refine ⟨w, rfl, fun u => ?_⟩
  rw [hw]
  rfl

theorem scalarOr_takes {nested : Nat → Bytes → Outcome Json} (hn : Local nested) (fuel : Nat) {s t : Bytes}
    {v : Json} (h : scalarOr (nested fuel) s = .ok (v, t)) : ∃ w, w ≠ [] ∧ s = w ++ t ∧
      ∀ {more u}, w.length ≤ more → BeginAlike t u → scalarOr (nested more) (w ++ u) = .ok (v, u) := by
  unfold scalarOr at h
  split at h
  · cases h
  rename_i b r hs
  obtain ⟨w, rfl, hw⟩ := skipBlanks_takes hs
  split at h
  · rename_i hnull
    obtain ⟨w', hr, hw'⟩ := map_word_takes h
    exact taken_with_head (fun _ u => (word ['u', 'l', 'l'] u).map fun u => (.null, u))
      (fun _ u => by simp only [scalarOr, hw, if_pos hnull]) ⟨w', hr, fun _ _ => hw' _⟩
  rename_i hnull
  split at h
  · rename_i htrue
    obtain ⟨w', hr, hw'⟩ := map_word_takes h
    exact taken_with_head (fun _ u => (word ['r', 'u', 'e'] u).map fun u => (.bool true, u))
      (fun _ u => by simp only [scalarOr, hw, if_neg hnull, if_pos htrue]) ⟨w', hr, fun _ _ => hw' _⟩
  rename_i htrue
  split at h
  · rename_i hfalse
    obtain ⟨w', hr, hw'⟩ := map_word_takes h
    exact taken_with_head (fun _ u => (word ['a', 'l', 's', 'e'] u).map fun u => (.bool false, u))
      (fun _ u => by simp only [scalarOr, hw, if_neg hnull, if_neg htrue, if_pos hfalse])
      ⟨w', hr, fun _ _ => hw' _⟩
  rename_i hfalse
  split at h
  · rename_i hminus
    obtain ⟨n, hnumber, rfl⟩ := changed_eq_ok.mp h
    obtain ⟨c, w', rfl, hw'⟩ := numeral_takes hnumber
    exact taken_with_head (fun _ u => (numeral true u).map fun r => (.number r.1, r.2))
      (fun _ u => by simp only [scalarOr, hw, if_neg hnull, if_neg htrue, if_neg hfalse, if_pos hminus])
      ⟨c :: w', rfl, fun _ hu => changed_eq_ok.mpr ⟨n, hw' _ hu, rfl⟩⟩
  rename_i hminus
  split at h
  · rename_i hdigit
    obtain ⟨n, hnumber, rfl⟩ := changed_eq_ok.mp h
    obtain ⟨c, w', hr, hw'⟩ := numeral_takes hnumber
    cases hr
    exact taken_with_head (fun _ u => (numeral false (b :: u)).map fun r => (.number r.1, r.2))
      (fun _ u => by simp only [scalarOr, hw, if_neg hnull, if_neg htrue, if_neg hfalse, if_neg hminus,
        if_pos hdigit])
      ⟨w', rfl, fun _ hu => changed_eq_ok.mpr ⟨n, hw' _ hu, rfl⟩⟩
  rename_i hdigit
  split at h
  · rename_i hquote
    obtain ⟨text, htext, rfl⟩ := changed_eq_ok.mp h
    obtain ⟨w', rfl, hw'⟩ := stringTail_takes htext
    exact taken_with_head (fun _ u => (stringTail u).map fun r => (.string r.1, r.2))
      (fun _ u => by simp only [scalarOr, hw, if_neg hnull, if_neg htrue, if_neg hfalse, if_neg hminus,
        if_neg hdigit, if_pos hquote])
      ⟨w', rfl, fun _ _ => changed_eq_ok.mpr ⟨text, hw' _, rfl⟩⟩
  rename_i hquote
  split at h
  · rename_i hopen
    obtain ⟨w', hne, hr, hw'⟩ := hn h
    cases w' with
    | nil => exact absurd rfl hne
    | cons c w' =>
      cases hr
      exact taken_with_head (fun fuel u => nested fuel (b :: u))
        (fun _ u => by simp only [scalarOr, hw, if_neg hnull, if_neg htrue, if_neg hfalse, if_neg hminus,
          if_neg hdigit, if_neg hquote, if_pos hopen])
        ⟨w', rfl, fun hmost hu => hw' hmost hu⟩
  · cases h

/-- Reads an array or an object from its bracket on. -/
def nestedFrom (read : Nat → Bytes → Outcome Json) (fuel : Nat) : Bytes → Outcome Json
  | [] => failAt .endInValue []
  | b :: t =>
    if b = 91 then (items (read fuel) fuel t).map fun r => (.array r.1, r.2)
    else (members (read fuel) fuel t).map fun r => (.object r.1, r.2)

theorem nestedFrom_local {read : Nat → Bytes → Outcome Json} (hr : Local read) : Local (nestedFrom read) := by
  intro fuel s v t h
  unfold nestedFrom at h
  split at h
  · cases h
  rename_i b r
  split at h
  · rename_i hb
    obtain ⟨xs, hxs, rfl⟩ := changed_eq_ok.mp h
    obtain ⟨w, rfl, hw⟩ := items_take hr hxs
    refine ⟨b :: w, List.cons_ne_nil _ _, rfl, fun {more u} hmost _ => ?_⟩
    rw [List.length_cons] at hmost
    rw [List.cons_append, nestedFrom, if_pos hb]
    exact changed_eq_ok.mpr ⟨xs, hw (by omega), rfl⟩
  · rename_i hb
    obtain ⟨l, hl, rfl⟩ := changed_eq_ok.mp h
    obtain ⟨w, rfl, hw⟩ := members_take hr hl
    refine ⟨b :: w, List.cons_ne_nil _ _, rfl, fun {more u} hmost _ => ?_⟩
    rw [List.length_cons] at hmost
    rw [List.cons_append, nestedFrom, if_neg hb]
    exact changed_eq_ok.mpr ⟨l, hw (by omega), rfl⟩

theorem value_succ (fuel depth : Nat) :
    value fuel (depth + 1) = scalarOr (nestedFrom (fun fuel => value fuel depth) fuel) := rfl

theorem value_local (depth : Nat) : Local fun fuel => value fuel depth := by
  induction depth with
  | zero =>
    have hnone : Local fun _ s => (failAfter .tooDeep s : Outcome Json) := by
      intro fuel s v t h
      cases h
    intro fuel s v t h
    exact scalarOr_takes hnone fuel h
  | succ depth ih =>
    intro fuel s v t h
    simp only [value_succ] at h ⊢
    exact scalarOr_takes (nestedFrom_local ih) fuel h

end RecordSearch.Json
