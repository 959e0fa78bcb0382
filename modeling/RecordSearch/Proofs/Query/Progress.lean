import Mathlib.Data.Nat.Find
import RecordSearch.Proofs.Fields.Agreement
import RecordSearch.Proofs.Query.Meaning

/-!
# The scan makes progress

A scan goes in turns: each takes the first match at or after the place where the
turn before it ended. A match has a name, a colon and a value, so a turn takes
three characters at least, and there are at most a third as many turns as
characters: `scan_progresses`.
-/

namespace RecordSearch.Query

variable {q : List Char}

/-! ## Turns -/

/-- One turn from place `i`: the first match at or after it. -/
structure Turn (q : List Char) (i : Nat) (f : Fragment) : Prop where
  after : i ≤ f.start
  first : ∀ k, i ≤ k → k < f.start → ¬ SomeAt q k
  taken : TakenAt q f.start f.stop f.field f.constraint

/-- Turns one after another, from place `i` to place `j`. -/
inductive Turns (q : List Char) : Nat → List Fragment → Nat → Prop
  | stay {i : Nat} : Turns q i [] i
  | turn {i j : Nat} {f : Fragment} {fs : List Fragment} : Turn q i f → Turns q f.stop fs j →
      Turns q i (f :: fs) j

theorem Turns.advance {i j : Nat} {fs : List Fragment} (h : Turns q i fs j) :
    i + 3 * fs.length ≤ j ∧ (i ≤ q.length → j ≤ q.length) := by
  induction h with
  | stay => exact ⟨Nat.le_refl _, id⟩
  | turn ht _ ih =>
    have hafter := ht.after
    obtain ⟨hstop, hlength⟩ := ht.taken.length_le
    obtain ⟨hrest, hend⟩ := ih
    rw [List.length_cons]
    exact ⟨by omega, fun _ => hend hlength⟩

theorem Turns.starts {i j : Nat} {fs : List Fragment} (h : Turns q i fs j) :
    ∀ f ∈ fs, i ≤ f.start ∧ f.start + 3 ≤ f.stop ∧ f.stop ≤ q.length := by
  induction h with
  | stay => exact List.forall_mem_nil _
  | turn ht _ ih =>
    have hafter := ht.after
    have hlength := ht.taken.length_le
    refine List.forall_mem_cons.mpr ⟨⟨hafter, hlength⟩, fun g hg => ?_⟩
    obtain ⟨hstart, hstop⟩ := ih g hg
    exact ⟨by omega, hstop⟩

theorem Turns.disjoint {i j : Nat} {fs : List Fragment} (h : Turns q i fs j) :
    fs.Pairwise fun f g => f.stop ≤ g.start := by
  induction h with
  | stay => exact List.Pairwise.nil
  | turn _ hrest ih => exact List.pairwise_cons.mpr ⟨fun g hg => (hrest.starts g hg).1, ih⟩

/-! ## The turns of a scan -/

theorem Turn.scanFrom_eq {i : Nat} {f : Fragment} (h : Turn q i f) :
    scanFrom i (q.drop i) = f :: scanFrom f.stop (q.drop f.stop) := by
  rw [scanFrom_drop_skip h.after h.first, scanFrom_drop_some h.taken]

theorem Turns.scanFrom_eq {i j : Nat} {fs : List Fragment} (h : Turns q i fs j) :
    scanFrom i (q.drop i) = fs ++ scanFrom j (q.drop j) := by
  induction h with
  | stay => rfl
  | turn ht _ ih => rw [ht.scanFrom_eq, ih, List.cons_append]

theorem exists_turn {i : Nat} (h : ∃ k, i ≤ k ∧ SomeAt q k) : ∃ f, Turn q i f := by
  classical
  obtain ⟨hik, hk⟩ := Nat.find_spec h
  obtain ⟨j, field, c, ht⟩ := hk.taken
  refine ⟨⟨Nat.find h, j, field, c⟩, hik, ?_, ht⟩
  intro k h1 h2 hsome
  exact Nat.find_min h h2 ⟨h1, hsome⟩

/-- A scan takes turns until nothing matches any more. -/
theorem turns_scanFrom (q : List Char) (i : Nat) :
    ∃ j, Turns q i (scanFrom i (q.drop i)) j ∧ ∀ k, j ≤ k → ¬ SomeAt q k := by
  by_cases h : ∃ k, i ≤ k ∧ SomeAt q k
  · obtain ⟨f, ht⟩ := exists_turn h
    have hafter := ht.after
    have hlength := ht.taken.length_le
    obtain ⟨j, hturns, hend⟩ := turns_scanFrom q f.stop
    rw [ht.scanFrom_eq]
    exact ⟨j, .turn ht hturns, hend⟩
  · have hnone : ∀ k, i ≤ k → ¬ SomeAt q k := fun k h1 hsome => h ⟨k, h1, hsome⟩
    rw [scanFrom_drop_end hnone]
    exact ⟨i, .stay, hnone⟩
termination_by q.length - i
decreasing_by omega

/-! ## The main statement -/

/-- The byte before which the first `n` characters of a text stand. -/
def offset (text : String) (n : Nat) : String.Pos.Raw := (String.ofList (text.toList.take n)).rawEndPos

theorem offset_isValid (text : String) (n : Nat) : (offset text n).IsValid text := by
  refine String.Pos.Raw.isValid_iff_exists_append.mpr
    ⟨String.ofList (text.toList.take n), String.ofList (text.toList.drop n), ?_, rfl⟩
  rw [← String.ofList_append, List.take_append_drop, String.ofList_toList]

theorem size_parse_le (query : String) : (parse query).size ≤ (scan query.toList).length := by
  rw [parse, Fields.size_ofList]
  refine Nat.le_trans (List.toFinset_card_le _) ?_
  rw [List.length_map, List.length_map]

/-- Any turns are the first ones of the scan, which ends with a place after which nothing
matches. Its matches lie apart, in order and within the query, and have three characters or
more; so there are at most a third as many as characters, and no more filters than matches. -/
theorem scan_progresses (query : String) :
    (∀ fs j, Turns query.toList 0 fs j →
      fs <+: scan query.toList ∧ 3 * fs.length ≤ j ∧ j ≤ query.length) ∧
    (∃ j, Turns query.toList 0 (scan query.toList) j ∧ ∀ k, j ≤ k → ¬ SomeAt query.toList k) ∧
    (∀ f ∈ scan query.toList, f.start + 3 ≤ f.stop ∧ f.stop ≤ query.length ∧
      (offset query f.stop).IsValid query) ∧
    (scan query.toList).Pairwise (fun f g => f.stop ≤ g.start) ∧
    (scan query.toList).length ≤ query.length / 3 ∧
    (parse query).size ≤ (scan query.toList).length := by
  have hlength : query.toList.length = query.length := String.length_toList
  obtain ⟨j, hturns, hend⟩ := turns_scanFrom query.toList 0
  rw [List.drop_zero] at hturns
  change Turns query.toList 0 (scan query.toList) j at hturns
  obtain ⟨hadvance, hwithin⟩ := hturns.advance
  refine ⟨?_, ⟨j, hturns, hend⟩, ?_, hturns.disjoint, ?_, size_parse_le query⟩
  · intro fs k h
    obtain ⟨hk, hle⟩ := h.advance
    have heq := h.scanFrom_eq
    rw [List.drop_zero] at heq
    exact ⟨⟨_, heq.symm⟩, by omega, hlength ▸ hle (Nat.zero_le _)⟩
  · intro f hf
    obtain ⟨-, hthree, hstop⟩ := hturns.starts f hf
    exact ⟨hthree, hlength ▸ hstop, offset_isValid query f.stop⟩
  · have hle := hwithin (Nat.zero_le _)
    omega

end RecordSearch.Query
