import Mathlib.Data.List.TakeWhile
import RecordSearch.Text.Split

/-!
# Runs

A run is a stretch of elements of one class. It is maximal if what follows it
stops: it is empty or begins outside the class.
-/

namespace RecordSearch.Text

variable {α : Type} {p q : α → Bool}

/-- Empty, or begins outside the class. -/
def Stops (p : α → Bool) (rest : List α) : Prop := ∀ c, rest.head? = some c → p c = false

theorem stops_nil : Stops p [] := fun _ h => by cases h

theorem stops_cons {c : α} {r : List α} : Stops p (c :: r) ↔ p c = false := by
  simp [Stops]

instance (p : α → Bool) : DecidablePred (Stops p)
  | [] => .isTrue stops_nil
  | _ :: _ => decidable_of_iff _ stops_cons.symm

theorem Stops.mono {r : List α} (h : Stops p r) (hq : ∀ c, q c = true → p c = true) : Stops q r := by
  intro c hc
  cases hqc : q c with
  | false => rfl
  | true => exact absurd (hq c hqc) (by simp [h c hc])

theorem Stops.append {r s : List α} (h : Stops p r) (hs : r = [] → Stops p s) : Stops p (r ++ s) := by
  cases r with
  | nil => exact hs rfl
  | cons c r => rw [List.cons_append, stops_cons]; exact stops_cons.mp h

theorem Stops.of_append {r s : List α} (h : Stops p (r ++ s)) : Stops p r := by
  cases r with
  | nil => exact stops_nil
  | cons c r => rw [List.cons_append] at h; exact stops_cons.mpr (stops_cons.mp h)

theorem stops_dropWhile (p : α → Bool) (l : List α) : Stops p (l.dropWhile p) := by
  intro c hc
  have := List.head?_dropWhile_not p l
  rw [hc] at this
  simpa using this

theorem takeWhile_run {w r : List α} (hw : ∀ c ∈ w, p c = true) (hr : Stops p r) :
    (w ++ r).takeWhile p = w := by
  rw [List.takeWhile_append_of_pos hw]
  cases r with
  | nil => simp
  | cons c r => simp [stops_cons.mp hr]

theorem dropWhile_run {w r : List α} (hw : ∀ c ∈ w, p c = true) (hr : Stops p r) :
    (w ++ r).dropWhile p = r := by
  rw [List.dropWhile_append_of_pos hw]
  cases r with
  | nil => rfl
  | cons c r => simp [stops_cons.mp hr]

theorem takeWhile_append_of_stops {w r : List α} (hr : Stops p r) :
    (w ++ r).takeWhile p = w.takeWhile p := by
  have h : w ++ r = w.takeWhile p ++ (w.dropWhile p ++ r) := by
    rw [← List.append_assoc, List.takeWhile_append_dropWhile]
  rw [h, takeWhile_run (fun c hc => List.mem_takeWhile_imp hc) ((stops_dropWhile p w).append fun _ => hr)]

theorem dropWhile_append_of_stops {w r : List α} (hr : Stops p r) :
    (w ++ r).dropWhile p = w.dropWhile p ++ r := by
  have h : w ++ r = w.takeWhile p ++ (w.dropWhile p ++ r) := by
    rw [← List.append_assoc, List.takeWhile_append_dropWhile]
  rw [h, dropWhile_run (fun c hc => List.mem_takeWhile_imp hc) ((stops_dropWhile p w).append fun _ => hr)]

theorem drop_length_takeWhile (p : α → Bool) (l : List α) :
    l.drop (l.takeWhile p).length = l.dropWhile p := by
  have h : (l.takeWhile p ++ l.dropWhile p).drop (l.takeWhile p).length = l.dropWhile p :=
    List.drop_left
  rwa [List.takeWhile_append_dropWhile] at h

/-! ## Separators -/

theorem exists_last_sep {sep : α} {s : List α} (h : sep ∈ s) : ∃ a b, s = a ++ sep :: b ∧ sep ∉ b := by
  obtain ⟨b, a, hs, hb⟩ := List.eq_append_cons_of_mem (List.mem_reverse.mpr h)
  refine ⟨a.reverse, b.reverse, ?_, mt List.mem_reverse.mp hb⟩
  rw [← List.reverse_reverse s, hs]
  simp

section
variable [DecidableEq α] {sep : α}

theorem run_of_notMem {s : List α} (h : sep ∉ s) : ∀ c ∈ s, decide (c ≠ sep) = true := by
  intro c hc
  exact decide_eq_true fun e => h (e ▸ hc)

theorem stops_sep (t : List α) : Stops (fun c => decide (c ≠ sep)) (sep :: t) :=
  stops_cons.mpr (decide_eq_false fun h => h rfl)

/-- A text with a last separator, read from its end. -/
theorem reverse_cut (a : List α) {b : List α} (h : sep ∉ b) :
    (a ++ sep :: b).reverse.takeWhile (· ≠ sep) = b.reverse ∧
      (a ++ sep :: b).reverse.dropWhile (· ≠ sep) = sep :: a.reverse := by
  have hrun := run_of_notMem (mt List.mem_reverse.mp h)
  rw [List.reverse_append, List.reverse_cons, List.append_assoc, List.singleton_append]
  exact ⟨takeWhile_run hrun (stops_sep _), dropWhile_run hrun (stops_sep _)⟩

theorem notMem_of_mem_splitOn : ∀ {s p : List α}, p ∈ s.splitOn sep → sep ∉ p
  | [], p, h => by
    rw [List.splitOn_nil, List.mem_singleton] at h
    rw [h]
    exact List.not_mem_nil
  | c :: s, p, h => by
    have hrest : ∀ q ∈ s.splitOn sep, sep ∉ q := fun q hq => notMem_of_mem_splitOn hq
    rw [List.splitOn_cons_eq_if_modifyHead] at h
    split at h
    · rcases List.mem_cons.mp h with rfl | h
      · exact List.not_mem_nil
      · exact hrest p h
    · rename_i hc
      cases hs : s.splitOn sep with
      | nil => exact absurd hs (List.splitOn_ne_nil sep s)
      | cons q qs =>
        rw [hs, List.forall_mem_cons] at hrest
        rw [hs, List.modifyHead_cons] at h
        rcases List.mem_cons.mp h with rfl | h
        · rw [List.mem_cons, not_or]
          exact ⟨fun e => hc (beq_iff_eq.mpr e.symm), hrest.1⟩
        · exact hrest.2 p h

/-- The pieces of a text are the lists without separators that it is joined from. -/
theorem splitOn_eq_iff {s : List α} {ps : List (List α)} :
    s.splitOn sep = ps ↔ ps ≠ [] ∧ (∀ p ∈ ps, sep ∉ p) ∧ List.intercalate [sep] ps = s := by
  constructor
  · intro h
    subst h
    exact ⟨List.splitOn_ne_nil sep s, fun p hp => notMem_of_mem_splitOn hp, List.intercalate_splitOn sep⟩
  · intro h
    obtain ⟨hne, hclean, rfl⟩ := h
    exact List.splitOn_intercalate sep hclean hne

theorem splitFirst?_of_notMem {s : List α} (h : sep ∉ s) (t : List α) :
    splitFirst? sep (s ++ sep :: t) = some (s, t) := by
  rw [splitFirst?, takeWhile_run (run_of_notMem h) (stops_sep t),
    dropWhile_run (run_of_notMem h) (stops_sep t)]

theorem splitFirst?_eq_some {s a b : List α} (h : splitFirst? sep s = some (a, b)) : s = a ++ sep :: b := by
  unfold splitFirst? at h
  split at h
  · cases h
  · rename_i c after hd
    cases h
    have hc : c = sep := by
      have hstop := List.head?_dropWhile_not (fun x => decide (x ≠ sep)) s
      rw [hd] at hstop
      simpa using hstop
    subst hc
    rw [← hd, List.takeWhile_append_dropWhile]

end

end RecordSearch.Text
