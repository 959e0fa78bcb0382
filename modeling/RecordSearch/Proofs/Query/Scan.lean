import RecordSearch.Proofs.Text.Runs
import RecordSearch.Query.Fragment

/-!
# Scanning step by step

A scan looks for a fragment at the next character, takes it if there is one and
goes on after it; otherwise it goes on one character later. Names that lead
nowhere are passed over whole, which comes to the same: a part of such a name
leads nowhere either.
-/

namespace RecordSearch.Query

open Text (Stops takeWhile_run dropWhile_run drop_length_takeWhile)

/-- The fragment that a text begins with: its field, its constraint and the
number of its characters. -/
def fragmentAt? (s : List Char) : Option (String × Constraint × Nat) :=
  let name := s.takeWhile isWord
  if name = [] then none
  else (shape? (s.dropWhile isWord)).map fun r => (String.ofList name, r.1, name.length + r.2)

theorem shape?_cons {c : Char} (hc : c ≠ ':') (s : List Char) : shape? (c :: s) = none := by
  unfold shape? phrase? range? token?
  split <;> rename_i h
  · split at h <;> simp_all
  · simp [hc]

/-! ## One step -/

theorem fragmentAt?_nil : fragmentAt? [] = none := rfl

theorem fragmentAt?_other {c : Char} (hc : isWord c = false) (s : List Char) :
    fragmentAt? (c :: s) = none := by
  simp [fragmentAt?, hc]

theorem fragmentAt?_word {c : Char} (hc : isWord c = true) (t : List Char) :
    fragmentAt? (c :: t) = (shape? (t.dropWhile isWord)).map fun r =>
      (String.ofList (c :: t.takeWhile isWord), r.1, (t.takeWhile isWord).length + 1 + r.2) := by
  simp [fragmentAt?, hc]

theorem scanFrom_nil (pos : Nat) : scanFrom pos [] = [] := by rw [scanFrom]

theorem scanFrom_other {c : Char} (hc : isWord c = false) (pos : Nat) (t : List Char) :
    scanFrom pos (c :: t) = scanFrom (pos + 1) t := by
  rw [scanFrom]; simp [hc]

theorem scanFrom_some {c : Char} {t : List Char} {constraint : Constraint} {n : Nat}
    (hc : isWord c = true) (h : shape? (t.dropWhile isWord) = some (constraint, n)) (pos : Nat) :
    scanFrom pos (c :: t) =
      ⟨pos, pos + ((t.takeWhile isWord).length + 1 + n),
        String.ofList (c :: t.takeWhile isWord), constraint⟩ ::
        scanFrom (pos + ((t.takeWhile isWord).length + 1 + n)) ((t.dropWhile isWord).drop n) := by
  rw [scanFrom]; simp only [hc, if_true, h, List.length_cons, Nat.add_assoc]

theorem scanFrom_none {c : Char} {t : List Char} (hc : isWord c = true)
    (h : shape? (t.dropWhile isWord) = none) (pos : Nat) :
    scanFrom pos (c :: t) = scanFrom (pos + ((t.takeWhile isWord).length + 1)) (t.dropWhile isWord) := by
  rw [scanFrom]; simp only [hc, if_true, h, List.length_cons]

/-- What follows a part of a name follows the name. -/
theorem scanFrom_skip {t : List Char} (h : shape? (t.dropWhile isWord) = none) (pos : Nat) :
    scanFrom pos t = scanFrom (pos + (t.takeWhile isWord).length) (t.dropWhile isWord) := by
  cases t with
  | nil => rfl
  | cons d t =>
    by_cases hd : isWord d = true
    · rw [List.dropWhile_cons_of_pos hd] at h ⊢
      rw [List.takeWhile_cons_of_pos hd, scanFrom_none hd h, List.length_cons]
    · rw [List.dropWhile_cons_of_neg hd, List.takeWhile_cons_of_neg hd]; rfl

theorem scanFrom_cons (pos : Nat) (c : Char) (t : List Char) :
    scanFrom pos (c :: t) =
      match fragmentAt? (c :: t) with
      | some (field, constraint, n) =>
        ⟨pos, pos + n, field, constraint⟩ :: scanFrom (pos + n) ((c :: t).drop n)
      | none => scanFrom (pos + 1) t := by
  cases hc : isWord c with
  | false => rw [fragmentAt?_other hc, scanFrom_other hc]
  | true =>
    cases h : shape? (t.dropWhile isWord) with
    | none =>
      rw [fragmentAt?_word hc, h, Option.map_none]
      simp only
      rw [scanFrom_none hc h, scanFrom_skip h (pos + 1), Nat.add_assoc, Nat.add_comm 1]
    | some r =>
      obtain ⟨constraint, n⟩ := r
      have hd : (c :: t).drop ((t.takeWhile isWord).length + 1 + n) = (t.dropWhile isWord).drop n := by
        rw [Nat.add_right_comm, List.drop_succ_cons, ← List.drop_drop, drop_length_takeWhile]
      rw [fragmentAt?_word hc, h, Option.map_some, scanFrom_some hc h]
      simp only [hd]

/-! ## What is found -/

def found (s : List Char) : List (String × Constraint) :=
  (scan s).map fun f => (f.field, f.constraint)

theorem parse_eq_ofList (query : String) : parse query = Fields.ofList (found query.toList) := rfl

theorem map_scanFrom (s : List Char) (pos : Nat) :
    (scanFrom pos s).map (fun f => (f.field, f.constraint)) = found s := by
  unfold found scan
  generalize 0 = start
  induction pos, s using scanFrom.induct generalizing start with
  | case1 pos => rw [scanFrom_nil, scanFrom_nil]
  | case2 pos c t hc name here hle constraint n h ih =>
    rw [scanFrom_some hc h, scanFrom_some hc h, List.map_cons, List.map_cons, ← ih, ← ih (start + _)]
  | case3 pos c t hc name here hle h ih =>
    rw [scanFrom_none hc h, scanFrom_none hc h, ← ih, ← ih (start + _)]
  | case4 pos c t hc ih =>
    have hc : isWord c = false := by simpa using hc
    rw [scanFrom_other hc, scanFrom_other hc, ih]

theorem found_nil : found [] = [] := by rw [found, scan, scanFrom_nil]; rfl

theorem found_none {c : Char} {t : List Char} (h : fragmentAt? (c :: t) = none) :
    found (c :: t) = found t := by
  rw [← map_scanFrom (c :: t) 0, scanFrom_cons, h]
  exact map_scanFrom t 1

theorem found_some {s : List Char} {field : String} {c : Constraint} {n : Nat}
    (h : fragmentAt? s = some (field, c, n)) : found s = (field, c) :: found (s.drop n) := by
  cases s with
  | nil => cases h
  | cons d t =>
    rw [← map_scanFrom (d :: t) 0, scanFrom_cons, h, List.map_cons, map_scanFrom]

end RecordSearch.Query
