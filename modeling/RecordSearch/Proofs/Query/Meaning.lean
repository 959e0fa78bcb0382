import RecordSearch.Proofs.Fields.Order
import RecordSearch.Proofs.Query.Grammar

/-!
# The meaning of a query

What a query means, without a scanner: at the least place where some shape
matches, the first of the matching shapes gives a constraint, and reading goes
on exactly where the match ends. `parse_eq_iff_meaning`: `parse` gives this
meaning and nothing else does.
-/

namespace RecordSearch.Query

/-! ## Places -/

/-- A shape matches in a text from place `i` to place `j`. -/
def MatchesAt (q : List Char) (shape : Shape) (i j : Nat) (field : String) (c : Constraint) : Prop :=
  j ≤ q.length ∧ Matches shape (q.drop i) field c (q.drop j)

def SomeAt (q : List Char) (i : Nat) : Prop := ∃ shape j field c, MatchesAt q shape i j field c

/-- The match at a place that is taken: no shape of lower rank matches there. -/
def TakenAt (q : List Char) (i j : Nat) (field : String) (c : Constraint) : Prop :=
  ∃ shape, MatchesAt q shape i j field c ∧
    ∀ lower j' field' c', MatchesAt q lower i j' field' c' → shape.rank ≤ lower.rank

/-- Reading a text from place `i` on, with the constraints `l` found so far,
ends with the constraints `m`. -/
inductive Meaning (q : List Char) :
    Nat → List (String × Constraint) → List (String × Constraint) → Prop
  | done {i : Nat} {l : List (String × Constraint)} : (∀ k, i ≤ k → ¬ SomeAt q k) → Meaning q i l l
  | step {i k j : Nat} {l m : List (String × Constraint)} {field : String} {c : Constraint} :
      i ≤ k → (∀ k', i ≤ k' → k' < k → ¬ SomeAt q k') → TakenAt q k j field c →
      Meaning q j (given field c l) m → Meaning q i l m

variable {q : List Char}

theorem matchesAt_of_matches {shape : Shape} {i : Nat} {field : String} {c : Constraint}
    {w rest : List Char} (hw : q.drop i = w ++ rest) (hm : Matches shape (q.drop i) field c rest) :
    MatchesAt q shape i (i + w.length) field c := by
  have hr : q.drop (i + w.length) = rest := by rw [← List.drop_drop, hw, List.drop_left]
  have hi : q.drop i ≠ [] := by
    obtain ⟨v, hv, hs⟩ := hm.split
    simp [hs, hv]
  have hlen := congrArg List.length hw
  rw [List.length_drop, List.length_append] at hlen
  have := List.length_pos_iff.mpr hi
  rw [List.length_drop] at this
  exact ⟨by omega, hr ▸ hm⟩

theorem MatchesAt.split {shape : Shape} {i j : Nat} {field : String} {c : Constraint}
    (h : MatchesAt q shape i j field c) : ∃ w, q.drop i = w ++ q.drop j ∧ j = i + w.length := by
  obtain ⟨hj, hm⟩ := h
  obtain ⟨w, hne, hw⟩ := hm.split
  refine ⟨w, hw, ?_⟩
  have hlen := congrArg List.length hw
  have := List.length_pos_iff.mpr hne
  simp only [List.length_drop, List.length_append] at hlen
  omega

theorem someAt_iff {i : Nat} : SomeAt q i ↔ fragmentAt? (q.drop i) ≠ none := by
  rw [Ne, fragmentAt?_eq_none]
  constructor
  · intro h
    obtain ⟨shape, j, field, c, _, hm⟩ := h
    intro h
    exact h shape field c _ hm
  · intro h
    simp only [Classical.not_forall, Classical.not_not] at h
    obtain ⟨shape, field, c, rest, hm⟩ := h
    obtain ⟨w, _, hw⟩ := hm.split
    exact ⟨shape, _, field, c, matchesAt_of_matches hw hm⟩

theorem takenAt_iff {i j : Nat} {field : String} {c : Constraint} :
    TakenAt q i j field c ↔ ∃ n, fragmentAt? (q.drop i) = some (field, c, n) ∧ j = i + n := by
  constructor
  · intro h
    obtain ⟨shape, h, hleast⟩ := h
    obtain ⟨w, hw, rfl⟩ := h.split
    refine ⟨w.length, fragmentAt?_eq_some.mpr ⟨shape, w, _, hw, rfl, h.2, ?_⟩, rfl⟩
    intro lower field' c' rest' hm
    obtain ⟨v, _, hv⟩ := hm.split
    exact hleast lower _ field' c' (matchesAt_of_matches hv hm)
  · intro h
    obtain ⟨n, h, rfl⟩ := h
    obtain ⟨shape, w, rest, hw, rfl, hm, hleast⟩ := fragmentAt?_eq_some.mp h
    exact ⟨shape, matchesAt_of_matches hw hm, fun lower j' field' c' h' => hleast lower field' c' _ h'.2⟩

theorem SomeAt.taken {i : Nat} (h : SomeAt q i) : ∃ j field c, TakenAt q i j field c := by
  obtain ⟨⟨field, c, n⟩, hr⟩ := Option.ne_none_iff_exists'.mp (someAt_iff.mp h)
  exact ⟨i + n, field, c, takenAt_iff.mpr ⟨n, hr, rfl⟩⟩

theorem TakenAt.length_le {i j : Nat} {field : String} {c : Constraint} (h : TakenAt q i j field c) :
    i + 3 ≤ j ∧ j ≤ q.length := by
  obtain ⟨_, ⟨hj, hm⟩, -⟩ := h
  have hlength := hm.length_le
  rw [List.length_drop, List.length_drop] at hlength
  omega

theorem not_someAt_of_le {i : Nat} (h : q.length ≤ i) : ¬ SomeAt q i := by
  rw [someAt_iff, List.drop_eq_nil_of_le h, Classical.not_not]
  rfl

/-! ## The scan gives the meaning -/

def givenBy (l : List (String × Constraint)) (fs : List Fragment) : List (String × Constraint) :=
  fs.foldl (fun l f => given f.field f.constraint l) l

theorem scanFrom_drop_none {i : Nat} (h : ¬ SomeAt q i) :
    scanFrom i (q.drop i) = scanFrom (i + 1) (q.drop (i + 1)) := by
  have hf : fragmentAt? (q.drop i) = none := by
    rw [someAt_iff, Classical.not_not] at h; exact h
  rw [← List.drop_drop (i := 1)]
  cases hq : q.drop i with
  | nil => rw [List.drop_nil, scanFrom_nil, scanFrom_nil]
  | cons c t =>
    rw [hq] at hf
    rw [scanFrom_cons, hf]
    rfl

theorem scanFrom_drop_some {i j : Nat} {field : String} {c : Constraint} (h : TakenAt q i j field c) :
    scanFrom i (q.drop i) = ⟨i, j, field, c⟩ :: scanFrom j (q.drop j) := by
  obtain ⟨n, hf, rfl⟩ := takenAt_iff.mp h
  rw [← List.drop_drop (i := n)]
  cases hq : q.drop i with
  | nil => rw [hq, fragmentAt?_nil] at hf; cases hf
  | cons d t =>
    rw [hq] at hf
    rw [scanFrom_cons, hf]

theorem scanFrom_drop_skip {i k : Nat} (hik : i ≤ k) (h : ∀ k', i ≤ k' → k' < k → ¬ SomeAt q k') :
    scanFrom i (q.drop i) = scanFrom k (q.drop k) := by
  induction k with
  | zero => rw [Nat.le_zero.mp hik]
  | succ k ih =>
    rcases Nat.lt_or_ge k i with hk | hk
    · rw [Nat.le_antisymm hik hk]
    · rw [ih hk fun k' h1 h2 => h k' h1 (Nat.lt_succ_of_lt h2),
        scanFrom_drop_none (h k hk (Nat.lt_succ_self k))]

theorem scanFrom_drop_end {i : Nat} (h : ∀ k, i ≤ k → ¬ SomeAt q k) : scanFrom i (q.drop i) = [] := by
  have hend : q.drop (max i q.length) = [] := List.drop_eq_nil_of_le (Nat.le_max_right ..)
  rw [scanFrom_drop_skip (Nat.le_max_left i q.length) fun k h1 _ => h k h1, hend, scanFrom_nil]

theorem Meaning.eq_scan {i : Nat} {l m : List (String × Constraint)} (h : Meaning q i l m) :
    m = givenBy l (scanFrom i (q.drop i)) := by
  induction h with
  | done hn =>
    rw [scanFrom_drop_end hn]
    rfl
  | step hik hn ht _ ih =>
    rw [ih, scanFrom_drop_skip hik hn, scanFrom_drop_some ht]
    rfl

theorem Meaning.next {i : Nat} {l m : List (String × Constraint)} (hn : ¬ SomeAt q i)
    (h : Meaning q (i + 1) l m) : Meaning q i l m := by
  have hat : ∀ k', i ≤ k' → (i + 1 ≤ k' → ¬ SomeAt q k') → ¬ SomeAt q k' := fun k' h1 h2 => by
    rcases Nat.eq_or_lt_of_le h1 with rfl | h'
    · exact hn
    · exact h2 h'
  cases h with
  | done h0 => exact .done fun k' h1 => hat k' h1 (h0 k')
  | step hik h0 ht hm =>
    exact .step (Nat.le_of_succ_le hik) (fun k' h1 h2 => hat k' h1 fun h' => h0 k' h' h2) ht hm

theorem meaning_scan (q : List Char) (i : Nat) (l : List (String × Constraint)) :
    Meaning q i l (givenBy l (scanFrom i (q.drop i))) := by
  by_cases hi : q.length ≤ i
  · rw [List.drop_eq_nil_of_le hi, scanFrom_nil]
    exact .done fun k hk => not_someAt_of_le (Nat.le_trans hi hk)
  · cases hf : fragmentAt? (q.drop i) with
    | none =>
      have hs : ¬ SomeAt q i := by rw [someAt_iff, Classical.not_not]; exact hf
      rw [scanFrom_drop_none hs]
      exact (meaning_scan q (i + 1) l).next hs
    | some r =>
      obtain ⟨field, c, n⟩ := r
      have ht : TakenAt q i (i + n) field c := takenAt_iff.mpr ⟨n, hf, rfl⟩
      have := ht.length_le
      rw [scanFrom_drop_some ht]
      exact .step (Nat.le_refl i) (fun k' h1 h2 => absurd h1 (Nat.not_le_of_lt h2)) ht
        (meaning_scan q (i + n) (given field c l))
termination_by q.length - i
decreasing_by all_goals omega

/-! ## The main statement -/

theorem entries_insertAll_map (fs : List Fragment) (f : Filters) :
    (f.insertAll (fs.map fun x => (x.field, x.constraint))).entries = givenBy f.entries fs := by
  induction fs generalizing f with
  | nil => rfl
  | cons x fs ih =>
    rw [List.map_cons, Fields.insertAll_cons, ih, Fields.entries_insert]
    rfl

theorem entries_parse (query : String) :
    (parse query).entries = givenBy [] (scanFrom 0 query.toList) :=
  entries_insertAll_map (scan query.toList) Fields.empty

/-- Every query has one meaning, and `parse` gives it. -/
theorem parse_eq_iff_meaning (query : String) (f : Filters) :
    parse query = f ↔ Meaning query.toList 0 [] f.entries := by
  constructor
  · intro e
    subst e
    rw [entries_parse]
    exact meaning_scan query.toList 0 []
  · intro h
    exact Fields.ext ((entries_parse query).trans h.eq_scan.symm)

end RecordSearch.Query
