import RecordSearch.Proofs.Query.Bound
import RecordSearch.Proofs.Query.Scan

/-!
# The grammar of fragments

The three shapes of a fragment as a relation between a text, the constraint and
the rest. `fragmentAt?_eq_some`: the scanner finds a fragment where a shape
matches, of the least rank, and takes exactly the text up to the rest.
-/

namespace RecordSearch.Query

open Text (Stops stops_nil stops_cons stops_dropWhile takeWhile_run dropWhile_run drop_length_takeWhile)

/-! ## Shapes -/

inductive Shape where
  | phrase
  | range
  | token
deriving DecidableEq

/-- Of the shapes that match at one place the one with the least rank is taken. -/
def Shape.rank : Shape → Nat
  | .phrase => 0
  | .range => 1
  | .token => 2

def inNumber (c : Char) : Bool := '0' ≤ c && c ≤ '9'

def inName (c : Char) : Bool :=
  'A' ≤ c && c ≤ 'Z' || 'a' ≤ c && c ≤ 'z' || inNumber c || c = '_'

def inToken (c : Char) : Bool := inName c || c = '@' || c = '.' || c = '-'

/-- What may follow a field name: a text of a shape, with the constraint it
gives and the rest after it. -/
inductive Follows : Shape → List Char → Constraint → List Char → Prop
  | phrase {value rest : List Char} : value ≠ [] → '"' ∉ value →
      Follows .phrase (':' :: '"' :: (value ++ '"' :: rest)) (.exactPhrase (String.ofList value)) rest
  | range {low high rest : List Char} : low ≠ [] → (∀ c ∈ low, inNumber c = true) →
      high ≠ [] → (∀ c ∈ high, inNumber c = true) → Stops inNumber rest →
      Follows .range (':' :: (low ++ '.' :: '.' :: (high ++ rest)))
        (.numericRange (capped (decimal low)) (capped (decimal high))) rest
  | token {value rest : List Char} : value ≠ [] → (∀ c ∈ value, inToken c = true) →
      Stops inToken rest → Follows .token (':' :: (value ++ rest)) (.fieldMatch (String.ofList value)) rest

inductive Matches (shape : Shape) : List Char → String → Constraint → List Char → Prop
  | mk {name tail rest : List Char} {constraint : Constraint} : name ≠ [] →
      (∀ c ∈ name, inName c = true) → Follows shape tail constraint rest →
      Matches shape (name ++ tail) (String.ofList name) constraint rest

/-! ## Classes of characters -/

theorem inNumber_eq : inNumber = Char.isDigit := rfl

theorem inName_eq : inName = isWord := by
  funext c
  have hupper : c.isUpper = ('A' ≤ c && c ≤ 'Z') := Bool.decide_and ('A' ≤ c) (c ≤ 'Z')
  have hlower : c.isLower = ('a' ≤ c && c ≤ 'z') := rfl
  show _ = (c.isUpper || c.isLower || c.isDigit || c = '_')
  rw [inName, inNumber_eq, hupper, hlower]

theorem inToken_eq : inToken = isToken := by
  funext c
  rw [inToken, isToken, inName_eq]

/-! ## What follows a name -/

def shapeOf? : Shape → List Char → Option (Constraint × Nat)
  | .phrase => phrase?
  | .range => range?
  | .token => token?

theorem phrase?_of_follows {value rest : List Char} (hv : value ≠ []) (hq : '"' ∉ value) :
    phrase? (':' :: '"' :: (value ++ '"' :: rest)) =
      some (.exactPhrase (String.ofList value), value.length + 3) := by
  have hw : ∀ c ∈ value, decide (c ≠ '"') = true := fun c hc => by
    simpa using fun e : c = '"' => hq (e ▸ hc)
  have hr : Stops (fun c => decide (c ≠ '"')) ('"' :: rest) := stops_cons.mpr (by simp)
  simp only [phrase?, takeWhile_run hw hr, dropWhile_run hw hr]
  simp [hv]

theorem range?_of_follows {low high rest : List Char} (hl : low ≠ [])
    (hld : ∀ c ∈ low, inNumber c = true) (hh : high ≠ []) (hhd : ∀ c ∈ high, inNumber c = true)
    (hr : Stops inNumber rest) :
    range? (':' :: (low ++ '.' :: '.' :: (high ++ rest))) =
      some (.numericRange (capped (decimal low)) (capped (decimal high)),
        low.length + high.length + 3) := by
  rw [inNumber_eq] at hld hhd hr
  have hd : Stops Char.isDigit ('.' :: '.' :: (high ++ rest)) := stops_cons.mpr (by decide)
  simp only [range?, takeWhile_run hld hd, dropWhile_run hld hd, takeWhile_run hhd hr, bound_eq hl hld,
    bound_eq hh hhd]
  simp [hl, hh]

theorem token?_of_follows {value rest : List Char} (hv : value ≠ [])
    (hw : ∀ c ∈ value, inToken c = true) (hr : Stops inToken rest) :
    token? (':' :: (value ++ rest)) = some (.fieldMatch (String.ofList value), value.length + 1) := by
  rw [inToken_eq] at hw hr
  simp only [token?, takeWhile_run hw hr]
  simp [hv]

theorem shapeOf?_of_follows {shape : Shape} {s rest : List Char} {c : Constraint}
    (h : Follows shape s c rest) :
    ∃ w, s = w ++ rest ∧ shapeOf? shape s = some (c, w.length) := by
  cases h with
  | @phrase value _ hv hq =>
    refine ⟨':' :: '"' :: (value ++ ['"']), by simp, ?_⟩
    rw [shapeOf?, phrase?_of_follows hv hq]
    simp
  | @range low high _ hl hld hh hhd hr =>
    refine ⟨':' :: (low ++ '.' :: '.' :: high), by simp, ?_⟩
    rw [shapeOf?, range?_of_follows hl hld hh hhd hr]
    simp; omega
  | @token value _ hv hw hr =>
    refine ⟨':' :: value, by simp, ?_⟩
    rw [shapeOf?, token?_of_follows hv hw hr]
    simp

theorem follows_phrase {s : List Char} {c : Constraint} {n : Nat} (h : phrase? s = some (c, n)) :
    ∃ w rest, s = w ++ rest ∧ n = w.length ∧ Follows .phrase s c rest := by
  unfold phrase? at h
  split at h
  · rename_i t
    have ht := List.takeWhile_append_dropWhile (p := fun c => decide (c ≠ '"')) (l := t)
    have hq : '"' ∉ t.takeWhile (fun c => decide (c ≠ '"')) := fun hm => by
      simpa using List.mem_takeWhile_imp hm
    generalize t.takeWhile (fun c => decide (c ≠ '"')) = value at h ht hq
    simp only [List.isEmpty_iff] at h
    split at h
    · cases h
    · rename_i hv
      split at h
      · cases h
      · rename_i d rest hd
        have hdq : d = '"' := by
          have := stops_dropWhile (fun c => decide (c ≠ '"')) t
          rw [hd, stops_cons] at this
          simpa using this
        subst hdq
        rw [hd] at ht
        simp only [Option.some.injEq, Prod.mk.injEq] at h
        obtain ⟨rfl, rfl⟩ := h
        rw [← ht]
        exact ⟨':' :: '"' :: (value ++ ['"']), rest, by simp, by simp, .phrase hv hq⟩
  · cases h

theorem follows_range {s : List Char} {c : Constraint} {n : Nat} (h : range? s = some (c, n)) :
    ∃ w rest, s = w ++ rest ∧ n = w.length ∧ Follows .range s c rest := by
  unfold range? at h
  split at h
  · rename_i t
    have ht := List.takeWhile_append_dropWhile (p := Char.isDigit) (l := t)
    have hl : ∀ c ∈ t.takeWhile Char.isDigit, c.isDigit = true := fun c hc => List.mem_takeWhile_imp hc
    generalize t.takeWhile Char.isDigit = low at h ht hl
    simp only [List.isEmpty_iff, Bool.or_eq_true] at h
    split at h
    · rename_i u hu
      have hu' := List.takeWhile_append_dropWhile (p := Char.isDigit) (l := u)
      have hh : ∀ c ∈ u.takeWhile Char.isDigit, c.isDigit = true := fun c hc => List.mem_takeWhile_imp hc
      have hr := stops_dropWhile Char.isDigit u
      generalize u.takeWhile Char.isDigit = high at h hu' hh
      generalize u.dropWhile Char.isDigit = rest at hu' hr
      split at h
      · cases h
      · rename_i hne
        rw [not_or] at hne
        simp only [Option.some.injEq, Prod.mk.injEq] at h
        obtain ⟨rfl, rfl⟩ := h
        rw [← ht, hu, ← hu', bound_eq hne.1 hl, bound_eq hne.2 hh]
        exact ⟨':' :: (low ++ '.' :: '.' :: high), rest, by simp, by simp; omega,
          .range hne.1 hl hne.2 hh hr⟩
    · cases h
  · cases h

theorem follows_token {s : List Char} {c : Constraint} {n : Nat} (h : token? s = some (c, n)) :
    ∃ w rest, s = w ++ rest ∧ n = w.length ∧ Follows .token s c rest := by
  unfold token? at h
  split at h
  · rename_i t
    have ht := List.takeWhile_append_dropWhile (p := isToken) (l := t)
    have hw : ∀ c ∈ t.takeWhile isToken, isToken c = true := fun c hc => List.mem_takeWhile_imp hc
    have hr := stops_dropWhile isToken t
    generalize t.takeWhile isToken = value at h ht hw
    generalize t.dropWhile isToken = rest at ht hr
    simp only [List.isEmpty_iff] at h
    split at h
    · cases h
    · rename_i hv
      simp only [Option.some.injEq, Prod.mk.injEq] at h
      obtain ⟨rfl, rfl⟩ := h
      rw [← ht]
      rw [← inToken_eq] at hw hr
      exact ⟨':' :: value, rest, by simp, by simp, .token hv hw hr⟩
  · cases h

theorem shapeOf?_eq_some {shape : Shape} {s : List Char} {c : Constraint} {n : Nat} :
    shapeOf? shape s = some (c, n) ↔
      ∃ w rest, s = w ++ rest ∧ n = w.length ∧ Follows shape s c rest := by
  constructor
  · intro h
    cases shape with
    | phrase => exact follows_phrase h
    | range => exact follows_range h
    | token => exact follows_token h
  · intro h
    obtain ⟨w, rest, hs, rfl, hf⟩ := h
    obtain ⟨w', hs', h⟩ := shapeOf?_of_follows hf
    rw [h, List.append_cancel_right (hs.symm.trans hs')]

theorem shapeOf?_eq_none {shape : Shape} {s : List Char} :
    shapeOf? shape s = none ↔ ∀ c rest, ¬ Follows shape s c rest := by
  constructor
  · intro h c rest hf
    obtain ⟨w, _, hw⟩ := shapeOf?_of_follows hf
    rw [h] at hw; cases hw
  · intro h
    cases hs : shapeOf? shape s with
    | none => rfl
    | some r =>
      obtain ⟨w, rest, _, _, hf⟩ := shapeOf?_eq_some.mp hs
      exact absurd hf (h _ _)

/-! ## The shape that is taken -/

theorem shape?_eq_none {s : List Char} : shape? s = none ↔ ∀ shape, shapeOf? shape s = none := by
  constructor
  · intro h shape
    unfold shape? at h
    cases hp : phrase? s with
    | some r => simp [hp] at h
    | none =>
      cases hr : range? s with
      | some r => simp [hp, hr] at h
      | none =>
        simp only [hp, hr] at h
        cases shape with
        | phrase => exact hp
        | range => exact hr
        | token => exact h
  · intro h
    unfold shape?
    rw [show phrase? s = none from h .phrase, show range? s = none from h .range]
    exact h .token

theorem shape?_eq_some {s : List Char} {r : Constraint × Nat} :
    shape? s = some r ↔
      ∃ shape, shapeOf? shape s = some r ∧
        ∀ lower, lower.rank < shape.rank → shapeOf? lower s = none := by
  constructor
  · intro h
    unfold shape? at h
    cases hp : phrase? s with
    | some r' =>
      rw [hp] at h
      exact ⟨.phrase, hp.trans h, fun lower hl => absurd hl (Nat.not_lt_zero _)⟩
    | none =>
      cases hr : range? s with
      | some r' =>
        rw [hp, hr] at h
        refine ⟨.range, hr.trans h, fun lower hl => ?_⟩
        cases lower with
        | phrase => exact hp
        | range => exact absurd hl (by decide)
        | token => exact absurd hl (by decide)
      | none =>
        rw [hp, hr] at h
        refine ⟨.token, h, fun lower hl => ?_⟩
        cases lower with
        | phrase => exact hp
        | range => exact hr
        | token => exact absurd hl (by decide)
  · intro h
    obtain ⟨shape, hs, hl⟩ := h
    unfold shape?
    cases shape with
    | phrase => rw [show phrase? s = some r from hs]
    | range =>
      rw [show phrase? s = none from hl .phrase (by decide), show range? s = some r from hs]
    | token =>
      rw [show phrase? s = none from hl .phrase (by decide),
        show range? s = none from hl .range (by decide)]
      exact hs

/-! ## The fragment that is taken -/

theorem Follows.head {shape : Shape} {s rest : List Char} {c : Constraint} (h : Follows shape s c rest) :
    s.head? = some ':' := by
  cases h <;> rfl

theorem Follows.stops {shape : Shape} {s rest : List Char} {c : Constraint}
    (h : Follows shape s c rest) : Stops isWord s := fun d hd => by
  rw [h.head, Option.some.injEq] at hd
  subst hd; rfl

/-- The name before a colon is the whole run of its class. -/
theorem matches_iff {shape : Shape} {s rest : List Char} {field : String} {c : Constraint} :
    Matches shape s field c rest ↔ s.takeWhile isWord ≠ [] ∧
      field = String.ofList (s.takeWhile isWord) ∧ Follows shape (s.dropWhile isWord) c rest := by
  constructor
  · intro h
    obtain ⟨hn, hw, hf⟩ := h
    rw [inName_eq] at hw
    rw [takeWhile_run hw hf.stops, dropWhile_run hw hf.stops]
    exact ⟨hn, rfl, hf⟩
  · intro h
    obtain ⟨hn, rfl, hf⟩ := h
    have := Matches.mk hn (fun c hc => by rw [inName_eq]; exact List.mem_takeWhile_imp hc) hf
    rwa [List.takeWhile_append_dropWhile] at this

theorem Matches.split {shape : Shape} {s rest : List Char} {field : String} {c : Constraint}
    (h : Matches shape s field c rest) : ∃ w, w ≠ [] ∧ s = w ++ rest := by
  obtain ⟨hn, _, hf⟩ := h
  obtain ⟨w, rfl, _⟩ := shapeOf?_of_follows hf
  exact ⟨_, by simp [hn], (List.append_assoc ..).symm⟩

theorem Follows.length_le {shape : Shape} {s rest : List Char} {c : Constraint}
    (h : Follows shape s c rest) : rest.length + 2 ≤ s.length := by
  cases h with
  | phrase =>
    simp only [List.length_cons, List.length_append]
    omega
  | range =>
    simp only [List.length_cons, List.length_append]
    omega
  | token hv =>
    have := List.length_pos_iff.mpr hv
    simp only [List.length_cons, List.length_append]
    omega

/-- The shortest match is a name, a colon and a value, of one character each. -/
theorem Matches.length_le {shape : Shape} {s rest : List Char} {field : String} {c : Constraint}
    (h : Matches shape s field c rest) : rest.length + 3 ≤ s.length := by
  obtain ⟨hn, -, hf⟩ := h
  have hname := List.length_pos_iff.mpr hn
  have htail := hf.length_le
  rw [List.length_append]
  omega

theorem fragmentAt?_eq_none {s : List Char} :
    fragmentAt? s = none ↔ ∀ shape field c rest, ¬ Matches shape s field c rest := by
  unfold fragmentAt?
  by_cases hn : s.takeWhile isWord = []
  · simp only [hn, if_true, true_iff]
    exact fun shape field c rest hm => (matches_iff.mp hm).1 hn
  · simp only [hn, if_false, Option.map_eq_none_iff, shape?_eq_none, shapeOf?_eq_none]
    constructor
    · exact fun h shape field c rest hm => h shape c rest (matches_iff.mp hm).2.2
    · exact fun h shape c rest hf => h shape _ c rest (matches_iff.mpr ⟨hn, rfl, hf⟩)

theorem fragmentAt?_eq_some {s : List Char} {field : String} {c : Constraint} {n : Nat} :
    fragmentAt? s = some (field, c, n) ↔
      ∃ shape w rest, s = w ++ rest ∧ n = w.length ∧ Matches shape s field c rest ∧
        ∀ lower field' c' rest', Matches lower s field' c' rest' → shape.rank ≤ lower.rank := by
  have hs := List.takeWhile_append_dropWhile (p := isWord) (l := s)
  constructor
  · intro h
    unfold fragmentAt? at h
    simp only at h
    split at h
    · cases h
    · rename_i hn
      obtain ⟨⟨c', m⟩, hr, he⟩ := Option.map_eq_some_iff.mp h
      simp only [Prod.mk.injEq] at he
      obtain ⟨rfl, rfl, rfl⟩ := he
      obtain ⟨shape, hshape, hleast⟩ := shape?_eq_some.mp hr
      obtain ⟨w, rest, hw, rfl, hf⟩ := shapeOf?_eq_some.mp hshape
      refine ⟨shape, s.takeWhile isWord ++ w, rest, ?_, ?_, matches_iff.mpr ⟨hn, rfl, hf⟩, ?_⟩
      · rw [List.append_assoc, ← hw, hs]
      · rw [List.length_append]
      · intro lower field' c'' rest' hm
        refine Nat.le_of_not_lt fun hlt => ?_
        exact shapeOf?_eq_none.mp (hleast lower hlt) _ _ (matches_iff.mp hm).2.2
  · intro h
    obtain ⟨shape, w, rest, hw, rfl, hm, hleast⟩ := h
    obtain ⟨hn, rfl, hf⟩ := matches_iff.mp hm
    obtain ⟨v, hv, hshape⟩ := shapeOf?_of_follows hf
    have hr : shape? (s.dropWhile isWord) = some (c, v.length) := by
      refine shape?_eq_some.mpr ⟨shape, hshape, fun lower hlt => ?_⟩
      refine shapeOf?_eq_none.mpr fun c' rest' hf' => ?_
      exact Nat.not_le_of_lt hlt (hleast lower _ c' rest' (matches_iff.mpr ⟨hn, rfl, hf'⟩))
    have hlen : w.length = (s.takeWhile isWord).length + v.length := by
      have : w ++ rest = (s.takeWhile isWord ++ v) ++ rest := by
        rw [List.append_assoc, ← hv, hs, hw]
      rw [List.append_cancel_right this, List.length_append]
    simp only [fragmentAt?, hn, if_false, hr, Option.map_some, hlen]

/-! ## Reading piece by piece -/

/-- A text is read one character at a time where there is no fragment, and one
fragment at a time where there is one. -/
@[elab_as_elim]
theorem piece_induction {P : List Char → Prop} (nil : P [])
    (skip : ∀ c s, fragmentAt? (c :: s) = none → P s → P (c :: s))
    (take : ∀ w rest field c, fragmentAt? (w ++ rest) = some (field, c, w.length) → P rest →
      P (w ++ rest)) (s : List Char) : P s := by
  cases h : fragmentAt? s with
  | none =>
    match s with
    | [] => exact nil
    | c :: s => exact skip c s h (piece_induction nil skip take s)
  | some r =>
    obtain ⟨field, c, n⟩ := r
    obtain ⟨_, w, rest, hs, rfl, hm, _⟩ := fragmentAt?_eq_some.mp h
    have hlt : rest.length < s.length := by
      obtain ⟨v, hv, hs⟩ := hm.split
      have := List.length_pos_iff.mpr hv
      rw [hs, List.length_append]; omega
    rw [hs] at h ⊢
    exact take w rest field c h (piece_induction nil skip take rest)
termination_by s.length
decreasing_by
  · exact Nat.lt_succ_self _
  · exact hlt

theorem found_take {w rest : List Char} {field : String} {c : Constraint}
    (h : fragmentAt? (w ++ rest) = some (field, c, w.length)) :
    found (w ++ rest) = (field, c) :: found rest := by
  rw [found_some h, List.drop_left]

/-- A name and the first shape that follows it. -/
theorem found_follows {name tail rest : List Char} {shape : Shape} {c : Constraint} (hn : name ≠ [])
    (hw : ∀ d ∈ name, inName d = true) (hf : Follows shape tail c rest)
    (hleast : ∀ lower k r, Follows lower tail k r → shape.rank ≤ lower.rank) :
    found (name ++ tail) = (String.ofList name, c) :: found rest := by
  obtain ⟨v, rfl, _⟩ := shapeOf?_of_follows hf
  rw [← List.append_assoc]
  refine found_take (fragmentAt?_eq_some.mpr ⟨shape, _, rest, rfl, rfl, ?_, ?_⟩)
  · rw [List.append_assoc]; exact .mk hn hw hf
  · intro lower field k r hm
    have hlower := (matches_iff.mp hm).2.2
    rw [List.append_assoc, dropWhile_run (by rwa [inName_eq] at hw) hf.stops] at hlower
    exact hleast lower k r hlower

end RecordSearch.Query
