import RecordSearch.Proofs.Fields.Order
import RecordSearch.Proofs.Query.Grammar

/-!
# Writing filters as a query

Filters are written as fragments in their order, with any quiet text before,
between and after them. `parse_rendered`: such a query is read as the filters
it was written from.
-/

namespace RecordSearch.Query

open Text (Stops stops_nil stops_cons takeWhile_run dropWhile_run stops_dropWhile)

/-! ## Fragments -/

def valueChars : Constraint → List Char
  | .exactPhrase value => '"' :: (value.toList ++ ['"'])
  | .fieldMatch value => value.toList
  | .numericRange min max => Nat.toDigits 10 min.toNat ++ '.' :: '.' :: Nat.toDigits 10 max.toNat

def fragmentChars (p : String × Constraint) : List Char := p.1.toList ++ ':' :: valueChars p.2

/-- A text that begins with digits, two points and a digit. -/
def LooksRanged (s : List Char) : Prop :=
  ∃ low d rest, low ≠ [] ∧ (∀ c ∈ low, inNumber c = true) ∧ inNumber d = true ∧
    s = low ++ '.' :: '.' :: d :: rest

def rangedStart (s : List Char) : Bool :=
  match s.takeWhile inNumber, s.dropWhile inNumber with
  | _ :: _, '.' :: '.' :: d :: _ => inNumber d
  | _, _ => false

theorem rangedStart_iff {s : List Char} : rangedStart s = true ↔ LooksRanged s := by
  constructor
  · intro h
    unfold rangedStart at h
    have hs := List.takeWhile_append_dropWhile (p := inNumber) (l := s)
    split at h
    · rename_i a low d rest hl hr
      refine ⟨a :: low, d, rest, List.cons_ne_nil _ _, fun c hc => List.mem_takeWhile_imp (hl ▸ hc), h, ?_⟩
      rw [← hl, ← hr, hs]
    · cases h
  · intro h
    obtain ⟨low, d, rest, hne, hl, hd, rfl⟩ := h
    have hp : Stops inNumber ('.' :: '.' :: d :: rest) := stops_cons.mpr (by decide)
    cases low with
    | nil => exact absurd rfl hne
    | cons a low =>
      unfold rangedStart
      rw [takeWhile_run hl hp, dropWhile_run hl hp]
      exact hd

instance : DecidablePred LooksRanged := fun _ => decidable_of_iff _ rangedStart_iff

def WellFormedValue : Constraint → Prop
  | .exactPhrase value => value ≠ "" ∧ '"' ∉ value.toList
  | .fieldMatch value =>
    value ≠ "" ∧ (∀ c ∈ value.toList, inToken c = true) ∧ ¬ LooksRanged value.toList
  | .numericRange _ _ => True

def WellFormed (p : String × Constraint) : Prop :=
  p.1 ≠ "" ∧ (∀ c ∈ p.1.toList, inName c = true) ∧ WellFormedValue p.2

instance : DecidablePred WellFormedValue
  | .exactPhrase value => inferInstanceAs (Decidable (value ≠ "" ∧ '"' ∉ value.toList))
  | .fieldMatch value => decidable_of_iff
      (value ≠ "" ∧ value.toList.all inToken = true ∧ ¬ LooksRanged value.toList)
      (by rw [List.all_eq_true]; rfl)
  | .numericRange _ _ => inferInstanceAs (Decidable True)

instance : DecidablePred WellFormed := fun p => decidable_of_iff
  (p.1 ≠ "" ∧ p.1.toList.all inName = true ∧ WellFormedValue p.2) (by rw [List.all_eq_true]; rfl)

/-! ## Texts around fragments -/

def EndsOutside (s : List Char) : Prop := Stops inName s.reverse

def Quiet (s : List Char) : Prop := ':' ∉ s ∧ '"' ∉ s

def Leading (s : List Char) : Prop := Quiet s ∧ EndsOutside s

def Trailing (s : List Char) : Prop := Quiet s ∧ Stops inToken s

def Separator (s : List Char) : Prop := s ≠ [] ∧ Leading s ∧ Trailing s

instance : DecidablePred Leading := fun s => inferInstanceAs (Decidable
  ((':' ∉ s ∧ '"' ∉ s) ∧ Stops inName s.reverse))

instance : DecidablePred Trailing := fun s => inferInstanceAs (Decidable
  ((':' ∉ s ∧ '"' ∉ s) ∧ Stops inToken s))

instance : DecidablePred Separator := fun s => inferInstanceAs (Decidable
  (s ≠ [] ∧ Leading s ∧ Trailing s))

/-- The entries in order, with a separator between neighbours and a trailing text. -/
def rendered : List (String × Constraint) → List (List Char) → List Char → List Char
  | [], _, trail => trail
  | [p], _, trail => fragmentChars p ++ trail
  | p :: p' :: rest, seps, trail =>
    fragmentChars p ++ (seps.headD [] ++ rendered (p' :: rest) seps.tail trail)

/-! ## Quiet text is passed over -/

theorem fragmentAt?_of_noColon {s : List Char}
    (h : ∀ c, (s.dropWhile isWord).head? = some c → c ≠ ':') : fragmentAt? s = none := by
  unfold fragmentAt?
  cases hd : s.dropWhile isWord with
  | nil => simp [shape?, phrase?, range?, token?]
  | cons c t =>
    have hc : c ≠ ':' := h c (by rw [hd]; rfl)
    simp [shape?_cons hc]

theorem found_of_noColon : ∀ {w : List Char}, ':' ∉ w → found w = []
  | [], _ => found_nil
  | c :: w, h => by
    have hf : fragmentAt? (c :: w) = none := fragmentAt?_of_noColon fun d hd => by
      intro e
      subst e
      exact h ((List.dropWhile_sublist _).subset (List.mem_of_head? hd))
    rw [found_none hf]
    exact found_of_noColon fun hm => h (List.mem_cons_of_mem _ hm)

theorem EndsOutside.dropWhile_ne_nil {w : List Char} (he : EndsOutside w) (hne : w ≠ []) :
    w.dropWhile isWord ≠ [] := by
  intro hd
  have hw := List.takeWhile_append_dropWhile (p := isWord) (l := w)
  rw [hd, List.append_nil] at hw
  have hl : w.getLast hne ∈ w.takeWhile isWord := by rw [hw]; exact List.getLast_mem hne
  have := he _ (List.head?_reverse.trans (List.getLast?_eq_some_getLast hne))
  rw [inName_eq, List.mem_takeWhile_imp hl] at this
  cases this

theorem EndsOutside.tail {c : Char} {w : List Char} (he : EndsOutside (c :: w)) : EndsOutside w := by
  intro d hd
  cases w with
  | nil => cases hd
  | cons b w =>
    rw [List.head?_reverse] at hd
    exact he d (by rw [List.head?_reverse, List.getLast?_cons_cons]; exact hd)

theorem found_skip : ∀ {w : List Char}, ':' ∉ w → EndsOutside w → ∀ s, found (w ++ s) = found s
  | [], _, _, s => rfl
  | c :: w, h, he, s => by
    have hf : fragmentAt? (c :: (w ++ s)) = none := fragmentAt?_of_noColon fun d hd => by
      intro e
      subst e
      have hne := he.dropWhile_ne_nil (by simp)
      rw [← List.cons_append, List.dropWhile_append, if_neg (by simpa using hne)] at hd
      cases hw : (c :: w).dropWhile isWord with
      | nil => exact hne hw
      | cons b r =>
        rw [hw, List.cons_append, List.head?_cons] at hd
        have hb : b ∈ (c :: w).dropWhile isWord := by rw [hw]; exact List.mem_cons_self ..
        exact h (Option.some.inj hd ▸ (List.dropWhile_sublist _).subset hb)
    rw [List.cons_append, found_none hf]
    exact found_skip (fun hm => h (List.mem_cons_of_mem _ hm)) he.tail s

/-! ## Fragments are found -/

theorem prefix_of_run {w r v rest : List Char} (hw : ∀ c ∈ w, inToken c = true)
    (hv : ∀ c ∈ v, inToken c = true) (hr : Stops inToken rest) (h : w ++ r = v ++ rest) :
    ∃ s, v = w ++ s := by
  have := congrArg (List.takeWhile inToken) h
  rw [takeWhile_run hv hr, List.takeWhile_append_of_pos hw] at this
  exact ⟨_, this.symm⟩

theorem inToken_of_inNumber {c : Char} (h : inNumber c = true) : inToken c = true := by
  simp [inToken, inName, h]

theorem not_follows_phrase {w s rest : List Char} {k : Constraint} (hne : w ≠ [])
    (hw : ∀ c ∈ w, inToken c = true) : ¬ Follows .phrase (':' :: (w ++ s)) k rest := by
  intro h
  cases w with
  | nil => exact hne rfl
  | cons c w =>
    rw [List.cons_append] at h
    generalize w ++ s = u at h
    cases h
    exact absurd (hw '"' (List.mem_cons_self ..)) (by decide)

theorem not_follows_range {value rest rest' : List Char} {k : Constraint}
    (hw : ∀ c ∈ value, inToken c = true) (hr : Stops inToken rest) (hnr : ¬ LooksRanged value) :
    ¬ Follows .range (':' :: (value ++ rest)) k rest' := by
  intro h
  generalize hs : value ++ rest = s at h
  cases h with
  | @range low high _ hl hld hh hhd _ =>
    cases high with
    | nil => exact hh rfl
    | cons d high =>
      have hd := hhd d (List.mem_cons_self ..)
      have hpre : ∀ c ∈ low ++ ['.', '.', d], inToken c = true := by
        intro c hc
        simp only [List.mem_append, List.mem_cons, List.not_mem_nil, or_false] at hc
        rcases hc with hc | rfl | rfl | rfl
        · exact inToken_of_inNumber (hld c hc)
        · rfl
        · rfl
        · exact inToken_of_inNumber hd
      -- the run of the token is the longest, so the start of the range is a part of it
      obtain ⟨t, ht⟩ := prefix_of_run (r := high ++ rest') hpre hw hr (by simp [hs])
      exact hnr ⟨low, d, t, hl, hld, hd, by simp [ht]⟩

theorem follows_fieldMatch {value : String} (hv : WellFormedValue (.fieldMatch value)) {rest : List Char}
    (hr : Stops inToken rest) :
    Follows .token (':' :: (value.toList ++ rest)) (.fieldMatch value) rest ∧
      ∀ lower k rest', Follows lower (':' :: (value.toList ++ rest)) k rest' →
        Shape.token.rank ≤ lower.rank := by
  obtain ⟨hne, hw, hnr⟩ := hv
  have hne' : value.toList ≠ [] := fun e => hne (String.toList_eq_nil_iff.mp e)
  constructor
  · have := Follows.token hne' hw hr
    rwa [String.ofList_toList] at this
  · intro lower k rest' h
    cases lower with
    | phrase => exact absurd h (not_follows_phrase hne' hw)
    | range => exact absurd h (not_follows_range hw hr hnr)
    | token => exact Nat.le_refl _

theorem follows_digits {low high rest : List Char} (hl : low ≠ [])
    (hld : ∀ c ∈ low, inNumber c = true) (hh : high ≠ []) (hhd : ∀ c ∈ high, inNumber c = true)
    (hr : Stops inNumber rest) :
    Follows .range (':' :: (low ++ '.' :: '.' :: (high ++ rest)))
        (.numericRange (capped (decimal low)) (capped (decimal high))) rest ∧
      ∀ lower k rest', Follows lower (':' :: (low ++ '.' :: '.' :: (high ++ rest))) k rest' →
        Shape.range.rank ≤ lower.rank := by
  refine ⟨.range hl hld hh hhd hr, fun lower k rest' h => ?_⟩
  cases lower with
  | phrase => exact absurd h (not_follows_phrase hl fun c hc => inToken_of_inNumber (hld c hc))
  | range => exact Nat.le_refl _
  | token => exact Nat.le_of_lt (Nat.lt_succ_self _)

theorem follows_numericRange (min max : UInt64) {rest : List Char} (hr : Stops inToken rest) :
    Follows .range (':' :: (valueChars (.numericRange min max) ++ rest)) (.numericRange min max) rest ∧
      ∀ lower k rest', Follows lower (':' :: (valueChars (.numericRange min max) ++ rest)) k rest' →
        Shape.range.rank ≤ lower.rank := by
  have hd : ∀ n, ∀ c ∈ Nat.toDigits 10 n, inNumber c = true := fun n c hc => by
    rw [inNumber_eq]
    exact Nat.isDigit_of_mem_toDigits (by decide) (by decide) hc
  have h := follows_digits Nat.toDigits_ne_nil (hd min.toNat) Nat.toDigits_ne_nil (hd max.toNat)
    (hr.mono fun c => inToken_of_inNumber)
  simpa [valueChars, decimal, capped_toNat] using h

theorem follows_value {c : Constraint} (hc : WellFormedValue c) {rest : List Char}
    (hr : Stops inToken rest) :
    ∃ shape, Follows shape (':' :: (valueChars c ++ rest)) c rest ∧
      ∀ lower k rest', Follows lower (':' :: (valueChars c ++ rest)) k rest' →
        shape.rank ≤ lower.rank := by
  cases c with
  | exactPhrase value =>
    refine ⟨.phrase, ?_, fun _ _ _ _ => Nat.zero_le _⟩
    have h : Follows .phrase (':' :: '"' :: (value.toList ++ '"' :: rest))
        (.exactPhrase (String.ofList value.toList)) rest :=
      .phrase (fun e => hc.1 (String.toList_eq_nil_iff.mp e)) hc.2
    simpa [valueChars] using h
  | fieldMatch value => exact ⟨.token, follows_fieldMatch hc hr⟩
  | numericRange min max => exact ⟨.range, follows_numericRange min max hr⟩

theorem found_fragment {p : String × Constraint} (hp : WellFormed p) {rest : List Char}
    (hr : Stops inToken rest) : found (fragmentChars p ++ rest) = p :: found rest := by
  obtain ⟨hn, hw, hv⟩ := hp
  obtain ⟨shape, hf, hleast⟩ := follows_value hv hr
  have h := found_follows (fun e => hn (String.toList_eq_nil_iff.mp e)) hw hf hleast
  rw [String.ofList_toList] at h
  simpa [fragmentChars] using h

/-! ## The main statement -/

theorem found_rendered : ∀ (l : List (String × Constraint)) (seps : List (List Char)) {trail : List Char},
    (∀ p ∈ l, WellFormed p) → (∀ s ∈ seps, Separator s) → seps.length = l.length - 1 →
    Trailing trail → found (rendered l seps trail) = l
  | [], _, _, _, _, _, ht => found_of_noColon ht.1.1
  | [p], _, _, hl, _, _, ht => by
    rw [rendered, found_fragment (hl p (List.mem_cons_self ..)) ht.2, found_of_noColon ht.1.1]
  | p :: p' :: rest, [], _, _, _, hlen, _ => by simp at hlen
  | p :: p' :: rest, sep :: seps, trail, hl, hs, hlen, ht => by
    obtain ⟨hne, ⟨hquiet, hends⟩, _, hstarts⟩ := hs sep (List.mem_cons_self ..)
    have hst : Stops inToken (sep ++ rendered (p' :: rest) seps trail) :=
      hstarts.append fun e => absurd e hne
    simp only [rendered, List.headD_cons, List.tail_cons]
    rw [found_fragment (hl p (List.mem_cons_self ..)) hst, found_skip hquiet.1 hends,
      found_rendered (p' :: rest) seps (fun q hq => hl q (List.mem_cons_of_mem _ hq))
        (fun s h => hs s (List.mem_cons_of_mem _ h)) (by simpa using hlen) ht]

/-- A query written from filters is read as these filters. -/
theorem parse_rendered (f : Filters) (lead trail : List Char) (seps : List (List Char))
    (hf : ∀ p ∈ f.entries, WellFormed p) (hlead : Leading lead) (hseps : ∀ s ∈ seps, Separator s)
    (hlen : seps.length = f.size - 1) (htrail : Trailing trail) :
    parse (String.ofList (lead ++ rendered f.entries seps trail)) = f := by
  rw [parse_eq_ofList, String.toList_ofList, found_skip hlead.1.1 hlead.2,
    found_rendered f.entries seps hf hseps hlen htrail, Fields.ofList_entries]

theorem parse_rendered_shapes :
    parse "find name:\"a:1..2 b\" and age:0..18446744073709551615, mail:1..x@y -!" =
      Fields.ofList [("name", .exactPhrase "a:1..2 b"),
        ("age", .numericRange 0 18446744073709551615), ("mail", .fieldMatch "1..x@y")] := by
  have h := parse_rendered
    (Fields.ofList [("name", .exactPhrase "a:1..2 b"),
      ("age", .numericRange 0 18446744073709551615), ("mail", .fieldMatch "1..x@y")])
    "find ".toList " -!".toList [" and ".toList, ", ".toList]
    (by decide) (by decide) (by decide) (by decide) (by decide)
  rwa [show String.ofList _ = "find name:\"a:1..2 b\" and age:0..18446744073709551615, mail:1..x@y -!"
    by decide] at h

end RecordSearch.Query
