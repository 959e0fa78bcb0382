import RecordSearch.Proofs.Query.Rendering

/-!
# Where filters come from

Every filter of a query stands in it as a fragment: its field, its value and,
for a range, digits with the values of its bounds. Such filters are well formed,
so they can be written as a query again, which is read as the same filters
(`parse_wellFormed`).
-/

namespace RecordSearch.Query

open Text (stops_dropWhile)

/-- The fragments from which an entry is read. Only of a range are there many:
its bounds may have zeros in front, and digits beyond the largest bound stand
for that bound. -/
inductive Spells : List Char → String × Constraint → Prop
  | phrase (field value : String) :
      Spells (field.toList ++ ':' :: '"' :: (value.toList ++ ['"'])) (field, .exactPhrase value)
  | range (field : String) {low high : List Char} : low ≠ [] → (∀ c ∈ low, inNumber c = true) →
      high ≠ [] → (∀ c ∈ high, inNumber c = true) →
      Spells (field.toList ++ ':' :: (low ++ '.' :: '.' :: high))
        (field, .numericRange (capped (decimal low)) (capped (decimal high)))
  | token (field value : String) :
      Spells (field.toList ++ ':' :: value.toList) (field, .fieldMatch value)

/-! ## One fragment -/

theorem Matches.spells {shape : Shape} {w rest : List Char} {field : String} {c : Constraint}
    (h : Matches shape (w ++ rest) field c rest) : Spells w (field, c) := by
  generalize hs : w ++ rest = s at h
  obtain @⟨name, tail, _, _, _, _, hf⟩ := h
  cases hf with
  | @phrase value _ _ _ =>
    have hw : w ++ rest = (name ++ ':' :: '"' :: (value ++ ['"'])) ++ rest := by simp [hs]
    rw [List.append_cancel_right hw]
    have := Spells.phrase (String.ofList name) (String.ofList value)
    rwa [String.toList_ofList, String.toList_ofList] at this
  | @range low high _ hl hld hh hhd _ =>
    have hw : w ++ rest = (name ++ ':' :: (low ++ '.' :: '.' :: high)) ++ rest := by simp [hs]
    rw [List.append_cancel_right hw]
    have := Spells.range (String.ofList name) hl hld hh hhd
    rwa [String.toList_ofList] at this
  | @token value _ _ _ _ =>
    have hw : w ++ rest = (name ++ ':' :: value) ++ rest := by simp [hs]
    rw [List.append_cancel_right hw]
    have := Spells.token (String.ofList name) (String.ofList value)
    rwa [String.toList_ofList, String.toList_ofList] at this

theorem LooksRanged.follows_range {value : List Char} (h : LooksRanged value) (rest : List Char) :
    ∃ c r, Follows .range (':' :: (value ++ rest)) c r := by
  obtain ⟨low, d, u, hne, hl, hd, rfl⟩ := h
  have hhigh : (d :: (u ++ rest)).takeWhile inNumber ≠ [] := by
    rw [List.takeWhile_cons_of_pos hd]; exact List.cons_ne_nil _ _
  have hf := Follows.range hne hl hhigh (fun c hc => List.mem_takeWhile_imp hc)
    (stops_dropWhile inNumber (d :: (u ++ rest)))
  rw [List.takeWhile_append_dropWhile] at hf
  exact ⟨_, _, by simpa using hf⟩

/-- A token that looks like a range is none: the range goes before it. -/
theorem Follows.wellFormedValue {shape : Shape} {s rest : List Char} {c : Constraint}
    (h : Follows shape s c rest)
    (hleast : ∀ lower k r, Follows lower s k r → shape.rank ≤ lower.rank) : WellFormedValue c := by
  cases h with
  | phrase hv hval =>
    rw [WellFormedValue, String.toList_ofList]
    exact ⟨fun e => hv (String.ofList_eq_empty_iff.mp e), hval⟩
  | range => trivial
  | token hv hval _ =>
    rw [WellFormedValue, String.toList_ofList]
    refine ⟨fun e => hv (String.ofList_eq_empty_iff.mp e), hval, fun hranged => ?_⟩
    obtain ⟨k, r, hf⟩ := hranged.follows_range rest
    exact absurd (hleast .range k r hf) (by decide)

theorem wellFormed_of_fragmentAt? {s : List Char} {field : String} {c : Constraint} {n : Nat}
    (h : fragmentAt? s = some (field, c, n)) : WellFormed (field, c) := by
  obtain ⟨shape, _, rest, _, _, hm, hleast⟩ := fragmentAt?_eq_some.mp h
  obtain ⟨hn, rfl, hf⟩ := matches_iff.mp hm
  refine ⟨fun e => hn (String.ofList_eq_empty_iff.mp e), fun d hd => ?_, ?_⟩
  · rw [String.toList_ofList] at hd
    rw [inName_eq]; exact List.mem_takeWhile_imp hd
  · exact hf.wellFormedValue fun lower k r hl => hleast lower _ k r (matches_iff.mpr ⟨hn, rfl, hl⟩)

theorem spells_of_fragmentAt? {w rest : List Char} {field : String} {c : Constraint}
    (h : fragmentAt? (w ++ rest) = some (field, c, w.length)) : Spells w (field, c) := by
  obtain ⟨_, v, r, hs, hlen, hm, _⟩ := fragmentAt?_eq_some.mp h
  obtain ⟨rfl, rfl⟩ := List.append_inj hs hlen
  exact hm.spells

/-! ## All that is found -/

theorem found_provenance (s : List Char) :
    ∀ p ∈ found s, WellFormed p ∧ ∃ w, Spells w p ∧ w <:+: s := by
  induction s using piece_induction with
  | nil =>
    intro p hp
    rw [found_nil] at hp; cases hp
  | skip c s h ih =>
    intro p hp
    rw [found_none h] at hp
    obtain ⟨hwell, w, hw, hin⟩ := ih p hp
    exact ⟨hwell, w, hw, List.infix_cons hin⟩
  | take w rest field c h ih =>
    intro p hp
    rw [found_take h] at hp
    cases hp with
    | head => exact ⟨wellFormed_of_fragmentAt? h, w, spells_of_fragmentAt? h, (List.prefix_append ..).isInfix⟩
    | tail _ hp =>
      obtain ⟨hwell, v, hv, hin⟩ := ih p hp
      exact ⟨hwell, v, hv, hin.trans (List.suffix_append ..).isInfix⟩

/-! ## Writing filters again -/

/-- The entries in order, with single spaces between them. -/
def spaced (l : List (String × Constraint)) : String :=
  String.ofList ([' '].intercalate (l.map fragmentChars))

theorem rendered_spaces : ∀ l : List (String × Constraint),
    rendered l (List.replicate (l.length - 1) [' ']) [] = [' '].intercalate (l.map fragmentChars)
  | [] => rfl
  | [p] => by simp [rendered]
  | p :: p' :: l => by
    have ih := rendered_spaces (p' :: l)
    simp only [List.length_cons, Nat.add_sub_cancel] at ih
    simp [rendered, List.replicate_succ, ih]

theorem parse_spaced {f : Filters} (h : ∀ p ∈ f.entries, WellFormed p) :
    parse (spaced f.entries) = f := by
  have hseps : ∀ s ∈ List.replicate (f.entries.length - 1) [' '], Separator s := fun s hs => by
    rw [List.eq_of_mem_replicate hs]; decide
  rw [parse_eq_ofList, spaced, String.toList_ofList, ← rendered_spaces,
    found_rendered _ _ h hseps List.length_replicate (by decide), Fields.ofList_entries]

example : spaced [("a", .numericRange 1 20), ("b", .exactPhrase "c: d")] = "a:1..20 b:\"c: d\"" := by
  decide

/-! ## The main statement -/

/-- Every filter is well formed and stands in the query, no field has two, and
the filters written as a query are read again. -/
theorem parse_wellFormed (query : String) :
    (∀ p ∈ (parse query).entries, WellFormed p ∧ ∃ w, Spells w p ∧ w <:+: query.toList) ∧
    (parse query).names.Nodup ∧
    parse (spaced (parse query).entries) = parse query := by
  have h : ∀ p ∈ (parse query).entries, WellFormed p ∧ ∃ w, Spells w p ∧ w <:+: query.toList :=
    fun p hp => found_provenance query.toList p (Fields.mem_of_mem_ofList hp)
  exact ⟨h, (parse query).nodup, parse_spaced fun p hp => (h p hp).1⟩

theorem parse_wellFormed_bounds :
    ("n", .numericRange 7 18446744073709551615) ∈
      (parse "n:1 :n:007..99999999999999999999x \"m:2..y").entries ∧
    ∃ w, Spells w ("n", .numericRange 7 18446744073709551615) ∧
      w <:+: "n:1 :n:007..99999999999999999999x \"m:2..y".toList := by
  have hm : ("n", .numericRange 7 18446744073709551615) ∈
      (parse "n:1 :n:007..99999999999999999999x \"m:2..y").entries := by decide +kernel
  obtain ⟨_, hw⟩ := (parse_wellFormed "n:1 :n:007..99999999999999999999x \"m:2..y").1 _ hm
  exact ⟨hm, hw⟩

end RecordSearch.Query
