import RecordSearch.Proofs.Fields.Merge
import RecordSearch.Proofs.Query.Grammar

/-!
# Joined queries

Two queries with a space between them. A name, a range and a token hold no
space, so none of them reaches over it; a phrase that does has its first quote
on one side and its last on the other. Without quotes on one side the joined
text has the fragments of both, and `parse_joined` says what becomes of the
filters.
-/

namespace RecordSearch.Query

open Text (Stops stops_cons takeWhile_append_of_stops dropWhile_append_of_stops)

/-! ## Cutting at the space -/

/-- A part that is cut off before the space, or one that reaches over it. -/
theorem split_at_space {w rest s t : List Char} (h : w ++ rest = s ++ ' ' :: t) :
    (∃ r, rest = r ++ ' ' :: t ∧ s = w ++ r) ∨ ∃ v, w = s ++ ' ' :: v ∧ t = v ++ rest := by
  rcases List.append_eq_append_iff.mp h with ⟨r, hs, hr⟩ | ⟨v, hw, ht⟩
  · exact .inl ⟨r, hr, hs⟩
  · cases v with
    | nil => exact .inl ⟨[], ht.symm, by simpa using hw.symm⟩
    | cons c v =>
      rw [List.cons_append, List.cons.injEq] at ht
      obtain ⟨rfl, ht⟩ := ht
      exact .inr ⟨v, hw, ht⟩

theorem split_before_space {w rest s t : List Char} (hw : ' ' ∉ w) (h : w ++ rest = s ++ ' ' :: t) :
    ∃ r, rest = r ++ ' ' :: t ∧ s = w ++ r := by
  rcases split_at_space h with hr | ⟨v, hv, _⟩
  · exact hr
  · exact absurd (hv ▸ List.mem_append_right _ (List.mem_cons_self ..)) hw

theorem space_notMem {p : Char → Bool} {w : List Char} (hp : p ' ' = false)
    (hw : ∀ c ∈ w, p c = true) : ' ' ∉ w := fun h => by
  rw [hw _ h] at hp; cases hp

/-- A quoted part that reaches over the space has a quote on either side of it. -/
theorem quote_sides {value s v : List Char} (h : ':' :: '"' :: (value ++ ['"']) = s ++ ' ' :: v) :
    '"' ∈ s ∧ '"' ∈ v := by
  constructor
  · match s with
    | [] => cases h
    | [c] => cases h
    | c :: d :: s =>
      simp only [List.cons_append, List.cons.injEq] at h
      simp [← h.2.1]
  · have hl := congrArg List.getLast? h
    cases v with
    | nil => simp [List.getLast?_cons] at hl
    | cons a v =>
      apply List.mem_of_getLast?
      simpa [List.getLast?_cons] using hl.symm

/-! ## Shapes before the space -/

theorem Follows.before_space {shape : Shape} {s t rest : List Char} {c : Constraint}
    (hq : '"' ∉ s ∨ '"' ∉ t) (h : Follows shape (s ++ ' ' :: t) c rest) :
    ∃ r, rest = r ++ ' ' :: t ∧ Follows shape s c r := by
  generalize hs : s ++ ' ' :: t = u at h
  cases h with
  | @phrase value _ hv hval =>
    have hw : (':' :: '"' :: (value ++ ['"'])) ++ rest = s ++ ' ' :: t := by simp [hs]
    rcases split_at_space hw with ⟨r, hr, rfl⟩ | ⟨v, hv', rfl⟩
    · refine ⟨r, hr, ?_⟩
      have : Follows .phrase (':' :: '"' :: (value ++ '"' :: r)) _ r := .phrase hv hval
      simpa using this
    · -- the phrase reaches over the space, so there are quotes on both sides
      obtain ⟨hqs, hqv⟩ := quote_sides hv'
      rcases hq with h | h
      · exact absurd hqs h
      · exact absurd (List.mem_append_left _ hqv) h
  | @range low high _ hl hld hh hhd hr =>
    have hw : ' ' ∉ ':' :: (low ++ '.' :: '.' :: high) := by
      simp [space_notMem (p := inNumber) rfl hld, space_notMem (p := inNumber) rfl hhd]
    have he : (':' :: (low ++ '.' :: '.' :: high)) ++ rest = s ++ ' ' :: t := by simp [hs]
    obtain ⟨r, rfl, rfl⟩ := split_before_space hw he
    refine ⟨r, rfl, ?_⟩
    have := Follows.range hl hld hh hhd hr.of_append
    simpa using this
  | @token value _ hv hval hr =>
    have hw : ' ' ∉ ':' :: value := by simp [space_notMem (p := inToken) rfl hval]
    have he : (':' :: value) ++ rest = s ++ ' ' :: t := by simp [hs]
    obtain ⟨r, rfl, rfl⟩ := split_before_space hw he
    exact ⟨r, rfl, Follows.token hv hval hr.of_append⟩

theorem Follows.append_space {shape : Shape} {s rest : List Char} {c : Constraint}
    (h : Follows shape s c rest) (t : List Char) :
    Follows shape (s ++ ' ' :: t) c (rest ++ ' ' :: t) := by
  cases h with
  | phrase hv hval => simpa using Follows.phrase hv hval
  | range hl hld hh hhd hr =>
    have ht : Stops inNumber (' ' :: t) := stops_cons.mpr rfl
    simpa using Follows.range hl hld hh hhd (hr.append fun _ => ht)
  | token hv hval hr =>
    have ht : Stops inToken (' ' :: t) := stops_cons.mpr rfl
    simpa using Follows.token hv hval (hr.append fun _ => ht)

theorem shapeOf?_space (shape : Shape) {s t : List Char} (hq : '"' ∉ s ∨ '"' ∉ t) :
    shapeOf? shape (s ++ ' ' :: t) = shapeOf? shape s := by
  cases h : shapeOf? shape s with
  | some r =>
    obtain ⟨w, rest, hs, hn, hf⟩ := shapeOf?_eq_some.mp h
    exact shapeOf?_eq_some.mpr ⟨w, rest ++ ' ' :: t, by simp [hs], hn, hf.append_space t⟩
  | none =>
    rw [shapeOf?_eq_none] at h ⊢
    intro c rest hf
    obtain ⟨r, _, hr⟩ := hf.before_space hq
    exact h c r hr

theorem shape?_space {s t : List Char} (hq : '"' ∉ s ∨ '"' ∉ t) :
    shape? (s ++ ' ' :: t) = shape? s := by
  have hp : phrase? (s ++ ' ' :: t) = phrase? s := shapeOf?_space .phrase hq
  have hr : range? (s ++ ' ' :: t) = range? s := shapeOf?_space .range hq
  have ht : token? (s ++ ' ' :: t) = token? s := shapeOf?_space .token hq
  rw [shape?, hp, hr, ht, shape?]

/-! ## Fragments on both sides -/

theorem fragmentAt?_space {s t : List Char} (hq : '"' ∉ s ∨ '"' ∉ t) :
    fragmentAt? (s ++ ' ' :: t) = fragmentAt? s := by
  have hstop : Stops isWord (' ' :: t) := stops_cons.mpr (by decide)
  have hd : '"' ∉ s.dropWhile isWord ∨ '"' ∉ t :=
    hq.imp_left fun h hm => h ((List.dropWhile_sublist _).subset hm)
  unfold fragmentAt?
  rw [takeWhile_append_of_stops hstop, dropWhile_append_of_stops hstop, shape?_space hd]

/-- Nothing that is found reaches over the space, and nothing is lost at it. -/
theorem found_space (s : List Char) {t : List Char} (hq : '"' ∉ s ∨ '"' ∉ t) :
    found (s ++ ' ' :: t) = found s ++ found t := by
  have hf := fragmentAt?_space hq
  induction s using piece_induction with
  | nil => rw [List.nil_append, found_none hf, found_nil, List.nil_append]
  | skip c s h ih =>
    have hs : '"' ∉ s ∨ '"' ∉ t := hq.imp_left fun h hm => h (List.mem_cons_of_mem _ hm)
    rw [List.cons_append] at hf ⊢
    rw [found_none (hf.trans h), found_none h, ih hs (fragmentAt?_space hs)]
  | take w rest field c h ih =>
    have hrest : '"' ∉ rest ∨ '"' ∉ t := hq.imp_left fun h hm => h (List.mem_append_right _ hm)
    rw [List.append_assoc] at hf ⊢
    rw [found_take (hf.trans h), found_take h, ih hrest (fragmentAt?_space hrest), List.cons_append]

theorem parse_space {q₁ q₂ : String} (hq : '"' ∉ q₁.toList ∨ '"' ∉ q₂.toList) :
    parse (q₁ ++ " " ++ q₂) = (parse q₁).insertAll (parse q₂).entries := by
  have hs : (q₁ ++ " " ++ q₂).toList = q₁.toList ++ ' ' :: q₂.toList := by simp
  rw [parse_eq_ofList, parse_eq_ofList, parse_eq_ofList, hs, found_space _ hq,
    Fields.ofList_append, Fields.insertAll_ofList]

/-! ## The main statement -/

/-- The fields of the first query keep their places, a field of both takes the
constraint of the second, and the other fields of the second follow. -/
theorem parse_joined (q₁ q₂ : String) (hq : '"' ∉ q₁.toList ∨ '"' ∉ q₂.toList) :
    parse (q₁ ++ " " ++ q₂) = (parse q₁).insertAll (parse q₂).entries ∧
    (parse (q₁ ++ " " ++ q₂)).names =
      (parse q₁).names ++ (parse q₂).names.removeAll (parse q₁).names ∧
    ∀ field, (parse (q₁ ++ " " ++ q₂)).get? field =
      ((parse q₂).get? field).or ((parse q₁).get? field) := by
  rw [parse_space hq]
  refine ⟨rfl, ?_, fun field => ?_⟩
  · exact Fields.names_insertAll_entries _ _
  · exact Fields.get?_insertAll_entries _ _ field

theorem parse_joined_overlap :
    '"' ∉ "4 b:1..2 :x d:tok a:".toList ∧
    (parse ("a:1 b:\"x y\" c:3.. e:\"" ++ " " ++ "4 b:1..2 :x d:tok a:")).entries =
      [("a", .fieldMatch "1"), ("b", .numericRange 1 2), ("c", .fieldMatch "3.."),
        ("d", .fieldMatch "tok")] := by
  have hq : '"' ∉ "4 b:1..2 :x d:tok a:".toList := by decide
  obtain ⟨h, _⟩ := parse_joined "a:1 b:\"x y\" c:3.. e:\"" "4 b:1..2 :x d:tok a:" (.inr hq)
  rw [h]
  exact ⟨hq, by decide +kernel⟩

end RecordSearch.Query
