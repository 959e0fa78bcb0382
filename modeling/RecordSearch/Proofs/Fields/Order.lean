import RecordSearch.Fields

/-!
# The order of named values

Giving a value to a name that is there replaces the value in its place; a new
name goes to the end. A list of values given one after another is looked up by
the last value of a name, and a collection given to the empty one again is
itself.
-/

namespace RecordSearch

variable {α β : Type}

/-- A name that is there takes the value in its place, a new one goes last. -/
def given (name : String) (value : α) (l : List (String × α)) : List (String × α) :=
  if name ∈ l.map Prod.fst then l.map fun p => if p.1 = name then (name, value) else p
  else l ++ [(name, value)]

/-- The value that a list gives a name last. -/
def lastValue? (l : List (String × α)) (name : String) : Option α :=
  (l.reverse.find? fun p => p.1 == name).map Prod.snd

theorem mem_of_lastValue? {l : List (String × α)} {name : String} {v : α}
    (h : lastValue? l name = some v) : (name, v) ∈ l := by
  obtain ⟨p, hp, rfl⟩ := Option.map_eq_some_iff.mp h
  have hname := List.find?_some hp
  rw [← eq_of_beq hname]
  exact List.mem_reverse.mp (List.mem_of_find?_eq_some hp)

theorem eq_of_map_fst : ∀ {l m : List (String × α)}, l.map Prod.fst = m.map Prod.fst →
    (∀ name x y, (name, x) ∈ l → (name, y) ∈ m → x = y) → l = m
  | [], m, hn, _ => (List.map_eq_nil_iff.mp hn.symm).symm
  | p :: l, [], hn, _ => by cases hn
  | (n, x) :: l, (k, y) :: m, hn, hv => by
    rw [List.map_cons, List.map_cons, List.cons.injEq] at hn
    obtain ⟨hk, hl⟩ := hn
    subst hk
    have hxy : x = y := hv n x y (List.mem_cons_self ..) (List.mem_cons_self ..)
    have hlm : l = m := eq_of_map_fst hl fun name x y hx hy =>
      hv name x y (List.mem_cons_of_mem _ hx) (List.mem_cons_of_mem _ hy)
    rw [hxy, hlm]

theorem putField_of_notMem {name : String} {value : α} : ∀ {l : List (String × α)},
    name ∉ l.map Prod.fst → putField name value l = l ++ [(name, value)]
  | [], _ => rfl
  | (n, v) :: l, h => by
    rw [List.map_cons, List.mem_cons, not_or] at h
    rw [putField, if_neg (Ne.symm h.1), putField_of_notMem h.2, List.cons_append]

theorem putField_eq_given {name : String} {value : α} : ∀ {l : List (String × α)},
    (l.map Prod.fst).Nodup → putField name value l = given name value l
  | [], _ => rfl
  | (n, v) :: l, h => by
    rw [List.map_cons, List.nodup_cons] at h
    by_cases hn : n = name
    · subst hn
      -- the name stands nowhere else, so the rest is left alone
      have hl : (l.map fun p => if p.1 = n then (n, value) else p) = l := by
        refine (List.map_congr_left fun p hp => ?_).trans (List.map_id l)
        exact if_neg fun e => h.1 (List.mem_map.mpr ⟨p, hp, e⟩)
      simp [putField, given, hl]
    · rw [putField, if_neg hn, putField_eq_given h.2]
      unfold given
      by_cases hm : name ∈ l.map Prod.fst
      · simp [hm, hn]
      · simp [hm, Ne.symm hn]

namespace Fields

theorem ext {f g : Fields α} (h : f.entries = g.entries) : f = g := by
  cases f; cases g; cases h; rfl

theorem entries_insert (f : Fields α) (name : String) (value : α) :
    (f.insert name value).entries = given name value f.entries :=
  putField_eq_given f.nodup

theorem insertAll_cons (f : Fields α) (p : String × α) (l : List (String × α)) :
    f.insertAll (p :: l) = (f.insert p.1 p.2).insertAll l := rfl

theorem entries_insertAll : ∀ (l : List (String × α)) (f : Fields α),
    ((f.entries ++ l).map Prod.fst).Nodup → (f.insertAll l).entries = f.entries ++ l
  | [], f, _ => (List.append_nil _).symm
  | p :: l, f, h => by
    have hp : p.1 ∉ f.entries.map Prod.fst := by
      intro hm
      rw [List.map_append, List.map_cons, List.nodup_append] at h
      exact h.2.2 _ hm _ (List.mem_cons_self ..) rfl
    have he : (f.insert p.1 p.2).entries = f.entries ++ [p] := putField_of_notMem hp
    rw [insertAll_cons, entries_insertAll l, he, List.append_assoc, List.singleton_append]
    rw [he, List.append_assoc, List.singleton_append]
    exact h

theorem ofList_entries (f : Fields α) : ofList f.entries = f :=
  ext (entries_insertAll f.entries empty f.nodup)

theorem names_insert (f : Fields α) (name : String) (value : α) :
    (f.insert name value).names = if name ∈ f.names then f.names else f.names ++ [name] := by
  rw [names, entries_insert, given, names]
  split
  · rw [List.map_map]
    refine List.map_congr_left fun p _ => ?_
    by_cases h : p.1 = name <;> simp [h]
  · rw [List.map_append, List.map_cons, List.map_nil]

theorem removeAll_concat (xs ys : List String) (y : String) :
    xs.removeAll (ys ++ [y]) = (xs.removeAll ys).filter fun x => !x == y := by
  rw [List.removeAll, List.removeAll, List.filter_filter]
  refine List.filter_congr fun x _ => ?_
  by_cases hx : x = y <;> simp [hx]

theorem names_insertAll : ∀ (l : List (String × α)) (f : Fields α),
    (f.insertAll l).names = f.names ++ ((l.map Prod.fst).removeAll f.names).eraseDups
  | [], f => (List.append_nil _).symm
  | p :: l, f => by
    rw [insertAll_cons, names_insertAll l, names_insert, List.map_cons, List.cons_removeAll]
    by_cases h : p.1 ∈ f.names
    · simp [h]
    · simp [h, removeAll_concat, List.eraseDups_cons]

theorem names_ofList (l : List (String × α)) : (ofList l).names = (l.map Prod.fst).eraseDups := by
  have h := names_insertAll l empty
  have hn : (empty : Fields α).names = [] := rfl
  rwa [hn, List.removeAll_nil, List.nil_append] at h

theorem get?_insert (f : Fields α) (name m : String) (value : α) :
    (f.insert name value).get? m = if m = name then some value else f.get? m := by
  unfold get? insert
  simp only
  induction f.entries with
  | nil =>
    by_cases h : name = m
    · simp [putField, h]
    · simp [putField, h, Ne.symm h]
  | cons p l ih =>
    obtain ⟨n, v⟩ := p
    simp only [putField]
    by_cases hn : n = name
    · subst hn
      by_cases h : n = m
      · simp [h]
      · simp [h, Ne.symm h]
    · by_cases h : n = m
      · subst h; simp [hn]
      · simp only [hn, if_false]
        rw [List.find?_cons_of_neg (by simpa using h), List.find?_cons_of_neg (by simpa using h), ih]

theorem get?_insertAll : ∀ (l : List (String × α)) (f : Fields α) (name : String),
    (f.insertAll l).get? name = (lastValue? l name).or (f.get? name)
  | [], _, _ => rfl
  | p :: l, f, name => by
    rw [insertAll_cons, get?_insertAll l, get?_insert]
    unfold lastValue?
    rw [List.reverse_cons, List.find?_append]
    cases l.reverse.find? fun p => p.1 == name with
    | some q => rfl
    | none =>
      by_cases h : name = p.1
      · simp [h]
      · simp [h, Ne.symm h]

theorem get?_ofList (l : List (String × α)) (name : String) :
    (ofList l).get? name = lastValue? l name :=
  (get?_insertAll l empty name).trans (Option.or_none ..)

theorem mem_entries {f : Fields α} {name : String} {value : α} :
    (name, value) ∈ f.entries ↔ f.get? name = some value := by
  obtain ⟨l, hl⟩ := f
  unfold get?
  simp only
  induction l with
  | nil => simp
  | cons p l ih =>
    obtain ⟨n, v⟩ := p
    rw [List.map_cons, List.nodup_cons] at hl
    by_cases h : n = name
    · subst h
      have hm : (n, value) ∉ l := fun hm => hl.1 (List.mem_map.mpr ⟨_, hm, rfl⟩)
      simp [hm, eq_comm]
    · rw [List.find?_cons_of_neg (by simpa using h), ← ih hl.2]
      simp [Ne.symm h]

theorem mem_of_mem_ofList {l : List (String × α)} {name : String} {value : α}
    (h : (name, value) ∈ (ofList l).entries) : (name, value) ∈ l := by
  rw [mem_entries, get?_ofList] at h
  exact mem_of_lastValue? h

end Fields

end RecordSearch
