import RecordSearch.Proofs.Fields.Order

/-!
# Giving one collection to another

The entries of one collection are given to another one in their order. The
names that were there keep their places, a shared name takes the new value, and
the new names follow. Giving what a list was collected to is giving the list.
-/

namespace RecordSearch

variable {α : Type}

theorem eraseDups_of_nodup : ∀ {l : List String}, l.Nodup → l.eraseDups = l
  | [], _ => rfl
  | a :: l, h => by
    obtain ⟨ha, hl⟩ := List.nodup_cons.mp h
    have hf : l.filter (fun b => !b == a) = l := by
      refine List.filter_eq_self.mpr fun b hb => ?_
      simpa using fun e : b = a => ha (e ▸ hb)
    rw [List.eraseDups_cons, hf, eraseDups_of_nodup hl]

namespace Fields

theorem ext_of_get? {f g : Fields α} (hn : f.names = g.names)
    (hv : ∀ name, f.get? name = g.get? name) : f = g := by
  refine ext (eq_of_map_fst hn fun name x y hx hy => ?_)
  rw [mem_entries, hv, mem_entries.mp hy] at hx
  exact (Option.some.inj hx).symm

theorem lastValue?_entries (f : Fields α) (name : String) :
    lastValue? f.entries name = f.get? name := by
  rw [← get?_ofList, ofList_entries]

/-! ## Names and values -/

theorem names_insertAll_entries (f g : Fields α) :
    (f.insertAll g.entries).names = f.names ++ g.names.removeAll f.names := by
  have hn : (g.names.removeAll f.names).Nodup := g.nodup.filter _
  have h := names_insertAll g.entries f
  rw [← names, eraseDups_of_nodup hn] at h
  exact h

theorem get?_insertAll_entries (f g : Fields α) (name : String) :
    (f.insertAll g.entries).get? name = (g.get? name).or (f.get? name) := by
  rw [get?_insertAll, lastValue?_entries]

theorem entries_insertAll_disjoint {f g : Fields α} (h : ∀ name ∈ f.names, name ∉ g.names) :
    (f.insertAll g.entries).entries = f.entries ++ g.entries := by
  apply entries_insertAll
  rw [List.map_append, List.nodup_append]
  refine ⟨f.nodup, g.nodup, fun a ha b hb e => ?_⟩
  subst e
  exact h a ha hb

/-! ## Lists of entries -/

theorem insertAll_insert (f g : Fields α) (name : String) (value : α) :
    f.insertAll (g.insert name value).entries = (f.insertAll g.entries).insert name value := by
  apply ext_of_get?
  · rw [names_insert, names_insertAll_entries, names_insertAll_entries, names_insert]
    by_cases hf : name ∈ f.names
    · by_cases hg : name ∈ g.names <;> simp [hf, hg, List.removeAll]
    · by_cases hg : name ∈ g.names <;> simp [hf, hg, List.removeAll]
  · intro m
    rw [get?_insert, get?_insertAll_entries, get?_insertAll_entries, get?_insert]
    by_cases h : m = name
    · simp [h]
    · simp [h]

theorem insertAll_insertAll : ∀ (l : List (String × α)) (f g : Fields α),
    f.insertAll (g.insertAll l).entries = (f.insertAll g.entries).insertAll l
  | [], _, _ => rfl
  | p :: l, f, g => by
    rw [insertAll_cons, insertAll_insertAll l, insertAll_insert, insertAll_cons]

theorem insertAll_ofList (f : Fields α) (l : List (String × α)) :
    f.insertAll (ofList l).entries = f.insertAll l :=
  insertAll_insertAll l f empty

theorem ofList_append (l m : List (String × α)) : ofList (l ++ m) = (ofList l).insertAll m :=
  List.foldl_append

end Fields

end RecordSearch
