import RecordSearch.Proofs.Fields.Agreement
import RecordSearch.Store

/-!
# The identifier of a submission

A submitted record begins with its identifier: the last one among the submitted
fields, or the one it was given if there is none. The other fields follow in the
order of their first appearance: `newSubmission_entries`.
-/

namespace RecordSearch

/-! ## Names and values of a submission -/

theorem names_newSubmission (id : String) (fields : List (String × FieldValue)) :
    (newSubmission id fields).names = "id" :: ((fields.map Prod.fst).filter (· ≠ "id")).eraseDups := by
  have hid : ((Fields.empty : Record).insert "id" (.text id)).names = ["id"] := rfl
  rw [newSubmission, Fields.names_insertAll, hid, List.singleton_append]
  congr 2
  rw [List.removeAll]
  apply List.filter_congr
  intro name _
  by_cases h : name = "id" <;> simp [h]

theorem get?_newSubmission (id : String) (fields : List (String × FieldValue)) (name : String) :
    (newSubmission id fields).get? name =
      (lastValue? fields name).or (if name = "id" then some (.text id) else none) := by
  rw [newSubmission, Fields.get?_insertAll, Fields.get?_insert]
  rfl

theorem size_newSubmission (id : String) (fields : List (String × FieldValue)) :
    (newSubmission id fields).size = 1 + ((fields.map Prod.fst).toFinset.erase "id").card := by
  have hnames : (newSubmission id fields).names.toFinset = insert "id" (fields.map Prod.fst).toFinset := by
    rw [names_newSubmission]
    ext name
    by_cases h : name = "id" <;> simp [h]
  rw [Fields.size_eq_card, hnames, ← Finset.card_erase_add_one (Finset.mem_insert_self ..),
    Finset.erase_insert_eq_erase, Nat.add_comm]

/-! ## The main statement -/

/-- Submitted identifiers stand for the one that is given, wherever they stand among
the fields. Of every name, this one included, the last value counts. -/
theorem newSubmission_entries (id : String) (fields : List (String × FieldValue)) :
    ∃ rest, (newSubmission id fields).entries =
        ("id", (lastValue? fields "id").getD (.text id)) :: rest ∧
      rest.map Prod.fst = ((fields.map Prod.fst).filter (· ≠ "id")).eraseDups ∧
      (∀ name value, (name, value) ∈ rest → lastValue? fields name = some value) ∧
      (newSubmission id fields).size = 1 + ((fields.map Prod.fst).toFinset.erase "id").card := by
  have hnames := names_newSubmission id fields
  cases he : (newSubmission id fields).entries with
  | nil =>
    rw [Fields.names, he] at hnames
    cases hnames
  | cons p rest =>
    obtain ⟨first, value⟩ := p
    rw [Fields.names, he, List.map_cons, List.cons.injEq] at hnames
    obtain ⟨rfl, hrest⟩ := hnames
    have hget : ∀ name x, (name, x) ∈ ("id", value) :: rest →
        (newSubmission id fields).get? name = some x := by
      intro name x hx
      rw [← he] at hx
      exact Fields.mem_entries.mp hx
    refine ⟨rest, ?_, hrest, ?_, size_newSubmission id fields⟩
    · have hid := hget "id" value (List.mem_cons_self ..)
      rw [get?_newSubmission, if_pos rfl, Option.or_some] at hid
      rw [Option.some.inj hid]
    · intro name x hx
      have hne : name ≠ "id" := by
        have hmem : name ∈ rest.map Prod.fst := List.mem_map.mpr ⟨_, hx, rfl⟩
        rw [hrest, List.mem_eraseDups, List.mem_filter] at hmem
        exact of_decide_eq_true hmem.2
      have hname := hget name x (List.mem_cons_of_mem _ hx)
      rwa [get?_newSubmission, if_neg hne, Option.or_none] at hname

/-- Two identifiers, neither of them a text in the end, and a field that is repeated. -/
def repeatedFields : List (String × FieldValue) :=
  [("a", .text "x"), ("id", .text "y"), ("b", .other (.bool true)), ("a", .number (.natural 2)),
    ("id", .other .null)]

theorem newSubmission_entries_repeated : ∃ rest,
    (newSubmission "7" repeatedFields).entries = ("id", .other .null) :: rest ∧
    ("a", .number (.natural 2)) ∈ rest ∧
    lastValue? repeatedFields "a" = some (.number (.natural 2)) := by
  have hrun : (newSubmission "7" repeatedFields).entries =
      [("id", .other .null), ("a", .number (.natural 2)), ("b", .other (.bool true))] := rfl
  obtain ⟨rest, he, -, hvalues, -⟩ := newSubmission_entries "7" repeatedFields
  have hrest := (List.cons.inj (hrun.symm.trans he)).2
  have hmem : ("a", FieldValue.number (.natural 2)) ∈ rest := by
    rw [← hrest]
    exact List.mem_cons_self ..
  exact ⟨rest, he, hmem, hvalues _ _ hmem⟩

end RecordSearch
