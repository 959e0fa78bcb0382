/-!
# Named values in order

A record, a set of filters and a row of a table all list named values. A name
stands once, at the place where it was first given; giving it again replaces
its value and leaves its place.
-/

namespace RecordSearch

/-! ## Putting one value into a list -/

/-- Replaces the value of a name that is there, and puts a new name last. -/
def putField {α : Type} (name : String) (value : α) : List (String × α) → List (String × α)
  | [] => [(name, value)]
  | (n, v) :: rest =>
    if n = name then (n, value) :: rest else (n, v) :: putField name value rest

theorem mem_names_putField {α : Type} (name : String) (value : α) (l : List (String × α))
    (n : String) :
    n ∈ (putField name value l).map Prod.fst ↔ n = name ∨ n ∈ l.map Prod.fst := by
  induction l with
  | nil => simp [putField]
  | cons p rest ih =>
    obtain ⟨m, v⟩ := p
    by_cases h : m = name
    · subst h; simp [putField]
    · simp only [putField, h, if_false, List.map_cons, List.mem_cons, ih]
      constructor
      · rintro (e | e | e) <;> simp [e]
      · rintro (e | e | e) <;> simp [e]

theorem nodup_putField {α : Type} (name : String) (value : α) (l : List (String × α))
    (h : (l.map Prod.fst).Nodup) : ((putField name value l).map Prod.fst).Nodup := by
  induction l with
  | nil => simp [putField]
  | cons p rest ih =>
    obtain ⟨m, v⟩ := p
    simp only [List.map_cons, List.nodup_cons] at h
    by_cases hm : m = name
    · subst hm; simpa [putField] using h
    · simp only [putField, hm, if_false, List.map_cons, List.nodup_cons]
      refine ⟨fun hin => ?_, ih h.2⟩
      rcases (mem_names_putField name value rest m).1 hin with e | e
      · exact hm e
      · exact h.1 e

/-! ## The collection -/

structure Fields (α : Type) where
  entries : List (String × α)
  nodup : (entries.map Prod.fst).Nodup
deriving DecidableEq

namespace Fields

variable {α : Type}

def empty : Fields α := ⟨[], List.nodup_nil⟩

instance : EmptyCollection (Fields α) := ⟨empty⟩

instance : Inhabited (Fields α) := ⟨empty⟩

def insert (f : Fields α) (name : String) (value : α) : Fields α :=
  ⟨putField name value f.entries, nodup_putField name value f.entries f.nodup⟩

def insertAll (f : Fields α) (l : List (String × α)) : Fields α :=
  l.foldl (fun g p => g.insert p.1 p.2) f

def ofList (l : List (String × α)) : Fields α := insertAll empty l

def get? (f : Fields α) (name : String) : Option α :=
  (f.entries.find? fun p => p.1 == name).map Prod.snd

def names (f : Fields α) : List String := f.entries.map Prod.fst

def size (f : Fields α) : Nat := f.entries.length

def isEmpty (f : Fields α) : Bool := f.entries.isEmpty

/-- The same names with equal values, in whatever order. -/
def agree (same : α → α → Bool) (f g : Fields α) : Bool :=
  f.size == g.size && f.entries.all fun p =>
    match g.get? p.1 with
    | some v => same p.2 v
    | none => false

end Fields

end RecordSearch
