import RecordSearch.Record

/-!
# Equality of values

Every value equals itself: there is no number among the values that does not.
-/

namespace RecordSearch

theorem Number.equal_refl (n : Number) : n.equal n = true := by
  cases n <;> simp [Number.equal, Binary64.equal]

namespace Json

mutual

theorem equal_refl : ∀ v : Json, v.equal v = true
  | .null => rfl
  | .bool _ => by simp [equal]
  | .number n => by rw [equal, n.equal_refl]
  | .string _ => by simp [equal]
  | .array items => by rw [equal, equalItems_refl items]
  | .object l => by rw [equal, equalMembers_refl l]

theorem equalItems_refl : ∀ items : List Json, equalItems items items = true
  | [] => rfl
  | v :: rest => by simp [equalItems, equal_refl v, equalItems_refl rest]

theorem equalMembers_refl : ∀ l : List (String × Json), equalMembers l l = true
  | [] => rfl
  | (_, v) :: rest => by simp [equalMembers, equal_refl v, equalMembers_refl rest]

end

end Json

theorem FieldValue.equal_refl (x : FieldValue) : x.equal x = true := by
  cases x with
  | text s => simp [FieldValue.equal]
  | number n => exact n.equal_refl
  | other v => exact v.equal_refl

end RecordSearch
