import RecordSearch.Proofs.Json.Numbers
import RecordSearch.Proofs.Json.Outcomes
import RecordSearch.Proofs.Json.Strings

/-!
# Lists written and read

Items and members between their commas. `items_written` and `members_written`:
a list reads back as itself if each of its values does, whatever bytes that stop
a number come after the value.
-/

namespace RecordSearch.Json

open Text (Stops stops_cons)
open Utf8 (encode encode_nil encode_cons encode_append)

/-! ## Commas -/

def following : List (List Char) → List Char
  | [] => []
  | x :: rest => ',' :: (x ++ following rest)

theorem separated_cons (x : List Char) (rest : List (List Char)) :
    separated (x :: rest) = x ++ following rest := by
  induction rest generalizing x with
  | nil => rw [separated, following, List.append_nil]
  | cons y rest ih => rw [separated, ih, following]

/-- The rest of a list, at its first text or further on. -/
def listed (first : Bool) (xs : List (List Char)) : List Char :=
  if first then separated xs else following xs

theorem listed_true (xs : List (List Char)) : listed true xs = separated xs := rfl

theorem listed_false (xs : List (List Char)) : listed false xs = following xs := rfl

theorem listed_nil (first : Bool) : listed first [] = [] := by cases first <;> rfl

theorem encode_following (x : List Char) (rest : List (List Char)) :
    encode (following (x :: rest)) = 44 :: (encode x ++ encode (following rest)) := by
  rw [following, encode_cons, encode_append]
  rfl

theorem length_le_following (xs : List (List Char)) :
    xs.length ≤ (encode (following xs)).length := by
  induction xs with
  | nil => exact Nat.le_refl _
  | cons x rest ih =>
    rw [encode_following, List.length_cons, List.length_cons, List.length_append]
    omega

theorem mem_length_le_following {x : List Char} {xs : List (List Char)} (h : x ∈ xs) :
    (encode x).length ≤ (encode (following xs)).length := by
  induction h with
  | head rest =>
    rw [encode_following, List.length_cons, List.length_append]
    omega
  | tail y _ ih =>
    rw [encode_following, List.length_cons, List.length_append]
    omega

theorem following_lt_separated (xs : List (List Char)) :
    (encode (following xs)).length < (encode (separated xs)).length + 2 := by
  cases xs with
  | nil => decide
  | cons x rest =>
    rw [separated_cons, encode_following, encode_append, List.length_cons]
    omega

theorem stops_following (xs : List (List Char)) {b : UInt8} (hb : inNumeral b = false) (rest : Bytes) :
    Stops inNumeral (encode (following xs) ++ b :: rest) := by
  cases xs with
  | nil => exact stops_cons.mpr hb
  | cons x xs => exact stops_cons.mpr rfl

/-! ## Steps to the next item or member -/

/-- Begins with a byte that is no blank and closes no list. -/
def Opens (x : List Char) : Prop := ∃ b bs, encode x = b :: bs ∧ isBlank b = false ∧ b ≠ 93

theorem skipBlanks_cons {b : UInt8} (h : isBlank b = false) (s : Bytes) :
    skipBlanks (b :: s) = b :: s := by
  rw [skipBlanks, if_neg (by simp [h])]

theorem nextItem_close (first : Bool) (rest : Bytes) : nextItem first (93 :: rest) = .ok (.closed rest) :=
  rfl

theorem nextItem_listed (first : Bool) {x : List Char} (hx : Opens x) (xs : List (List Char))
    (rest : Bytes) :
    nextItem first (encode (listed first (x :: xs)) ++ rest) =
      .ok (.more (encode x ++ (encode (following xs) ++ rest))) := by
  obtain ⟨b, bs, he, hb, h93⟩ := hx
  cases first with
  | true =>
    rw [listed_true, separated_cons, encode_append, List.append_assoc, he, List.cons_append, nextItem,
      skipBlanks_cons hb]
    simp only [if_neg h93, if_true]
  | false =>
    rw [listed_false, encode_following, List.cons_append, List.append_assoc, he, List.cons_append,
      nextItem, skipBlanks_cons rfl]
    simp only [skipBlanks_cons hb, if_neg h93]
    rfl

theorem nextKey_close (first : Bool) (rest : Bytes) : nextKey first (125 :: rest) = .ok (.closed rest) :=
  rfl

theorem nextKey_listed (first : Bool) {x : List Char} {bs : Bytes} (hx : encode x = 34 :: bs)
    (xs : List (List Char)) (rest : Bytes) :
    nextKey first (encode (listed first (x :: xs)) ++ rest) =
      .ok (.more (bs ++ (encode (following xs) ++ rest))) := by
  cases first with
  | true =>
    rw [listed_true, separated_cons, encode_append, List.append_assoc, hx]
    rfl
  | false =>
    rw [listed_false, encode_following, List.cons_append, List.append_assoc, hx]
    rfl

/-! ## Whole lists -/

section
variable {α σ : Type}

/-- The text is read as `x`, before bytes that go on no number. -/
def ReadsAs (read : Bytes → Outcome α) (text : List Char) (x : α) : Prop :=
  ∀ rest, Stops inNumeral rest → read (encode text ++ rest) = .ok (x, rest)

theorem itemsFrom_written {write : α → List Char} {read : Bytes → Outcome α} {xs : List α}
    (ho : ∀ x ∈ xs, Opens (write x)) (hr : ∀ x ∈ xs, ReadsAs read (write x) x) (fuel i : Nat)
    (hf : xs.length < fuel) (acc : List α) (rest : Bytes) :
    itemsFrom read fuel i acc (encode (listed (i == 0) (xs.map write)) ++ 93 :: rest) =
      .ok (acc.reverse ++ xs, rest) := by
  induction xs generalizing fuel i acc with
  | nil =>
    obtain ⟨fuel, rfl⟩ : ∃ n, fuel = n + 1 := ⟨fuel - 1, by omega⟩
    rw [List.map_nil, listed_nil, encode_nil, List.nil_append, itemsFrom, nextItem_close,
      List.append_nil]
  | cons x xs ih =>
    obtain ⟨fuel, rfl⟩ : ∃ n, fuel = n + 1 := ⟨fuel - 1, by omega⟩
    have hlater := ih (fun y hy => ho y (List.mem_cons_of_mem _ hy))
      (fun y hy => hr y (List.mem_cons_of_mem _ hy)) fuel (i + 1)
      (Nat.lt_of_succ_lt_succ hf) (x :: acc)
    have hread := hr x (List.mem_cons_self ..) _ (stops_following (b := 93) (xs.map write) (by decide) rest)
    have hnext := nextItem_listed (i == 0) (ho x (List.mem_cons_self ..)) (xs.map write) (93 :: rest)
    rw [List.reverse_cons, List.append_assoc, List.singleton_append] at hlater
    rw [List.map_cons, itemsFrom, hnext]
    simp only [hread, within]
    exact hlater

theorem items_written (write : α → List Char) {read : Bytes → Outcome α} {xs : List α}
    (ho : ∀ x ∈ xs, Opens (write x)) (hr : ∀ x ∈ xs, ReadsAs read (write x) x) (fuel : Nat)
    (hf : xs.length < fuel) (rest : Bytes) :
    items read fuel (encode (separated (xs.map write)) ++ 93 :: rest) = .ok (xs, rest) :=
  itemsFrom_written ho hr fuel 0 hf [] rest

theorem encode_member (name : String) (value : List Char) : ∃ bs, encode (member name value) = 34 :: bs ∧
    ∀ rest, stringTail (bs ++ rest) = .ok (name, 58 :: (encode value ++ rest)) := by
  obtain ⟨bs, hq, hs⟩ := stringTail_quote name
  refine ⟨bs ++ 58 :: encode value, ?_, fun rest => ?_⟩
  · rw [member, encode_append, hq, encode_cons]
    rfl
  · rw [List.append_assoc, hs]
    rfl

theorem valueOf_colon {read : Bytes → Outcome α} (key : String) {x : α} {s t : Bytes}
    (h : read s = .ok (x, t)) : valueOf key read (58 :: s) = .ok (x, t) := by
  have hc : colon (58 :: s) = .ok s := rfl
  rw [valueOf, hc]
  simp only [h, within]

/-- A written member leads from one state of the reader to another. -/
def Takes (entry : σ → String → Bytes → Outcome σ) (a : σ) (p : String × List Char) (b : σ) : Prop :=
  ReadsAs (fun s => entry a p.1 (58 :: s)) p.2 b

theorem membersFrom_written {entry : σ → String → Bytes → Outcome σ} {a c : σ}
    {l : List (String × List Char)} (h : Leads (Takes entry) a l c) (fuel : Nat) (hf : l.length < fuel)
    (first : Bool) (rest : Bytes) :
    membersFrom entry fuel first a
      (encode (listed first (l.map fun p => member p.1 p.2)) ++ 125 :: rest) = .ok (c, rest) := by
  induction h generalizing fuel first with
  | nil a =>
    obtain ⟨fuel, rfl⟩ : ∃ n, fuel = n + 1 := ⟨fuel - 1, by omega⟩
    rw [List.map_nil, listed_nil, encode_nil, List.nil_append, membersFrom, nextKey_close]
    rfl
  | @cons a b c p l hread _ ih =>
    obtain ⟨fuel, rfl⟩ : ∃ n, fuel = n + 1 := ⟨fuel - 1, by omega⟩
    obtain ⟨bs, hbs, hkey⟩ := encode_member p.1 p.2
    have hentry := hread _
      (stops_following (b := 125) (l.map fun p => member p.1 p.2) (by decide) rest)
    rw [List.map_cons, membersFrom, nextKey_listed first hbs]
    simp only [within, hkey, hentry]
    exact ih fuel (Nat.lt_of_succ_lt_succ hf) false

theorem takes_collect {read : Bytes → Outcome α} {text : List Char} {x : α} (h : ReadsAs read text x)
    (acc : List (String × α)) (name : String) :
    Takes (collect read) acc (name, text) ((name, x) :: acc) := by
  intro rest hs
  simp only [collect, valueOf_colon name (h rest hs)]

theorem leads_collect {write : α → List Char} {read : Bytes → Outcome α} {l : List (String × α)}
    (hr : ∀ p ∈ l, ReadsAs read (write p.2) p.2) (acc : List (String × α)) :
    Leads (Takes (collect read)) acc (l.map fun p => (p.1, write p.2)) (l.reverse ++ acc) := by
  induction l generalizing acc with
  | nil => exact .nil acc
  | cons p l ih =>
    have hlater := ih (fun q hq => hr q (List.mem_cons_of_mem _ hq)) (p :: acc)
    rw [List.reverse_cons, List.append_assoc, List.singleton_append]
    exact .cons (takes_collect (hr p (List.mem_cons_self ..)) acc p.1) hlater

theorem members_written (write : α → List Char) {read : Bytes → Outcome α} {l : List (String × α)}
    (hr : ∀ p ∈ l, ReadsAs read (write p.2) p.2) (fuel : Nat) (hf : l.length < fuel) (rest : Bytes) :
    members read fuel
      (encode (separated (l.map fun p => member p.1 (write p.2))) ++ 125 :: rest) = .ok (l, rest) := by
  have h := membersFrom_written (leads_collect hr []) fuel (by rwa [List.length_map]) true rest
  rw [List.map_map, listed_true, List.append_nil] at h
  have hlist : membersFrom (collect read) fuel true []
      (encode (separated (l.map fun p => member p.1 (write p.2))) ++ 125 :: rest) =
        .ok (l.reverse, rest) := h
  rw [members_eq, hlist]
  simp only [Except.map, List.reverse_reverse]

end

end RecordSearch.Json
