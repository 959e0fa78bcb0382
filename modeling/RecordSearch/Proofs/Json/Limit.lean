import RecordSearch.Proofs.Json.Structs

/-!
# The limit on the depth

A written value that nests deeper than its reader allows is refused for this
reason, wherever in a list, a map or a structure the limit is passed:
`value_sinks`. What stands before the value has been read by then.
-/

namespace RecordSearch.Json

open Text (Stops)
open Utf8 (encode)

section
variable {α β σ τ : Type}

def TooDeep (r : Except Failure α) : Prop := ∃ e, r = .error e ∧ e.fault = .tooDeep

theorem tooDeep_map {r : Except Failure α} {f : α → β} : TooDeep (r.map f) ↔ TooDeep r := by
  cases r with
  | error e =>
    constructor
    · intro h
      obtain ⟨_, h, he⟩ := h
      cases h
      exact ⟨_, rfl, he⟩
    · intro h
      obtain ⟨_, h, he⟩ := h
      cases h
      exact ⟨_, rfl, he⟩
  | ok x =>
    constructor
    · intro h
      obtain ⟨_, h, -⟩ := h
      cases h
    · intro h
      obtain ⟨_, h, -⟩ := h
      cases h

theorem TooDeep.within {r : Except Failure α} (h : TooDeep r) (step : Step) :
    TooDeep (within step r) := by
  obtain ⟨e, rfl, he⟩ := h
  exact ⟨e.under step, rfl, he⟩

theorem TooDeep.ne_ok {r : Except Failure α} (h : TooDeep r) (x : α) : r ≠ .ok x := by
  obtain ⟨e, rfl, -⟩ := h
  intro h
  cases h

theorem ok_iff_of_tooDeep {r : Except Failure α} {x : α} {p : Prop} (hok : p → r = .ok x)
    (hdeep : ¬ p → TooDeep r) : r = .ok x ↔ p := by
  refine ⟨fun h => ?_, hok⟩
  by_cases hp : p
  · exact hp
  · exact absurd h ((hdeep hp).ne_ok x)

theorem tooDeep_complete {r : Outcome α} (h : TooDeep r) : TooDeep (complete r) := by
  obtain ⟨e, rfl, he⟩ := h
  exact ⟨e, rfl, he⟩

/-- The text of `v` is refused for its depth, before bytes that go on no number. -/
def Sinks (read : Bytes → Outcome α) (v : Json) : Prop :=
  ∀ rest, Stops inNumeral rest → TooDeep (read (encode v.chars ++ rest))

theorem Sinks.map {read : Bytes → Outcome α} {v : Json} (h : Sinks read v) (f : α → β) :
    Sinks (fun s => (read s).map fun r => (f r.1, r.2)) v := by
  intro rest hs
  exact tooDeep_map.mpr (h rest hs)

theorem Sinks.complete {read : Bytes → Outcome α} {v : Json} (h : Sinks read v) :
    TooDeep (Json.complete (read (Utf8.ofString v.text))) := by
  have hread := h [] Text.stops_nil
  rw [List.append_nil] at hread
  rw [ofString_text]
  exact tooDeep_complete hread

/-! ## Items -/

theorem itemsFrom_sinks {toJson : α → Json} {read : Bytes → Outcome α} {xs : List α}
    (h : ∀ x ∈ xs, Reads read (toJson x) x ∨ Sinks read (toJson x))
    (hd : ∃ x ∈ xs, Sinks read (toJson x))
    (fuel i : Nat) (hf : xs.length < fuel) (acc : List α) (rest : Bytes) :
    TooDeep (itemsFrom read fuel i acc
      (encode (listed (i == 0) (xs.map fun x => (toJson x).chars)) ++ 93 :: rest)) := by
  induction xs generalizing fuel i acc with
  | nil =>
    obtain ⟨x, hx, -⟩ := hd
    cases hx
  | cons x xs ih =>
    obtain ⟨fuel, rfl⟩ : ∃ n, fuel = n + 1 := ⟨fuel - 1, by omega⟩
    have hstops := stops_following (b := 93) (xs.map fun x => (toJson x).chars) (by decide) rest
    rw [List.map_cons, itemsFrom, nextItem_listed (i == 0) (opens_chars (toJson x))]
    dsimp only
    by_cases hx : Sinks read (toJson x)
    · obtain ⟨e, he, hfault⟩ := (hx _ hstops).within (.index i)
      rw [he]
      exact ⟨e, rfl, hfault⟩
    · -- the item is read, so one of those after it is refused
      have hread := (h x (List.mem_cons_self ..)).resolve_right hx
      have hlater : ∃ y ∈ xs, Sinks read (toJson y) := by
        obtain ⟨y, hy, hsinks⟩ := hd
        rcases List.mem_cons.mp hy with rfl | hy
        · exact absurd hsinks hx
        · exact ⟨y, hy, hsinks⟩
      rw [hread _ hstops]
      exact ih (fun y hy => h y (List.mem_cons_of_mem _ hy)) hlater fuel (i + 1)
        (Nat.lt_of_succ_lt_succ hf) (x :: acc)

theorem items_sinks {toJson : α → Json} {read : Bytes → Outcome α} {xs : List α}
    (h : ∀ x ∈ xs, Reads read (toJson x) x ∨ Sinks read (toJson x))
    (hd : ∃ x ∈ xs, Sinks read (toJson x))
    {fuel : Nat} (hf : (encode (Json.array (xs.map toJson)).chars).length < fuel) (rest : Bytes) :
    TooDeep (items read fuel (encode (separated (charsItems (xs.map toJson))) ++ 93 :: rest)) := by
  have hcount := length_lt_array (xs.map toJson)
  rw [List.length_map] at hcount
  rw [charsItems_eq, List.map_map]
  exact itemsFrom_sinks h hd fuel 0 (by omega) [] rest

theorem listOf_sinks {toJson : α → Json} {read : Nat → Bytes → Outcome α} {fuel depth : Nat}
    {xs : List α} (h : ∀ x ∈ xs, Reads (read depth) (toJson x) x ∨ Sinks (read depth) (toJson x))
    (hd : ∃ x ∈ xs, Sinks (read depth) (toJson x))
    (hf : (encode (Json.array (xs.map toJson)).chars).length < fuel) :
    Sinks (listOf fuel read (depth + 1)) (.array (xs.map toJson)) := by
  intro rest _
  rw [encode_array, listOf, opened_cons rfl]
  exact items_sinks h hd hf rest

/-! ## Members -/

/-- The members of a list are taken up to one that is refused for its depth. -/
inductive Sinking (entry : σ → String → Bytes → Outcome σ) : σ → List (String × Json) → Prop
  | here {a : σ} {name : String} {v : Json} {l : List (String × Json)} :
      Sinks (fun s => entry a name (58 :: s)) v → Sinking entry a ((name, v) :: l)
  | later {a b : σ} {name : String} {v : Json} {l : List (String × Json)} :
      Takes entry a (name, v.chars) b → Sinking entry b l →
      Sinking entry a ((name, v) :: l)

theorem membersFrom_sinks {entry : σ → String → Bytes → Outcome σ} {a : σ}
    {l : List (String × Json)} (h : Sinking entry a l) (fuel : Nat) (hf : l.length < fuel)
    (first : Bool) (rest : Bytes) :
    TooDeep (membersFrom entry fuel first a
      (encode (listed first (charsMembers l)) ++ 125 :: rest)) := by
  induction h generalizing fuel first with
  | @here a name v l hsinks =>
    obtain ⟨fuel, rfl⟩ : ∃ n, fuel = n + 1 := ⟨fuel - 1, by omega⟩
    obtain ⟨bs, hbs, hkey⟩ := encode_member name v.chars
    obtain ⟨e, he, hfault⟩ :=
      hsinks _ (stops_following (b := 125) (charsMembers l) (by decide) rest)
    rw [charsMembers, membersFrom, nextKey_listed first hbs]
    simp only [within, hkey, he]
    exact ⟨e, rfl, hfault⟩
  | @later a b name v l hread _ ih =>
    obtain ⟨fuel, rfl⟩ : ∃ n, fuel = n + 1 := ⟨fuel - 1, by omega⟩
    obtain ⟨bs, hbs, hkey⟩ := encode_member name v.chars
    have hentry := hread _ (stops_following (b := 125) (charsMembers l) (by decide) rest)
    rw [charsMembers, membersFrom, nextKey_listed first hbs]
    simp only [within, hkey, hentry]
    exact ih fuel (Nat.lt_of_succ_lt_succ hf) false

theorem valueOf_sinks {read : Bytes → Outcome α} {v : Json} (key : String) (h : Sinks read v) :
    Sinks (fun s => valueOf key read (58 :: s)) v := by
  intro rest hs
  have hc : colon (58 :: (encode v.chars ++ rest)) = .ok (encode v.chars ++ rest) := rfl
  simp only [valueOf, hc]
  exact (h rest hs).within (.key key)

theorem collect_sinks {read : Bytes → Outcome α} {v : Json} (h : Sinks read v)
    (acc : List (String × α)) (key : String) : Sinks (fun s => collect read acc key (58 :: s)) v := by
  intro rest hs
  obtain ⟨e, he, hfault⟩ := valueOf_sinks key h rest hs
  simp only [collect, he]
  exact ⟨e, rfl, hfault⟩

theorem sinking_collect {read : Bytes → Outcome Json} {l : List (String × Json)}
    (h : ∀ p ∈ l, Reads read p.2 p.2 ∨ Sinks read p.2) (hd : ∃ p ∈ l, Sinks read p.2)
    (acc : List (String × Json)) : Sinking (collect read) acc l := by
  induction l generalizing acc with
  | nil =>
    obtain ⟨p, hp, -⟩ := hd
    cases hp
  | cons p l ih =>
    by_cases hp : Sinks read p.2
    · exact .here (collect_sinks hp acc p.1)
    · have hread := (h p (List.mem_cons_self ..)).resolve_right hp
      have hlater : ∃ q ∈ l, Sinks read q.2 := by
        obtain ⟨q, hq, hsinks⟩ := hd
        rcases List.mem_cons.mp hq with rfl | hq
        · exact absurd hsinks hp
        · exact ⟨q, hq, hsinks⟩
      exact .later (takes_collect hread acc p.1)
        (ih (fun q hq => h q (List.mem_cons_of_mem _ hq)) hlater _)

theorem structMember_sinks {fields : List (FieldReader σ)} {f : FieldReader σ} {fuel depth : Nat}
    {a : σ} {name : String} {v : Json} (hf : fields.find? (fun f => f.name == name) = some f)
    (hset : f.isSet a = false) (h : Sinks (f.read depth a) v) :
    Sinks (fun s => structMember fuel depth fields a name (58 :: s)) v := by
  intro rest hs
  simp only [structMember, hf, hset]
  exact valueOf_sinks name h rest hs

theorem structOf_sinks {r : StructReader σ τ} {fuel depth : Nat} {l : List (String × Json)}
    (h : Sinking (structMember fuel depth r.fields) r.start l)
    (hf : (encode (Json.object l).chars).length < fuel) :
    Sinks (structOf r fuel (depth + 1)) (.object l) := by
  intro rest _
  have hcount := length_lt_object l
  obtain ⟨e, he, hfault⟩ := membersFrom_sinks h fuel (by omega) true rest
  rw [listed_true] at he
  simp only [structOf]
  rw [encode_object, opened_cons rfl]
  simp only [he, finished]
  exact ⟨e, rfl, hfault⟩

end

/-! ## Values -/

theorem exists_deep_item {d : Nat} {items : List Json} (h : d + 1 < (Json.array items).depth) :
    ∃ v ∈ items, d < v.depth := by
  have hle : ¬ depthItems items ≤ d := by
    rw [depth] at h
    omega
  rw [depthItems_le_iff] at hle
  simpa using hle

theorem exists_deep_member {d : Nat} {l : List (String × Json)} (h : d + 1 < (Json.object l).depth) :
    ∃ p ∈ l, d < p.2.depth := by
  have hle : ¬ depthMembers l ≤ d := by
    rw [depth] at h
    omega
  rw [depthMembers_le_iff] at hle
  simpa using hle

theorem sinks_array {fuel depth : Nat} {vs : List Json}
    (h : ∀ v ∈ vs, Reads (value fuel depth) v v ∨ Sinks (value fuel depth) v)
    (hd : ∃ v ∈ vs, Sinks (value fuel depth) v)
    (hf : (encode (Json.array vs).chars).length < fuel) :
    Sinks (value fuel (depth + 1)) (.array vs) := by
  intro rest _
  rw [← List.map_id vs] at hf
  have hitems : TooDeep (items (value fuel depth) fuel
      (encode (separated (charsItems (vs.map id))) ++ 93 :: rest)) := items_sinks h hd hf rest
  rw [List.map_id] at hitems
  rw [encode_array]
  exact tooDeep_map (f := fun r => (Json.array r.1, r.2)).mpr hitems

theorem sinks_object {fuel depth : Nat} {l : List (String × Json)}
    (h : ∀ p ∈ l, Reads (value fuel depth) p.2 p.2 ∨ Sinks (value fuel depth) p.2)
    (hd : ∃ p ∈ l, Sinks (value fuel depth) p.2)
    (hf : (encode (Json.object l).chars).length < fuel) :
    Sinks (value fuel (depth + 1)) (.object l) := by
  intro rest _
  have hcount := length_lt_object l
  have hmembers := membersFrom_sinks (sinking_collect h hd []) fuel (by omega) true rest
  have hlisted : TooDeep (members (value fuel depth) fuel
      (encode (separated (charsMembers l)) ++ 125 :: rest)) := by
    rw [members_eq]
    exact tooDeep_map.mpr hmembers
  rw [encode_object]
  exact tooDeep_map (f := fun r => (Json.object r.1, r.2)).mpr hlisted

/-- A value that nests deeper than the reader allows is refused for that. The
fuel is counted in bytes. -/
theorem value_sinks (depth : Nat) (v : Json) (hv : depth < v.depth) (fuel : Nat)
    (hf : (encode v.chars).length < fuel) : Sinks (value fuel depth) v := by
  induction depth generalizing v with
  | zero =>
    intro rest _
    cases v with
    | array items =>
      rw [encode_array]
      exact ⟨_, rfl, rfl⟩
    | object l =>
      rw [encode_object]
      exact ⟨_, rfl, rfl⟩
    | _ => cases hv
  | succ depth ih =>
    have hpart : ∀ w, (encode w.chars).length < fuel →
        Reads (value fuel depth) w w ∨ Sinks (value fuel depth) w := by
      intro w hw
      rcases Nat.lt_or_ge depth w.depth with hdeep | hdeep
      · exact .inr (ih w hdeep hw)
      · exact .inl (value_chars depth w hdeep fuel hw)
    cases v with
    | array items =>
      have hfit : ∀ w ∈ items, (encode w.chars).length < fuel := fun w hw =>
        Nat.lt_trans (item_lt_array hw) hf
      obtain ⟨w, hw, hdeep⟩ := exists_deep_item hv
      exact sinks_array (fun w hw => hpart w (hfit w hw)) ⟨w, hw, ih w hdeep (hfit w hw)⟩ hf
    | object l =>
      have hfit : ∀ p ∈ l, (encode p.2.chars).length < fuel := fun p hp =>
        Nat.lt_trans (member_lt_object hp) hf
      obtain ⟨p, hp, hdeep⟩ := exists_deep_member hv
      exact sinks_object (fun p hp => hpart p.2 (hfit p hp)) ⟨p, hp, ih p.2 hdeep (hfit p hp)⟩ hf
    | _ => cases hv

end RecordSearch.Json
