import RecordSearch.Proofs.Json.Members
import RecordSearch.Proofs.Json.Structs
import RecordSearch.Proofs.Record.RoundTrip
import RecordSearch.Query.Encoding

/-!
# Constraints and filters read from JSON

A text is read as a constraint if and only if it holds a value that stands for
it: an object that gives the variant and each of its values once, wherever they
are and whatever else is there, or a list of just these (`read_eq_ok`).
-/

namespace RecordSearch

open Json (Reads Slot valuesOf valueOf_related leads_slot_none slot_eq slot_ne changed_eq_ok
  map_eq_ok_iff bind_eq_ok required_eq_ok foldlM_eq_ok)

namespace Constraint

/-! ## What stands for a constraint -/

def kind : Constraint → Variant
  | .exactPhrase _ => .exactPhrase
  | .fieldMatch _ => .fieldMatch
  | .numericRange .. => .numericRange

def parts : Constraint → List (String × Json)
  | .exactPhrase value => [("value", .string value)]
  | .fieldMatch value => [("value", .string value)]
  | .numericRange min max => [("min", .number (.natural min)), ("max", .number (.natural max))]

inductive Denotes : Json → Constraint → Prop
  | object {l : List (String × Json)} {c : Constraint} :
      valuesOf tagName l = [.string c.kind.name] → (∀ p ∈ c.parts, valuesOf p.1 l = [p.2]) →
      Denotes (.object l) c
  | list (c : Constraint) : Denotes (.array (.string c.kind.name :: c.parts.map Prod.snd)) c

theorem toJson_eq (c : Constraint) : c.toJson = tagged c.kind c.parts := by cases c <;> rfl

theorem denotes_toJson (c : Constraint) : Denotes c.toJson c := by
  rw [toJson_eq]
  apply Denotes.object
  · cases c <;> simp [valuesOf, parts, kind, tagName]
  · cases c <;> simp [valuesOf, parts, tagName]

/-! ## The values of a variant -/

theorem stringIn_eq_ok {v : Json} {s : String} : stringIn v = .ok s ↔ v = .string s := by
  cases v <;> simp [stringIn]

theorem naturalIn_eq_ok {v : Json} {n : UInt64} : naturalIn v = .ok n ↔ v = .number (.natural n) := by
  cases v with
  | number m => cases m <;> simp [naturalIn, Json.Number.naturalOf]
  | _ => simp [naturalIn]

theorem setOnce_eq_ok {α : Type} {name : String} {read : Json → Except Json.Fault α}
    {a b : Option α} {p : String × Json} (h : p.1 = name) :
    setOnce name read a p.2 = .ok b ↔ Slot name (fun v x => read v = .ok x) a p b := by
  rw [slot_eq h]
  cases a with
  | some x => simp [setOnce]
  | none => simp [setOnce, map_eq_ok_iff]

theorem textMember_eq_ok {a b : Option String} {p : String × Json} :
    textMember a p = .ok b ↔ Slot "value" (fun v x => stringIn v = .ok x) a p b := by
  rw [textMember]
  by_cases h : p.1 = "value"
  · rw [if_pos h, setOnce_eq_ok h]
  · rw [if_neg h, slot_ne h, Except.ok.injEq, eq_comm]

theorem boundsMember_eq_ok {a b : Option UInt64 × Option UInt64} {p : String × Json} :
    boundsMember a p = .ok b ↔ Slot "min" (fun v x => naturalIn v = .ok x) a.1 p b.1 ∧
      Slot "max" (fun v x => naturalIn v = .ok x) a.2 p b.2 := by
  rw [boundsMember]
  by_cases hmin : p.1 = "min"
  · have hmax : p.1 ≠ "max" := by simp [hmin]
    simp only [if_pos hmin, map_eq_ok_iff, setOnce_eq_ok hmin, slot_ne hmax, Prod.ext_iff]
    grind
  · by_cases hmax : p.1 = "max"
    · simp only [if_neg hmin, if_pos hmax, map_eq_ok_iff, setOnce_eq_ok hmax, slot_ne hmin, Prod.ext_iff]
      grind
    · simp only [if_neg hmin, if_neg hmax, slot_ne hmin, slot_ne hmax, Except.ok.injEq, Prod.ext_iff]
      grind

theorem textOfMembers_eq_ok {l : List (String × Json)} {s : String} :
    textOfMembers l = .ok s ↔ valuesOf "value" l = [.string s] := by
  simp only [textOfMembers, bind_eq_ok, required_eq_ok, foldlM_eq_ok, textMember_eq_ok, exists_eq_right,
    leads_slot_none, stringIn_eq_ok, exists_eq_right]

theorem boundsOfMembers_eq_ok {l : List (String × Json)} {min max : UInt64} :
    boundsOfMembers l = .ok (min, max) ↔
      valuesOf "min" l = [.number (.natural min)] ∧ valuesOf "max" l = [.number (.natural max)] := by
  simp only [boundsOfMembers, bind_eq_ok, required_eq_ok, foldlM_eq_ok, boundsMember_eq_ok, leads_prod]
  constructor
  · intro h
    obtain ⟨⟨_, _⟩, h, m, rfl, n, rfl, he⟩ := h
    cases he
    simpa only [leads_slot_none, naturalIn_eq_ok, exists_eq_right] using h
  · intro h
    refine ⟨(some min, some max), ?_, min, rfl, max, rfl, rfl⟩
    simpa only [leads_slot_none, naturalIn_eq_ok, exists_eq_right] using h

theorem ofMembers_eq_ok {v : Variant} {l : List (String × Json)} {c : Constraint} :
    ofMembers v l = .ok c ↔ c.kind = v ∧ ∀ p ∈ c.parts, valuesOf p.1 l = [p.2] := by
  cases v with
  | numericRange =>
    simp only [ofMembers, map_eq_ok_iff, Prod.exists, boundsOfMembers_eq_ok]
    cases c <;> simp [kind, parts]
  | _ =>
    simp only [ofMembers, map_eq_ok_iff, textOfMembers_eq_ok]
    cases c <;> simp [ofText, kind, parts]

theorem textOfItems_eq_ok {v : Variant} {xs : List Json} {s : String} :
    textOfItems v xs = .ok s ↔ xs = [.string s] := by
  rcases xs with - | ⟨x, - | ⟨y, rest⟩⟩
  · simp [textOfItems]
  · simp [textOfItems, stringIn_eq_ok]
  · simp [textOfItems, bind_eq_ok]

theorem boundsOfItems_eq_ok {v : Variant} {xs : List Json} {min max : UInt64} :
    boundsOfItems v xs = .ok (min, max) ↔
      xs = [.number (.natural min), .number (.natural max)] := by
  rcases xs with - | ⟨x, - | ⟨y, rest⟩⟩
  · simp [boundsOfItems]
  · simp [boundsOfItems, bind_eq_ok]
  · cases rest with
    | nil => simp [boundsOfItems, bind_eq_ok, naturalIn_eq_ok]
    | cons z rest => simp [boundsOfItems, bind_eq_ok]

theorem ofItems_eq_ok {v : Variant} {xs : List Json} {c : Constraint} :
    ofItems v xs = .ok c ↔ c.kind = v ∧ xs = c.parts.map Prod.snd := by
  cases v with
  | numericRange =>
    simp only [ofItems, map_eq_ok_iff, Prod.exists, boundsOfItems_eq_ok]
    cases c <;> simp [kind, parts]
  | _ =>
    simp only [ofItems, map_eq_ok_iff, textOfItems_eq_ok]
    cases c <;> simp [ofText, kind, parts]

/-! ## Reading a constraint -/

theorem find_variant {name : String} {v : Variant} :
    (Variant.all.find? fun v => v.name == name) = some v ↔ name = v.name := by
  constructor
  · intro h
    have hv := List.find?_some h
    exact (beq_iff_eq.mp hv).symm
  · intro h
    subst h
    cases v <;> rfl

/-- The name of a variant, as a value. -/
def Names (w : Json) (v : Variant) : Prop := w = .string v.name

theorem variant_eq_ok (fuel depth : Nat) (s : Bytes) (v : Variant) (t : Bytes) :
    variant s = .ok (v, t) ↔ ∃ w, Json.value fuel depth s = .ok (w, t) ∧ Names w v := by
  simp only [Names, exists_eq_right]
  rw [Json.value_eq_string, ← Json.stringAs_eq_ok, variant]
  cases Json.stringAs "variant identifier" s with
  | error e => simp
  | ok r =>
    obtain ⟨name, u⟩ := r
    simp only [Except.ok.injEq, Prod.mk.injEq, ← find_variant (v := v)]
    cases Variant.all.find? fun v => v.name == name with
    | none => simp [Json.failAt]
    | some w => simp

/-- The members besides the tag, last first. -/
def Others (acc : List (String × Json)) (p : String × Json) (acc' : List (String × Json)) : Prop :=
  acc' = if p.1 = tagName then acc else p :: acc

theorem leads_others {acc others l : List (String × Json)} :
    Leads Others acc l others ↔ others = (l.filter fun p => p.1 != tagName).reverse ++ acc := by
  induction l generalizing acc with
  | nil => simp [leads_nil]
  | cons p l ih =>
    by_cases h : p.1 = tagName
    · simp [leads_cons, Others, ih, h]
    · simp [leads_cons, Others, ih, h]

/-- The first tag is kept apart from the other members, and there is no second. -/
def Sorts (a : Members) (p : String × Json) (b : Members) : Prop :=
  Slot tagName Names a.1 p b.1 ∧ Others a.2 p b.2

theorem taggedMember_eq_ok (fuel depth : Nat) (a : Members) (key : String) (s : Bytes) (b : Members)
    (t : Bytes) : taggedMember fuel depth a key s = .ok (b, t) ↔
      ∃ v, Json.valueOf key (Json.value fuel depth) s = .ok (v, t) ∧ Sorts a (key, v) b := by
  rw [taggedMember]
  by_cases h : key = tagName
  · simp only [if_pos h, Sorts, Slot, Others]
    cases a.1 with
    | some x => simp [Json.failAt]
    | none =>
      constructor
      · intro hr
        obtain ⟨⟨x, u⟩, hx, he⟩ := Json.map_eq_ok hr
        cases he
        obtain ⟨v, hv, hname⟩ := (valueOf_related (variant_eq_ok fuel depth)).mp hx
        exact ⟨v, hv, ⟨rfl, x, hname, rfl⟩, rfl⟩
      · intro h
        obtain ⟨v, hv, ⟨-, x, hname, hb⟩, ho⟩ := h
        obtain ⟨_, _⟩ := b
        subst hb ho
        have hread := (valueOf_related (variant_eq_ok fuel depth)).mpr ⟨v, hv, hname⟩
        simp [hread, Except.map]
  · simp only [if_neg h, Sorts, Slot, Others]
    constructor
    · intro hr
      obtain ⟨⟨v, u⟩, hv, he⟩ := Json.map_eq_ok hr
      cases he
      exact ⟨v, hv, rfl, rfl⟩
    · intro h
      obtain ⟨v, hv, hb, ho⟩ := h
      obtain ⟨_, _⟩ := b
      subst hb ho
      rw [hv]
      rfl

theorem settled_eq_ok {r : Except Json.Fault Constraint} {s t : Bytes} {c : Constraint} :
    settled r s = .ok (c, t) ↔ r = .ok c ∧ s = t := by
  cases r <;> simp [settled, Json.failAt]

theorem denotes_object {l : List (String × Json)} {c : Constraint} : Denotes (.object l) c ↔
    valuesOf tagName l = [.string c.kind.name] ∧ ∀ p ∈ c.parts, valuesOf p.1 l = [p.2] := by
  constructor
  · intro h
    cases h with
    | object htag hparts => exact ⟨htag, hparts⟩
  · intro h
    obtain ⟨htag, hparts⟩ := h
    exact .object htag hparts

theorem ne_tag {c : Constraint} {p : String × Json} (h : p ∈ c.parts) : p.1 ≠ tagName := by
  cases c <;> simp [parts] at h
  · simp [h, tagName]
  · simp [h, tagName]
  · rcases h with rfl | rfl <;> simp [tagName]

theorem denotes_object_iff {l : List (String × Json)} {c : Constraint} :
    Denotes (.object l) c ↔
      ∃ v others, Leads Sorts (none, []) l (some v, others) ∧ ofMembers v others.reverse = .ok c := by
  have hparts : (∀ p ∈ c.parts, valuesOf p.1 (l.filter fun p => p.1 != tagName) = [p.2]) ↔
      ∀ p ∈ c.parts, valuesOf p.1 l = [p.2] :=
    forall₂_congr fun p hp => by rw [Json.valuesOf_filter_ne (ne_tag hp)]
  unfold Sorts
  simp only [leads_prod, leads_slot_none, Names, exists_eq_right, leads_others, ofMembers_eq_ok]
  rw [denotes_object]
  constructor
  · intro h
    obtain ⟨htag, h⟩ := h
    exact ⟨c.kind, _, ⟨htag, rfl⟩, rfl, by simpa using hparts.mpr h⟩
  · intro h
    obtain ⟨v, others, ⟨htag, rfl⟩, rfl, h⟩ := h
    exact ⟨htag, hparts.mp (by simpa using h)⟩

theorem fromObject_eq_ok {fuel depth : Nat} {s t : Bytes} {c : Constraint} :
    fromObject fuel depth s = .ok (c, t) ↔
      ∃ l, Json.members (Json.value fuel depth) fuel s = .ok (l, t) ∧ Denotes (.object l) c := by
  have hmembers : ∀ b u, Json.membersFrom (taggedMember fuel depth) fuel true (none, []) s = .ok (b, u) ↔
      ∃ l, Json.members (Json.value fuel depth) fuel s = .ok (l, u) ∧ Leads Sorts (none, []) l b :=
    fun b u => Json.membersFrom_eq_ok (taggedMember_eq_ok fuel depth)
  simp only [denotes_object_iff]
  constructor
  · intro h
    rw [fromObject] at h
    split at h
    · cases h
    · cases h
    · rename_i v others u hm
      obtain ⟨hc, rfl⟩ := settled_eq_ok.mp h
      obtain ⟨l, hl, hlead⟩ := (hmembers _ _).mp hm
      exact ⟨l, hl, v, others, hlead, hc⟩
  · intro h
    obtain ⟨l, hl, v, others, hlead, hc⟩ := h
    rw [fromObject, (hmembers _ _).mpr ⟨l, hl, hlead⟩]
    exact settled_eq_ok.mpr ⟨hc, rfl⟩

theorem denotes_array {xs : List Json} {c : Constraint} :
    Denotes (.array xs) c ↔ xs = .string c.kind.name :: c.parts.map Prod.snd := by
  constructor
  · intro h
    cases h
    rfl
  · intro h
    subst h
    exact .list c

theorem fromArray_eq_ok {fuel depth : Nat} {s t : Bytes} {c : Constraint} :
    fromArray fuel depth s = .ok (c, t) ↔
      ∃ xs, Json.items (Json.value fuel depth) fuel s = .ok (xs, t) ∧ Denotes (.array xs) c := by
  simp only [denotes_array, exists_eq_right, Json.items_cons_eq_ok]
  constructor
  · intro h
    rw [fromArray] at h
    split at h
    · cases h
    · cases h
    · rename_i u hs
      split at h
      · cases h
      · rename_i v w hv
        split at h
        · cases h
        · rename_i rest z hrest
          obtain ⟨hc, rfl⟩ := settled_eq_ok.mp h
          obtain ⟨rfl, rfl⟩ := ofItems_eq_ok.mp hc
          obtain ⟨x, hx, rfl⟩ := (variant_eq_ok fuel depth _ _ _).mp (Json.within_eq_ok.mp hv)
          exact ⟨u, w, hs, hx, hrest⟩
  · intro h
    obtain ⟨u, w, hs, hx, hrest⟩ := h
    have hv := (variant_eq_ok fuel depth _ _ _).mpr ⟨_, hx, rfl⟩
    simp only [fromArray, hs, hv, Json.within, hrest]
    exact settled_eq_ok.mpr ⟨ofItems_eq_ok.mpr ⟨rfl, rfl⟩, rfl⟩

theorem Denotes.nested {v : Json} {c : Constraint} (h : Denotes v c) : 0 < v.depth := by
  cases h <;> simp [Json.depth]

theorem reader_eq_ok {fuel depth : Nat} {s t : Bytes} {c : Constraint} :
    reader fuel depth s = .ok (c, t) ↔
      ∃ v, Json.value fuel depth s = .ok (v, t) ∧ Denotes v c := by
  constructor
  · intro h
    rcases Json.opened_eq_ok.mp h with ⟨d, u, rfl, hs, hr⟩ | ⟨b, u, hs, -, hr⟩
    · obtain ⟨l, hl, hc⟩ := fromObject_eq_ok.mp hr
      exact ⟨.object l, Json.value_eq_object.mpr ⟨u, hs, hl⟩, hc⟩
    · rw [← hs] at hr
      rcases Json.opened_eq_ok.mp hr with ⟨d, u, rfl, hs, hr⟩ | ⟨b, u, -, -, hr⟩
      · obtain ⟨xs, hxs, hc⟩ := fromArray_eq_ok.mp hr
        rw [Json.skipBlanks_skipBlanks] at hs
        exact ⟨.array xs, Json.value_eq_array.mpr ⟨u, hs, hxs⟩, hc⟩
      · exact absurd hr (Json.refuse_ne_ok _ _ _)
  · intro h
    obtain ⟨v, hv, hc⟩ := h
    obtain ⟨d, rfl⟩ : ∃ d, depth = d + 1 := by
      have := Json.depth_le_of_value _ _ hv
      have := hc.nested
      exact ⟨depth - 1, by omega⟩
    cases hc with
    | object htag hparts =>
      obtain ⟨u, hs, hl⟩ := Json.value_eq_object.mp hv
      exact Json.opened_eq_ok.mpr
        (.inl ⟨d, u, rfl, hs, fromObject_eq_ok.mpr ⟨_, hl, .object htag hparts⟩⟩)
    | list c =>
      obtain ⟨u, hs, hl⟩ := Json.value_eq_array.mp hv
      refine Json.opened_eq_ok.mpr (.inr ⟨91, u, hs, by decide, ?_⟩)
      exact Json.opened_eq_ok.mpr (.inl ⟨d, u, rfl, rfl, fromArray_eq_ok.mpr ⟨_, hl, .list c⟩⟩)

theorem read_eq_ok {s : Bytes} {c : Constraint} :
    read s = .ok c ↔ ∃ v, Json.parse s = .ok v ∧ Denotes v c := by
  simp only [read, Json.parse, Json.complete_eq_ok, reader_eq_ok]
  grind

theorem depth_toJson (c : Constraint) : c.toJson.depth = 1 := by cases c <;> rfl

theorem read_text (c : Constraint) : read (Utf8.ofString c.toJson.text) = .ok c := by
  have hdepth : c.toJson.depth ≤ Json.maxDepth := by
    rw [depth_toJson]
    decide
  exact read_eq_ok.mpr ⟨_, Json.parse_text hdepth, denotes_toJson c⟩

end Constraint

namespace Filters

/-- An object stands for the filters that its members denote one by one. -/
inductive Denotes : Json → Filters → Prop
  | object {l : List (String × Json)} {cs : List (String × Constraint)} :
      List.Forall₂ (fun p q => p.1 = q.1 ∧ Constraint.Denotes p.2 q.2) l cs →
      Denotes (.object l) (Fields.ofList cs)

theorem denotes_toJson (f : Filters) : Denotes f.toJson f := by
  have h : ∀ l : List (String × Constraint), List.Forall₂
      (fun p q => p.1 = q.1 ∧ Constraint.Denotes p.2 q.2) (l.map fun p => (p.1, p.2.toJson)) l := by
    intro l
    rw [List.forall₂_map_left_iff, List.forall₂_same]
    exact fun p _ => ⟨rfl, p.2.denotes_toJson⟩
  have hlist := Denotes.object (h f.entries)
  rwa [Fields.ofList_entries] at hlist

theorem reader_eq_ok {fuel depth : Nat} {s t : Bytes} {f : Filters} :
    reader fuel depth s = .ok (f, t) ↔
      ∃ v, Json.value fuel depth s = .ok (v, t) ∧ Denotes v f := by
  cases depth with
  | zero =>
    constructor
    · intro h
      obtain ⟨cs, hcs, -⟩ := changed_eq_ok.mp h
      rcases Json.opened_eq_ok.mp hcs with ⟨d, u, hd, -⟩ | ⟨b, u, -, -, hr⟩
      · cases hd
      · exact absurd hr (Json.refuse_ne_ok _ _ _)
    · intro h
      obtain ⟨v, hv, hf⟩ := h
      have hdepth := Json.depth_le_of_value _ _ hv
      cases hf
      simp [Json.depth] at hdepth
  | succ depth =>
    rw [reader, changed_eq_ok]
    have hmembers : ∀ u cs, Json.members (Constraint.reader fuel depth) fuel u = .ok (cs, t) ↔
        ∃ l, Json.members (Json.value fuel depth) fuel u = .ok (l, t) ∧
          List.Forall₂ (fun p q => p.1 = q.1 ∧ Constraint.Denotes p.2 q.2) l cs :=
      fun u cs => Json.members_related fun _ _ _ => Constraint.reader_eq_ok
    simp only [Json.mapOf_eq_ok, hmembers]
    constructor
    · intro h
      obtain ⟨cs, ⟨u, hs, l, hl, hcs⟩, rfl⟩ := h
      exact ⟨.object l, Json.value_eq_object.mpr ⟨u, hs, hl⟩, .object hcs⟩
    · intro h
      obtain ⟨v, hv, hcs⟩ := h
      cases hcs with
      | object hcs =>
        obtain ⟨u, hs, hl⟩ := Json.value_eq_object.mp hv
        exact ⟨_, ⟨u, hs, _, hl, hcs⟩, rfl⟩

theorem read_eq_ok {s : Bytes} {f : Filters} :
    read s = .ok f ↔ ∃ v, Json.parse s = .ok v ∧ Denotes v f := by
  simp only [read, Json.parse, Json.complete_eq_ok, reader_eq_ok]
  grind

theorem depth_toJson_le (f : Filters) : f.toJson.depth ≤ 2 := by
  rw [toJson, Json.depth, Nat.add_le_add_iff_right, Json.depthMembers_le_iff, List.forall_mem_map]
  intro p _
  exact Nat.le_of_eq p.2.depth_toJson

theorem reader_reads (f : Filters) {fuel depth : Nat} (hd : 2 ≤ depth)
    (hf : (Utf8.encode f.toJson.chars).length < fuel) : Reads (reader fuel depth) f.toJson f := by
  intro rest hs
  have hread := Json.value_chars depth f.toJson (Nat.le_trans f.depth_toJson_le hd) fuel hf rest hs
  exact reader_eq_ok.mpr ⟨_, hread, denotes_toJson f⟩

theorem read_text (f : Filters) : read (Utf8.ofString f.toJson.text) = .ok f := by
  have hdepth : f.toJson.depth ≤ Json.maxDepth := Nat.le_trans f.depth_toJson_le (by decide)
  exact read_eq_ok.mpr ⟨_, Json.parse_text hdepth, denotes_toJson f⟩

end Filters

end RecordSearch
