import RecordSearch.Store

/-!
# A store in use

A session appends records to a store, takes snapshots of it and searches those
in any order. `session_keeps`: whatever is done, a record stays at the place it
was given, a snapshot stays what the store held when it was taken, and what a
search finds in an earlier snapshot comes first in what it finds in a later one.
-/

namespace RecordSearch

/-! ## Operations -/

/-- Snapshots are told apart by their number, the first being 0. -/
inductive Operation where
  | append (record : Record)
  | submit (id : String) (fields : List (String × FieldValue))
  | appendSamples
  | snapshot
  | size
  | search (number : Nat) (query : String)

inductive Reply where
  | stored (record : Record)
  | size (n : Nat)
  | taken (records : List Record)
  | found (records : List Record)
  | noSnapshot

structure Session where
  store : Store
  snapshots : List (List Record)

namespace Session

def find (s : Session) (number : Nat) (query : String) : Reply :=
  match s.snapshots[number]? with
  | some records => .found ((Query.parse query).evaluate records)
  | none => .noSnapshot

def step (s : Session) : Operation → Reply × Session
  | .append record => (.stored record, { s with store := s.store.append record })
  | .submit id fields =>
    let record := newSubmission id fields
    (.stored record, { s with store := s.store.append record })
  | .appendSamples =>
    let store := s.store.appendAll sampleRecords
    (.size store.size, { s with store := store })
  | .snapshot =>
    let records := s.store.snapshot
    (.taken records, { s with snapshots := s.snapshots ++ [records] })
  | .size => (.size s.store.size, s)
  | .search number query => (s.find number query, s)

def run (s : Session) : List Operation → List Reply × Session
  | [] => ([], s)
  | op :: ops =>
    let (reply, s) := s.step op
    let (replies, s) := s.run ops
    (reply :: replies, s)

end Session

def replies (start : Store) (ops : List Operation) : List Reply := (Session.run ⟨start, []⟩ ops).1

def reached (start : Store) (ops : List Operation) : Session := (Session.run ⟨start, []⟩ ops).2

/-! ## What is appended -/

def Operation.appended : Operation → List Record
  | .append record => [record]
  | .submit id fields => [newSubmission id fields]
  | .appendSamples => sampleRecords
  | _ => []

/-- The starting records and then all that were appended, in order. -/
def held (start : Store) (ops : List Operation) : List Record :=
  start.records ++ ops.flatMap Operation.appended

theorem records_appendAll : ∀ (rs : List Record) (s : Store),
    (s.appendAll rs).records = s.records ++ rs
  | [], s => (List.append_nil _).symm
  | r :: rs, s => by
    rw [Store.appendAll, List.foldl_cons, ← Store.appendAll, records_appendAll rs, Store.append,
      List.append_assoc, List.singleton_append]

namespace Session

/-! ## One operation -/

theorem step_records (s : Session) (op : Operation) :
    (s.step op).2.store.records = s.store.records ++ op.appended := by
  cases op with
  | append record => rfl
  | submit id fields => rfl
  | appendSamples => exact records_appendAll _ _
  | _ => exact (List.append_nil _).symm

theorem step_snapshots (s : Session) (op : Operation) :
    (op = .snapshot ∧ (s.step op).2.snapshots = s.snapshots ++ [s.store.records]) ∨
      (op ≠ .snapshot ∧ (s.step op).2.snapshots = s.snapshots) := by
  cases op with
  | snapshot => exact .inl ⟨rfl, rfl⟩
  | _ => exact .inr ⟨by simp, rfl⟩

/-- The snapshots taken grow one after the other, up to what the store holds. -/
structure Grows (s : Session) : Prop where
  chain : s.snapshots.Pairwise (· <+: ·)
  held : ∀ records ∈ s.snapshots, records <+: s.store.records

theorem Grows.step {s : Session} (h : s.Grows) (op : Operation) : (s.step op).2.Grows := by
  have hgrown : s.store.records <+: (s.step op).2.store.records := by
    rw [step_records]
    exact List.prefix_append _ _
  rcases step_snapshots s op with ⟨_, hs⟩ | ⟨_, hs⟩
  · refine ⟨?_, fun records hr => ?_⟩
    · rw [hs, List.pairwise_append]
      refine ⟨h.chain, List.pairwise_singleton .., fun a ha b hb => ?_⟩
      rw [List.mem_singleton.mp hb]
      exact h.held a ha
    · rw [hs, List.mem_append, List.mem_singleton] at hr
      rcases hr with hr | hr
      · exact (h.held records hr).trans hgrown
      · exact hr ▸ hgrown
  · refine ⟨?_, fun records hr => ?_⟩
    · rw [hs]
      exact h.chain
    · rw [hs] at hr
      exact (h.held records hr).trans hgrown

/-! ## Runs -/

theorem run_append : ∀ (xs ys : List Operation) (s : Session),
    s.run (xs ++ ys) = ((s.run xs).1 ++ ((s.run xs).2.run ys).1, ((s.run xs).2.run ys).2)
  | [], _, _ => rfl
  | op :: xs, ys, s => by
    simp only [List.cons_append, run]
    rw [run_append xs]

theorem length_replies : ∀ (ops : List Operation) (s : Session), (s.run ops).1.length = ops.length
  | [], _ => rfl
  | op :: ops, s => congrArg Nat.succ (length_replies ops (s.step op).2)

theorem run_records : ∀ (ops : List Operation) (s : Session),
    (s.run ops).2.store.records = s.store.records ++ ops.flatMap Operation.appended
  | [], s => (List.append_nil _).symm
  | op :: ops, s => by
    have h := run_records ops (s.step op).2
    rw [step_records, List.append_assoc] at h
    exact h

theorem Grows.run : ∀ (ops : List Operation) {s : Session}, s.Grows → (s.run ops).2.Grows
  | [], _, h => h
  | op :: ops, _, h => Grows.run ops (h.step op)

theorem run_snapshots : ∀ (ops : List Operation) (s : Session), s.snapshots <+: (s.run ops).2.snapshots
  | [], s => List.prefix_refl _
  | op :: ops, s => by
    refine List.IsPrefix.trans ?_ (run_snapshots ops (s.step op).2)
    rcases step_snapshots s op with ⟨_, hs⟩ | ⟨_, hs⟩
    · exact hs ▸ List.prefix_append _ _
    · exact hs ▸ List.prefix_refl _

theorem snapshot_origin : ∀ (ops : List Operation) (s : Session) {i : Nat} {records : List Record},
    (s.run ops).2.snapshots[i]? = some records → s.snapshots[i]? = some records ∨
      ∃ xs ys, ops = xs ++ .snapshot :: ys ∧ (s.run xs).2.snapshots.length = i ∧
        records = (s.run xs).2.store.records
  | [], s, i, records, h => .inl h
  | op :: ops, s, i, records, h => by
    rcases snapshot_origin ops (s.step op).2 h with hs | ⟨xs, ys, ho, hi, hr⟩
    -- it was there after the first operation, so it was there before or is the one this takes
    · rcases step_snapshots s op with ⟨e, he⟩ | ⟨_, he⟩
      · rw [he] at hs
        rcases Nat.lt_or_ge i s.snapshots.length with hlt | hge
        · rw [List.getElem?_append_left hlt] at hs
          exact .inl hs
        · rw [List.getElem?_append_right hge, List.getElem?_singleton] at hs
          split at hs
          · rename_i hz
            refine .inr ⟨[], ops, by rw [e]; rfl, ?_, (Option.some.inj hs).symm⟩
            have : i ≤ s.snapshots.length := Nat.le_of_sub_eq_zero hz
            exact Nat.le_antisymm hge this
          · cases hs
      · rw [he] at hs
        exact .inl hs
    · exact .inr ⟨op :: xs, ys, by rw [ho, List.cons_append], hi, hr⟩

end Session

section
variable (start : Store)

theorem reached_records (ops : List Operation) : (reached start ops).store.records = held start ops :=
  Session.run_records ops ⟨start, []⟩

theorem held_append (xs ys : List Operation) :
    held start (xs ++ ys) = held start xs ++ ys.flatMap Operation.appended := by
  rw [held, held, List.flatMap_append, List.append_assoc]

theorem reply_at (xs : List Operation) (op : Operation) (ys : List Operation) :
    (replies start (xs ++ op :: ys))[xs.length]? = some ((reached start xs).step op).1 := by
  have hl := Session.length_replies xs ⟨start, []⟩
  rw [replies, Session.run_append, List.getElem?_append_right (Nat.le_of_eq hl), hl, Nat.sub_self]
  rfl

theorem reached_append (xs ys : List Operation) :
    reached start (xs ++ ys) = ((reached start xs).run ys).2 := by
  rw [reached, Session.run_append]
  rfl

theorem reached_grows (ops : List Operation) : (reached start ops).Grows :=
  Session.Grows.run ops ⟨List.Pairwise.nil, fun _ h => by cases h⟩

theorem snapshot_kept {xs : List Operation} (ys : List Operation) {i : Nat} {records : List Record}
    (h : (reached start xs).snapshots[i]? = some records) :
    (reached start (xs ++ ys)).snapshots[i]? = some records := by
  obtain ⟨hlt, _⟩ := List.getElem?_eq_some_iff.mp h
  obtain ⟨later, hl⟩ := Session.run_snapshots ys (reached start xs)
  rw [reached_append, ← hl, List.getElem?_append_left hlt, h]

theorem snapshot_iff (ops : List Operation) (i : Nat) (records : List Record) :
    (reached start ops).snapshots[i]? = some records ↔ ∃ xs ys, ops = xs ++ .snapshot :: ys ∧
      (reached start xs).snapshots.length = i ∧ records = held start xs := by
  constructor
  · intro h
    rcases Session.snapshot_origin ops ⟨start, []⟩ h with hn | ⟨xs, ys, ho, hi, hr⟩
    · cases hn
    · exact ⟨xs, ys, ho, hi, hr.trans (reached_records start xs)⟩
  · intro h
    obtain ⟨xs, ys, ho, hi, hr⟩ := h
    have hs : (reached start (xs ++ [.snapshot])).snapshots =
        (reached start xs).snapshots ++ [(reached start xs).store.records] := by
      rw [reached_append]
      rfl
    have hlast : (reached start (xs ++ [.snapshot])).snapshots[i]? = some records := by
      rw [hs, List.getElem?_append_right (Nat.le_of_eq hi), hi, Nat.sub_self, hr, reached_records]
      rfl
    have := snapshot_kept start ys hlast
    rwa [List.append_assoc, List.singleton_append, ← ho] at this

theorem Filters.evaluate_prefix (f : Filters) {earlier later : List Record} (h : earlier <+: later) :
    f.evaluate earlier <+: f.evaluate later := h.filter _

theorem snapshots_chain (ops : List Operation) {i j : Nat} {earlier later : List Record} (hij : i ≤ j)
    (hi : (reached start ops).snapshots[i]? = some earlier)
    (hj : (reached start ops).snapshots[j]? = some later) : earlier <+: later := by
  rcases Nat.lt_or_eq_of_le hij with hlt | he
  · obtain ⟨hil, hie⟩ := List.getElem?_eq_some_iff.mp hi
    obtain ⟨hjl, hje⟩ := List.getElem?_eq_some_iff.mp hj
    have := List.pairwise_iff_getElem.mp (reached_grows start ops).chain i j hil hjl hlt
    rwa [hie, hje] at this
  · subst he
    rw [hi] at hj
    exact Option.some.inj hj ▸ List.prefix_refl _

end

/-! ## The main statement -/

theorem session_keeps (start : Store) (ops : List Operation) :
    (∀ xs op ys (i : Nat) record, ops = xs ++ op :: ys → op.appended[i]? = some record →
      (reached start ops).store.records[(reached start xs).store.size + i]? = some record) ∧
    (∀ (i : Nat) records, (reached start ops).snapshots[i]? = some records ↔
      ∃ xs ys, ops = xs ++ .snapshot :: ys ∧ (reached start xs).snapshots.length = i ∧
        records = held start xs) ∧
    (∀ (i j : Nat) earlier later, i ≤ j → (reached start ops).snapshots[i]? = some earlier →
      (reached start ops).snapshots[j]? = some later → earlier <+: later ∧
        ∀ query, (Query.parse query).evaluate earlier <+: (Query.parse query).evaluate later) ∧
    (∀ xs ys, ops = xs ++ .snapshot :: ys →
      (replies start ops)[xs.length]? = some (.taken (held start xs))) ∧
    (∀ xs ys, ops = xs ++ .size :: ys →
      (replies start ops)[xs.length]? = some (.size (held start xs).length)) ∧
    (∀ xs number query ys records, ops = xs ++ .search number query :: ys →
      (reached start xs).snapshots[number]? = some records →
      (reached start ops).snapshots[number]? = some records ∧
      (replies start ops)[xs.length]? = some (.found ((Query.parse query).evaluate records))) := by
  refine ⟨?_, snapshot_iff start ops, ?_, ?_, ?_, ?_⟩
  · intro xs op ys i record ho hi
    have hs : (reached start xs).store.size = (held start xs).length :=
      congrArg List.length (reached_records start xs)
    obtain ⟨hlt, _⟩ := List.getElem?_eq_some_iff.mp hi
    rw [ho, reached_records, held_append, hs, List.getElem?_append_right (Nat.le_add_right ..),
      Nat.add_sub_cancel_left, List.flatMap_cons, List.getElem?_append_left hlt, hi]
  · intro i j earlier later hij hi hj
    have h := snapshots_chain start ops hij hi hj
    exact ⟨h, fun query => Filters.evaluate_prefix _ h⟩
  · intro xs ys ho
    rw [ho, reply_at, ← reached_records]
    rfl
  · intro xs ys ho
    rw [ho, reply_at, ← reached_records]
    rfl
  · intro xs number query ys records ho hr
    rw [ho]
    refine ⟨snapshot_kept start _ hr, ?_⟩
    rw [reply_at, Session.step, Session.find, hr]

end RecordSearch
