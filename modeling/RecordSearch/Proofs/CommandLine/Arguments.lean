import RecordSearch.CommandLine
import RecordSearch.Proofs.Json.Outcomes
import RecordSearch.Proofs.Text.Runs

/-!
# Arguments

What is read without a fault gives options with their values, by the rules of
`Gives` (`exists_gives`). Reading such arguments is taking those options one
after the other (`Gives.reads`), whether a value stands in the argument of its
option or in the next one.
-/

namespace RecordSearch.CommandLine

/-- No option: nothing follows a dash that the argument begins with. -/
def IsOperand (arg : String) : Prop := ∀ c rest, arg.toList ≠ '-' :: c :: rest

/-- The options that arguments give, in order. -/
inductive Gives : List String → List (Setting × String) → Prop
  | nil : Gives [] []
  | stop : Gives ["--"] []
  | glued {s : Setting} {value : String} {args : List String} {gs : List (Setting × String)} :
      s.takesValue = true → Gives args gs →
      Gives (("--" ++ s.long ++ "=" ++ value) :: args) ((s, value) :: gs)
  | apart {s : Setting} {value : String} {args : List String} {gs : List (Setting × String)} :
      s.takesValue = true → IsOperand value → Gives args gs →
      Gives (("--" ++ s.long) :: value :: args) ((s, value) :: gs)
  | flag {args : List String} {gs : List (Setting × String)} : Gives args gs →
      Gives ("--no-seed" :: args) ((.noSeed, "") :: gs)

namespace State

def giveOne (st : State) (g : Setting × String) : Except Stop State :=
  st.give g.1 (if g.1.takesValue then some g.2 else none)

def giveAll (st : State) (gs : List (Setting × String)) : Except Stop State := gs.foldlM giveOne st

theorem giveAll_cons (st : State) (g : Setting × String) (gs : List (Setting × String)) :
    st.giveAll (g :: gs) = (st.giveOne g).bind fun st => st.giveAll gs := rfl

theorem giveOne_value {s : Setting} (hs : s.takesValue = true) (st : State) (value : String) :
    st.giveOne (s, value) = st.give s (some value) := by
  rw [giveOne, if_pos hs]

/-! ## Settled states -/

theorem pending_of_give {st st' : State} {s : Setting} {value : Option String}
    (h : st.give s value = .ok st') : st'.pending = none := by
  unfold give at h
  repeat' split at h
  all_goals cases h
  all_goals rfl

theorem settle_of_none {st : State} (h : st.pending = none) : st.settle = .ok st := by
  rw [settle, h]

end State

/-! ## Single arguments -/

theorem ofLong?_long (s : Setting) : Setting.ofLong? s.long = some s := by cases s <;> decide

theorem eq_notMem_long (s : Setting) : '=' ∉ s.long.toList := by cases s <;> decide

theorem long_of_ofLong? {name : String} {s : Setting} (h : Setting.ofLong? name = some s) : name = s.long := by
  have hname := List.find?_some h
  exact (beq_iff_eq.mp hname).symm

namespace State

theorem take_name (st : State) (s : Setting) : st.take ("--" ++ s.long) = st.takeLong s.long none := by
  have htext : ("--" ++ s.long).toList = '-' :: '-' :: s.long.toList := by simp
  have hsplit : Text.splitFirst? '=' s.long.toList = none := by cases s <;> decide
  simp only [take, htext, hsplit, String.ofList_toList]

theorem take_glued {s : Setting} (hs : s.takesValue = true) (st : State) (value : String) :
    st.take ("--" ++ s.long ++ "=" ++ value) = st.settle.bind fun st => st.giveOne (s, value) := by
  have htext : ("--" ++ s.long ++ "=" ++ value).toList =
      '-' :: '-' :: (s.long.toList ++ '=' :: value.toList) := by simp
  simp only [take, htext, Text.splitFirst?_of_notMem (eq_notMem_long s), String.ofList_toList, takeLong,
    ofLong?_long, hs, giveOne_value hs]

theorem take_opened {s : Setting} (hs : s.takesValue = true) (st : State) :
    st.take ("--" ++ s.long) = st.settle.map fun st => { st with pending := some (s, none) } := by
  simp only [take_name, takeLong, ofLong?_long, hs]

theorem take_flag (st : State) : st.take "--no-seed" = st.settle.bind fun st => st.giveOne (.noSeed, "") :=
  take_name st .noSeed

theorem take_operand {value : String} (hv : IsOperand value) (st : State) (s : Setting) :
    ({ st with pending := some (s, none) } : State).take value =
      .ok { st with pending := some (s, some value) } := by
  unfold take
  split
  · rename_i h
    exact absurd h (hv _ _)
  · rename_i h
    exact absurd h (hv _ _)
  · rfl

end State

/-! ## Reading what gives options -/

theorem dashes_ne {text : String} (h : text ≠ "") : "--" ++ text ≠ "--" := by
  intro e
  have htext := congrArg String.toList e
  simp only [String.toList_append] at htext
  exact h (String.toList_eq_nil_iff.mp (List.append_right_eq_self.mp htext))

theorem long_ne (s : Setting) : "--" ++ s.long ≠ "--" := dashes_ne (by cases s <;> decide)

theorem IsOperand.ne_stop {arg : String} (h : IsOperand arg) : arg ≠ "--" := by
  intro e
  subst e
  exact h '-' [] rfl

namespace State

/-- An option may wait for what follows it, but not for its value. -/
def Complete (st : State) : Prop := ∀ s, st.pending ≠ some (s, none)

theorem complete_of_none {st : State} (h : st.pending = none) : st.Complete := by
  intro s hs
  rw [h] at hs
  cases hs

/-- The arguments read as these options from any state on. -/
def Reads (args : List String) (gs : List (Setting × String)) : Prop :=
  ∀ st : State, st.Complete → st.takeAll args = st.settle.bind fun st => st.giveAll gs

theorem Reads.settled {args : List String} {gs : List (Setting × String)} (h : Reads args gs) {st : State}
    (hst : st.pending = none) : st.takeAll args = st.giveAll gs := by
  rw [h st (complete_of_none hst), settle_of_none hst]
  rfl

theorem takeAll_cons {arg : String} (h : arg ≠ "--") (st : State) (args : List String) :
    st.takeAll (arg :: args) = (st.take arg).bind fun st => st.takeAll args := by
  rw [takeAll.eq_def]
  simp only [if_neg h]

theorem reads_nil : Reads [] [] := by
  intro st _
  rw [takeAll.eq_def]
  cases st.settle with
  | error stop => rfl
  | ok t => rfl

theorem reads_stop : Reads ["--"] [] := by
  intro st hst
  have h : st.takeAll ["--"] = st.takeAll [] := by simp only [takeAll, if_true]
  rw [h]
  exact reads_nil st hst

theorem Reads.cons {arg : String} {args : List String} {g : Setting × String}
    {gs : List (Setting × String)} (hne : arg ≠ "--")
    (htake : ∀ st : State, st.take arg = st.settle.bind fun st => st.giveOne g) (ih : Reads args gs) :
    Reads (arg :: args) (g :: gs) := by
  intro st _
  rw [takeAll_cons hne, htake]
  cases st.settle with
  | error stop => rfl
  | ok t =>
    change (t.giveOne g).bind _ = (t.giveOne g).bind _
    cases ht : t.giveOne g with
    | error stop => rfl
    | ok u => exact ih.settled (pending_of_give ht)

theorem Reads.apart {s : Setting} {value : String} {args : List String} {gs : List (Setting × String)}
    (hs : s.takesValue = true) (hv : IsOperand value) (ih : Reads args gs) :
    Reads (("--" ++ s.long) :: value :: args) ((s, value) :: gs) := by
  intro st _
  rw [takeAll_cons (long_ne s), take_opened hs]
  cases st.settle with
  | error stop => rfl
  | ok t =>
    change ({ t with pending := some (s, none) } : State).takeAll (value :: args) = _
    rw [takeAll_cons hv.ne_stop, take_operand hv]
    change ({ t with pending := some (s, some value) } : State).takeAll args = _
    have hwaits : ({ t with pending := some (s, some value) } : State).Complete := by
      intro s' hs'
      cases hs'
    rw [ih _ hwaits]
    change (t.give s (some value)).bind _ = (t.giveOne (s, value)).bind _
    rw [giveOne_value hs]
    rfl

end State

theorem Gives.reads {args : List String} {gs : List (Setting × String)} (h : Gives args gs) :
    State.Reads args gs := by
  induction h with
  | nil => exact State.reads_nil
  | stop => exact State.reads_stop
  | @glued s value _ _ hs _ ih =>
    refine ih.cons ?_ fun st => State.take_glued hs st value
    rw [String.append_assoc, String.append_assoc]
    exact dashes_ne (by cases s <;> simp [Setting.long])
  | apart hs hv _ ih => exact ih.apart hs hv
  | flag _ ih => exact ih.cons (by decide) State.take_flag

/-! ## What is read gives options -/

namespace State

/-- What an argument that is taken may be. -/
inductive Taking (st st' : State) : String → Prop
  | glued {s : Setting} {value : String} : s.takesValue = true → (∃ t, st.settle = .ok t) →
      st'.pending = none → Taking st st' ("--" ++ s.long ++ "=" ++ value)
  | opened {s : Setting} : s.takesValue = true → (∃ t, st.settle = .ok t) →
      st'.pending = some (s, none) → Taking st st' ("--" ++ s.long)
  | flag : (∃ t, st.settle = .ok t) → st'.pending = none → Taking st st' "--no-seed"
  | operand {s : Setting} {arg : String} : st.pending = some (s, none) → IsOperand arg →
      st'.pending = some (s, some arg) → Taking st st' arg

theorem give_none_eq_ok {st st' : State} {s : Setting} (h : st.give s none = .ok st') : s = .noSeed := by
  cases s with
  | noSeed => rfl
  | _ => cases h

theorem settle_give_eq_ok {st st' : State} {s : Setting} {value : Option String}
    (h : (st.settle.bind fun st => st.give s value) = .ok st') :
    (∃ t, st.settle = .ok t) ∧ st'.pending = none ∧ (value = none → s = .noSeed) := by
  obtain ⟨t, ht, hgive⟩ := Json.bind_eq_ok.mp h
  refine ⟨⟨t, ht⟩, pending_of_give hgive, ?_⟩
  intro hvalue
  subst hvalue
  exact give_none_eq_ok hgive

theorem takeLong_some_eq_ok {st st' : State} {name value : String}
    (h : st.takeLong name (some value) = .ok st') : Taking st st' ("--" ++ name ++ "=" ++ value) := by
  unfold takeLong at h
  split at h
  · cases h
  · rename_i s hs
    rw [long_of_ofLong? hs]
    cases hvalue : s.takesValue with
    | false =>
      rw [hvalue] at h
      cases h
    | true =>
      rw [hvalue] at h
      obtain ⟨hsettle, hpending, -⟩ := settle_give_eq_ok h
      exact .glued hvalue hsettle hpending

theorem takeLong_none_eq_ok {st st' : State} {name : String} (h : st.takeLong name none = .ok st') :
    Taking st st' ("--" ++ name) := by
  unfold takeLong at h
  split at h
  · cases h
  · rename_i s hs
    rw [long_of_ofLong? hs]
    cases hvalue : s.takesValue with
    | false =>
      rw [hvalue] at h
      obtain ⟨hsettle, hpending, hflag⟩ := settle_give_eq_ok h
      cases hflag rfl
      exact .flag hsettle hpending
    | true =>
      rw [hvalue] at h
      obtain ⟨t, ht, rfl⟩ := Json.map_eq_ok h
      exact .opened hvalue ⟨t, ht⟩ rfl

theorem take_eq_ok {st st' : State} {arg : String} (h : st.take arg = .ok st') : Taking st st' arg := by
  unfold take at h
  split at h
  · rename_i rest harg
    split at h
    · rename_i name value hsplit
      have hrest := Text.splitFirst?_eq_some hsplit
      have : arg = "--" ++ String.ofList name ++ "=" ++ String.ofList value := by
        apply String.toList_injective
        simp [harg, hrest]
      rw [this]
      exact takeLong_some_eq_ok h
    · have : arg = "--" ++ String.ofList rest := by
        apply String.toList_injective
        simp [harg]
      rw [this]
      exact takeLong_none_eq_ok h
  · rename_i c rest _ harg
    split at h
    · rename_i s hs
      obtain ⟨-, -, hflag⟩ := settle_give_eq_ok h
      cases hflag rfl
      unfold Setting.ofShort? at hs
      repeat' split at hs
      all_goals cases hs
    · cases h
  · rename_i hlong hshort
    split at h
    · rename_i s hpending
      cases h
      exact .operand hpending (fun c rest => hshort c rest) rfl
    · cases h

/-- The option that waits for its value, as an argument. -/
def opened (st : State) : List String :=
  match st.pending with
  | some (s, none) => ["--" ++ s.long]
  | _ => []

/-- Only an option that takes a value waits for one. -/
def Sound (st : State) : Prop := ∀ s, st.pending = some (s, none) → s.takesValue = true

theorem opened_of_settle {st t : State} (hst : st.Sound) (h : st.settle = .ok t) : st.opened = [] := by
  unfold opened
  split
  · rename_i s hs
    unfold settle at h
    rw [hs] at h
    have hflag := give_none_eq_ok h
    have hvalue := hst s hs
    rw [hflag] at hvalue
    cases hvalue
  · rfl

theorem opened_of_none {st : State} (h : st.pending = none) : st.opened = [] := by
  rw [opened, h]

theorem sound_of_none {st : State} (h : st.pending = none) : st.Sound := by
  intro s hs
  rw [h] at hs
  cases hs

/-- The option that waits for its value is put back before the arguments that are left. -/
theorem exists_gives_of_takeAll {st' : State} : ∀ {args : List String} {st : State}, st.Sound →
    st.takeAll args = .ok st' → ∃ gs, Gives (st.opened ++ args) gs
  | [], st, hst, h => by
    rw [opened_of_settle hst h]
    exact ⟨_, .nil⟩
  | arg :: args, st, hst, h => by
    by_cases hstop : arg = "--"
    · subst hstop
      simp only [takeAll, if_true] at h
      split at h
      · rw [opened_of_settle hst h]
        exact ⟨_, .stop⟩
      · cases h
    · rw [takeAll_cons hstop] at h
      obtain ⟨t, ht, hrest⟩ := Json.bind_eq_ok.mp h
      cases take_eq_ok ht with
      | glued hs hsettle hnone =>
        obtain ⟨gs, hgs⟩ := exists_gives_of_takeAll (sound_of_none hnone) hrest
        obtain ⟨u, hu⟩ := hsettle
        rw [opened_of_none hnone] at hgs
        rw [opened_of_settle hst hu]
        exact ⟨_, .glued hs hgs⟩
      | @opened s hs hsettle hwaits =>
        have hsound : t.Sound := by
          intro s' hs'
          rw [hwaits] at hs'
          cases hs'
          exact hs
        obtain ⟨gs, hgs⟩ := exists_gives_of_takeAll hsound hrest
        obtain ⟨u, hu⟩ := hsettle
        rw [opened, hwaits] at hgs
        rw [opened_of_settle hst hu]
        exact ⟨_, hgs⟩
      | flag hsettle hnone =>
        obtain ⟨gs, hgs⟩ := exists_gives_of_takeAll (sound_of_none hnone) hrest
        obtain ⟨u, hu⟩ := hsettle
        rw [opened_of_none hnone] at hgs
        rw [opened_of_settle hst hu]
        exact ⟨_, .flag hgs⟩
      | @operand s _ hwaits hv hnext =>
        have hsound : t.Sound := by
          intro s' hs'
          rw [hnext] at hs'
          cases hs'
        obtain ⟨gs, hgs⟩ := exists_gives_of_takeAll hsound hrest
        rw [opened, hnext] at hgs
        rw [opened, hwaits]
        exact ⟨_, .apart (hst s hwaits) hv hgs⟩

end State

theorem exists_gives {args : List String} {st : State} (h : State.initial.takeAll args = .ok st) :
    ∃ gs, Gives args gs :=
  State.exists_gives_of_takeAll (State.sound_of_none rfl) h

end RecordSearch.CommandLine
