import Mathlib.Data.List.Forall2
import RecordSearch.Proofs.CommandLine.Assignments

/-!
# Where settings come from

The texts that count for a setting are those given for it, or else the text of
its variable. They alone decide what is read, whatever the order of the settings
(`parse_decided`).
-/

namespace RecordSearch.CommandLine

/-! ## Options one after the other -/

/-- An option with its text, or the flag with none. -/
def Settable (g : Setting × String) : Prop := g.1.takesValue = true ∨ g = (.noSeed, "")

theorem Settable.goesOn {g : Setting × String} (h : Settable g) : g.1 ≠ .help ∧ g.1 ≠ .version := by
  rcases h with hs | rfl
  · constructor <;> intro e <;> rw [e] at hs <;> cases hs
  · decide

theorem Gives.settable {args : List String} {gs : List (Setting × String)} (h : Gives args gs) :
    ∀ g ∈ gs, Settable g := by
  induction h with
  | nil => exact List.forall_mem_nil _
  | stop => exact List.forall_mem_nil _
  | glued hs _ ih => exact List.forall_mem_cons.mpr ⟨.inl hs, ih⟩
  | apart hs _ _ ih => exact List.forall_mem_cons.mpr ⟨.inl hs, ih⟩
  | flag _ ih => exact List.forall_mem_cons.mpr ⟨.inr rfl, ih⟩

/-- The settings used once an option has been given. -/
def usedWith (used : List Setting) (g : Setting × String) : List Setting :=
  if used.contains g.1 then used else used ++ [g.1]

theorem mem_usedWith {used : List Setting} {g : Setting × String} {s : Setting} :
    s ∈ usedWith used g ↔ s ∈ used ∨ g.1 = s := by
  unfold usedWith
  split
  · rename_i h
    have hg : g.1 ∈ used := by simpa using h
    exact ⟨.inl, fun hs => hs.elim id fun e => e ▸ hg⟩
  · rw [List.mem_append, List.mem_singleton, eq_comm (a := s)]

theorem mem_foldl_usedWith {s : Setting} : ∀ (gs : List (Setting × String)) {used : List Setting},
    s ∈ gs.foldl usedWith used ↔ s ∈ used ∨ given gs s ≠ []
  | [], used => by simp [given]
  | g :: gs, used => by
    rw [List.foldl_cons, mem_foldl_usedWith gs, mem_usedWith]
    obtain ⟨t, v⟩ := g
    by_cases ht : t = s
    · subst ht
      simp [given_cons_self]
    · simp [given_cons_ne, ht]

/-- What assigning comes to, as the reading of a command line. -/
def outcome {α β : Type} (make : α → β) (r : Except Fault α) : Except Stop β :=
  (r.mapError Stop.fault).map make

theorem giveOne_eq {c : Config} {used : List Setting} {g : Setting × String} (hg : Settable g)
    (hnew : g.1 ∈ used → g.1 = .corsOrigin) :
    (⟨c, used, none⟩ : State).giveOne g =
      outcome (fun d => ⟨d, usedWith used g, none⟩) (assign c g.1 g.2) := by
  have hrepeated : (used.contains g.1 && decide (g.1 ≠ .corsOrigin)) = false := by
    simpa using hnew
  obtain ⟨hhelp, hversion⟩ := hg.goesOn
  have hvalue : (if g.1.takesValue then some g.2 else none).getD "" = g.2 := by
    rcases hg with hs | rfl
    · rw [if_pos hs]
      rfl
    · rfl
  have hmissing : (g.1.takesValue && (if g.1.takesValue then some g.2 else none).isNone) = false := by
    cases hs : g.1.takesValue <;> simp
  rw [State.giveOne, State.give, hmissing, if_neg (by simp), if_neg hhelp, if_neg hversion, hrepeated,
    if_neg (by simp), hvalue]
  cases assign c g.1 g.2 with
  | error f => rfl
  | ok d => rfl

/-- Only origins are given more than once. -/
def GivenOnce (gs : List (Setting × String)) : Prop := ∀ s, s ≠ .corsOrigin → (given gs s).length ≤ 1

/-- No setting that counts as used is given again, origins apart. -/
def Unused (used : List Setting) (gs : List (Setting × String)) : Prop :=
  ∀ s ∈ used, s ≠ .corsOrigin → given gs s = []

theorem Unused.head {used : List Setting} {g : Setting × String} {gs : List (Setting × String)}
    (h : Unused used (g :: gs)) : g.1 ∈ used → g.1 = .corsOrigin := by
  intro hg
  refine Decidable.byContradiction fun hne => ?_
  have hnone := h g.1 hg hne
  rw [given_cons_self] at hnone
  cases hnone

theorem Unused.tail {used : List Setting} {g : Setting × String} {gs : List (Setting × String)}
    (h : Unused used (g :: gs)) (once : GivenOnce (g :: gs)) : Unused (usedWith used g) gs := by
  intro s hs hne
  by_cases hg : g.1 = s
  · have hlength := once s hne
    subst hg
    rw [given_cons_self, List.length_cons] at hlength
    exact List.eq_nil_of_length_eq_zero (by omega)
  · have hnone := h s ((mem_usedWith.mp hs).resolve_right hg) hne
    rwa [given_cons_ne hg] at hnone

theorem GivenOnce.tail {g : Setting × String} {gs : List (Setting × String)} (h : GivenOnce (g :: gs)) :
    GivenOnce gs := by
  intro s hne
  have hlength := h s hne
  by_cases hg : g.1 = s
  · subst hg
    rw [given_cons_self, List.length_cons] at hlength
    omega
  · rwa [given_cons_ne hg] at hlength

/-- Options that are new when they are given are never refused as repeated, so that
only their texts are left to fail. -/
theorem giveAll_eq : ∀ {gs : List (Setting × String)} {c : Config} {used : List Setting},
    (∀ g ∈ gs, Settable g) → GivenOnce gs → Unused used gs →
    (⟨c, used, none⟩ : State).giveAll gs =
      outcome (fun d => ⟨d, gs.foldl usedWith used, none⟩) (assignAll c gs)
  | [], _, _, _, _, _ => rfl
  | g :: gs, c, used, hg, once, unused => by
    rw [List.forall_mem_cons] at hg
    rw [State.giveAll_cons, giveOne_eq hg.1 unused.head, assignAll_cons]
    cases assign c g.1 g.2 with
    | error f => rfl
    | ok d => exact giveAll_eq hg.2 once.tail (unused.tail once)

/-! ## Variables -/

/-- The text of a variable that is looked at: its option was not given. -/
def fallback (env : String → Option String) (used : List Setting) (s : Setting) : Option String :=
  if used.contains s then none else s.valueName?.bind env

def fallbacks (env : String → Option String) (used : List Setting) (l : List Setting) :
    List (Setting × String) :=
  l.filterMap fun s => (fallback env used s).map fun v => (s, v)

theorem fromVariable_eq (env : String → Option String) (c : Config) (used : List Setting) (s : Setting) :
    fromVariable env ⟨c, used, none⟩ s =
      match fallback env used s with
      | none => .ok ⟨c, used, none⟩
      | some v => outcome (fun d => ⟨d, used, none⟩) (assign c s v) := by
  unfold fromVariable fallback
  by_cases hs : used.contains s = true
  · simp only [if_pos hs]
  · simp only [if_neg hs]
    cases s.valueName?.bind env with
    | none => rfl
    | some v =>
      simp only
      cases assign c s v <;> rfl

theorem foldlM_fromVariable (env : String → Option String) (used : List Setting) :
    ∀ (l : List Setting) (c : Config), l.foldlM (fromVariable env) ⟨c, used, none⟩ =
      outcome (fun d => ⟨d, used, none⟩) (assignAll c (fallbacks env used l))
  | [], c => rfl
  | s :: l, c => by
    have ih := foldlM_fromVariable env used l
    rw [List.foldlM_cons, fromVariable_eq, fallbacks, List.filterMap_cons]
    cases fallback env used s with
    | none => exact ih c
    | some v =>
      change _ = outcome _ (assignAll c ((s, v) :: fallbacks env used l))
      rw [assignAll_cons]
      simp only
      -- the option of a variable that was read still counts as not given
      cases assign c s v with
      | error f => rfl
      | ok d => exact ih d

theorem mem_fallbacks {env : String → Option String} {used l : List Setting} {g : Setting × String} :
    g ∈ fallbacks env used l ↔ g.1 ∈ l ∧ fallback env used g.1 = some g.2 := by
  obtain ⟨s, v⟩ := g
  simp only [fallbacks, List.mem_filterMap, Option.map_eq_some_iff, Prod.mk.injEq]
  constructor
  · rintro ⟨t, ht, w, hw, rfl, rfl⟩
    exact ⟨ht, hw⟩
  · intro ⟨hs, hv⟩
    exact ⟨s, hs, v, hv, rfl, rfl⟩

theorem given_of_notMem {gs : List (Setting × String)} {s : Setting} (h : ∀ g ∈ gs, g.1 ≠ s) :
    given gs s = [] := by
  rw [List.eq_nil_iff_forall_not_mem]
  intro v hv
  exact h (s, v) (mem_given.mp hv) rfl

theorem given_fallbacks {env : String → Option String} {used : List Setting} {s : Setting} :
    ∀ {l : List Setting}, l.Nodup → s ∈ l → given (fallbacks env used l) s = (fallback env used s).toList
  | t :: l, hl, hs => by
    obtain ⟨hnot, hrest⟩ := List.nodup_cons.mp hl
    by_cases ht : t = s
    · subst ht
      have hnone : given (fallbacks env used l) t = [] := by
        apply given_of_notMem
        intro g hg e
        exact hnot (e ▸ (mem_fallbacks.mp hg).1)
      rw [fallbacks, List.filterMap_cons]
      cases fallback env used t with
      | none => exact hnone
      | some v =>
        change given ((t, v) :: fallbacks env used l) t = [v]
        rw [given_cons_self, hnone]
    · have hs' : s ∈ l := (List.mem_cons.mp hs).resolve_left (Ne.symm ht)
      rw [← given_fallbacks hrest hs', fallbacks, List.filterMap_cons]
      cases fallback env used t with
      | none => rfl
      | some v => exact given_cons_ne ht _

/-! ## The texts that count -/

/-- The texts that count for a setting: those given, or else that of its variable. -/
def texts (env : String → Option String) (gs : List (Setting × String)) (s : Setting) : List String :=
  if given gs s = [] then (s.valueName?.bind env).toList else given gs s

/-- All that is assigned: what is given, and then the variables of what is not. -/
def assigned (env : String → Option String) (gs : List (Setting × String)) : List (Setting × String) :=
  gs ++ fallbacks env (gs.foldl usedWith []) Setting.all

theorem fallback_used (env : String → Option String) (gs : List (Setting × String)) (s : Setting) :
    fallback env (gs.foldl usedWith []) s = if given gs s = [] then s.valueName?.bind env else none := by
  have hused : (gs.foldl usedWith []).contains s = true ↔ given gs s ≠ [] := by
    simp [mem_foldl_usedWith]
  unfold fallback
  by_cases hs : given gs s = []
  · rw [if_pos hs, if_neg (fun h => hused.mp h hs)]
  · rw [if_neg hs, if_pos (hused.mpr hs)]

theorem given_assigned (env : String → Option String) (gs : List (Setting × String)) :
    given (assigned env gs) = texts env gs := by
  funext s
  have hall : Setting.all.Nodup := by decide
  have hs : s ∈ Setting.all := by cases s <;> decide
  rw [assigned, given_append, given_fallbacks hall hs, fallback_used, texts]
  by_cases hgiven : given gs s = []
  · rw [if_pos hgiven, if_pos hgiven, hgiven]
    rfl
  · rw [if_neg hgiven, if_neg hgiven]
    exact List.append_nil _

theorem parse_eq {args : List String} {gs : List (Setting × String)} (h : Gives args gs) (once : GivenOnce gs)
    (env : String → Option String) :
    parse env args = (assignAll Config.standard (assigned env gs)).mapError Stop.fault := by
  have htake : State.initial.takeAll args =
      outcome (fun d => ⟨d, gs.foldl usedWith [], none⟩) (assignAll Config.standard gs) := by
    rw [h.reads.settled rfl]
    exact giveAll_eq h.settable once fun s hs => absurd hs (List.not_mem_nil)
  rw [parse, htake, assigned, assignAll_append]
  cases assignAll Config.standard gs with
  | error f => rfl
  | ok d =>
    change ((Setting.all.foldlM (fromVariable env) ⟨d, gs.foldl usedWith [], none⟩).bind
      fun st => .ok st.config) = (assignAll d _).mapError Stop.fault
    rw [foldlM_fromVariable]
    cases assignAll d (fallbacks env (gs.foldl usedWith []) Setting.all) with
    | error f => rfl
    | ok e => rfl

/-! ## Configurations -/

/-- A part stands as its only text says, or as it is by default. -/
def Stands {α : Type} (meaning : String → α → Prop) (default : α) : List String → α → Prop
  | [], a => a = default
  | v :: _, a => meaning v a

/-- The configuration of the texts that count. -/
structure Configured (texts : Setting → List String) (c : Config) : Prop where
  host : Stands (fun v a => a = v) "0.0.0.0" (texts .host) c.host
  port : Stands (fun v a => IntegerText v.toList a.toNat) (3000 : UInt16) (texts .port) c.port
  staticDir : Stands (fun v a => v ≠ "" ∧ a = v) "dist" (texts .staticDir) c.staticDir
  maxUploadBytes : Stands (fun v a => NaturalText v.toList a.toNat) (10485760 : UInt64)
    (texts .maxUploadBytes) c.maxUploadBytes
  corsOrigins : ∃ pss, List.Forall₂ IsSplit (texts .corsOrigin) pss ∧ c.corsOrigins = pss.flatten
  noSeed : c.noSeed = true ↔ texts .noSeed ≠ []

/-- A text that counts and that its setting does not accept. -/
def Refused (texts : Setting → List String) (s : Setting) (v : String) : Prop :=
  v ∈ texts s ∧ ¬ Acceptable s v

theorem leads_stands {α : Type} {meaning : String → α → Prop} {default a : α} {vs : List String}
    (h : vs.length ≤ 1) :
    Leads (fun _ v b => meaning v b) default vs a ↔ Stands meaning default vs a := by
  match vs, h with
  | [], _ => exact leads_nil
  | [v], _ =>
    simp only [leads_cons, leads_nil, Stands]
    exact ⟨fun ⟨b, hb, ha⟩ => ha ▸ hb, fun ha => ⟨a, ha, rfl⟩⟩

theorem leads_flag {b : Bool} {vs : List String} (h : vs.length ≤ 1) :
    Leads (fun _ _ b => b = true) false vs b ↔ (b = true ↔ vs ≠ []) := by
  rw [@leads_stands Bool (fun _ b => b = true) false b vs h]
  match vs, h with
  | [], _ => simp [Stands]
  | [v], _ => simp [Stands]

theorem leads_split {vs as bs : List String} :
    Leads (fun a v b => ∃ ps, IsSplit v ps ∧ b = a ++ ps) as vs bs ↔
      ∃ pss, List.Forall₂ IsSplit vs pss ∧ bs = as ++ pss.flatten := by
  induction vs generalizing as with
  | nil =>
    rw [leads_nil]
    constructor
    · intro h
      exact ⟨[], .nil, by rw [h, List.flatten_nil, List.append_nil]⟩
    · intro ⟨pss, hpss, hbs⟩
      cases hpss
      rw [hbs, List.flatten_nil, List.append_nil]
  | cons v vs ih =>
    rw [leads_cons]
    constructor
    · intro ⟨cs, ⟨ps, hps, hcs⟩, hrest⟩
      obtain ⟨pss, hpss, hbs⟩ := ih.mp hrest
      exact ⟨ps :: pss, .cons hps hpss, by rw [hbs, hcs, List.flatten_cons, List.append_assoc]⟩
    · intro ⟨pss, hpss, hbs⟩
      cases hpss with
      | @cons _ ps _ pss hps hpss =>
        refine ⟨as ++ ps, ⟨ps, hps, rfl⟩, ih.mpr ⟨pss, hpss, ?_⟩⟩
        rw [hbs, List.flatten_cons, List.append_assoc]

theorem settles_configured {texts : Setting → List String} {c : Config}
    (h : ∀ s, s ≠ .corsOrigin → (texts s).length ≤ 1) :
    Settles Config.standard texts c ↔ Configured texts c := by
  have hhosts := @leads_stands String (fun v a => a = v) "0.0.0.0" c.host _ (h .host nofun)
  have hports := @leads_stands UInt16 (fun v a => IntegerText v.toList a.toNat) 3000 c.port _ (h .port nofun)
  have hdirs := @leads_stands String (fun v a => v ≠ "" ∧ a = v) "dist" c.staticDir _ (h .staticDir nofun)
  have hlimits := @leads_stands UInt64 (fun v a => NaturalText v.toList a.toNat) 10485760 c.maxUploadBytes _
    (h .maxUploadBytes nofun)
  have hseeds := @leads_flag c.noSeed _ (h .noSeed nofun)
  constructor
  · intro ⟨hhost, hport, hdir, hlimit, horigins, hseed⟩
    exact ⟨hhosts.mp hhost, hports.mp hport, hdirs.mp hdir, hlimits.mp hlimit, leads_split.mp horigins,
      hseeds.mp hseed⟩
  · intro ⟨hhost, hport, hdir, hlimit, horigins, hseed⟩
    exact ⟨hhosts.mpr hhost, hports.mpr hport, hdirs.mpr hdir, hlimits.mpr hlimit, leads_split.mpr horigins,
      hseeds.mpr hseed⟩

theorem texts_once {env : String → Option String} {gs : List (Setting × String)} (once : GivenOnce gs)
    (s : Setting) (hs : s ≠ .corsOrigin) : (texts env gs s).length ≤ 1 := by
  unfold texts
  split
  · cases s.valueName?.bind env <;> simp
  · exact once s hs

theorem mem_texts {env : String → Option String} {gs : List (Setting × String)} {s : Setting} {v : String} :
    v ∈ texts env gs s ↔ (s, v) ∈ assigned env gs := by
  rw [← given_assigned, mem_given]

theorem mapError_eq_ok {α : Type} {r : Except Fault α} {a : α} :
    r.mapError Stop.fault = .ok a ↔ r = .ok a := by
  cases r <;> simp [Except.mapError]

theorem mapError_eq_error {α : Type} {r : Except Fault α} {stop : Stop} :
    r.mapError Stop.fault = .error stop ↔ ∃ f, r = .error f ∧ Stop.fault f = stop := by
  cases r <;> simp [Except.mapError]

section
variable {args : List String} {gs : List (Setting × String)} (h : Gives args gs) (once : GivenOnce gs)
  (env : String → Option String)
include h once

theorem parse_eq_ok {c : Config} : parse env args = .ok c ↔ Configured (texts env gs) c := by
  rw [parse_eq h once, mapError_eq_ok, assignAll_eq_ok, given_assigned, settles_configured (texts_once once)]

theorem parse_eq_error {stop : Stop} (hstop : parse env args = .error stop) :
    ∃ f s v, stop = .fault f ∧ v ∈ texts env gs s ∧ ∀ c, assign c s v = .error f := by
  rw [parse_eq h once, mapError_eq_error] at hstop
  obtain ⟨f, hf, rfl⟩ := hstop
  obtain ⟨⟨s, v⟩, hmem, hfault⟩ := assignAll_eq_error hf
  exact ⟨f, s, v, rfl, mem_texts.mpr hmem, hfault⟩

theorem parse_refuses (hrefused : ∃ s v, Refused (texts env gs) s v) : ∃ stop, parse env args = .error stop := by
  obtain ⟨s, v, hv, hno⟩ := hrefused
  cases hparse : parse env args with
  | error stop => exact ⟨stop, rfl⟩
  | ok c =>
    rw [parse_eq h once, mapError_eq_ok] at hparse
    exact absurd (acceptable_of_assignAll hparse (s, v) (mem_texts.mp hv)) hno

theorem parse_of_variables {other : String → Option String}
    (hother : ∀ s name, given gs s = [] → s.valueName? = some name → other name = env name) :
    parse other args = parse env args := by
  have hsame : ∀ s, fallback other (gs.foldl usedWith []) s = fallback env (gs.foldl usedWith []) s := by
    intro s
    rw [fallback_used, fallback_used]
    split
    · rename_i hs
      cases hname : s.valueName? with
      | none => rfl
      | some name => exact hother s name hs hname
    · rfl
  rw [parse_eq h once, parse_eq h once, assigned, assigned, fallbacks, fallbacks]
  simp only [hsame]

end

section
variable {gs gs' : List (Setting × String)} (hsame : ∀ s, given gs' s = given gs s)
include hsame

theorem texts_congr (env : String → Option String) : texts env gs' = texts env gs := by
  funext s
  rw [texts, texts, hsame s]

theorem GivenOnce.congr (once : GivenOnce gs) : GivenOnce gs' := by
  intro s hs
  rw [hsame s]
  exact once s hs

theorem parse_reordered {args args' : List String} (h : Gives args gs) (h' : Gives args' gs')
    (once : GivenOnce gs) (env : String → Option String) :
    (parse env args').toOption = (parse env args).toOption := by
  have once' := once.congr hsame
  cases hparse : parse env args with
  | ok c =>
    rw [parse_eq_ok h once, ← texts_congr hsame, ← parse_eq_ok h' once'] at hparse
    rw [hparse]
  | error stop =>
    obtain ⟨f, s, v, -, hv, hf⟩ := parse_eq_error h once env hparse
    have hrefused : Refused (texts env gs') s v :=
      ⟨(texts_congr hsame env).symm ▸ hv, (assign_eq_error (hf Config.standard)).2.1⟩
    obtain ⟨stop', hstop'⟩ := parse_refuses h' once' env ⟨s, v, hrefused⟩
    rw [hstop']
    rfl

/-- Only of several refused texts can it be another one that a fault names. -/
theorem parse_reordered_eq {args args' : List String} (h : Gives args gs) (h' : Gives args' gs')
    (once : GivenOnce gs) (env : String → Option String)
    (hone : ∀ s v t w, Refused (texts env gs) s v → Refused (texts env gs) t w → s = t ∧ v = w) :
    parse env args' = parse env args := by
  have htoOption := parse_reordered hsame h h' once env
  cases hparse : parse env args with
  | ok c =>
    rw [parse_eq_ok h once, ← texts_congr hsame, ← parse_eq_ok h' (once.congr hsame)] at hparse
    exact hparse
  | error stop =>
    obtain ⟨f, s, v, rfl, hv, hf⟩ := parse_eq_error h once env hparse
    cases hparse' : parse env args' with
    | ok c =>
      rw [hparse, hparse'] at htoOption
      cases htoOption
    | error stop' =>
      obtain ⟨f', t, w, rfl, hw, hf'⟩ := parse_eq_error h' (once.congr hsame) env hparse'
      rw [texts_congr hsame] at hw
      obtain ⟨rfl, rfl⟩ := hone s v t w ⟨hv, (assign_eq_error (hf Config.standard)).2.1⟩
        ⟨hw, (assign_eq_error (hf' Config.standard)).2.1⟩
      have hff : Except.error f' = (Except.error f : Except Fault Config) :=
        (hf' Config.standard).symm.trans (hf Config.standard)
      cases hff
      rfl

end

/-! ## Command lines that are read -/

theorem used_of_give {st t : State} {g : Setting × String} {value : Option String}
    (h : st.give g.1 value = .ok t) :
    (g.1 ∈ st.used → g.1 = .corsOrigin) ∧ t.used = usedWith st.used g := by
  unfold State.give at h
  split at h
  · cases h
  split at h
  · cases h
  split at h
  · cases h
  split at h
  · cases h
  · rename_i hrepeated
    split at h
    · cases h
      exact ⟨by simpa using hrepeated, rfl⟩
    · cases h

theorem givenOnce_of_giveAll : ∀ {gs : List (Setting × String)} {st t : State}, st.giveAll gs = .ok t →
    GivenOnce gs ∧ Unused st.used gs
  | [], _, _, _ => ⟨fun _ _ => Nat.zero_le 1, fun _ _ _ => rfl⟩
  | g :: gs, st, t, h => by
    obtain ⟨u, hu, hrest⟩ := Json.bind_eq_ok.mp h
    obtain ⟨honly, hused⟩ := used_of_give hu
    obtain ⟨once, unused⟩ := givenOnce_of_giveAll hrest
    rw [hused] at unused
    constructor
    · intro s hs
      by_cases hg : g.1 = s
      · subst hg
        rw [given_cons_self, unused g.1 (mem_usedWith.mpr (.inr rfl)) hs]
        exact Nat.le_refl 1
      · rw [given_cons_ne hg]
        exact once s hs
    · intro s hused hs
      have hg : g.1 ≠ s := by
        intro e
        subst e
        exact hs (honly hused)
      rw [given_cons_ne hg]
      exact unused s (mem_usedWith.mpr (.inl hused)) hs

theorem gives_of_parse {env : String → Option String} {args : List String} {c : Config}
    (h : parse env args = .ok c) : (∃ gs, Gives args gs) ∧
      ∀ gs, Gives args gs → GivenOnce gs ∧ Configured (texts env gs) c := by
  obtain ⟨st, hst, -⟩ := Json.bind_eq_ok.mp h
  refine ⟨exists_gives hst, fun gs hgs => ?_⟩
  rw [hgs.reads.settled rfl] at hst
  have once := (givenOnce_of_giveAll hst).1
  exact ⟨once, (parse_eq_ok hgs once env).mp h⟩

theorem Configured.corsOrigins_eq {texts : Setting → List String} {c : Config} (h : Configured texts c) :
    c.corsOrigins = (texts .corsOrigin).flatMap pieces := by
  obtain ⟨pss, hpss, horigins⟩ := h.corsOrigins
  have hpieces : (texts .corsOrigin).map pieces = pss := by
    rw [← List.forall₂_eq_eq_eq, List.forall₂_map_left_iff]
    exact hpss.imp fun v ps hps => isSplit_iff.mp hps
  rw [horigins, ← hpieces, List.flatMap_def]

/-! ## The main statement -/

theorem parse_decided {args : List String} {gs : List (Setting × String)} (h : Gives args gs)
    (once : GivenOnce gs) (env : String → Option String) :
    (∀ c, parse env args = .ok c ↔ Configured (texts env gs) c) ∧
    ((∃ stop, parse env args = .error stop) ↔ ∃ s v, Refused (texts env gs) s v) ∧
    (∀ stop, parse env args = .error stop →
      ∃ f s v, stop = .fault f ∧ Refused (texts env gs) s v ∧ Blames s v f) ∧
    (∀ other, (∀ s name, given gs s = [] → s.valueName? = some name → other name = env name) →
      parse other args = parse env args) ∧
    (∀ args' gs', Gives args' gs' → (∀ s, given gs' s = given gs s) →
      (parse env args').toOption = (parse env args).toOption ∧
      ((∀ s v t w, Refused (texts env gs) s v → Refused (texts env gs) t w → s = t ∧ v = w) →
        parse env args' = parse env args)) := by
  have hblames : ∀ stop, parse env args = .error stop →
      ∃ f s v, stop = .fault f ∧ Refused (texts env gs) s v ∧ Blames s v f := by
    intro stop hstop
    obtain ⟨f, s, v, rfl, hv, hf⟩ := parse_eq_error h once env hstop
    obtain ⟨-, hno, hb⟩ := assign_eq_error (hf Config.standard)
    exact ⟨f, s, v, rfl, ⟨hv, hno⟩, hb⟩
  refine ⟨fun c => parse_eq_ok h once env, ⟨?_, parse_refuses h once env⟩, hblames, ?_, ?_⟩
  · intro ⟨stop, hstop⟩
    obtain ⟨_, s, v, _, hrefused, _⟩ := hblames stop hstop
    exact ⟨s, v, hrefused⟩
  · intro other hother
    exact parse_of_variables h once env hother
  · intro args' gs' h' hsame
    exact ⟨parse_reordered hsame h h' once env, parse_reordered_eq hsame h h' once env⟩

def mixedVariables : String → Option String
  | "HOST" => some ""
  | "PORT" => some "x"
  | "MAX_UPLOAD_BYTES" => some "+007"
  | _ => none

def mixedArguments : List String := ["--port=-0", "--cors-origin", "a,,b", "--no-seed", "--cors-origin="]

def mixedGiven : List (Setting × String) :=
  [(.port, "-0"), (.corsOrigin, "a,,b"), (.noSeed, ""), (.corsOrigin, "")]

theorem mixedArguments_gives : Gives mixedArguments mixedGiven := by
  have hlist : IsOperand "a,,b" := by
    intro c rest h
    cases h
  have hempty : Gives ["--cors-origin="] [(.corsOrigin, "")] := @Gives.glued .corsOrigin "" _ _ rfl .nil
  exact @Gives.glued .port "-0" _ _ rfl (.apart (s := .corsOrigin) rfl hlist (.flag hempty))

theorem mixedGiven_once : GivenOnce mixedGiven := by
  intro s hs
  cases s with
  | corsOrigin => exact absurd rfl hs
  | _ => decide

theorem parse_decided_mixed : parse mixedVariables mixedArguments =
    .ok ⟨"", 0, "dist", 7, ["a", "", "b", ""], true⟩ := by
  obtain ⟨hok, -⟩ := parse_decided mixedArguments_gives mixedGiven_once mixedVariables
  rw [hok]
  have hzero : Numeral ['0'] 0 := ⟨by simp, by simp, by decide⟩
  have hseven : Numeral ['0', '0', '7'] 7 := ⟨by simp, by simp, by decide⟩
  have hport : IntegerText "-0".toList (0 : UInt16).toNat := .minus hzero
  have hlimit : NaturalText "+007".toList (7 : UInt64).toNat := .plus hseven
  have hlist : IsSplit "a,,b" ["a", "", "b"] := ⟨by simp, by simp, by decide⟩
  have hempty : IsSplit "" [""] := ⟨by simp, by simp, by decide⟩
  exact ⟨rfl, hport, rfl, hlimit, ⟨[["a", "", "b"], [""]], .cons hlist (.cons hempty .nil), rfl⟩, by decide⟩

end RecordSearch.CommandLine
