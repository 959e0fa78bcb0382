import RecordSearch.Proofs.CommandLine.Arguments
import RecordSearch.Proofs.CommandLine.Numerals

/-!
# Assigning settings

Each part of a configuration follows the texts of its own setting, in their
order, and no others (`assignAll_eq_ok`). Assigning fails at a text that its
setting does not accept, and names it (`assignAll_eq_error`).
-/

namespace RecordSearch.CommandLine

open Text (natural64)

/-! ## The texts of a setting -/

/-- The texts given for a setting, in order. -/
def given (gs : List (Setting × String)) (s : Setting) : List String :=
  gs.filterMap fun g => if g.1 = s then some g.2 else none

theorem given_cons_self (s : Setting) (v : String) (gs : List (Setting × String)) :
    given ((s, v) :: gs) s = v :: given gs s := by
  simp [given]

theorem given_cons_ne {g : Setting × String} {s : Setting} (h : g.1 ≠ s) (gs : List (Setting × String)) :
    given (g :: gs) s = given gs s := by
  simp [given, h]

theorem given_append (gs hs : List (Setting × String)) (s : Setting) :
    given (gs ++ hs) s = given gs s ++ given hs s :=
  List.filterMap_append

theorem mem_given {gs : List (Setting × String)} {s : Setting} {v : String} :
    v ∈ given gs s ↔ (s, v) ∈ gs := by
  simp only [given, List.mem_filterMap, Option.ite_none_right_eq_some, Option.some.injEq]
  constructor
  · intro h
    obtain ⟨⟨t, w⟩, hg, rfl, rfl⟩ := h
    exact hg
  · intro h
    exact ⟨_, h, rfl, rfl⟩

/-! ## Pieces -/

/-- The pieces of a text between its commas. -/
structure IsSplit (text : String) (pieces : List String) : Prop where
  nonempty : pieces ≠ []
  clean : ∀ p ∈ pieces, ',' ∉ p.toList
  joined : ",".intercalate pieces = text

def pieces (text : String) : List String := (text.toList.splitOn ',').map String.ofList

theorem isSplit_iff {text : String} {ps : List String} : IsSplit text ps ↔ pieces text = ps := by
  constructor
  · intro h
    have hsplit : text.toList.splitOn ',' = ps.map String.toList := by
      refine Text.splitOn_eq_iff.mpr ⟨by simp [h.nonempty], ?_, ?_⟩
      · intro q hq
        obtain ⟨p, hp, rfl⟩ := List.mem_map.mp hq
        exact h.clean p hp
      · rw [← h.joined, String.toList_intercalate]
        rfl
    rw [pieces, hsplit, List.map_map]
    simp [Function.comp_def]
  · intro h
    subst h
    obtain ⟨hne, hclean, -⟩ := Text.splitOn_eq_iff.mp (rfl : text.toList.splitOn ',' = _)
    refine ⟨by simp [pieces, hne], ?_, ?_⟩
    · intro p hp
      obtain ⟨q, hq, rfl⟩ := List.mem_map.mp hp
      rw [String.toList_ofList]
      exact hclean q hq
    · apply String.toList_injective
      rw [String.toList_intercalate, pieces, List.map_map]
      simp [Function.comp_def]

/-! ## Single assignments -/

/-- A part that changes at the texts of one setting. -/
def Only {α : Type} (t : Setting) (change : α → String → α → Prop) (a : α) (g : Setting × String) (b : α) :
    Prop :=
  if g.1 = t then change a g.2 b else b = a

theorem leads_only {α : Type} {t : Setting} {change : α → String → α → Prop} {gs : List (Setting × String)}
    {a b : α} : Leads (Only t change) a gs b ↔ Leads change a (given gs t) b := by
  induction gs generalizing a with
  | nil => rw [leads_nil, given, List.filterMap_nil, leads_nil]
  | cons g gs ih =>
    obtain ⟨s, v⟩ := g
    rw [leads_cons]
    by_cases hs : s = t
    · subst hs
      rw [given_cons_self, leads_cons]
      simp only [Only, if_true, ih]
    · rw [given_cons_ne hs]
      simp only [Only, if_neg hs, exists_eq_left, ih]

structure Follows (c : Config) (g : Setting × String) (d : Config) : Prop where
  host : Only .host (fun _ v b => b = v) c.host g d.host
  port : Only .port (fun _ v b => IntegerText v.toList b.toNat) c.port g d.port
  staticDir : Only .staticDir (fun _ v b => v ≠ "" ∧ b = v) c.staticDir g d.staticDir
  maxUploadBytes : Only .maxUploadBytes (fun _ v b => NaturalText v.toList b.toNat)
    c.maxUploadBytes g d.maxUploadBytes
  corsOrigins : Only .corsOrigin (fun a v b => ∃ ps, IsSplit v ps ∧ b = a ++ ps)
    c.corsOrigins g d.corsOrigins
  noSeed : Only .noSeed (fun _ _ b => b = true) c.noSeed g d.noSeed

theorem config_eq {c d : Config} (hhost : d.host = c.host) (hport : d.port = c.port)
    (hdir : d.staticDir = c.staticDir) (hlimit : d.maxUploadBytes = c.maxUploadBytes)
    (horigins : d.corsOrigins = c.corsOrigins) (hseed : d.noSeed = c.noSeed) : c = d := by
  cases c
  cases d
  simp_all

theorem assign_eq_ok {c d : Config} {s : Setting} {v : String} :
    assign c s v = .ok d ↔ Follows c (s, v) d := by
  cases s with
  | host =>
    constructor
    · intro h
      cases h
      exact ⟨rfl, rfl, rfl, rfl, rfl, rfl⟩
    · intro ⟨hhost, hport, hdir, hlimit, horigins, hseed⟩
      exact congrArg Except.ok (config_eq hhost hport hdir hlimit horigins hseed)
  | port =>
    constructor
    · intro h
      unfold assign at h
      simp only at h
      split at h
      · rename_i p hp
        cases h
        exact ⟨rfl, portNumber_eq_ok.mp hp, rfl, rfl, rfl, rfl⟩
      · cases h
    · intro ⟨hhost, hport, hdir, hlimit, horigins, hseed⟩
      have hp : portNumber v = .ok d.port := portNumber_eq_ok.mpr hport
      simp only [assign, hp]
      exact congrArg Except.ok (config_eq hhost rfl hdir hlimit horigins hseed)
  | staticDir =>
    constructor
    · intro h
      unfold assign at h
      simp only at h
      split at h
      · cases h
      · rename_i hv
        cases h
        exact ⟨rfl, rfl, ⟨by simpa using hv, rfl⟩, rfl, rfl, rfl⟩
    · intro ⟨hhost, hport, ⟨hv, hdir⟩, hlimit, horigins, hseed⟩
      have hempty : v.isEmpty = false := by simpa using hv
      simp only [assign, hempty]
      exact congrArg Except.ok (config_eq hhost hport hdir hlimit horigins hseed)
  | maxUploadBytes =>
    constructor
    · intro h
      unfold assign at h
      simp only at h
      split at h
      · rename_i n hn
        cases h
        obtain ⟨htext, hlt⟩ := natural64_eq_ok.mp hn
        have hback : n.toUInt64.toNat = n := UInt64.toNat_ofNat_of_lt' hlt
        have hlimit : NaturalText v.toList n.toUInt64.toNat := hback.symm ▸ htext
        exact ⟨rfl, rfl, rfl, hlimit, rfl, rfl⟩
      · cases h
    · intro ⟨hhost, hport, hdir, hlimit, horigins, hseed⟩
      have hn : natural64 v = .ok d.maxUploadBytes.toNat :=
        natural64_eq_ok.mpr ⟨hlimit, d.maxUploadBytes.toNat_lt⟩
      simp only [assign, hn]
      exact congrArg Except.ok (config_eq hhost hport hdir UInt64.ofNat_toNat.symm horigins hseed)
  | corsOrigin =>
    constructor
    · intro h
      cases h
      exact ⟨rfl, rfl, rfl, rfl, ⟨_, isSplit_iff.mpr rfl, rfl⟩, rfl⟩
    · intro ⟨hhost, hport, hdir, hlimit, ⟨ps, hps, horigins⟩, hseed⟩
      have hpieces := isSplit_iff.mp hps
      subst hpieces
      exact congrArg Except.ok (config_eq hhost hport hdir hlimit horigins hseed)
  | noSeed | help | version =>
    constructor
    · intro h
      cases h
      exact ⟨rfl, rfl, rfl, rfl, rfl, rfl⟩
    · intro ⟨hhost, hport, hdir, hlimit, horigins, hseed⟩
      exact congrArg Except.ok (config_eq hhost hport hdir hlimit horigins hseed)

/-! ## Assigning in order -/

def assignAll (c : Config) (gs : List (Setting × String)) : Except Fault Config :=
  gs.foldlM (fun c g => assign c g.1 g.2) c

theorem assignAll_cons (c : Config) (g : Setting × String) (gs : List (Setting × String)) :
    assignAll c (g :: gs) = (assign c g.1 g.2).bind fun c => assignAll c gs := rfl

theorem assignAll_append (c : Config) (gs hs : List (Setting × String)) :
    assignAll c (gs ++ hs) = (assignAll c gs).bind fun c => assignAll c hs :=
  List.foldlM_append

/-- The parts of a configuration, each by the texts of its setting in order. -/
structure Settles (c : Config) (texts : Setting → List String) (d : Config) : Prop where
  host : Leads (fun _ v b => b = v) c.host (texts .host) d.host
  port : Leads (fun _ v b => IntegerText v.toList b.toNat) c.port (texts .port) d.port
  staticDir : Leads (fun _ v b => v ≠ "" ∧ b = v) c.staticDir (texts .staticDir) d.staticDir
  maxUploadBytes : Leads (fun _ v b => NaturalText v.toList b.toNat)
    c.maxUploadBytes (texts .maxUploadBytes) d.maxUploadBytes
  corsOrigins : Leads (fun a v b => ∃ ps, IsSplit v ps ∧ b = a ++ ps)
    c.corsOrigins (texts .corsOrigin) d.corsOrigins
  noSeed : Leads (fun _ _ b => b = true) c.noSeed (texts .noSeed) d.noSeed

theorem leads_follows {c d : Config} {gs : List (Setting × String)} :
    Leads Follows c gs d ↔ Settles c (given gs) d := by
  induction gs generalizing c with
  | nil =>
    rw [leads_nil]
    constructor
    · intro h
      subst h
      exact ⟨.nil _, .nil _, .nil _, .nil _, .nil _, .nil _⟩
    · intro ⟨hhost, hport, hdir, hlimit, horigins, hseed⟩
      exact (config_eq (leads_nil.mp hhost) (leads_nil.mp hport) (leads_nil.mp hdir)
        (leads_nil.mp hlimit) (leads_nil.mp horigins) (leads_nil.mp hseed)).symm
  | cons g gs ih =>
    rw [leads_cons]
    constructor
    · intro ⟨b, hb, hrest⟩
      obtain ⟨hhost, hport, hdir, hlimit, horigins, hseed⟩ := ih.mp hrest
      exact ⟨leads_only.mp (.cons hb.host (leads_only.mpr hhost)),
        leads_only.mp (.cons hb.port (leads_only.mpr hport)),
        leads_only.mp (.cons hb.staticDir (leads_only.mpr hdir)),
        leads_only.mp (.cons hb.maxUploadBytes (leads_only.mpr hlimit)),
        leads_only.mp (.cons hb.corsOrigins (leads_only.mpr horigins)),
        leads_only.mp (.cons hb.noSeed (leads_only.mpr hseed))⟩
    · intro ⟨hhost, hport, hdir, hlimit, horigins, hseed⟩
      obtain ⟨host, hhost, hhosts⟩ := leads_cons.mp (leads_only.mpr hhost)
      obtain ⟨port, hport, hports⟩ := leads_cons.mp (leads_only.mpr hport)
      obtain ⟨dir, hdir, hdirs⟩ := leads_cons.mp (leads_only.mpr hdir)
      obtain ⟨limit, hlimit, hlimits⟩ := leads_cons.mp (leads_only.mpr hlimit)
      obtain ⟨origins, horigins, hmore⟩ := leads_cons.mp (leads_only.mpr horigins)
      obtain ⟨seed, hseed, hseeds⟩ := leads_cons.mp (leads_only.mpr hseed)
      exact ⟨⟨host, port, dir, limit, origins, seed⟩, ⟨hhost, hport, hdir, hlimit, horigins, hseed⟩,
        ih.mpr ⟨leads_only.mp hhosts, leads_only.mp hports, leads_only.mp hdirs, leads_only.mp hlimits,
          leads_only.mp hmore, leads_only.mp hseeds⟩⟩

theorem assignAll_eq_ok {c d : Config} {gs : List (Setting × String)} :
    assignAll c gs = .ok d ↔ Settles c (given gs) d := by
  rw [assignAll, Json.foldlM_eq_ok, ← leads_follows]
  simp only [assign_eq_ok]

/-! ## Texts that are refused -/

/-- The texts that a setting may have. -/
def Acceptable : Setting → String → Prop
  | .port, v => ∃ n : Nat, n ≤ 65535 ∧ IntegerText v.toList n
  | .maxUploadBytes, v => ∃ n, n < UInt64.size ∧ NaturalText v.toList n
  | .staticDir, v => v ≠ ""
  | _, _ => True

theorem acceptable_port {v : String} : Acceptable .port v ↔ ∃ p, portNumber v = .ok p := by
  constructor
  · intro ⟨n, hn, htext⟩
    have hback : n.toUInt16.toNat = n :=
      UInt16.toNat_ofNat_of_lt' (Nat.lt_of_le_of_lt hn (show 65535 < UInt16.size by decide))
    exact ⟨n.toUInt16, portNumber_eq_ok.mpr (hback.symm ▸ htext)⟩
  · intro ⟨p, hp⟩
    exact ⟨p.toNat, Nat.le_of_lt_succ p.toNat_lt, portNumber_eq_ok.mp hp⟩

theorem acceptable_maxUploadBytes {v : String} : Acceptable .maxUploadBytes v ↔ ∃ n, natural64 v = .ok n := by
  constructor
  · intro ⟨n, hn, htext⟩
    exact ⟨n, natural64_eq_ok.mpr ⟨htext, hn⟩⟩
  · intro ⟨n, hn⟩
    exact ⟨n, (natural64_eq_ok.mp hn).2, (natural64_eq_ok.mp hn).1⟩

/-- The faults that name a text of a setting. -/
inductive Blames (s : Setting) (v : String) : Fault → Prop
  | invalidValue (reason : String) : Blames s v (.invalidValue s v reason)
  | missingValue : v = "" → Blames s v (.missingValue s)

/-- Whether a text is refused, and the fault, do not depend on the settings before it. -/
theorem assign_cases (s : Setting) (v : String) : (∀ c, ∃ d, assign c s v = .ok d) ∨
    ∃ f, (∀ c, assign c s v = .error f) ∧ ¬ Acceptable s v ∧ Blames s v f := by
  cases s with
  | port =>
    cases hp : portNumber v with
    | ok p => exact .inl fun c => ⟨{ c with port := p }, by simp only [assign, hp]⟩
    | error e =>
      refine .inr ⟨_, fun c => by simp only [assign, hp], ?_, .invalidValue e⟩
      rw [acceptable_port]
      intro ⟨p, hok⟩
      rw [hp] at hok
      cases hok
  | maxUploadBytes =>
    cases hn : natural64 v with
    | ok n => exact .inl fun c => ⟨{ c with maxUploadBytes := n.toUInt64 }, by simp only [assign, hn]⟩
    | error e =>
      refine .inr ⟨_, fun c => by simp only [assign, hn], ?_, .invalidValue e⟩
      rw [acceptable_maxUploadBytes]
      intro ⟨n, hok⟩
      rw [hn] at hok
      cases hok
  | staticDir =>
    by_cases hv : v = ""
    · subst hv
      exact .inr ⟨_, fun _ => rfl, fun hok => hok rfl, .missingValue rfl⟩
    · have hempty : v.isEmpty = false := by simpa using hv
      exact .inl fun c => ⟨{ c with staticDir := v }, by simp only [assign, hempty]; rfl⟩
  | _ => exact .inl fun c => ⟨_, rfl⟩

theorem assign_eq_error {c : Config} {s : Setting} {v : String} {f : Fault} (h : assign c s v = .error f) :
    (∀ d, assign d s v = .error f) ∧ ¬ Acceptable s v ∧ Blames s v f := by
  rcases assign_cases s v with hok | ⟨f', hall, hfault⟩
  · obtain ⟨d, hd⟩ := hok c
    rw [hd] at h
    cases h
  · rw [hall c] at h
    cases h
    exact ⟨hall, hfault⟩

theorem acceptable_of_assign {c d : Config} {s : Setting} {v : String} (h : assign c s v = .ok d) :
    Acceptable s v := by
  obtain ⟨-, hport, hdir, hlimit, -, -⟩ := assign_eq_ok.mp h
  cases s with
  | port => exact ⟨d.port.toNat, Nat.le_of_lt_succ d.port.toNat_lt, hport⟩
  | maxUploadBytes => exact ⟨d.maxUploadBytes.toNat, d.maxUploadBytes.toNat_lt, hlimit⟩
  | staticDir => exact hdir.1
  | _ => trivial

theorem acceptable_of_assignAll {d : Config} : ∀ {gs : List (Setting × String)} {c : Config},
    assignAll c gs = .ok d → ∀ g ∈ gs, Acceptable g.1 g.2
  | [], _, _ => List.forall_mem_nil _
  | g :: gs, c, h => by
    obtain ⟨b, hb, hrest⟩ := Json.bind_eq_ok.mp h
    rw [List.forall_mem_cons]
    exact ⟨acceptable_of_assign hb, acceptable_of_assignAll hrest⟩

theorem assignAll_eq_error {f : Fault} : ∀ {gs : List (Setting × String)} {c : Config},
    assignAll c gs = .error f → ∃ g ∈ gs, ∀ d, assign d g.1 g.2 = .error f
  | [], _, h => by cases h
  | g :: gs, c, h => by
    rw [assignAll_cons] at h
    cases hg : assign c g.1 g.2 with
    | error f' =>
      rw [hg] at h
      cases h
      exact ⟨g, List.mem_cons_self .., (assign_eq_error hg).1⟩
    | ok b =>
      rw [hg] at h
      obtain ⟨g', hmem, hrefused⟩ := assignAll_eq_error (c := b) h
      exact ⟨g', List.mem_cons_of_mem _ hmem, hrefused⟩

end RecordSearch.CommandLine
