import RecordSearch.Proofs.CommandLine.Sources
import RecordSearch.Proofs.Service.Origins

/-!
# Starting from a command line

The origins of a service are the pieces of the texts that count. The service
starts unless a star is among them (`starts_iff`), and is open to any origin if
there is no such text at all, not even an empty one (`opens_iff`).
-/

namespace RecordSearch

open Http (Request StaticSite)
open CommandLine (Gives IsSplit texts)

/-- Every answer may be read from anywhere. -/
def Open (s : Service) : Prop :=
  ∀ id store r, allowedOrigins (s.answer id store r).1.headers = ["*"]

theorem open_iff {s : Service} : Open s ↔ s.cors = .anyOrigin := by
  constructor
  · intro h
    have htold := h "" Store.empty ⟨"GET", Http.Target.ofString "/", [], []⟩
    rw [allowedOrigins_answer] at htold
    cases hp : s.cors with
    | anyOrigin => rfl
    | listed origins =>
      rw [hp] at htold
      cases htold
  · intro h id store r
    rw [allowedOrigins_answer, h]
    rfl

theorem ofOrigins?_eq_anyOrigin {origins : List String} :
    Http.Cors.Policy.ofOrigins? origins = some .anyOrigin ↔ origins = [] := by
  constructor
  · intro h
    refine Decidable.byContradiction fun hne => ?_
    by_cases hstar : "*" ∈ origins
    · rw [ofOrigins?_starred hstar] at h
      cases h
    · rw [ofOrigins?_listed hne hstar] at h
      cases h
  · intro h
    subst h
    rfl

theorem ofOrigins?_isSome {origins : List String} :
    (∃ p, Http.Cors.Policy.ofOrigins? origins = some p) ↔ "*" ∉ origins := by
  constructor
  · intro hpolicy hstar
    obtain ⟨p, hp⟩ := hpolicy
    rw [ofOrigins?_starred hstar] at hp
    cases hp
  · intro hstar
    by_cases hne : origins = []
    · exact ⟨_, ofOrigins?_eq_anyOrigin.mpr hne⟩
    · exact ⟨_, ofOrigins?_listed hne hstar⟩

section
variable {env : String → Option String} {gs : List (CommandLine.Setting × String)} {c : Config}
  (h : CommandLine.Configured (texts env gs) c)
include h

theorem mem_corsOrigins {o : String} :
    o ∈ c.corsOrigins ↔ ∃ v ∈ texts env gs .corsOrigin, ∃ ps, IsSplit v ps ∧ o ∈ ps := by
  rw [h.corsOrigins_eq, List.mem_flatMap]
  simp only [CommandLine.isSplit_iff, exists_eq_left']

theorem corsOrigins_eq_nil : c.corsOrigins = [] ↔ texts env gs .corsOrigin = [] := by
  have hpieces : ∀ v, CommandLine.pieces v ≠ [] := fun v => (CommandLine.isSplit_iff.mpr rfl).nonempty
  rw [h.corsOrigins_eq, List.flatMap_eq_nil_iff]
  constructor
  · intro hnil
    rw [List.eq_nil_iff_forall_not_mem]
    exact fun v hv => hpieces v (hnil v hv)
  · intro hnil
    rw [hnil]
    exact List.forall_mem_nil _

end

/-! ## The main statements -/

theorem starts_iff {env : String → Option String} {args : List String} {c : Config}
    (h : CommandLine.parse env args = .ok c) (site : StaticSite) (readPdf : PdfReader) :
    (∃ gs, Gives args gs) ∧ ∀ gs, Gives args gs → ((∃ s, Service.ofConfig? c site readPdf = some s) ↔
      ¬ ∃ v ∈ texts env gs .corsOrigin, ∃ ps, IsSplit v ps ∧ "*" ∈ ps) := by
  obtain ⟨hexists, hgives⟩ := CommandLine.gives_of_parse h
  refine ⟨hexists, fun gs hgs => ?_⟩
  rw [← mem_corsOrigins (hgives gs hgs).2, ← ofOrigins?_isSome]
  simp only [Service.ofConfig?, Option.map_eq_some_iff]
  constructor
  · intro hstarts
    obtain ⟨_, p, hp, _⟩ := hstarts
    exact ⟨p, hp⟩
  · intro hpolicy
    obtain ⟨p, hp⟩ := hpolicy
    exact ⟨_, p, hp, rfl⟩

/-- One usable origin, and an empty piece beside it. -/
theorem starts_with_origin : ∃ s,
    Service.ofConfig? { Config.standard with corsOrigins := ["http://a", ""] } ⟨[]⟩ .absent = some s := by
  have hparse : CommandLine.parse (fun _ => none) ["--cors-origin=http://a,"] =
      .ok { Config.standard with corsOrigins := ["http://a", ""] } := rfl
  have hgives : Gives ["--cors-origin=http://a,"] [(.corsOrigin, "http://a,")] :=
    @Gives.glued .corsOrigin "http://a," _ _ rfl .nil
  have hstarts := (starts_iff hparse ⟨[]⟩ .absent).2 _ hgives
  apply hstarts.mpr
  intro hstarred
  obtain ⟨v, hv, ps, hps, hstar⟩ := hstarred
  cases List.mem_singleton.mp hv
  rw [← CommandLine.isSplit_iff.mp hps] at hstar
  exact absurd hstar (by decide)

theorem starred_option_stops : ∃ c, CommandLine.parse (fun _ => none) ["--cors-origin=*"] = .ok c ∧
    ∀ site readPdf, Service.ofConfig? c site readPdf = none :=
  ⟨{ Config.standard with corsOrigins := ["*"] }, rfl, fun _ _ => rfl⟩

theorem opens_iff {env : String → Option String} {args : List String} {c : Config}
    (h : CommandLine.parse env args = .ok c) (site : StaticSite) (readPdf : PdfReader) :
    (∃ gs, Gives args gs) ∧ ∀ gs, Gives args gs →
      ((∃ s, Service.ofConfig? c site readPdf = some s ∧ Open s) ↔ texts env gs .corsOrigin = []) := by
  obtain ⟨hexists, hgives⟩ := CommandLine.gives_of_parse h
  refine ⟨hexists, fun gs hgs => ?_⟩
  rw [← corsOrigins_eq_nil (hgives gs hgs).2, ← ofOrigins?_eq_anyOrigin]
  simp only [Service.ofConfig?, Option.map_eq_some_iff, open_iff]
  constructor
  · intro hopens
    obtain ⟨_, ⟨p, hp, rfl⟩, hopen⟩ := hopens
    exact hp.trans (congrArg some hopen)
  · intro hp
    exact ⟨_, ⟨.anyOrigin, hp, rfl⟩, rfl⟩

theorem opens_without_origins : ∃ s,
    Service.ofConfig? { Config.standard with noSeed := true } ⟨[]⟩ .absent = some s ∧ Open s := by
  have hparse : CommandLine.parse (fun _ => none) ["--no-seed"] =
      .ok { Config.standard with noSeed := true } := rfl
  exact ((opens_iff hparse ⟨[]⟩ .absent).2 _ (.flag .nil)).mpr rfl

def emptyVariable (name : String) : Option String := if name = "CORS_ORIGINS" then some "" else none

/-- The only piece of an empty text is itself empty, and yet it makes a list. -/
theorem empty_variable_restricts : (∀ ps, IsSplit "" ps → ps = [""]) ∧ ∃ c s,
    CommandLine.parse emptyVariable [] = .ok c ∧ Service.ofConfig? c ⟨[]⟩ .absent = some s ∧ ¬ Open s := by
  refine ⟨fun ps hps => (CommandLine.isSplit_iff.mp hps).symm, { Config.standard with corsOrigins := [""] },
    _, rfl, rfl, ?_⟩
  rw [open_iff]
  intro hopen
  cases hopen

end RecordSearch
