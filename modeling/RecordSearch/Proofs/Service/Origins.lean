import RecordSearch.Proofs.Text.Utf8
import RecordSearch.Server

/-!
# Origins

An answer says who may read it in one header, which no handler writes. With a
list of origins that header holds the request's own origin, if it is listed, and
else is left out (`listed_origins_told`).
-/

namespace RecordSearch

open Http (Request Response Headers StaticSite)

/-! ## What answers tell -/

/-- The origins that headers let read the answer. -/
def allowedOrigins (h : Headers) : List String :=
  (h.filter fun p => Http.sameName p.1 "access-control-allow-origin").map Prod.snd

/-- The names of the headers that handlers write. -/
def handlerNames : List String :=
  ["content-type", "accept-ranges", "content-range", "location", "allow", "access-control-allow-methods",
    "access-control-allow-headers"]

def Silent (response : Response) : Prop := ∀ h ∈ response.headers, h.1 ∈ handlerNames

theorem allowedOrigins_append (g h : Headers) :
    allowedOrigins (g ++ h) = allowedOrigins g ++ allowedOrigins h := by
  rw [allowedOrigins, List.filter_append, List.map_append, allowedOrigins, allowedOrigins]

theorem Silent.allowedOrigins {response : Response} (h : Silent response) :
    allowedOrigins response.headers = [] := by
  have hnames : handlerNames.all (fun name => !Http.sameName name "access-control-allow-origin") = true := by
    decide +kernel
  rw [RecordSearch.allowedOrigins, List.map_eq_nil_iff, List.filter_eq_nil_iff]
  intro p hp
  simpa using List.all_eq_true.mp hnames p.1 (h p hp)

/-! ## Handlers -/

theorem silent_empty (status : Nat) : Silent (.empty status) := List.forall_mem_nil _

theorem silent_plain (status : Nat) (text : String) : Silent (.plain status text) := by
  simp [Silent, Response.plain, handlerNames]

theorem silent_json (status : Nat) (v : Json) : Silent (.json status v) := by
  simp [Silent, Response.json, handlerNames]

theorem silent_notAllowed (methods : String) : Silent (.notAllowed methods) := by
  simp [Silent, Response.notAllowed, handlerNames]

theorem silent_preflight (route : Option Route) : Silent (preflight route) := by
  cases route <;> simp [Silent, preflight, Http.Cors.preflightHeaders, handlerNames]

theorem silent_fileHeaders (path : String) : ∀ h ∈ StaticSite.fileHeaders path, h.1 ∈ handlerNames := by
  simp [StaticSite.fileHeaders, handlerNames]

theorem silent_unsatisfiable (path : String) (size : Nat) (body : String) :
    Silent (StaticSite.unsatisfiable path size body) := by
  simp [Silent, StaticSite.unsatisfiable, StaticSite.fileHeaders, handlerNames]

theorem silent_serve (path : String) (content : Bytes) (range : Option String) :
    Silent (StaticSite.serve path content range) := by
  unfold StaticSite.serve
  simp only
  split
  · exact silent_fileHeaders path
  · split
    · simp [Silent, StaticSite.fileHeaders, handlerNames]
    · exact silent_unsatisfiable _ _ _
    · exact silent_unsatisfiable _ _ _

theorem silent_fallback (site : StaticSite) (range : Option String) : Silent (site.fallback range) := by
  unfold StaticSite.fallback
  split
  · exact silent_serve _ _ _
  · exact silent_empty 404

theorem silent_lookUp (site : StaticSite) (t : Http.Target) (range : Option String) :
    Silent (site.lookUp t range) := by
  unfold StaticSite.lookUp
  split
  · exact silent_fallback site range
  · simp only
    split
    · split
      · split
        · exact silent_serve _ _ _
        · exact silent_fallback site range
      · simp [Silent, handlerNames]
    · split
      · exact silent_empty 500
      · split
        · exact silent_serve _ _ _
        · exact silent_fallback site range

theorem silent_site (site : StaticSite) (r : Request) : Silent (site.answer r) := by
  unfold StaticSite.answer
  split
  · simp only
    split
    · exact silent_lookUp site _ _
    · exact silent_lookUp site _ _
  · exact silent_notAllowed _

theorem silent_search (store : Store) (r : Request) : Silent (answerSearch store r) := by
  unfold answerSearch
  split
  · exact silent_plain _ _
  · split
    · split
      · exact silent_json _ _
      · exact silent_json _ _
    · exact silent_json _ _

theorem silent_submit (id : String) (store : Store) (r : Request) : Silent (answerSubmit id store r).1 := by
  unfold answerSubmit
  split
  · rename_i response h
    unfold submitted at h
    repeat' split at h
    all_goals cases h
    · exact silent_plain _ _
    · exact silent_plain _ _
    · unfold unreadable
      split <;> exact silent_plain _ _
  · exact silent_json _ _

theorem silent_upload (s : Service) (r : Request) : Silent (answerUpload s r) := by
  unfold answerUpload
  split
  · exact silent_plain _ _
  · split <;> exact silent_json _ _

theorem silent_run (route : Route) (s : Service) (id : String) (store : Store) (r : Request) :
    Silent (route.run s id store r).1 := by
  cases route with
  | health => exact silent_json _ _
  | search => exact silent_search store r
  | submit => exact silent_submit id store r
  | submissions => exact silent_json _ _
  | upload => exact silent_upload s r

theorem silent_answer (route : Route) (s : Service) (id : String) (store : Store) (r : Request) :
    Silent (route.answer s id store r).1 := by
  have hrun := silent_run route s id store r
  unfold Route.answer
  repeat' split
  · exact hrun
  · exact silent_notAllowed _
  · exact hrun
  · rename_i h
    rw [h] at hrun
    exact hrun
  · exact silent_notAllowed _

/-! ## The service -/

theorem allowedOrigins_policy (p : Http.Cors.Policy) (h : Headers) :
    allowedOrigins (p.headers h) = (p.allowed? (Http.header? h "origin")).toList := by
  have hvary : allowedOrigins [("vary",
      "origin, access-control-request-method, access-control-request-headers")] = [] := by decide +kernel
  have htold : Http.sameName "access-control-allow-origin" "access-control-allow-origin" = true :=
    beq_self_eq_true _
  unfold Http.Cors.Policy.headers
  rw [← List.singleton_append, allowedOrigins_append, hvary, List.nil_append]
  cases p.allowed? (Http.header? h "origin") with
  | none => rfl
  | some o => simp [allowedOrigins, htold]

/-- The policy alone says who may read an answer. -/
theorem allowedOrigins_answer (s : Service) (id : String) (store : Store) (r : Request) :
    allowedOrigins (s.answer id store r).1.headers =
      (s.cors.allowed? (Http.header? r.headers "origin")).toList := by
  rw [← allowedOrigins_policy]
  have happend : ∀ response : Response, Silent response →
      allowedOrigins (response.withHeaders (s.cors.headers r.headers)).headers =
        allowedOrigins (s.cors.headers r.headers) := by
    intro response h
    rw [Response.withHeaders, allowedOrigins_append, h.allowedOrigins, List.nil_append]
  unfold Service.answer
  by_cases hm : r.method = "OPTIONS"
  · simp only [if_pos hm]
    exact happend _ (silent_preflight _)
  · simp only [if_neg hm]
    cases Route.ofPath? r.target.path with
    | none => exact happend _ (silent_site s.site r)
    | some route => exact happend _ (silent_answer route s id store r)

/-! ## Legal values -/

/-- No control character but the tab. -/
def IsLegal (value : String) : Prop := ∀ c ∈ value.toList, c = '\t' ∨ 32 ≤ c.toNat ∧ c.toNat ≠ 127

theorem isHeaderByte_iff {b : UInt8} :
    Http.isHeaderByte b = true ↔ b.toNat = 9 ∨ 32 ≤ b.toNat ∧ b.toNat ≠ 127 := by
  simp only [Http.isHeaderByte, Bool.or_eq_true, Bool.and_eq_true, decide_eq_true_eq, bne_iff_ne, beq_iff_eq,
    UInt8.le_iff_toNat_le, ne_eq, ← UInt8.toNat_inj]
  exact or_comm

theorem all_isHeaderByte {c : Char} : (String.utf8EncodeChar c).all Http.isHeaderByte = true ↔
    c = '\t' ∨ 32 ≤ c.toNat ∧ c.toNat ≠ 127 := by
  rcases Nat.lt_or_ge c.toNat 128 with hc | hc
  · have hbyte : (UInt8.ofNat c.toNat).toNat = c.toNat := by
      rw [UInt8.toNat_ofNat']
      omega
    rw [Utf8.utf8EncodeChar_ascii hc, List.all_cons, List.all_nil, Bool.and_true, isHeaderByte_iff, hbyte,
      ← Char.toNat_inj]
    rfl
  · have hbytes : ∀ b ∈ String.utf8EncodeChar c, Http.isHeaderByte b = true := by
      intro b hb
      have hhigh := Utf8.high_bytes hc b hb
      exact isHeaderByte_iff.mpr (.inr ⟨by omega, by omega⟩)
    exact ⟨fun _ => .inr ⟨by omega, by omega⟩, fun _ => List.all_eq_true.mpr hbytes⟩

theorem isHeaderValue_iff {value : String} : Http.isHeaderValue value = true ↔ IsLegal value := by
  rw [Http.isHeaderValue, Utf8.ofString, Utf8.encode, List.all_flatMap, List.all_eq_true]
  simp only [all_isHeaderByte]
  rfl

/-! ## Policies -/

theorem star_usable {origins : List String} :
    (origins.filter Http.isHeaderValue).contains "*" = true ↔ "*" ∈ origins := by
  have hstar : Http.isHeaderValue "*" = true := by decide +kernel
  rw [List.contains_iff_mem, List.mem_filter, and_iff_left hstar]

theorem ofOrigins?_listed {origins : List String} (h : origins ≠ []) (hstar : "*" ∉ origins) :
    Http.Cors.Policy.ofOrigins? origins = some (.listed (origins.filter Http.isHeaderValue)) := by
  have hempty : origins.isEmpty = false := by simpa using h
  rw [Http.Cors.Policy.ofOrigins?, hempty, if_neg (by simp)]
  simp only [if_neg (mt star_usable.mp hstar)]

theorem ofOrigins?_starred {origins : List String} (hstar : "*" ∈ origins) :
    Http.Cors.Policy.ofOrigins? origins = none := by
  have hempty : origins.isEmpty = false := by simpa using List.ne_nil_of_mem hstar
  rw [Http.Cors.Policy.ofOrigins?, hempty, if_neg (by simp)]
  simp only [if_pos (star_usable.mpr hstar)]

/-- A request whose origin is configured and can stand in a header. -/
structure Listed (c : Config) (r : Request) (o : String) : Prop where
  sent : Http.header? r.headers "origin" = some o
  configured : o ∈ c.corsOrigins
  legal : IsLegal o

theorem allowed?_listed {c : Config} {r : Request} {o : String} :
    (Http.Cors.Policy.listed (c.corsOrigins.filter Http.isHeaderValue)).allowed?
      (Http.header? r.headers "origin") = some o ↔ Listed c r o := by
  rw [Http.Cors.Policy.allowed?, Option.filter_eq_some_iff, List.contains_iff_mem, List.mem_filter,
    isHeaderValue_iff]
  exact ⟨fun h => ⟨h.1, h.2.1, h.2.2⟩, fun h => ⟨h.1, h.2, h.3⟩⟩

/-! ## The main statements -/

theorem listed_origins_told {c : Config} (hlisted : c.corsOrigins ≠ []) (hstar : "*" ∉ c.corsOrigins)
    (site : StaticSite) (readPdf : PdfReader) : ∃ s, Service.ofConfig? c site readPdf = some s ∧ ∀ id store r,
      "*" ∉ allowedOrigins (s.answer id store r).1.headers ∧
      (∀ o, Listed c r o → allowedOrigins (s.answer id store r).1.headers = [o]) ∧
      ((∀ o, ¬ Listed c r o) → allowedOrigins (s.answer id store r).1.headers = []) := by
  refine ⟨_, by rw [Service.ofConfig?, ofOrigins?_listed hlisted hstar]; rfl, fun id store r => ?_⟩
  simp only [allowedOrigins_answer]
  refine ⟨?_, ?_, ?_⟩
  · intro htold
    rw [Option.mem_toList, allowed?_listed] at htold
    exact hstar htold.configured
  · intro o ho
    rw [allowed?_listed.mpr ho]
    rfl
  · intro hnone
    rw [Option.toList_eq_nil_iff, Option.eq_none_iff_forall_ne_some]
    intro o ho
    exact hnone o (allowed?_listed.mp ho)

def mixedOrigins : Config := { Config.standard with corsOrigins := ["bad\norigin", "http://a"] }

def askedFrom (origin : String) : Request :=
  ⟨"OPTIONS", Http.Target.ofString "/nowhere", [("origin", origin)], []⟩

theorem listed_origins_told_mixed : ∃ s, Service.ofConfig? mixedOrigins ⟨[]⟩ .absent = some s ∧
    allowedOrigins (s.answer "7" Store.empty (askedFrom "http://a")).1.headers = ["http://a"] ∧
    allowedOrigins (s.answer "7" Store.empty (askedFrom "http://A")).1.headers = [] := by
  obtain ⟨s, hs, hanswer⟩ := listed_origins_told (c := mixedOrigins) (by decide) (by decide) ⟨[]⟩ .absent
  have hsent : ∀ origin, Http.header? (askedFrom origin).headers "origin" = some origin := by
    intro origin
    have hname : Http.sameName "origin" "origin" = true := beq_self_eq_true _
    simp [askedFrom, Http.header?, hname]
  refine ⟨s, hs, ?_, ?_⟩
  · obtain ⟨-, hlisted, -⟩ := hanswer "7" Store.empty (askedFrom "http://a")
    exact hlisted "http://a" ⟨hsent _, by decide, isHeaderValue_iff.mp (by decide +kernel)⟩
  · obtain ⟨-, -, hother⟩ := hanswer "7" Store.empty (askedFrom "http://A")
    apply hother
    intro o ho
    have hsame : "http://A" = o := Option.some.inj ((hsent _).symm.trans ho.sent)
    have hconfigured := ho.configured
    rw [← hsame] at hconfigured
    exact absurd hconfigured (by decide)

end RecordSearch
