import RecordSearch.Proofs.Service.Uploading

/-!
# The limit of uploads

A form that is larger than the configured limit is refused in the same words
whatever it holds. Any other form is read to its end, so it is answered as under
every larger limit: `upload_limited`.
-/

namespace RecordSearch

open Http

/-- An upload whose headers name the boundary of its form. -/
structure PostsForm (r : Request) (boundary : Bytes) : Prop where
  method : r.method = "POST"
  path : r.target.path = "/api/upload"
  boundary : formBoundary? r.headers = some boundary

theorem PostsForm.withBody {r : Request} {boundary : Bytes} (h : PostsForm r boundary) (body : Bytes) :
    PostsForm { r with body } boundary :=
  ⟨h.method, h.path, h.boundary⟩

def Config.withLimit (c : Config) (limit : UInt64) : Config := { c with maxUploadBytes := limit }

theorem ofConfig?_eq_some {c : Config} {site : StaticSite} {readPdf : PdfReader} {s : Service} :
    Service.ofConfig? c site readPdf = some s ↔ ∃ cors,
      Cors.Policy.ofOrigins? c.corsOrigins = some cors ∧ ⟨cors, site, readPdf, c.maxUploadBytes.toNat⟩ = s := by
  rw [Service.ofConfig?, Option.map_eq_some_iff]

/-! ## Answers -/

section
variable {s : Service} {r : Request} {boundary : Bytes} (h : PostsForm r boundary) (id : String) (store : Store)
include h

theorem PostsForm.answer : s.answer id store r =
    ((uploadAnswer (uploadForm s.readPdf (uploadedForm s.maxUploadBytes boundary r.body))).withHeaders
      (s.cors.headers r.headers), store) := by
  rw [answer_of_upload s id store h.method h.path, answerUpload, h.boundary]
  rfl

theorem PostsForm.answer_beyond (hlarge : s.maxUploadBytes < r.body.length) : s.answer id store r =
    ((Response.json 400 (refusal "Invalid upload: failed to read stream")).withHeaders
      (s.cors.headers r.headers), store) := by
  rw [h.answer, uploadedForm, if_pos hlarge]
  rfl

theorem PostsForm.answer_within (hsmall : r.body.length ≤ s.maxUploadBytes) : s.answer id store r =
    ((uploadAnswer (uploadForm s.readPdf (Multipart.parse boundary r.body))).withHeaders
      (s.cors.headers r.headers), store) := by
  rw [h.answer, uploadedForm, if_neg (Nat.not_lt.mpr hsmall)]

end

/-! ## The main statement -/

theorem upload_limited {c : Config} {site : StaticSite} {readPdf : PdfReader} {s : Service}
    (hs : Service.ofConfig? c site readPdf = some s) {r : Request} {boundary : Bytes} (h : PostsForm r boundary)
    (id : String) (store : Store) :
    (c.maxUploadBytes.toNat < r.body.length →
      ∃ response, s.answer id store r = (response, store) ∧ 400 ≤ response.status ∧ response.status < 500 ∧
        Tells response (refusal "Invalid upload: failed to read stream") ∧
        ∀ body, c.maxUploadBytes.toNat < body.length →
          s.answer id store { r with body } = (response, store)) ∧
    (r.body.length ≤ c.maxUploadBytes.toNat →
      s.answer id store r = ((uploadAnswer (uploadForm readPdf (Multipart.parse boundary r.body))).withHeaders
        (s.cors.headers r.headers), store) ∧
      ∀ limit, c.maxUploadBytes ≤ limit → ∃ t, Service.ofConfig? (c.withLimit limit) site readPdf = some t ∧
        t.answer id store r = s.answer id store r) := by
  obtain ⟨cors, hcors, rfl⟩ := ofConfig?_eq_some.mp hs
  constructor
  · intro hlarge
    refine ⟨_, h.answer_beyond id store hlarge, Nat.le_refl 400, (by decide : 400 < 500),
      (tells_withHeaders _).mpr (tells_json ..), ?_⟩
    intro body hbody
    exact (h.withBody body).answer_beyond id store hbody
  · intro hsmall
    have hread := h.answer_within (s := ⟨cors, site, readPdf, c.maxUploadBytes.toNat⟩) id store hsmall
    refine ⟨hread, fun limit hlimit => ?_⟩
    have hlarger : r.body.length ≤ limit.toNat := Nat.le_trans hsmall (UInt64.le_iff_toNat_le.mp hlimit)
    refine ⟨⟨cors, site, readPdf, limit.toNat⟩, ofConfig?_eq_some.mpr ⟨cors, hcors, rfl⟩, ?_⟩
    rw [hread]
    exact h.answer_within id store hlarger

def limitedService (limit : UInt64) : Service := ⟨.anyOrigin, ⟨[]⟩, .absent, limit.toNat⟩

theorem limitedService_ofConfig (limit : UInt64) :
    Service.ofConfig? (Config.standard.withLimit limit) ⟨[]⟩ .absent = some (limitedService limit) := rfl

theorem upload_limited_table : tableUpload.body.length = 161 ∧
    ((limitedService 161).answer "7" Store.empty tableUpload).1.status = 200 ∧
    Tells ((limitedService 160).answer "7" Store.empty tableUpload).1
      (refusal "Invalid upload: failed to read stream") := by
  have hlength : tableUpload.body.length = 161 := by decide +kernel
  obtain ⟨boundary, hb, _, _⟩ := tableUpload_uploads.form
  have hposts : PostsForm tableUpload boundary := ⟨tableUpload_uploads.method, tableUpload_uploads.path, hb⟩
  have hnote : ∀ q ∈ [notePart], ¬ IsFile q := by simp [notePart, IsFile]
  have hfile : Decides .absent ([notePart] ++ tablePart :: []) 200
      (extracted (.rows [Fields.ofList [("a", "1"), ("b", "2")]])) := .file hnote rfl tablePart_answer
  obtain ⟨hstatus, _⟩ := tableUpload_uploads.answer "7" Store.empty hfile
  refine ⟨hlength, ?_, ?_⟩
  · obtain ⟨_, hwithin⟩ := upload_limited (limitedService_ofConfig 161) hposts "7" Store.empty
    obtain ⟨t, ht, hanswer⟩ := (hwithin (Nat.le_of_eq hlength)).2 200 (by decide)
    have htable : t = tableService := (Option.some.inj ht).symm
    rw [← hanswer, htable]
    exact hstatus
  · obtain ⟨hbeyond, _⟩ := upload_limited (limitedService_ofConfig 160) hposts "7" Store.empty
    obtain ⟨response, hrefused, _, _, htells, _⟩ := hbeyond (Nat.lt_of_lt_of_eq (by decide) hlength.symm)
    rw [hrefused]
    exact htells

end RecordSearch
