import RecordSearch.Proofs.Service.Growth
import RecordSearch.Proofs.Upload.FileName

/-!
# Uploads

A form is answered by the rules of `Decides`: its first part named `file`
decides, and of that part first the type, then the name, then the content. What
stands before or after that part makes no difference (`upload_decided`).
-/

namespace RecordSearch

open Http

/-! ## Rules -/

def refusal (error : String) : Json := .object [("error", .string error)]

def failure (details : String) : Json :=
  .object [("error", .string "Error processing file"), ("details", .string details)]

def extracted (data : ExtractedData) : Json :=
  .object [("message", .string "File processed successfully"), ("data", data.toJson)]

def HasAllowedType (p : Multipart.Part) : Prop :=
  p.contentType = "application/pdf" ∨ p.contentType = "text/csv" ∨ p.contentType = "text/plain"

inductive FileAnswer (readPdf : PdfReader) (p : Multipart.Part) : Nat → Json → Prop
  | wrongType : ¬ HasAllowedType p →
      FileAnswer readPdf p 400 (refusal "Invalid file type! Only PDF, CSV, and TXT are allowed.")
  | wrongName {ext : String} : HasAllowedType p →
      FileKind.ofName (p.fileName.getD "") = .error ext →
      FileAnswer readPdf p 500 (failure ("Unsupported file type: " ++ ext))
  | failed {kind : FileKind} {bytes : Bytes} {e : ExtractError} : HasAllowedType p →
      FileKind.ofName (p.fileName.getD "") = .ok kind → p.content = .ok bytes →
      extract readPdf kind bytes = .error e → FileAnswer readPdf p 500 (failure e.message)
  | done {kind : FileKind} {bytes : Bytes} {data : ExtractedData} : HasAllowedType p →
      FileKind.ofName (p.fileName.getD "") = .ok kind → p.content = .ok bytes →
      extract readPdf kind bytes = .ok data → FileAnswer readPdf p 200 (extracted data)

def IsFile (p : Multipart.Part) : Prop := p.name = some "file"

inductive Decides (readPdf : PdfReader) : List Multipart.Part → Nat → Json → Prop
  | noFile {parts : List Multipart.Part} : (∀ p ∈ parts, ¬ IsFile p) →
      Decides readPdf parts 400 (refusal "No file uploaded")
  | file {before after : List Multipart.Part} {p : Multipart.Part} {status : Nat} {v : Json} :
      (∀ q ∈ before, ¬ IsFile q) → IsFile p → FileAnswer readPdf p status v →
      Decides readPdf (before ++ p :: after) status v

/-- An upload whose form reads without a fault, as these parts. -/
structure Uploads (s : Service) (r : Request) (parts : List Multipart.Part) : Prop where
  method : r.method = "POST"
  path : r.target.path = "/api/upload"
  form : ∃ boundary, formBoundary? r.headers = some boundary ∧ r.body.length ≤ s.maxUploadBytes ∧
    Multipart.parse boundary r.body = ⟨parts, none⟩

/-! ## Parts of a form without fault -/

def Whole (p : Multipart.Part) : Prop := ∃ bytes, p.content = .ok bytes

theorem whole_partsFrom (delimiter : Bytes) : ∀ (fuel : Nat) (acc : List Multipart.Part)
    (s : Bytes) {parts : List Multipart.Part}, (∀ p ∈ acc, Whole p) →
    Multipart.partsFrom delimiter acc fuel s = ⟨parts, none⟩ → ∀ p ∈ parts, Whole p
  | 0, _, _, _, _, h => by cases h
  | fuel + 1, acc, s, parts, hacc, h => by
    unfold Multipart.partsFrom at h
    split at h
    · cases h
      intro p hp
      exact hacc p (List.mem_reverse.mp hp)
    · split at h
      · split at h
        · cases h
        · split at h
          · cases h
          · split at h
            · refine whole_partsFrom delimiter fuel _ _ (fun p hp => ?_) h
              rcases List.mem_cons.mp hp with rfl | hp
              · exact ⟨_, rfl⟩
              · exact hacc p hp
            · cases h
      · cases h

theorem whole_parse {boundary s : Bytes} {parts : List Multipart.Part}
    (h : Multipart.parse boundary s = ⟨parts, none⟩) : ∀ p ∈ parts, Whole p := by
  unfold Multipart.parse at h
  simp only at h
  split at h
  · cases h
  · exact whole_partsFrom _ _ _ _ (List.forall_mem_nil _) h

/-! ## One part -/

section
variable {readPdf : PdfReader}

def uploadAnswer (result : Except ApiError UploadResponse) : Response :=
  match result with
  | .ok answer => .json 200 answer.toJson
  | .error e => e.toResponse

theorem allowedTypes_contains (p : Multipart.Part) :
    allowedTypes.contains p.contentType = true ↔ HasAllowedType p := by
  simp [allowedTypes, HasAllowedType]

theorem uploadAnswer_part {p : Multipart.Part} {status : Nat} {v : Json} (hw : Whole p)
    (h : FileAnswer readPdf p status v) : uploadAnswer (uploadPart readPdf p) = .json status v := by
  obtain ⟨bytes, hb⟩ := hw
  cases h with
  | wrongType ht =>
    have hc := mt (allowedTypes_contains p).mp ht
    simp only [Bool.not_eq_true] at hc
    simp only [uploadPart, hc]
    rfl
  | wrongName ht hn =>
    have hc := (allowedTypes_contains p).mpr ht
    simp only [uploadPart, hc, hb, fileKind_of_error hn]
    rfl
  | failed ht hn hb' he =>
    have hc := (allowedTypes_contains p).mpr ht
    simp only [uploadPart, hc, hb', fileKind_of_ok hn, he]
    rfl
  | done ht hn hb' he =>
    have hc := (allowedTypes_contains p).mpr ht
    simp only [uploadPart, hc, hb', fileKind_of_ok hn, he]
    rfl

theorem exists_fileAnswer {p : Multipart.Part} (hw : Whole p) :
    ∃ status v, FileAnswer readPdf p status v := by
  obtain ⟨bytes, hb⟩ := hw
  by_cases ht : HasAllowedType p
  · cases hn : FileKind.ofName (p.fileName.getD "") with
    | error ext => exact ⟨_, _, .wrongName ht hn⟩
    | ok kind =>
      cases he : extract readPdf kind bytes with
      | error e => exact ⟨_, _, .failed ht hn hb he⟩
      | ok data => exact ⟨_, _, .done ht hn hb he⟩
  · exact ⟨_, _, .wrongType ht⟩

/-! ## Forms -/

theorem isFile_iff (p : Multipart.Part) : (p.name == some uploadField) = true ↔ IsFile p := by
  rw [beq_iff_eq]
  rfl

theorem find?_noFile {parts : List Multipart.Part} (h : ∀ p ∈ parts, ¬ IsFile p) :
    (parts.find? fun p => p.name == some uploadField) = none := by
  rw [List.find?_eq_none]
  intro p hp
  exact mt (isFile_iff p).mp (h p hp)

theorem uploadAnswer_form {parts : List Multipart.Part} {status : Nat} {v : Json}
    (hw : ∀ p ∈ parts, Whole p) (h : Decides readPdf parts status v) :
    uploadAnswer (uploadForm readPdf ⟨parts, none⟩) = .json status v := by
  cases h with
  | noFile hn =>
    rw [uploadForm, find?_noFile hn]
    rfl
  | @file before after p _ _ hbefore hp ha =>
    have hf : ((before ++ p :: after).find? fun q => q.name == some uploadField) = some p := by
      rw [List.find?_append, find?_noFile hbefore, Option.none_or]
      exact List.find?_cons_of_pos ((isFile_iff p).mpr hp)
    rw [uploadForm, hf]
    exact uploadAnswer_part (hw p (List.mem_append_right _ (List.mem_cons_self ..))) ha

theorem exists_decides : ∀ {parts : List Multipart.Part}, (∀ p ∈ parts, Whole p) →
    ∃ status v, Decides readPdf parts status v
  | [], _ => ⟨_, _, .noFile (List.forall_mem_nil _)⟩
  | p :: parts, hw => by
    by_cases hp : IsFile p
    · obtain ⟨status, v, ha⟩ := exists_fileAnswer (hw p (List.mem_cons_self ..))
      exact ⟨status, v, .file (List.forall_mem_nil _) hp ha⟩
    · obtain ⟨status, v, hd⟩ := exists_decides fun q hq => hw q (List.mem_cons_of_mem _ hq)
      cases hd with
      | noFile hn => exact ⟨_, _, .noFile (List.forall_mem_cons.mpr ⟨hp, hn⟩)⟩
      | file hbefore hf ha =>
        rw [← List.cons_append]
        exact ⟨_, _, .file (List.forall_mem_cons.mpr ⟨hp, hbefore⟩) hf ha⟩

end

/-! ## Requests -/

theorem answer_of_upload (s : Service) (id : String) (store : Store) {r : Request}
    (hm : r.method = "POST") (hp : r.target.path = "/api/upload") :
    s.answer id store r =
      ((answerUpload s r).withHeaders (s.cors.headers r.headers), store) := by
  have hr : Route.ofPath? r.target.path = some .upload := ofPath?_eq_some.mpr hp
  simp [Service.answer, hr, hm, Route.answer, Route.isWrite, Route.run]

theorem Uploads.whole {s : Service} {r : Request} {parts : List Multipart.Part}
    (h : Uploads s r parts) : ∀ p ∈ parts, Whole p := by
  obtain ⟨_, _, _, hparse⟩ := h.form
  exact whole_parse hparse

theorem Uploads.answer {s : Service} {r : Request} {parts : List Multipart.Part}
    (h : Uploads s r parts) (id : String) (store : Store) {status : Nat} {v : Json}
    (hd : Decides s.readPdf parts status v) :
    (s.answer id store r).1.status = status ∧ Tells (s.answer id store r).1 v := by
  obtain ⟨boundary, hb, hl, hparse⟩ := h.form
  have hform : uploadedForm s.maxUploadBytes boundary r.body = ⟨parts, none⟩ := by
    rw [uploadedForm, if_neg (Nat.not_lt.mpr hl), hparse]
  have hanswer : answerUpload s r = .json status v := by
    rw [← uploadAnswer_form h.whole hd, answerUpload, hb]
    simp only [hform]
    rfl
  rw [answer_of_upload s id store h.method h.path, hanswer]
  exact ⟨rfl, (tells_withHeaders _).mpr (tells_json _ _)⟩

/-! ## The main statement -/

/-- The rules decide every upload and no two ways, and a form with the same first
file part is answered alike. -/
theorem upload_decided (s : Service) (id : String) (store : Store) (r : Request)
    (parts : List Multipart.Part) (h : Uploads s r parts) :
    ∃ response, s.answer id store r = (response, store) ∧
      (∃ status v, Decides s.readPdf parts status v) ∧
      (∀ status v, Decides s.readPdf parts status v → response.status = status ∧ Tells response v) ∧
      ∀ before p after before' after', parts = before ++ p :: after → (∀ q ∈ before, ¬ IsFile q) →
        IsFile p → (∀ q ∈ before', ¬ IsFile q) → ∀ id' store' r',
        Uploads s r' (before' ++ p :: after') →
        (s.answer id' store' r').1.status = response.status ∧
          (s.answer id' store' r').1.body = response.body := by
  have hstore : (s.answer id store r).2 = store := by
    rw [answer_of_upload s id store h.method h.path]
  refine ⟨(s.answer id store r).1, Prod.ext rfl hstore, exists_decides h.whole,
    fun status v hd => h.answer id store hd, ?_⟩
  intro before p after before' after' hparts hbefore hp hbefore' id' store' r' h'
  obtain ⟨status, v, ha⟩ := exists_fileAnswer (h'.whole p (by simp))
  have hd : Decides s.readPdf parts status v := hparts ▸ Decides.file hbefore hp ha
  have hr := h.answer id store hd
  have hr' := h'.answer id' store' (Decides.file hbefore' hp ha)
  exact ⟨hr'.1.trans hr.1.symm, hr'.2.trans hr.2.symm⟩

/-! ## A table after a note -/

def tableForm : Bytes :=
  ["--X", "content-disposition: form-data; name=note", "", "hi",
    "--X", "content-disposition: form-data; name=file; filename=t.CSV", "content-type: text/csv",
    "", "a,b", "1,2", "--X--"].flatMap fun line => Utf8.ofString line ++ Multipart.crlf

def notePart : Multipart.Part := ⟨some "note", none, "", .ok (Utf8.ofString "hi")⟩

def tablePart : Multipart.Part :=
  ⟨some "file", some "t.CSV", "text/csv", .ok (Utf8.ofString "a,b\r\n1,2")⟩

def tableUpload : Request :=
  ⟨"POST", Target.ofString "/api/upload",
    [("content-type", "multipart/form-data; boundary=X")], tableForm⟩

def tableService : Service := ⟨.anyOrigin, ⟨[]⟩, .absent, 200⟩

theorem tableUpload_uploads : Uploads tableService tableUpload [notePart, tablePart] where
  method := rfl
  path := by decide
  form := by
    -- names of headers are compared without case, which the kernel does not unfold
    have hheader : header? tableUpload.headers "content-type" =
        some "multipart/form-data; boundary=X" := by
      simp [tableUpload, header?, sameName]
    refine ⟨[88], ?_, by decide +kernel, by decide +kernel⟩
    rw [formBoundary?, plainHeader?, hheader]
    decide +kernel

theorem tablePart_answer :
    FileAnswer .absent tablePart 200 (extracted (.rows [Fields.ofList [("a", "1"), ("b", "2")]])) := by
  have hkind : FileKind.ofName "t.CSV" = .ok .csv := by decide +kernel
  refine .done (.inr (.inl rfl)) hkind rfl ?_
  decide +kernel

theorem upload_decided_table :
    ∃ response, tableService.answer "7" Store.empty tableUpload = (response, Store.empty) ∧
      response.status = 200 ∧
      Tells response (extracted (.rows [Fields.ofList [("a", "1"), ("b", "2")]])) := by
  have hnote : ∀ q ∈ [notePart], ¬ IsFile q := by
    intro q hq
    cases List.mem_singleton.mp hq
    simp [notePart, IsFile]
  obtain ⟨response, ha, _, hd, _⟩ := upload_decided _ "7" Store.empty _ _ tableUpload_uploads
  exact ⟨response, ha, hd _ _ (.file hnote rfl tablePart_answer)⟩

end RecordSearch
