import RecordSearch.Proofs.Text.LetterCase
import RecordSearch.Proofs.Text.Runs
import RecordSearch.Upload.Extract

/-!
# Names of files

The last component of a path stands between directories and a trailer of slashes
and single dots. Its extension alone, without regard to the case of ASCII
letters, decides the kind of the file: `fileKind_decided`.
-/

namespace RecordSearch

namespace FileKind

/-! ## Paths -/

/-- Slashes after the last component, and single dots between them. -/
inductive Trailer : List Char → Prop
  | nil : Trailer []
  | slash {t : List Char} : Trailer t → Trailer ('/' :: t)
  | dot {t : List Char} : Trailer t → Trailer ('/' :: '.' :: t)

inductive Directories : List Char → Prop
  | nil : Directories []
  | slash (d : List Char) : Directories (d ++ ['/'])

structure IsComponent (c : List Char) : Prop where
  nonempty : c ≠ []
  notDot : c ≠ ['.']
  noSlash : '/' ∉ c

/-- What is left last of a path without its trailer. -/
inductive LastComponent : List Char → List Char → Prop
  | mk {dirs c trailer : List Char} : Directories dirs → IsComponent c → Trailer trailer →
      LastComponent (dirs ++ c ++ trailer) c

def components (path : List Char) : List (List Char) :=
  (path.splitOn '/').filter fun p => !p.isEmpty && p ≠ ['.']

theorem lastComponent?_eq (path : List Char) : lastComponent? path = (components path).getLast? := rfl

theorem components_slash (s t : List Char) :
    components (s ++ '/' :: t) = components s ++ components t := by
  rw [components, List.splitOn_append_cons_self, List.filter_append, components, components]

theorem components_trailer {t : List Char} (h : Trailer t) : ∀ s, components (s ++ t) = components s := by
  induction h with
  | nil => intro s; rw [List.append_nil]
  | @slash t _ ih =>
    intro s
    have ht : components t = components [] := ih []
    rw [components_slash, ht]
    exact List.append_nil _
  | @dot t _ ih =>
    intro s
    have ht : components ('.' :: t) = components ['.'] := ih ['.']
    rw [components_slash, ht]
    exact List.append_nil _

theorem IsComponent.components {c : List Char} (h : IsComponent c) : components c = [c] := by
  rw [FileKind.components, List.splitOn_eq_singleton h.noSlash]
  simp [h.nonempty, h.notDot]

theorem LastComponent.found {path c : List Char} (h : LastComponent path c) :
    lastComponent? path = some c := by
  cases h with
  | @mk dirs _ trailer hdirs hc htrailer =>
    rw [lastComponent?_eq, components_trailer htrailer]
    cases hdirs with
    | nil => rw [List.nil_append, hc.components]; rfl
    | slash d =>
      rw [List.append_assoc, List.singleton_append, components_slash, hc.components]
      exact List.getLast?_concat

theorem LastComponent.under {path c : List Char} (h : LastComponent path c) (a : List Char) :
    LastComponent (a ++ '/' :: path) c := by
  cases h with
  | @mk dirs _ trailer hdirs hc htrailer =>
    have hd : Directories (a ++ '/' :: dirs) := by
      cases hdirs with
      | nil => exact .slash a
      | slash d =>
        rw [← List.cons_append, ← List.append_assoc]
        exact .slash _
    have := LastComponent.mk hd hc htrailer
    simpa using this

theorem lastComponent_before {a t : List Char} (ha : '/' ∉ a) (ht : Trailer t) :
    (∃ c, LastComponent (a ++ t) c) ∨ Trailer ('/' :: (a ++ t)) := by
  by_cases hn : a = []
  · subst hn
    exact .inr (.slash ht)
  by_cases hd : a = ['.']
  · subst hd
    exact .inr (.dot ht)
  exact .inl ⟨a, .mk .nil ⟨hn, hd, ha⟩ ht⟩

/-- A path without a last component is part of a trailer. -/
theorem lastComponent_or_trailer (path : List Char) :
    (∃ c, LastComponent path c) ∨ Trailer ('/' :: path) := by
  by_cases hslash : '/' ∈ path
  · obtain ⟨a, rest, rfl, ha⟩ := List.eq_append_cons_of_mem hslash
    rcases lastComponent_or_trailer rest with ⟨c, hc⟩ | hrest
    · exact .inl ⟨c, hc.under a⟩
    · exact lastComponent_before ha hrest
  · have h := lastComponent_before hslash .nil
    rwa [List.append_nil] at h
termination_by path.length
decreasing_by subst_vars; simp; omega

theorem lastComponent?_eq_some {path c : List Char} : lastComponent? path = some c ↔ LastComponent path c := by
  refine ⟨fun h => ?_, LastComponent.found⟩
  rcases lastComponent_or_trailer path with ⟨d, hd⟩ | htrailer
  · rw [hd.found] at h
    cases h
    exact hd
  · have hnone : components path = components [] := by
      rw [← components_trailer htrailer [], components_slash]
      rfl
    rw [lastComponent?_eq, hnone] at h
    cases h

/-! ## Extensions -/

theorem extensionOf_dotted {stem ext : List Char} (hs : stem ≠ []) (he : '.' ∉ ext) :
    extensionOf (stem ++ '.' :: ext) = ext := by
  unfold extensionOf
  split
  · -- two dots: the second one is the last, so nothing follows it
    rename_i h
    have hlength := congrArg List.length h
    have hstem := List.length_pos_iff.mpr hs
    simp only [List.length_append, List.length_cons, List.length_nil] at hlength
    exact (List.eq_nil_of_length_eq_zero (by omega)).symm
  · obtain ⟨htake, hdrop⟩ := Text.reverse_cut stem he
    simp only [htake, hdrop, List.reverse_reverse]
    cases hr : stem.reverse with
    | nil => exact absurd (List.reverse_eq_nil_iff.mp hr) hs
    | cons x l => rfl

theorem extensionOf_plain {c : List Char}
    (h : ∀ stem ext, stem ≠ [] → '.' ∉ ext → c ≠ stem ++ '.' :: ext) : extensionOf c = [] := by
  unfold extensionOf
  split
  · rfl
  by_cases hdot : '.' ∈ c
  · obtain ⟨stem, ext, rfl, he⟩ := Text.exists_last_sep hdot
    have hs : stem = [] := by
      refine Classical.byContradiction fun hs => ?_
      exact h stem ext hs he rfl
    subst hs
    simp only [Text.reverse_cut [] he]
    rfl
  · have hdrop := Text.dropWhile_run (Text.run_of_notMem (mt List.mem_reverse.mp hdot)) Text.stops_nil
    rw [List.append_nil] at hdrop
    simp only [hdrop]

/-- The last component is a stem, a dot and the extension, which has no dot. -/
def HasExtension (name ext : String) : Prop :=
  ∃ stem, stem ≠ [] ∧ '.' ∉ ext.toList ∧ LastComponent name.toList (stem ++ '.' :: ext.toList)

theorem HasExtension.found {name ext : String} (h : HasExtension name ext) : fileExtension name = ext := by
  obtain ⟨stem, hs, he, hc⟩ := h
  rw [fileExtension, hc.found]
  simp only [extensionOf_dotted hs he, String.ofList_toList]

theorem fileExtension_of_none {name : String} (h : ∀ ext, ¬ HasExtension name ext) :
    fileExtension name = "" := by
  unfold fileExtension
  split
  · rename_i c hc
    have hplain : extensionOf c = [] := by
      apply extensionOf_plain
      intro stem ext hs he hdotted
      refine h (String.ofList ext) ⟨stem, hs, ?_, ?_⟩
      · rwa [String.toList_ofList]
      · rw [String.toList_ofList, ← hdotted]
        exact lastComponent?_eq_some.mp hc
    rw [hplain]
  · rfl

/-! ## Kinds -/

def extension : FileKind → String
  | .pdf => "pdf"
  | .csv => "csv"
  | .text => "txt"

theorem ofExtension?_eq_some {ext : String} {kind : FileKind} :
    ofExtension? ext = some kind ↔ ext = kind.extension := by
  constructor
  · intro h
    unfold ofExtension? at h
    split at h
    · cases h; assumption
    split at h
    · cases h; assumption
    split at h
    · cases h; assumption
    · cases h
  · intro h
    subst h
    cases kind <;> simp [ofExtension?, extension]

/-- No letter of an extension is the lower-case form of one outside ASCII. -/
theorem lowercase_eq_extension {ext : String} {kind : FileKind} :
    Text.lowercase ext = kind.extension ↔ Text.SameButCase ext kind.extension := by
  have hkind : Text.lowercase kind.extension = kind.extension := by cases kind <;> decide +kernel
  constructor
  · intro h
    have hletters : kind.extension.toList.all (fun d => d.toNat < 128 && d ≠ 'i' && d ≠ 'k') = true := by
      cases kind <;> decide
    have hascii : Text.IsAscii ext := by
      apply Text.ascii_of_lowercase
      intro d hd
      rw [h] at hd
      simpa [and_assoc] using List.all_eq_true.mp hletters d hd
    have hkindAscii : Text.IsAscii kind.extension := by cases kind <;> decide
    exact (Text.lowercase_eq_iff hkindAscii hascii).mp (hkind.trans h.symm)
  · intro h
    rw [Text.lowercase_same h, hkind]

-- by `delta`: equations of `ofName` and `fileKind` would have the table of cases unfolded
theorem ofName_of_kind {name : String} {kind : FileKind}
    (h : Text.lowercase (fileExtension name) = kind.extension) : ofName name = .ok kind := by
  delta ofName
  simp only [ofExtension?_eq_some.mpr h]

theorem ofName_of_unknown {name : String}
    (h : ∀ kind : FileKind, Text.lowercase (fileExtension name) ≠ kind.extension) :
    ofName name = .error ("." ++ Text.lowercase (fileExtension name)) := by
  have hnone : ofExtension? (Text.lowercase (fileExtension name)) = none := by
    refine Option.eq_none_iff_forall_ne_some.mpr fun kind hk => ?_
    exact h kind (ofExtension?_eq_some.mp hk)
  delta ofName
  simp only [hnone]

end FileKind

theorem fileKind_of_ok {name : String} {kind : FileKind} (h : FileKind.ofName name = .ok kind) :
    fileKind name = .ok kind := by
  delta fileKind
  rw [h]

theorem fileKind_of_error {name ext : String} (h : FileKind.ofName name = .error ext) :
    fileKind name = .error (.unsupportedExtension ext) := by
  delta fileKind
  rw [h]

/-! ## The main statement -/

namespace FileKind

/-- The kind of a file by its name, or the extension that stands for no kind, with
its dot and in lower case. -/
inductive Named (name : String) : Except ExtractError FileKind → Prop
  | known {ext : String} {kind : FileKind} : HasExtension name ext →
      Text.SameButCase ext kind.extension → Named name (.ok kind)
  | unknown {ext : String} : HasExtension name ext →
      (∀ kind : FileKind, ¬ Text.SameButCase ext kind.extension) →
      Named name (.error (.unsupportedExtension ("." ++ Text.lowercase ext)))
  | none : (∀ ext, ¬ HasExtension name ext) → Named name (.error (.unsupportedExtension "."))

theorem Named.found {name : String} {result : Except ExtractError FileKind} (h : Named name result) :
    fileKind name = result := by
  cases h with
  | @known ext kind he hk =>
    apply fileKind_of_ok
    apply ofName_of_kind
    rw [he.found, lowercase_eq_extension]
    exact hk
  | @unknown ext he hk =>
    apply fileKind_of_error
    rw [← he.found]
    apply ofName_of_unknown
    intro kind
    rw [he.found, ne_eq, lowercase_eq_extension]
    exact hk kind
  | none he =>
    apply fileKind_of_error
    have hempty : Text.lowercase (fileExtension name) = "" := by
      rw [fileExtension_of_none he]
      rfl
    rw [ofName_of_unknown, hempty]
    · rfl
    · intro kind
      rw [hempty]
      cases kind <;> decide

theorem exists_named (name : String) : ∃ result, Named name result := by
  by_cases he : ∃ ext, HasExtension name ext
  · obtain ⟨ext, he⟩ := he
    by_cases hk : ∃ kind : FileKind, Text.SameButCase ext kind.extension
    · obtain ⟨kind, hk⟩ := hk
      exact ⟨_, .known he hk⟩
    · exact ⟨_, .unknown he (not_exists.mp hk)⟩
  · exact ⟨_, .none (not_exists.mp he)⟩

theorem fileKind_decided (name : String) (result : Except ExtractError FileKind) :
    fileKind name = result ↔ Named name result := by
  constructor
  · intro h
    obtain ⟨other, hd⟩ := exists_named name
    rw [hd.found] at h
    subst h
    exact hd
  · exact Named.found

example : (ofName "up.pdf/.x.tar.CsV/./").toOption = some .csv := by decide +kernel

end FileKind

end RecordSearch
