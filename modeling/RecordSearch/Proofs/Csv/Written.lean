import RecordSearch.Proofs.Csv.Reading
import RecordSearch.Proofs.Fields.Order
import RecordSearch.Upload.Extract
import Mathlib.Data.List.Forall2

/-!
# Written tables

The texts that a table may be written as: cells with or without quotes, records
ended in any of three ways, empty lines anywhere between them, and a mark in
front or none. Extraction gives back the rows from each of these texts
(`extractCsv_written`).
-/

namespace RecordSearch.Csv

open Utf8 (encode ofString)

/-! ## How a table is written -/

def doubled : List Char → List Char
  | [] => []
  | c :: cs => if c = '"' then '"' :: '"' :: doubled cs else c :: doubled cs

def isInner (c : Char) : Bool := c != ',' && c != '\n' && c != '\r'

/-- Any cell may stand between quotes, its own quotes doubled. -/
inductive CellText : String → List Char → Prop
  | quoted (s : String) : CellText s ('"' :: (doubled s.toList ++ ['"']))
  | bare {s : String} : s.toList.all isInner = true → s.toList.head? ≠ some '"' →
      CellText s s.toList

inductive RecordText : List String → List Char → Prop
  | last {s : String} {t : List Char} : CellText s t → RecordText [s] t
  | cons {s : String} {t : List Char} {cells : List String} {u : List Char} : CellText s t →
      RecordText cells u → RecordText (s :: cells) (t ++ ',' :: u)

inductive LineEnd : List Char → Prop
  | lf : LineEnd ['\n']
  | cr : LineEnd ['\r']
  | crlf : LineEnd ['\r', '\n']

/-- The last record may go without a line end. A record of no characters would be
an empty line, so its one cell must stand between quotes. -/
inductive TableText : List (List String) → List Char → Prop
  | nil : TableText [] []
  | emptyLine {e : List Char} {rows : List (List String)} {t : List Char} : LineEnd e →
      TableText rows t → TableText rows (e ++ t)
  | unended {cells : List String} {t : List Char} : RecordText cells t → t ≠ [] → TableText [cells] t
  | cons {cells : List String} {t e : List Char} {rows : List (List String)} {u : List Char} :
      RecordText cells t → t ≠ [] → LineEnd e → TableText rows u →
      TableText (cells :: rows) (t ++ e ++ u)

def mark (marked : Bool) : List Char := if marked then ['\uFEFF'] else []

/-! ## Cells -/

theorem ne_of_mem {c : Char} {b a : UInt8} (hb : b ∈ String.utf8EncodeChar c) (ha : a.toNat < 128)
    (h : c ≠ Char.ofNat a.toNat) : b ≠ a := by
  intro e
  subst e
  exact h (Utf8.ascii_of_mem hb ha)

theorem isPlain_of_mem {c : Char} (h : isInner c = true) {b : UInt8}
    (hb : b ∈ String.utf8EncodeChar c) : isPlain b = true := by
  unfold isInner at h
  simp only [Bool.and_eq_true, bne_iff_ne] at h
  have hcomma : b ≠ 44 := ne_of_mem hb (by decide) h.1.1
  have hlf : b ≠ 10 := ne_of_mem hb (by decide) h.1.2
  have hcr : b ≠ 13 := ne_of_mem hb (by decide) h.2
  simp [isPlain, Reader.isLineEnd, hcomma, hlf, hcr]

section
variable {r : Reader} {m : Mode} {cell : Bytes} {cells : List Bytes} {records : List (List Bytes)}

theorem holds_doubled : ∀ (cs : List Char) {r : Reader} {cell : Bytes},
    Holds r .quoted cell cells records →
    Holds ((encode (doubled cs)).foldl Reader.step r) .quoted (cell ++ encode cs) cells records
  | [], r, cell, h => by rwa [Utf8.encode_nil, List.append_nil]
  | c :: cs, r, cell, h => by
    unfold doubled
    by_cases hc : c = '"'
    · subst hc
      have := holds_doubled cs h.quote.again
      rwa [List.append_assoc] at this
    · have hne : ∀ b ∈ String.utf8EncodeChar c, b ≠ 34 := fun b hb => ne_of_mem hb (by decide) hc
      have hin := holds_run (fun hb hr => Holds.inside hr hb) hne h
      have := holds_doubled cs hin
      rw [if_neg hc, Utf8.encode_cons, Utf8.encode_cons, List.foldl_append]
      rwa [List.append_assoc] at this

theorem holds_bare {c : Char} {cs : List Char} (hq : c ≠ '"')
    (hcs : (c :: cs).all isInner = true) (hm : m.AtCell)
    (hr : Holds r m cell cells records) :
    Holds ((encode (c :: cs)).foldl Reader.step r) .bare (cell ++ encode (c :: cs)) cells records := by
  have hplain : ∀ b ∈ encode (c :: cs), isPlain b = true := by
    intro b hb
    obtain ⟨d, hd, hbd⟩ := List.mem_flatMap.mp hb
    exact isPlain_of_mem (List.all_eq_true.mp hcs d hd) hbd
  obtain ⟨b, bs, hbs, _⟩ := Utf8.start_utf8EncodeChar c
  have hb : b ≠ 34 := ne_of_mem (hbs ▸ List.mem_cons_self ..) (by decide) hq
  rw [Utf8.encode_cons, hbs, List.cons_append] at hplain ⊢
  have hfirst := hr.first hm.ne_quoted hb (hplain b (List.mem_cons_self ..))
  have := holds_run (fun hb h => Holds.more h hb) (fun x hx => hplain x (List.mem_cons_of_mem _ hx)) hfirst
  rwa [List.append_assoc, List.singleton_append] at this

/-- After a cell the reader is ready for a comma, a line end or the end, unless it
has seen nothing at all. -/
theorem holds_cell {s : String} {t : List Char} (h : CellText s t) (hm : m.AtCell)
    (hr : Holds r m [] cells records) : ∃ m', Holds ((encode t).foldl Reader.step r) m' (ofString s)
      cells records ∧ m' ≠ .quoted ∧ (m' = .idle → m = .idle ∧ t = []) := by
  cases h with
  | quoted =>
    have hin := (holds_doubled s.toList (hr.opened hm)).quote
    refine ⟨.quoteSeen, ?_, by decide, ?_⟩
    · rw [Utf8.encode_cons, Utf8.encode_append, List.foldl_append, List.foldl_append]
      exact hin
    · intro e
      cases e
  | bare hs hq =>
    rw [ofString]
    cases hcs : s.toList with
    | nil =>
      refine ⟨m, hr, hm.ne_quoted, ?_⟩
      intro e
      exact ⟨e, rfl⟩
    | cons c cs =>
      rw [hcs] at hs hq
      have hc : c ≠ '"' := by
        intro e
        apply hq
        rw [e]
        rfl
      refine ⟨.bare, holds_bare hc hs hm hr, by decide, ?_⟩
      intro e
      cases e

/-! ## Records -/

theorem holds_record {row : List String} {t : List Char} (h : RecordText row t) :
    ∀ {r : Reader} {m : Mode} {cells : List Bytes}, m.AtCell → Holds r m [] cells records →
      ∃ m' cell' cells', Holds ((encode t).foldl Reader.step r) m' cell' cells' records ∧
        cells' ++ [cell'] = cells ++ row.map ofString ∧ m' ≠ .quoted ∧
        (m' = .idle → m = .idle ∧ t = []) := by
  induction h with
  | last hs =>
    intro r m cells hm hr
    obtain ⟨m', hr', hq, hi⟩ := holds_cell hs hm hr
    exact ⟨m', _, cells, hr', rfl, hq, hi⟩
  | cons hs _ ih =>
    intro r m cells hm hr
    obtain ⟨m', hr', hq, _⟩ := holds_cell hs hm hr
    obtain ⟨m'', cell'', cells'', hr'', hc, hq', hi⟩ := ih (.inr rfl) (hr'.comma hq)
    refine ⟨m'', cell'', cells'', ?_, ?_, hq', ?_⟩
    · rw [Utf8.encode_append, List.foldl_append]
      exact hr''
    · rw [hc, List.map_cons, List.append_assoc, List.singleton_append]
    · intro e
      exact absurd (hi e).1 (by decide)

/-! ## Tables -/

theorem holds_emptyLine {e : List Char} (h : LineEnd e) (hr : Holds r .idle cell cells records) :
    Holds ((encode e).foldl Reader.step r) .idle cell cells records := by
  cases h with
  | lf => exact hr.emptyLine rfl
  | cr => exact hr.emptyLine rfl
  | crlf => exact (hr.emptyLine rfl).emptyLine rfl

theorem holds_lineEnd {e : List Char} (h : LineEnd e) (hq : m ≠ .quoted) (hi : m ≠ .idle)
    (hr : Holds r m cell cells records) :
    Holds ((encode e).foldl Reader.step r) .idle [] [] (records ++ [cells ++ [cell]]) := by
  cases h with
  | lf => exact hr.lineEnd hq hi rfl
  | cr => exact hr.lineEnd hq hi rfl
  | crlf => exact (hr.lineEnd hq hi rfl).emptyLine rfl

theorem finish_table {rows : List (List String)} {t : List Char} (h : TableText rows t) :
    ∀ {r : Reader} {records : List (List Bytes)}, Holds r .idle [] [] records →
      ((encode t).foldl Reader.step r).finish.map Located.cells =
        records ++ rows.map fun row => row.map ofString := by
  induction h with
  | nil =>
    intro r records hr
    rw [List.map_nil, List.append_nil]
    exact hr.finish_idle
  | emptyLine he _ ih =>
    intro r records hr
    rw [Utf8.encode_append, List.foldl_append]
    exact ih (holds_emptyLine he hr)
  | unended hrow hne =>
    intro r records hr
    obtain ⟨m', _, _, hr', hc, _, hi⟩ := holds_record hrow (.inl rfl) hr
    rw [hr'.finish_open fun e => hne (hi e).2, hc, List.nil_append, List.map_singleton]
  | cons hrow hne he _ ih =>
    intro r records hr
    obtain ⟨m', _, _, hr', hc, hq, hi⟩ := holds_record hrow (.inl rfl) hr
    have hend := holds_lineEnd he hq (fun e => hne (hi e).2) hr'
    rw [Utf8.encode_append, Utf8.encode_append, List.foldl_append, List.foldl_append, ih hend, hc,
      List.nil_append, List.map_cons, List.append_assoc, List.singleton_append]

end

/-! ## The whole input -/

theorem encode_mark (t : List Char) : encode (mark true ++ t) = 0xEF :: 0xBB :: 0xBF :: encode t := rfl

theorem head?_of_encode_mark {t : List Char} {rest : Bytes}
    (h : encode t = 0xEF :: 0xBB :: 0xBF :: rest) : t.head? = some '\uFEFF' := by
  cases t with
  | nil => cases h
  | cons c cs =>
    obtain ⟨b, bs, hbs, hstart⟩ := Utf8.start_utf8EncodeChar c
    have hc := hstart (encode cs)
    rw [Utf8.encode_cons, hbs, List.cons_append, List.cons.injEq] at h
    rw [h.1, h.2] at hc
    have hmark : Utf8.start 0xEF (0xBB :: 0xBF :: rest) = .char '\uFEFF' rest := rfl
    rw [hmark] at hc
    cases hc
    rfl

theorem cells_records {rows : List (List String)} {t : List Char} (h : TableText rows t) {marked : Bool}
    (hmark : marked = false → t.head? ≠ some '\uFEFF') :
    (records (encode (mark marked ++ t))).map Located.cells = rows.map fun row => row.map ofString := by
  have hfinish := fun p => finish_table h (holds_initial p)
  cases marked with
  | true =>
    rw [encode_mark]
    exact hfinish ⟨3, 1⟩
  | false =>
    have hs : records (encode t) = ((encode t).foldl Reader.step (Reader.initial ⟨0, 1⟩)).finish := by
      unfold records
      split
      · rename_i rest he
        exact absurd (head?_of_encode_mark he) (hmark rfl)
      · rfl
    exact (congrArg _ hs).trans (hfinish ⟨0, 1⟩)

theorem cellTexts_strings (record : Nat) (place : Place) : ∀ (cells : List String) (field : Nat)
    (acc : List String),
    cellTexts record place field acc (cells.map ofString) = .ok (acc.reverse ++ cells)
  | [], _, acc => by rw [List.map_nil, cellTexts, List.append_nil]
  | s :: cells, field, acc => by
    have hs : Utf8.toString? (ofString s) = .ok s := by
      rw [ofString, Utf8.toString?_encode, String.ofList_toList]
    rw [List.map_cons, cellTexts, hs]
    simp only
    rw [cellTexts_strings record place cells, List.reverse_cons, List.append_assoc,
      List.singleton_append]

theorem recordTexts_strings : ∀ (rows : List (List String)) (located : List Located) (record : Nat)
    (acc : List (List String)),
    located.map Located.cells = (rows.map fun row => row.map ofString) →
    recordTexts record acc located = .ok (acc.reverse ++ rows)
  | [], located, _, acc, h => by
    rw [List.map_eq_nil_iff.mp h, recordTexts, List.append_nil]
  | row :: rows, located, record, acc, h => by
    cases located with
    | nil => cases h
    | cons l located =>
      rw [List.map_cons, List.map_cons, List.cons.injEq] at h
      rw [recordTexts, h.1, cellTexts_strings]
      simp only [List.reverse_nil, List.nil_append]
      rw [recordTexts_strings rows located _ _ h.2, List.reverse_cons, List.append_assoc,
        List.singleton_append]

/-! ## Rows -/

/-- The names of a row that the header has, each where it stands first, with the
cell that stands under it last. -/
def Pairs (header cells : List String) (row : Row) : Prop :=
  row.names = (header.take (min header.length cells.length)).eraseDups ∧
    ∀ name, row.get? name = lastValue? (header.zip cells) name

theorem pairs_row (header cells : List String) : Pairs header cells (row header cells) := by
  refine ⟨?_, Fields.get?_ofList _⟩
  rw [row, Fields.names_ofList, List.zip_eq_zip_take_min, List.map_fst_zip]
  simp only [List.length_take]
  omega

theorem extractCsv_written {header : List String} {rows : List (List String)} {t : List Char}
    (h : TableText (header :: rows) t) {marked : Bool}
    (hmark : marked = false → t.head? ≠ some '\uFEFF') :
    ∃ out, extractCsv (encode (mark marked ++ t)) = .ok out ∧ List.Forall₂ (Pairs header) rows out := by
  have htexts := recordTexts_strings _ _ 0 [] (cells_records h hmark)
  refine ⟨rows.map (row header), ?_, ?_⟩
  · rw [extractCsv, Csv.rows, htexts]
    rfl
  · rw [List.forall₂_map_right_iff]
    exact List.forall₂_same.mpr fun cells _ => pairs_row header cells

/-- Empty lines and every kind of line end, a ragged row and a repeated column, and
cells that hold a line end, a quote or nothing. -/
def mixedText : List Char :=
  "\r\na,\"b,c\",a\r1\n\n\"x\r\ny\",\"\"\"\",é\",z\r\n\"\"".toList

theorem extractCsv_written_mixed :
    TableText [["a", "b,c", "a"], ["1"], ["x\r\ny", "\"", "é\"", "z"], [""]] mixedText ∧
    mixedText.head? ≠ some '\uFEFF' ∧
    ∃ out, extractCsv (encode (mark false ++ mixedText)) = .ok out ∧
      List.Forall₂ (Pairs ["a", "b,c", "a"]) [["1"], ["x\r\ny", "\"", "é\"", "z"], [""]] out := by
  have bare : ∀ s : String, s.toList.all isInner = true → s.toList.head? ≠ some '"' →
      CellText s s.toList := fun _ => CellText.bare
  have h : TableText [["a", "b,c", "a"], ["1"], ["x\r\ny", "\"", "é\"", "z"], [""]] mixedText :=
    .emptyLine .crlf <|
    .cons (.cons (bare "a" (by decide) (by decide)) <| .cons (.quoted "b,c") <|
      .last (bare "a" (by decide) (by decide))) (by decide) .cr <|
    .cons (.last (bare "1" (by decide) (by decide))) (by decide) .lf <|
    .emptyLine .lf <|
    .cons (.cons (.quoted "x\r\ny") <| .cons (.quoted "\"") <|
      .cons (bare "é\"" (by decide) (by decide)) <|
      .last (bare "z" (by decide) (by decide))) (by decide) .crlf <|
    .unended (.last (.quoted "")) (by decide)
  have hmark : mixedText.head? ≠ some '\uFEFF' := by decide
  exact ⟨h, hmark, extractCsv_written h fun _ => hmark⟩

end RecordSearch.Csv
