import RecordSearch.Proofs.Csv.Reading
import RecordSearch.Proofs.Text.Runs

/-!
# How bytes are cut into records

The rules by which any bytes, well-formed or not, are cut into cells and records.
Every input is cut in exactly one way, and the reader finds it: `cut_iff`.
-/

namespace RecordSearch.Csv

open Text (Stops stops_nil stops_dropWhile)

/-! ## The rules

What is cut off stands first, then the cell or the cells it gives, then what is left. -/

/-- After the quote that opens a cell: two quotes stand for one, a single one closes
the quoted part, and the rest of the cell is taken as it stands. -/
inductive Enclosed : Bytes → Bytes → Bytes → Prop
  | unclosed : Enclosed [] [] []
  | closed {t u : Bytes} : (∀ b ∈ t, isPlain b = true) → t.head? ≠ some 34 →
      Enclosed (34 :: (t ++ u)) t u
  | doubled {s c u : Bytes} : Enclosed s c u → Enclosed (34 :: 34 :: s) (34 :: c) u
  | byte {b : UInt8} {s c u : Bytes} : b ≠ 34 → Enclosed s c u → Enclosed (b :: s) (b :: c) u

inductive CellAt : Bytes → Bytes → Bytes → Prop
  | bare {t u : Bytes} : (∀ b ∈ t, isPlain b = true) → t.head? ≠ some 34 → CellAt (t ++ u) t u
  | quoted {s c u : Bytes} : Enclosed s c u → CellAt (34 :: s) c u

inductive RecordAt : Bytes → List Bytes → Bytes → Prop
  | last {s c u : Bytes} : CellAt s c u → RecordAt s [c] u
  | cons {s c u v : Bytes} {cells : List Bytes} : CellAt s c (44 :: u) → RecordAt u cells v →
      RecordAt s (c :: cells) v

/-- A record is ended by a line end or the end of the input, and line ends before a
record count for nothing. -/
inductive Cut : Bytes → List (List Bytes) → Prop
  | nil : Cut [] []
  | emptyLine {b : UInt8} {s : Bytes} {table : List (List Bytes)} : Reader.isLineEnd b = true →
      Cut s table → Cut (b :: s) table
  | last {b : UInt8} {s : Bytes} {cells : List Bytes} : Reader.isLineEnd b = false →
      RecordAt (b :: s) cells [] → Cut (b :: s) [cells]
  | cons {b e : UInt8} {s u : Bytes} {cells : List Bytes} {table : List (List Bytes)} :
      Reader.isLineEnd b = false → RecordAt (b :: s) cells (e :: u) → Reader.isLineEnd e = true →
      Cut u table → Cut (b :: s) (cells :: table)

/-! ## The reader goes by the rules -/

/-- A reader that has come through some bytes to the rest of them, and what it then
holds. Only at the end of the input may it still stand between quotes. -/
structure Comes (r : Reader) (s u : Bytes) (r' : Reader) (m : Mode) (cell : Bytes) (cells : List Bytes)
    (records : List (List Bytes)) : Prop where
  run : s.foldl Reader.step r = u.foldl Reader.step r'
  holds : Holds r' m cell cells records
  outside : u ≠ [] → m ≠ .quoted

section
variable {m : Mode} {s t u c cell : Bytes} {cells row : List Bytes} {records table : List (List Bytes)}

theorem Comes.after {r r' : Reader} {b : UInt8} (h : Comes (r.step b) s u r' m cell cells records) :
    Comes r (b :: s) u r' m cell cells records :=
  ⟨h.run, h.holds, h.outside⟩

theorem comes_plain {r : Reader} (ht : ∀ b ∈ t, isPlain b = true) (hq : t.head? ≠ some 34)
    (hm : m ≠ .quoted) (h : Holds r m cell cells records) :
    ∃ r' m', Comes r (t ++ u) u r' m' (cell ++ t) cells records ∧ (m' = m ∧ t = [] ∨ m' = .bare) := by
  cases t with
  | nil =>
    rw [List.append_nil]
    exact ⟨r, m, ⟨rfl, h, fun _ => hm⟩, .inl ⟨rfl, rfl⟩⟩
  | cons b t =>
    have hb : b ≠ 34 := by
      intro e
      exact hq (congrArg some e)
    have hfirst := h.first hm hb (ht b (List.mem_cons_self ..))
    have hrun := holds_run (fun hb hr => Holds.more hr hb)
      (fun x hx => ht x (List.mem_cons_of_mem _ hx)) hfirst
    rw [List.append_assoc, List.singleton_append] at hrun
    exact ⟨_, _, ⟨List.foldl_append, hrun, fun _ => by decide⟩, .inr rfl⟩

theorem comes_enclosed (hs : Enclosed s c u) : ∀ {r : Reader} {cell : Bytes},
    Holds r .quoted cell cells records →
    ∃ r' m, Comes r s u r' m (cell ++ c) cells records ∧ m ≠ .idle := by
  induction hs with
  | unclosed =>
    intro r cell h
    rw [List.append_nil]
    exact ⟨r, .quoted, ⟨rfl, h, fun e => absurd rfl e⟩, by decide⟩
  | closed ht hq =>
    intro r cell h
    obtain ⟨r', m, hc, hm⟩ := comes_plain ht hq (by decide) h.quote
    refine ⟨r', m, hc.after, ?_⟩
    rcases hm with ⟨rfl, -⟩ | rfl <;> decide
  | doubled _ ih =>
    intro r cell h
    obtain ⟨r', m, hc, hm⟩ := ih h.quote.again
    rw [List.append_assoc, List.singleton_append] at hc
    exact ⟨r', m, hc.after.after, hm⟩
  | byte hb _ ih =>
    intro r cell h
    obtain ⟨r', m, hc, hm⟩ := ih (h.inside hb)
    rw [List.append_assoc, List.singleton_append] at hc
    exact ⟨r', m, hc.after, hm⟩

/-- A reader that is among empty lines after a cell has not moved. -/
theorem comes_cell {r : Reader} (hs : CellAt s c u) (hm : m.AtCell) (h : Holds r m [] cells records) :
    ∃ r' m', Comes r s u r' m' c cells records ∧ (m' = .idle → m = .idle ∧ s = u) := by
  cases hs with
  | bare ht hq =>
    obtain ⟨r', m', hc, hm'⟩ := comes_plain ht hq hm.ne_quoted h
    refine ⟨r', m', hc, ?_⟩
    rintro rfl
    rcases hm' with ⟨rfl, rfl⟩ | e
    · exact ⟨rfl, rfl⟩
    · cases e
  | quoted hs =>
    obtain ⟨r', m', hc, hm'⟩ := comes_enclosed hs (h.opened hm)
    exact ⟨r', m', hc.after, fun e => absurd e hm'⟩

theorem comes_record (hs : RecordAt s row u) : ∀ {r : Reader} {m : Mode} {cells : List Bytes},
    m.AtCell → Holds r m [] cells records →
    ∃ r' m' cell' cells', Comes r s u r' m' cell' cells' records ∧ cells' ++ [cell'] = cells ++ row ∧
      (m' = .idle → m = .idle ∧ s = u) := by
  induction hs with
  | last hs =>
    intro r m cells hm h
    obtain ⟨r', m', hc, hi⟩ := comes_cell hs hm h
    exact ⟨r', m', _, cells, hc, rfl, hi⟩
  | cons hs _ ih =>
    intro r m cells hm h
    obtain ⟨r', m', hc, -⟩ := comes_cell hs hm h
    have hcomma := hc.holds.comma (hc.outside (List.cons_ne_nil _ _))
    obtain ⟨r'', m'', cell'', cells'', hc', hcells, hi⟩ := ih (.inr rfl) hcomma
    refine ⟨r'', m'', cell'', cells'', ⟨hc.run.trans hc'.run, hc'.holds, hc'.outside⟩, ?_, ?_⟩
    · rw [hcells, List.append_assoc, List.singleton_append]
    · intro e
      exact absurd (hi e).1 (by decide)

theorem finish_cut (hs : Cut s table) : ∀ {r : Reader} {records : List (List Bytes)},
    Holds r .idle [] [] records →
    (s.foldl Reader.step r).finish.map Located.cells = records ++ table := by
  induction hs with
  | nil =>
    intro r records h
    rw [List.append_nil]
    exact h.finish_idle
  | emptyLine hb _ ih =>
    intro r records h
    exact ih (h.emptyLine hb)
  | last hb hs =>
    intro r records h
    obtain ⟨r', m', _, _, hc, hcells, hi⟩ := comes_record hs (.inl rfl) h
    have hm : m' ≠ .idle := by
      intro e
      cases (hi e).2
    rw [hc.run, List.foldl_nil, hc.holds.finish_open hm, hcells, List.nil_append]
  | cons hb hs he _ ih =>
    intro r records h
    obtain ⟨r', m', _, _, hc, hcells, hi⟩ := comes_record hs (.inl rfl) h
    have hm : m' ≠ .idle := by
      intro e
      -- the first byte of a record ends no line
      rw [(List.cons.inj (hi e).2).1, he] at hb
      cases hb
    have hend := hc.holds.lineEnd (hc.outside (List.cons_ne_nil _ _)) hm he
    rw [hc.run, List.foldl_cons, ih hend, hcells, List.nil_append, List.append_assoc, List.singleton_append]

end

/-! ## Every input is cut -/

theorem exists_plain {s : Bytes} (hq : s.head? ≠ some 34) : ∃ t u, s = t ++ u ∧
    (∀ b ∈ t, isPlain b = true) ∧ t.head? ≠ some 34 ∧ Stops isPlain u := by
  refine ⟨s.takeWhile isPlain, s.dropWhile isPlain, ?_, fun b hb => List.mem_takeWhile_imp hb, ?_, stops_dropWhile _ s⟩
  · exact List.takeWhile_append_dropWhile.symm
  · cases s with
    | nil => exact hq
    | cons b s =>
      rw [List.takeWhile_cons]
      split
      · exact hq
      · simp

theorem exists_enclosed : ∀ s : Bytes, ∃ c u, Enclosed s c u ∧ Stops isPlain u ∧ u.length ≤ s.length
  | [] => ⟨[], [], .unclosed, stops_nil, Nat.le_refl _⟩
  | b :: s => by
    by_cases hb : b = 34
    · subst hb
      by_cases hq : s.head? = some 34
      · obtain ⟨s, rfl⟩ := List.head?_eq_some_iff.mp hq
        obtain ⟨c, u, hs, hu, hl⟩ := exists_enclosed s
        exact ⟨34 :: c, u, .doubled hs, hu, by simp only [List.length_cons]; omega⟩
      · obtain ⟨t, u, rfl, ht, htq, hu⟩ := exists_plain hq
        exact ⟨t, u, .closed ht htq, hu, by simp only [List.length_cons, List.length_append]; omega⟩
    · obtain ⟨c, u, hs, hu, hl⟩ := exists_enclosed s
      exact ⟨b :: c, u, .byte hb hs, hu, Nat.le_succ_of_le hl⟩
termination_by s => s.length

theorem exists_cell (s : Bytes) : ∃ c u, CellAt s c u ∧ Stops isPlain u ∧ u.length ≤ s.length := by
  by_cases hq : s.head? = some 34
  · obtain ⟨s, rfl⟩ := List.head?_eq_some_iff.mp hq
    obtain ⟨c, u, hs, hu, hl⟩ := exists_enclosed s
    exact ⟨c, u, .quoted hs, hu, Nat.le_succ_of_le hl⟩
  · obtain ⟨t, u, rfl, ht, htq, hu⟩ := exists_plain hq
    exact ⟨t, u, .bare ht htq, hu, by simp⟩

theorem lineEnd_of_not_plain {b : UInt8} (h : isPlain b = false) (hb : b ≠ 44) :
    Reader.isLineEnd b = true := by
  simpa [isPlain, hb] using h

/-- The rest of a record is empty or begins with a line end. -/
def Ends (u : Bytes) : Prop := ∀ b, u.head? = some b → Reader.isLineEnd b = true

theorem exists_record (s : Bytes) : ∃ cells u, RecordAt s cells u ∧ Ends u ∧ u.length ≤ s.length := by
  induction hn : s.length using Nat.strongRecOn generalizing s with
  | ind n ih =>
    subst hn
    obtain ⟨c, u, hs, hu, hl⟩ := exists_cell s
    by_cases hq : u.head? = some 44
    · obtain ⟨u, rfl⟩ := List.head?_eq_some_iff.mp hq
      obtain ⟨cells, v, hrest, hv, hlv⟩ := ih u.length hl u rfl
      exact ⟨c :: cells, v, .cons hs hrest, hv, Nat.le_trans hlv (Nat.le_of_succ_le hl)⟩
    · refine ⟨[c], u, .last hs, ?_, hl⟩
      intro b hb
      apply lineEnd_of_not_plain (hu b hb)
      rintro rfl
      exact hq hb

theorem exists_cut (s : Bytes) : ∃ table, Cut s table := by
  induction hn : s.length using Nat.strongRecOn generalizing s with
  | ind n ih =>
    subst hn
    cases s with
    | nil => exact ⟨[], .nil⟩
    | cons b s =>
      by_cases hb : Reader.isLineEnd b = true
      · obtain ⟨table, hs⟩ := ih s.length (Nat.lt_succ_self _) s rfl
        exact ⟨table, .emptyLine hb hs⟩
      · obtain ⟨cells, u, hs, hu, hl⟩ := exists_record (b :: s)
        have hb := Bool.eq_false_iff.mpr hb
        cases u with
        | nil => exact ⟨[cells], .last hb hs⟩
        | cons e u =>
          obtain ⟨table, hrest⟩ := ih u.length hl u rfl
          exact ⟨cells :: table, .cons hb hs (hu e rfl) hrest⟩

/-! ## The cut of an input -/

/-- The input without the byte order mark at its start. -/
def unmarked : Bytes → Bytes
  | 0xEF :: 0xBB :: 0xBF :: rest => rest
  | s => s

theorem records_unmarked (s : Bytes) :
    ∃ p, records s = ((unmarked s).foldl Reader.step (Reader.initial p)).finish := by
  unfold records
  split
  · exact ⟨⟨3, 1⟩, rfl⟩
  · rename_i hne
    have hs : unmarked s = s := by
      unfold unmarked
      split
      · exact absurd rfl (hne _)
      · rfl
    exact ⟨⟨0, 1⟩, by rw [hs]⟩

theorem cut_iff {s : Bytes} {table : List (List Bytes)} :
    Cut (unmarked s) table ↔ table = (records s).map Located.cells := by
  obtain ⟨p, hp⟩ := records_unmarked s
  have hfinish : ∀ t, Cut (unmarked s) t → (records s).map Located.cells = t := by
    intro t ht
    rw [hp]
    exact finish_cut ht (holds_initial p)
  constructor
  · intro h
    exact (hfinish _ h).symm
  · intro h
    obtain ⟨t, ht⟩ := exists_cut (unmarked s)
    rw [h, hfinish t ht]
    exact ht

end RecordSearch.Csv
