import RecordSearch.Proofs.Text.Utf8
import RecordSearch.Upload.Csv

/-!
# Reading tables byte by byte

What a reader holds between two bytes is its mode, the current cell, the cells
before it in the current record, and the records before that, here without the
places that messages tell. Each kind of byte has one lemma, and each kind of
run of bytes inside a cell another.
-/

namespace RecordSearch.Csv

/-- What a reader holds, all in the order of the input. -/
structure Holds (r : Reader) (mode : Mode) (cell : Bytes) (cells : List Bytes)
    (records : List (List Bytes)) : Prop where
  mode : r.mode = mode
  cell : r.cell.reverse = cell
  cells : r.cells.reverse = cells
  records : (r.records.map Located.cells).reverse = records

def isPlain (b : UInt8) : Bool := b != 44 && !Reader.isLineEnd b

def Mode.AtCell (m : Mode) : Prop := m = .idle ∨ m = .cellStart

theorem Mode.AtCell.ne_quoted {m : Mode} (h : m.AtCell) : m ≠ .quoted := by
  rcases h with e | e <;> subst e <;> decide

namespace Reader

theorem plain_comma (r : Reader) : r.plain 44 = r.endCell := rfl

theorem plain_lineEnd (r : Reader) {b : UInt8} (h : isLineEnd b = true) : r.plain b = r.endRecord := by
  unfold plain
  by_cases hb : b = 44
  · subst hb; cases h
  · simp [hb, h]

theorem plain_other (r : Reader) {b : UInt8} (h : isPlain b = true) : r.plain b = r.add .bare b := by
  unfold isPlain at h
  simp only [Bool.and_eq_true, bne_iff_ne, ne_eq, Bool.not_eq_true'] at h
  simp [plain, h.1, h.2]

/-- Outside quotes only a quote that opens or closes and an empty line are special. -/
theorem take_plain {r : Reader} {b : UInt8} (hm : r.mode ≠ .quoted) (hq : b = 34 → r.mode = .bare)
    (hi : r.mode = .idle → isLineEnd b = false) : r.take b = r.plain b := by
  unfold take
  by_cases hb : b = 34
  · rw [hq hb]
  · cases h : r.mode with
    | quoted => exact absurd h hm
    | idle => simp [hb, hi h]
    | _ => simp [hb]

end Reader

section
variable {r : Reader} {m : Mode} {cell : Bytes} {cells : List Bytes} {records : List (List Bytes)}

/-! ## One byte -/

theorem holds_initial (p : Place) : Holds (Reader.initial p) .idle [] [] [] := ⟨rfl, rfl, rfl, rfl⟩

theorem Holds.moved (h : Holds r m cell cells records) (p : Place) :
    Holds { r with here := p } m cell cells records := ⟨h.mode, h.cell, h.cells, h.records⟩

theorem Holds.endCell (h : Holds r m cell cells records) :
    Holds r.endCell .cellStart [] (cells ++ [cell]) records := by
  refine ⟨rfl, rfl, ?_, h.records⟩
  rw [Reader.endCell, List.reverse_cons, h.cells, h.cell]

theorem Holds.endRecord (h : Holds r m cell cells records) :
    Holds r.endRecord .idle [] [] (records ++ [cells ++ [cell]]) := by
  refine ⟨rfl, rfl, rfl, ?_⟩
  rw [Reader.endRecord, List.map_cons, List.reverse_cons, h.records, List.reverse_cons, h.cells, h.cell]

theorem Holds.add (h : Holds r m cell cells records) (m' : Mode) (b : UInt8) :
    Holds (r.add m' b) m' (cell ++ [b]) cells records := by
  refine ⟨rfl, ?_, h.cells, h.records⟩
  rw [Reader.add, List.reverse_cons, h.cell]

theorem Holds.turned (h : Holds r m cell cells records) (m' : Mode) :
    Holds { r with mode := m' } m' cell cells records := ⟨rfl, h.cell, h.cells, h.records⟩

theorem Holds.comma (h : Holds r m cell cells records) (hm : m ≠ .quoted) :
    Holds (r.step 44) .cellStart [] (cells ++ [cell]) records := by
  have hr := h.moved (Reader.advance r.here 44)
  rw [Reader.step, Reader.take_plain, Reader.plain_comma]
  · exact hr.endCell
  · exact hr.mode ▸ hm
  · intro e
    cases e
  · intro _
    rfl

theorem Holds.lineEnd (h : Holds r m cell cells records) (hm : m ≠ .quoted) (hi : m ≠ .idle)
    {b : UInt8} (hb : Reader.isLineEnd b = true) :
    Holds (r.step b) .idle [] [] (records ++ [cells ++ [cell]]) := by
  have hr := h.moved (Reader.advance r.here b)
  have hq : b ≠ 34 := by intro e; subst e; cases hb
  rw [Reader.step, Reader.take_plain, Reader.plain_lineEnd _ hb]
  · exact hr.endRecord
  · exact hr.mode ▸ hm
  · intro e
    exact absurd e hq
  · intro e
    exact absurd (hr.mode.symm.trans e) hi

theorem Holds.emptyLine (h : Holds r .idle cell cells records) {b : UInt8}
    (hb : Reader.isLineEnd b = true) : Holds (r.step b) .idle cell cells records := by
  have hr := h.moved (Reader.advance r.here b)
  have hs : r.step b = { r with here := Reader.advance r.here b } := by
    simp [Reader.step, Reader.take, h.mode, hb]
  rw [hs]
  exact hr

theorem Holds.opened (h : Holds r m cell cells records) (hm : m.AtCell) :
    Holds (r.step 34) .quoted cell cells records := by
  have hr := (h.moved (Reader.advance r.here 34)).turned .quoted
  have hs : r.step 34 = { r with here := Reader.advance r.here 34, mode := .quoted } := by
    rcases hm with e | e
    · subst e; simp [Reader.step, Reader.take, h.mode, Reader.isLineEnd]
    · subst e; simp [Reader.step, Reader.take, h.mode]
  rw [hs]
  exact hr

theorem Holds.first (h : Holds r m cell cells records) (hm : m ≠ .quoted) {b : UInt8} (hq : b ≠ 34)
    (hb : isPlain b = true) : Holds (r.step b) .bare (cell ++ [b]) cells records := by
  have hr := h.moved (Reader.advance r.here b)
  have hl : Reader.isLineEnd b = false := by
    unfold isPlain at hb
    simpa using (Bool.and_eq_true_iff.mp hb).2
  rw [Reader.step, Reader.take_plain, Reader.plain_other _ hb]
  · exact hr.add .bare b
  · exact hr.mode ▸ hm
  · intro e
    exact absurd e hq
  · intro _
    exact hl

theorem Holds.more (h : Holds r .bare cell cells records) {b : UInt8} (hb : isPlain b = true) :
    Holds (r.step b) .bare (cell ++ [b]) cells records := by
  have hr := h.moved (Reader.advance r.here b)
  have hs : r.step b = Reader.plain { r with here := Reader.advance r.here b } b := by
    simp [Reader.step, Reader.take, h.mode]
  rw [hs, Reader.plain_other _ hb]
  exact hr.add .bare b

theorem Holds.inside (h : Holds r .quoted cell cells records) {b : UInt8} (hb : b ≠ 34) :
    Holds (r.step b) .quoted (cell ++ [b]) cells records := by
  have hr := (h.moved (Reader.advance r.here b)).add .quoted b
  have hs : r.step b = Reader.add { r with here := Reader.advance r.here b } .quoted b := by
    simp [Reader.step, Reader.take, h.mode, hb]
  rw [hs]
  exact hr

theorem Holds.quote (h : Holds r .quoted cell cells records) :
    Holds (r.step 34) .quoteSeen cell cells records := by
  have hr := (h.moved (Reader.advance r.here 34)).turned .quoteSeen
  have hs : r.step 34 = { r with here := Reader.advance r.here 34, mode := .quoteSeen } := by
    simp [Reader.step, Reader.take, h.mode]
  rw [hs]
  exact hr

theorem Holds.again (h : Holds r .quoteSeen cell cells records) :
    Holds (r.step 34) .quoted (cell ++ [34]) cells records := by
  have hr := (h.moved (Reader.advance r.here 34)).add .quoted 34
  have hs : r.step 34 = Reader.add { r with here := Reader.advance r.here 34 } .quoted 34 := by
    simp [Reader.step, Reader.take, h.mode]
  rw [hs]
  exact hr

/-! ## The end of the input -/

theorem Holds.finish_idle (h : Holds r .idle cell cells records) :
    r.finish.map Located.cells = records := by
  rw [Reader.finish, h.mode, List.map_reverse]
  exact h.records

theorem Holds.finish_open (h : Holds r m cell cells records) (hm : m ≠ .idle) :
    r.finish.map Located.cells = records ++ [cells ++ [cell]] := by
  have hr : r.finish = r.endRecord.records.reverse := by
    unfold Reader.finish
    rw [h.mode]
    cases m with
    | idle => exact absurd rfl hm
    | _ => rfl
  rw [hr, List.map_reverse]
  exact h.endRecord.records

end

/-! ## Runs of bytes -/

/-- A class of bytes that a mode takes up one by one, it takes up in a run. -/
theorem holds_run {m : Mode} {cells : List Bytes} {records : List (List Bytes)} {p : UInt8 → Prop}
    (one : ∀ {r cell b}, p b → Holds r m cell cells records →
      Holds (r.step b) m (cell ++ [b]) cells records) :
    ∀ {bs : Bytes} {r : Reader} {cell : Bytes}, (∀ b ∈ bs, p b) → Holds r m cell cells records →
      Holds (bs.foldl Reader.step r) m (cell ++ bs) cells records
  | [], r, cell, _, h => by rwa [List.append_nil]
  | b :: bs, r, cell, hb, h => by
    have hr := one (hb b (List.mem_cons_self ..)) h
    have := holds_run one (fun x hx => hb x (List.mem_cons_of_mem _ hx)) hr
    rwa [List.append_assoc, List.singleton_append] at this

end RecordSearch.Csv
