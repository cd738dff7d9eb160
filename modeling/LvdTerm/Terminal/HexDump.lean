import LvdTerm.Terminal.HexDumpWidget
import LvdTerm.Lib.Runs
import Mathlib.Data.Nat.Basic
import Mathlib.Data.List.Induction

/-!
# The dump shows the complete rows still buffered

Each row at its absolute offset in the stream, after any appends, changes of the grouping and clears: as long as every
offset fits the `int` it is cast to. A chunk that brings the buffer past that shows rows that are not there, or is not
trimmed.
-/
namespace LvdTerm.Terminal

/-! ## Rows of text -/

def printable (c : Char) : Prop := 0x20 ≤ c.toNat ∧ c.toNat < 0x7f

instance (c : Char) : Decidable (printable c) := inferInstanceAs (Decidable (_ ∧ _))

theorem digit_printable (n : Nat) {d : Char} (h : d ∈ Nat.toDigits 16 n) : printable d.toUpper := by
  have hdigit : ∀ k < 16, printable k.digitChar.toUpper := by decide
  induction n using Nat.strong_induction_on with
  | h n ih =>
    rw [Nat.toDigits_eq_if (by decide)] at h
    split at h
    · rw [List.mem_singleton.mp h]
      exact hdigit n ‹_›
    · rcases List.mem_append.mp h with hhigh | hlow
      · exact ih (n / 16) (by omega) hhigh
      · rw [List.mem_singleton.mp hlow]
        exact hdigit (n % 16) (by omega)

theorem upperHex_printable (n width : Nat) {c : Char} (h : c ∈ upperHex n width) : printable c := by
  obtain ⟨d, hd, rfl⟩ := List.mem_map.mp h
  rcases List.mem_append.mp hd with hpad | hdigit
  · rw [List.eq_of_mem_replicate hpad]
    decide
  · exact digit_printable n hdigit

/-- A row with all its bytes is longer than one with none. -/
theorem formatRow_ne_empty (offset : Nat) {rowBytes : List UInt8} (h : rowBytes.length = kBytesPerRow) (grouping : Grouping) :
    formatRow offset rowBytes grouping ≠ formatRow offset [] grouping := by
  intro heq
  have hlen := congrArg List.length heq
  simp only [formatRow, List.length_append, List.length_rightpad, asciiPart, List.length_map, h, kBytesPerRow,
    hexPartOnly, List.zipIdx_nil, List.flatMap_nil, List.length_nil] at hlen
  omega

theorem hexPartOnly_printable (rowBytes : List UInt8) (grouping : Grouping) {c : Char} (h : c ∈ hexPartOnly rowBytes grouping) :
    printable c := by
  obtain ⟨⟨b, i⟩, -, hc⟩ := List.mem_flatMap.mp h
  rcases List.mem_append.mp hc with hbyte | hspace
  · exact upperHex_printable _ _ hbyte
  · split at hspace
    · rw [List.mem_singleton.mp hspace]
      decide
    · exact absurd hspace List.not_mem_nil

theorem asciiPart_printable (rowBytes : List UInt8) {c : Char} (h : c ∈ asciiPart rowBytes) : printable c := by
  obtain ⟨b, -, rfl⟩ := List.mem_map.mp h
  have hall : ∀ n < 256, 32 ≤ n ∧ n < 127 → printable (Char.ofNat n) := by decide +kernel
  split
  · rename_i hb
    exact hall b.toNat b.toNat_lt_size hb
  · decide

/-- Nothing in a row breaks it. -/
theorem formatRow_printable (offset : Nat) (rowBytes : List UInt8) (grouping : Grouping) :
    ∀ c ∈ formatRow offset rowBytes grouping, printable c := by
  have hpad : ∀ c ∈ List.rightpad (fullRowHexWidth grouping) ' ' (hexPartOnly rowBytes grouping), printable c := by
    intro c hc
    rcases List.mem_append.mp hc with hhex | hspace
    · exact hexPartOnly_printable rowBytes grouping hhex
    · rw [List.eq_of_mem_replicate hspace]
      decide
  have hspace : printable ' ' := by decide
  have hbar : printable '|' := by decide
  have hblank : ∀ c ∈ [' ', ' '], printable c := by simp [hspace]
  have hopen : ∀ c ∈ [' ', ' ', '|'], printable c := by simp [hspace, hbar]
  have hclose : ∀ c ∈ ['|'], printable c := by simp [hbar]
  simp only [formatRow, List.forall_mem_append]
  exact ⟨⟨⟨⟨⟨fun c => upperHex_printable offset 8, hblank⟩, hpad⟩, hopen⟩, fun c => asciiPart_printable rowBytes⟩, hclose⟩

theorem newline_notMem_formatRow (offset : Nat) (rowBytes : List UInt8) (grouping : Grouping) :
    '\n' ∉ formatRow offset rowBytes grouping := fun h => absurd (formatRow_printable offset rowBytes grouping _ h) (by decide)

theorem formatRow_ne_nil (offset : Nat) (rowBytes : List UInt8) (grouping : Grouping) :
    formatRow offset rowBytes grouping ≠ [] := by
  simp [formatRow]

/-! ## The text edit -/

namespace TextEdit

/-- The document with these lines. -/
def ofLines (lines : List Line) : TextEdit := if lines = [] then clear else ⟨lines⟩

/-- Lines as the rows of a dump are: not empty, and without a line end. -/
def RowLike (lines : List Line) : Prop := ∀ line ∈ lines, line ≠ [] ∧ '\n' ∉ line

variable {shown new : List Line}

theorem RowLike.append (h : RowLike shown) (h' : RowLike new) : RowLike (shown ++ new) :=
  List.forall_mem_append.mpr ⟨h, h'⟩

theorem RowLike.drop (h : RowLike shown) (n : Nat) : RowLike (shown.drop n) := fun line hline => h line (List.mem_of_mem_drop hline)

theorem splitOn_joinLines (h : RowLike new) (hnew : new ≠ []) : (joinLines new).splitOn '\n' = new :=
  List.splitOn_intercalate '\n' (fun line hline => (h line hline).2) hnew

theorem setPlainText_joinLines (h : RowLike new) : setPlainText (joinLines new) = ofLines new := by
  by_cases hnew : new = []
  · subst hnew
    rfl
  · rw [setPlainText, splitOn_joinLines h hnew, ofLines, if_neg hnew]

theorem isEmpty_ofLines (h : RowLike shown) : (ofLines shown).isEmpty ↔ shown = [] := by
  by_cases hshown : shown = []
  · subst hshown
    exact iff_of_true rfl rfl
  · refine iff_of_false ?_ hshown
    rw [ofLines, if_neg hshown]
    rintro heq
    have hblocks : shown = [[]] := heq
    exact (h [] (hblocks ▸ List.mem_singleton_self _)).1 rfl

theorem lines_ofLines (h : RowLike shown) : (ofLines shown).lines = shown := by
  unfold lines
  rw [if_congr (isEmpty_ofLines h) rfl rfl]
  split
  · exact (‹shown = []›).symm
  · rw [ofLines, if_neg ‹_›]

theorem appendPlainText_joinLines (h : RowLike shown) (h' : RowLike new) (hnew : new ≠ []) :
    (ofLines shown).appendPlainText (joinLines new) = ofLines (shown ++ new) := by
  unfold appendPlainText
  rw [if_congr (isEmpty_ofLines h) rfl rfl]
  split
  · rename_i hshown
    rw [hshown, setPlainText_joinLines h', List.nil_append]
  · rename_i hshown
    rw [splitOn_joinLines h' hnew, ofLines, if_neg hshown, ofLines, if_neg (by simp [hnew])]

theorem removeFirstBlock_ofLines (shown : List Line) : (ofLines shown).removeFirstBlock = ofLines shown.tail := by
  match shown with
  | [] => rfl
  | [_] => rfl
  | _ :: _ :: _ => rfl

theorem removeFirstBlocks_ofLines (n : Nat) (shown : List Line) : (ofLines shown).removeFirstBlocks n = ofLines (shown.drop n) := by
  induction n generalizing shown with
  | zero => rfl
  | succ n ih => rw [removeFirstBlocks, removeFirstBlock_ofLines, ih, List.drop_tail]

end TextEdit

/-! ## Rows of a stream -/

/-- The row at an offset of the stream. -/
def rowBytesAt (s : List UInt8) (offset : Nat) : List UInt8 := (s.drop offset).take kBytesPerRow

/-- So many rows of the stream from an offset on, formatted. -/
def streamRows (s : List UInt8) (grouping : Grouping) (offset n : Nat) : List Line :=
  (List.range n).map fun k => formatRow (offset + kBytesPerRow * k) (rowBytesAt s (offset + kBytesPerRow * k)) grouping

section Rows

variable (s : List UInt8) (grouping : Grouping) (offset n m : Nat)

theorem rowLike_map_formatRow {ι : Type} (l : List ι) (offsets : ι → Nat) (bytes : ι → List UInt8) :
    TextEdit.RowLike (l.map fun i => formatRow (offsets i) (bytes i) grouping) := by
  intro line hline
  obtain ⟨i, -, rfl⟩ := List.mem_map.mp hline
  exact ⟨formatRow_ne_nil _ _ _, newline_notMem_formatRow _ _ _⟩

theorem length_streamRows : (streamRows s grouping offset n).length = n := by simp [streamRows]

theorem streamRows_add :
    streamRows s grouping offset (n + m) = streamRows s grouping offset n ++ streamRows s grouping (offset + kBytesPerRow * n) m := by
  simp only [streamRows, List.range_add, List.map_append, List.map_map, Function.comp_def, Nat.mul_add, Nat.add_assoc]

theorem drop_streamRows : (streamRows s grouping offset (n + m)).drop n = streamRows s grouping (offset + kBytesPerRow * n) m := by
  rw [streamRows_add, List.drop_left' (length_streamRows ..)]

theorem streamRows_getLast? :
    (streamRows s grouping offset (n + 1)).getLast? =
      some (formatRow (offset + kBytesPerRow * n) (rowBytesAt s (offset + kBytesPerRow * n)) grouping) := by
  simp [streamRows, List.range_succ]

/-- Rows that are complete stay as they are when more arrives. -/
theorem streamRows_more (data : List UInt8) (h : offset + kBytesPerRow * n ≤ s.length) :
    streamRows (s ++ data) grouping offset n = streamRows s grouping offset n := by
  refine List.map_congr_left fun k hk => ?_
  have hlt := List.mem_range.mp hk
  have hrow : rowBytesAt (s ++ data) (offset + kBytesPerRow * k) = rowBytesAt s (offset + kBytesPerRow * k) := by
    simp only [rowBytesAt, kBytesPerRow] at h ⊢
    rw [List.drop_append_of_le_length (by omega), List.take_append_of_le_length (by rw [List.length_drop]; omega)]
  rw [hrow]

end Rows

/-! ## The loops -/

namespace HexDumpWidget

variable {w : HexDumpWidget}

/-- What the first loop of `appendData` does: one row for each complete one, and the offset moves behind them. -/
theorem formatRows_eq (w : HexDumpWidget) (newLines : List Line) :
    w.formatRows newLines =
      ({ w with formattedOffset := w.formattedOffset + kBytesPerRow * ((w.buffer.length - w.formattedOffset) / kBytesPerRow) },
        newLines ++ (List.range ((w.buffer.length - w.formattedOffset) / kBytesPerRow)).map fun k =>
          w.rowAt (w.formattedOffset + kBytesPerRow * k)) := by
  generalize hn : (w.buffer.length - w.formattedOffset) / kBytesPerRow = n
  induction n generalizing w newLines with
  | zero =>
    have hnone : ¬ kBytesPerRow ≤ w.buffer.length - w.formattedOffset := by
      simp only [kBytesPerRow] at hn ⊢
      omega
    rw [formatRows, if_neg hnone]
    simp
  | succ n ih =>
    have hrow : kBytesPerRow ≤ w.buffer.length - w.formattedOffset := by
      simp only [kBytesPerRow] at hn ⊢
      omega
    have hrest : (w.buffer.length - (w.formattedOffset + kBytesPerRow)) / kBytesPerRow = n := by
      simp only [kBytesPerRow] at hn ⊢
      omega
    rw [formatRows, if_pos hrow, ih _ _ hrest, List.range_succ_eq_map, List.map_cons, List.map_map, List.append_assoc]
    refine Prod.ext ?_ (congrArg (newLines ++ ·) (congrArg₂ List.cons rfl (List.map_congr_left fun k _ => ?_)))
    · simp only [Nat.mul_add, Nat.mul_one, Nat.add_assoc, Nat.add_comm kBytesPerRow]
    · simp only [rowAt, Function.comp_apply, Nat.mul_succ, Nat.add_assoc, Nat.add_comm kBytesPerRow]

theorem rebuildLines_eq (offset n : Nat) (h : w.formattedOffset = offset + kBytesPerRow * n) (lines : List Line) :
    w.rebuildLines offset lines = lines ++ (List.range n).map fun k => w.rowAt (offset + kBytesPerRow * k) := by
  induction n generalizing offset lines with
  | zero =>
    rw [rebuildLines, if_neg (by omega)]
    simp
  | succ n ih =>
    have hrow : offset < w.formattedOffset := by
      simp only [kBytesPerRow] at h
      omega
    rw [rebuildLines, if_pos hrow, ih (offset + kBytesPerRow) (by rw [h, Nat.mul_succ]; omega), List.range_succ_eq_map,
      List.map_cons, List.map_map, List.append_assoc]
    refine congrArg (lines ++ ·) (congrArg₂ List.cons rfl (List.map_congr_left fun k _ => ?_))
    simp only [Function.comp_apply, Nat.mul_succ, Nat.add_assoc, Nat.add_comm kBytesPerRow]

/-! ## What the dump owes -/

/-- The dump of a stream: its buffer is what is left of it, the offsets are those of rows, the buffer is capped, and the
lines are its complete rows, as they would be if all were formatted anew. -/
structure InStep (s : List UInt8) (w : HexDumpWidget) : Prop where
  suffix : w.buffer = s.drop w.droppedByteCount
  dropped_le : w.droppedByteCount ≤ s.length
  dropped_dvd : kBytesPerRow ∣ w.droppedByteCount
  formatted_dvd : kBytesPerRow ∣ w.formattedOffset
  formatted_le : w.formattedOffset ≤ w.buffer.length
  rest_lt : w.buffer.length - w.formattedOffset < kBytesPerRow
  capped : w.buffer.length ≤ kMaxBufferedBytes
  shown : w.textEdit.lines = streamRows s w.grouping w.droppedByteCount (w.buffer.length / kBytesPerRow)
  rebuilt : w.rebuildDisplay.textEdit = w.textEdit

variable {s data : List UInt8}

theorem toInt_eq {n : Nat} (h : n < 2 ^ 31) : toInt n = n := by
  unfold toInt
  omega

/-- As long as its offset fits an `int`, a row is that of the stream. -/
theorem rowAt_eq (h : w.buffer = s.drop w.droppedByteCount) {offset : Nat} (hoffset : offset < 2 ^ 31) :
    w.rowAt offset = formatRow (w.droppedByteCount + offset) (rowBytesAt s (w.droppedByteCount + offset)) w.grouping := by
  rw [rowAt, toInt_eq hoffset, mid, if_neg (by omega), Int.toNat_natCast, h, List.drop_drop, rowBytesAt]

theorem rowAt_rows (h : w.buffer = s.drop w.droppedByteCount) (offset n : Nat) (hn : offset + kBytesPerRow * n < 2 ^ 31 + kBytesPerRow) :
    ((List.range n).map fun k => w.rowAt (offset + kBytesPerRow * k)) = streamRows s w.grouping (w.droppedByteCount + offset) n := by
  refine List.map_congr_left fun k hk => ?_
  have hlt := List.mem_range.mp hk
  rw [rowAt_eq h (by simp only [kBytesPerRow] at hn ⊢; omega), Nat.add_assoc]

theorem rowLike_streamRows (s : List UInt8) (grouping : Grouping) (offset n : Nat) :
    TextEdit.RowLike (streamRows s grouping offset n) := rowLike_map_formatRow grouping _ _ _

/-- A dump formatted anew shows the rows of the stream. -/
theorem rebuildDisplay_textEdit (h : w.buffer = s.drop w.droppedByteCount) {n : Nat} (hn : w.formattedOffset = kBytesPerRow * n)
    (hle : w.formattedOffset ≤ kMaxBufferedBytes) :
    w.rebuildDisplay.textEdit = .ofLines (streamRows s w.grouping w.droppedByteCount n) := by
  have hrows := rowAt_rows h 0 n (by simp only [kBytesPerRow, kMaxBufferedBytes] at *; omega)
  have hlines : w.rebuildLines 0 [] = streamRows s w.grouping w.droppedByteCount n := by
    rw [rebuildLines_eq 0 n (by omega), List.nil_append, hrows, Nat.add_zero]
  have htext : w.rebuildDisplay.textEdit = .setPlainText (joinLines (w.rebuildLines 0 [])) := rfl
  rw [htext, hlines, TextEdit.setPlainText_joinLines (rowLike_streamRows _ _ _ _)]

theorem InStep.formatted_eq (h : InStep s w) : w.formattedOffset = kBytesPerRow * (w.buffer.length / kBytesPerRow) := by
  obtain ⟨n, hn⟩ := h.formatted_dvd
  have hle := h.formatted_le
  have hlt := h.rest_lt
  simp only [kBytesPerRow] at *
  omega

theorem InStep.document (h : InStep s w) :
    w.textEdit = .ofLines (streamRows s w.grouping w.droppedByteCount (w.buffer.length / kBytesPerRow)) :=
  h.rebuilt.symm.trans (rebuildDisplay_textEdit h.suffix h.formatted_eq (Nat.le_trans h.formatted_le h.capped))

/-- It is enough that the document is that of the rows. -/
theorem inStep_of_document (hsuffix : w.buffer = s.drop w.droppedByteCount) (hle : w.droppedByteCount ≤ s.length)
    (hdvd : kBytesPerRow ∣ w.droppedByteCount) (hformatted : w.formattedOffset = kBytesPerRow * (w.buffer.length / kBytesPerRow))
    (hcapped : w.buffer.length ≤ kMaxBufferedBytes)
    (hdocument : w.textEdit = .ofLines (streamRows s w.grouping w.droppedByteCount (w.buffer.length / kBytesPerRow))) :
    InStep s w where
  suffix := hsuffix
  dropped_le := hle
  dropped_dvd := hdvd
  formatted_dvd := ⟨_, hformatted⟩
  formatted_le := by
    simp only [kBytesPerRow] at *
    omega
  rest_lt := by
    simp only [kBytesPerRow] at *
    omega
  capped := hcapped
  shown := by rw [hdocument, TextEdit.lines_ofLines (rowLike_streamRows _ _ _ _)]
  rebuilt := by
    rw [hdocument]
    refine rebuildDisplay_textEdit hsuffix hformatted ?_
    simp only [kBytesPerRow] at *
    omega

/-! ## One event -/

theorem inStep_clear (w : HexDumpWidget) : InStep [] w.clear :=
  inStep_of_document rfl (Nat.zero_le _) (Nat.dvd_zero _) (by simp [clear]) (Nat.zero_le _)
    (by simp [clear, streamRows, TextEdit.ofLines])

theorem inStep_setGrouping (h : InStep s w) (grouping : Grouping) : InStep s (w.setGrouping grouping) := by
  unfold setGrouping
  split
  · exact h
  · refine inStep_of_document h.suffix h.dropped_le h.dropped_dvd h.formatted_eq h.capped ?_
    exact rebuildDisplay_textEdit (w := { w with grouping := grouping }) h.suffix h.formatted_eq (Nat.le_trans h.formatted_le h.capped)

/-- The dump once the new bytes are in its buffer. -/
def grown (w : HexDumpWidget) (data : List UInt8) : HexDumpWidget :=
  { w with buffer := w.buffer ++ data }

/-- The new rows of `appendData`. -/
def newRows (w : HexDumpWidget) (data : List UInt8) : List Line :=
  (List.range ((w.buffer.length + data.length) / kBytesPerRow - w.buffer.length / kBytesPerRow)).map fun k =>
    (w.grown data).rowAt (w.formattedOffset + kBytesPerRow * k)

theorem length_newRows (w : HexDumpWidget) (data : List UInt8) :
    (w.newRows data).length = (w.buffer.length + data.length) / kBytesPerRow - w.buffer.length / kBytesPerRow := by
  rw [newRows, List.length_map, List.length_range]

theorem rowLike_appended (s : List UInt8) (n : Nat) (w : HexDumpWidget) (data : List UInt8) :
    TextEdit.RowLike (streamRows s w.grouping w.droppedByteCount n ++ w.newRows data) :=
  (rowLike_streamRows _ _ _ _).append (rowLike_map_formatRow _ _ _ _)

/-- `appendData` shows its new rows behind those that are there, and trims. -/
theorem appendData_eq (h : InStep s w) (hdata : data ≠ []) :
    w.appendData data = trim { w.grown data with
      formattedOffset := kBytesPerRow * ((w.buffer.length + data.length) / kBytesPerRow)
      textEdit := .ofLines (streamRows s w.grouping w.droppedByteCount (w.buffer.length / kBytesPerRow) ++ w.newRows data) } := by
  have hformatted := h.formatted_eq
  have hrows : ((w.grown data).buffer.length - (w.grown data).formattedOffset) / kBytesPerRow =
      (w.buffer.length + data.length) / kBytesPerRow - w.buffer.length / kBytesPerRow := by
    simp only [grown, List.length_append, hformatted, kBytesPerRow]
    omega
  have hoffset : w.formattedOffset + kBytesPerRow * ((w.buffer.length + data.length) / kBytesPerRow - w.buffer.length / kBytesPerRow) =
      kBytesPerRow * ((w.buffer.length + data.length) / kBytesPerRow) := by
    simp only [hformatted, kBytesPerRow]
    omega
  have hnew : (w.grown data).formatRows [] =
      ({ w.grown data with formattedOffset := kBytesPerRow * ((w.buffer.length + data.length) / kBytesPerRow) }, w.newRows data) := by
    rw [formatRows_eq, hrows, List.nil_append]
    exact Prod.ext (congrArg (fun offset => { w.grown data with formattedOffset := offset }) hoffset) rfl
  rw [appendData, if_neg hdata, ← grown, hnew]
  simp only
  congr 1
  split
  · rename_i hsome
    have hshown := TextEdit.appendPlainText_joinLines (rowLike_streamRows s w.grouping w.droppedByteCount (w.buffer.length / kBytesPerRow))
      (rowLike_map_formatRow w.grouping _ _ _ : TextEdit.RowLike (w.newRows data)) hsome
    rw [← h.document] at hshown
    exact congrArg (fun textEdit => HexDumpWidget.mk textEdit _ _ _ _) hshown
  · rename_i hnone
    rw [not_not.mp hnone, List.append_nil, ← h.document]
    rfl

/-- The bytes that are trimmed: whole rows, just enough of them. -/
def bytesToTrim (total : Nat) : Nat := kBytesPerRow * ((total - kMaxBufferedBytes + kBytesPerRow - 1) / kBytesPerRow)

theorem exists_rows {total : Nat} (h : kMaxBufferedBytes < total) :
    ∃ rows, bytesToTrim total = kBytesPerRow * rows ∧ total ≤ kMaxBufferedBytes + kBytesPerRow * rows ∧
      kBytesPerRow * rows + kBytesPerRow ≤ total := by
  refine ⟨_, rfl, ?_⟩
  simp only [kMaxBufferedBytes, kBytesPerRow] at *
  omega

/-- What `trim` does once all complete rows are formatted. -/
theorem trim_eq (hformatted : w.formattedOffset = kBytesPerRow * (w.buffer.length / kBytesPerRow))
    (h : kMaxBufferedBytes < w.buffer.length) :
    w.trim = { w with
      buffer := removeFront w.buffer (toInt (bytesToTrim w.buffer.length))
      droppedByteCount := w.droppedByteCount + bytesToTrim w.buffer.length
      formattedOffset := w.formattedOffset - bytesToTrim w.buffer.length
      textEdit := w.textEdit.removeFirstBlocks (bytesToTrim w.buffer.length / kBytesPerRow) } := by
  have hmin : min ((w.buffer.length - kMaxBufferedBytes + kBytesPerRow - 1) / kBytesPerRow * kBytesPerRow) w.formattedOffset =
      bytesToTrim w.buffer.length := by
    simp only [bytesToTrim, kMaxBufferedBytes, kBytesPerRow] at *
    omega
  have hpos : bytesToTrim w.buffer.length > 0 := by
    simp only [bytesToTrim, kMaxBufferedBytes, kBytesPerRow] at *
    omega
  rw [trim, if_pos h]
  simp only [hmin, if_pos hpos]

/-- The condition on an append: every offset fits the `int` it is cast to. -/
def fits (w : HexDumpWidget) (data : List UInt8) : Prop := w.buffer.length + data.length < 2 ^ 31 + kBytesPerRow

theorem InStep.grown_buffer (h : InStep s w) : w.buffer ++ data = (s ++ data).drop w.droppedByteCount := by
  rw [List.drop_append_of_le_length h.dropped_le, ← h.suffix]

/-- The rows shown before, and the new ones, are those of the longer stream. -/
theorem rows_appended (h : InStep s w) (hfits : w.fits data) :
    streamRows s w.grouping w.droppedByteCount (w.buffer.length / kBytesPerRow) ++ w.newRows data =
      streamRows (s ++ data) w.grouping w.droppedByteCount ((w.buffer.length + data.length) / kBytesPerRow) := by
  have hformatted := h.formatted_eq
  have hlength : w.buffer.length = s.length - w.droppedByteCount := by rw [h.suffix, List.length_drop]
  have hle := h.dropped_le
  have hsplit : (w.buffer.length + data.length) / kBytesPerRow = w.buffer.length / kBytesPerRow +
      ((w.buffer.length + data.length) / kBytesPerRow - w.buffer.length / kBytesPerRow) := by
    simp only [kBytesPerRow]
    omega
  have hnew : w.newRows data = streamRows (s ++ data) w.grouping (w.droppedByteCount + w.formattedOffset)
      ((w.buffer.length + data.length) / kBytesPerRow - w.buffer.length / kBytesPerRow) := by
    refine rowAt_rows h.grown_buffer w.formattedOffset _ ?_
    simp only [fits, kBytesPerRow] at *
    omega
  have hold : streamRows (s ++ data) w.grouping w.droppedByteCount (w.buffer.length / kBytesPerRow) =
      streamRows s w.grouping w.droppedByteCount (w.buffer.length / kBytesPerRow) := by
    refine streamRows_more s w.grouping w.droppedByteCount _ data ?_
    simp only [kBytesPerRow] at *
    omega
  rw [hsplit, streamRows_add, hold, hnew, hformatted]

theorem inStep_appendData (h : InStep s w) (hfits : w.fits data) : InStep (s ++ data) (w.appendData data) := by
  by_cases hdata : data = []
  · rw [hdata, appendData, if_pos rfl, List.append_nil]
    exact h
  have hlength : w.buffer.length + data.length = (s ++ data).length - w.droppedByteCount := by
    rw [← List.length_drop, ← h.grown_buffer, List.length_append]
  have hle : w.droppedByteCount ≤ (s ++ data).length := by
    have := h.dropped_le
    rw [List.length_append]
    omega
  rw [appendData_eq h hdata, rows_appended h hfits]
  by_cases hcap : kMaxBufferedBytes < w.buffer.length + data.length
  · rw [trim_eq (by simp only [grown, List.length_append]) (by simpa only [grown, List.length_append] using hcap)]
    simp only [grown, List.length_append, TextEdit.removeFirstBlocks_ofLines]
    generalize htotal : w.buffer.length + data.length = total at *
    obtain ⟨rows, htrim, hleast, hmost⟩ := exists_rows hcap
    have hint : (toInt (bytesToTrim total)).toNat = kBytesPerRow * rows := by
      rw [htrim, toInt_eq (by simp only [fits, kBytesPerRow, htotal] at *; omega), Int.toNat_natCast]
    have hleft : (removeFront (w.buffer ++ data) (toInt (bytesToTrim total))).length = total - kBytesPerRow * rows := by
      rw [removeFront, hint, List.length_drop, List.length_append, htotal]
    have hshown : total / kBytesPerRow = rows + (total - kBytesPerRow * rows) / kBytesPerRow := by
      simp only [kBytesPerRow] at *
      omega
    refine inStep_of_document ?_ ?_ ?_ ?_ ?_ ?_
    · simp only [removeFront, hint, h.grown_buffer, List.drop_drop]
      rw [htrim]
    · simp only [htrim, kBytesPerRow] at *
      omega
    · exact Nat.dvd_add h.dropped_dvd ⟨rows, htrim⟩
    · rw [hleft, htrim]
      simp only [kBytesPerRow] at *
      omega
    · rw [hleft]
      exact Nat.sub_le_iff_le_add.mpr hleast
    · have hdrop : bytesToTrim total / kBytesPerRow = rows := by
        rw [htrim, Nat.mul_div_cancel_left rows (by decide)]
      simp only [hleft, hdrop]
      rw [hshown, drop_streamRows, htrim]
  · have htotal : (w.buffer ++ data).length = w.buffer.length + data.length := List.length_append
    rw [trim, if_neg (by rw [grown, htotal]; exact hcap)]
    refine inStep_of_document h.grown_buffer hle h.dropped_dvd ?_ ?_ ?_
    · simp only [grown, htotal]
    · simp only [grown, htotal]
      omega
    · simp only [grown, htotal]

/-! ## An append that does not fit -/

/-- The last row of a chunk that does not fit is formatted without its bytes. -/
theorem newRows_getLast? (h : InStep s w) (hlong : 2 ^ 31 + kBytesPerRow ≤ w.buffer.length + data.length)
    (hshort : w.buffer.length + data.length < 2 ^ 32) :
    (w.newRows data).getLast? =
      some (formatRow (w.droppedByteCount + (kBytesPerRow * ((w.buffer.length + data.length) / kBytesPerRow) - kBytesPerRow)) [] w.grouping) := by
  have hcapped := h.capped
  have hformatted := h.formatted_eq
  obtain ⟨n, hn⟩ : ∃ n, (w.buffer.length + data.length) / kBytesPerRow - w.buffer.length / kBytesPerRow = n + 1 := by
    refine ⟨(w.buffer.length + data.length) / kBytesPerRow - w.buffer.length / kBytesPerRow - 1, ?_⟩
    simp only [kMaxBufferedBytes, kBytesPerRow] at *
    omega
  have hoffset : w.formattedOffset + kBytesPerRow * n =
      kBytesPerRow * ((w.buffer.length + data.length) / kBytesPerRow) - kBytesPerRow := by
    simp only [kBytesPerRow] at *
    omega
  have hmid : mid (w.buffer ++ data) (toInt (w.formattedOffset + kBytesPerRow * n)) kBytesPerRow = [] := by
    have hneg : toInt (w.formattedOffset + kBytesPerRow * n) + kBytesPerRow ≤ 0 := by
      rw [hoffset]
      simp only [toInt, kBytesPerRow] at *
      omega
    have hrow : (0 : Int) < kBytesPerRow := by decide
    rw [mid, if_pos (by omega), Int.toNat_of_nonpos hneg, List.take_zero]
  rw [newRows, hn, List.range_succ, List.map_append, List.map_singleton, List.getLast?_append_cons, List.getLast?_singleton,
    rowAt, grown, hmid, hoffset]

/-- A chunk past the cap leaves this. -/
theorem appendData_trimmed (h : InStep s w) (hdata : data ≠ []) (hcap : kMaxBufferedBytes < w.buffer.length + data.length) :
    (w.appendData data).buffer = removeFront (w.buffer ++ data) (toInt (bytesToTrim (w.buffer.length + data.length))) ∧
      (w.appendData data).droppedByteCount = w.droppedByteCount + bytesToTrim (w.buffer.length + data.length) ∧
      (w.appendData data).grouping = w.grouping ∧
      (w.appendData data).textEdit = .ofLines
        ((streamRows s w.grouping w.droppedByteCount (w.buffer.length / kBytesPerRow) ++ w.newRows data).drop
          (bytesToTrim (w.buffer.length + data.length) / kBytesPerRow)) := by
  rw [appendData_eq h hdata, trim_eq (by simp only [grown, List.length_append])
    (by simpa only [grown, List.length_append] using hcap)]
  simp only [grown, List.length_append, TextEdit.removeFirstBlocks_ofLines, and_self]

/-- Past the range of an `int` the dump shows a row that is not there, or keeps more bytes than the cap. -/
theorem not_inStep_appendData (h : InStep s w) (hfits : ¬ w.fits data) : ¬ InStep (s ++ data) (w.appendData data) := by
  have hcapped := h.capped
  have hlong : 2 ^ 31 + kBytesPerRow ≤ w.buffer.length + data.length := Nat.le_of_not_lt hfits
  have hdata : data ≠ [] := by
    rintro rfl
    simp only [kMaxBufferedBytes, kBytesPerRow, List.length_nil] at *
    omega
  have hcap : kMaxBufferedBytes < w.buffer.length + data.length := by
    simp only [kMaxBufferedBytes, kBytesPerRow] at *
    omega
  obtain ⟨hbuffer, hdropped, hgrouping, hdocument⟩ := appendData_trimmed h hdata hcap
  obtain ⟨rows, htrim, hleast, hmost⟩ := exists_rows hcap
  intro hin
  by_cases hint : kBytesPerRow * rows < 2 ^ 31
  · -- the trimming works, and what is left ends with the row that was not read
    have hshort : w.buffer.length + data.length < 2 ^ 32 := by
      simp only [kMaxBufferedBytes] at *
      omega
    have hkept : (w.appendData data).buffer.length = w.buffer.length + data.length - kBytesPerRow * rows := by
      rw [hbuffer, htrim, toInt_eq hint, removeFront, Int.toNat_natCast, List.length_drop, List.length_append]
    obtain ⟨m, hm⟩ : ∃ m, (w.appendData data).buffer.length / kBytesPerRow = m + 1 := by
      refine ⟨(w.appendData data).buffer.length / kBytesPerRow - 1, ?_⟩
      rw [hkept]
      simp only [kBytesPerRow] at *
      omega
    have hlines : (w.appendData data).textEdit.lines =
        (streamRows s w.grouping w.droppedByteCount (w.buffer.length / kBytesPerRow) ++ w.newRows data).drop
          (bytesToTrim (w.buffer.length + data.length) / kBytesPerRow) := by
      rw [hdocument]
      exact TextEdit.lines_ofLines ((rowLike_appended s (w.buffer.length / kBytesPerRow) w data).drop _)
    have hnew := newRows_getLast? h hlong hshort
    have hlast : (w.appendData data).textEdit.lines.getLast? = (w.newRows data).getLast? := by
      have hlength : bytesToTrim (w.buffer.length + data.length) / kBytesPerRow <
          w.buffer.length / kBytesPerRow + ((w.buffer.length + data.length) / kBytesPerRow - w.buffer.length / kBytesPerRow) := by
        rw [htrim, Nat.mul_div_cancel_left rows (by decide)]
        simp only [kBytesPerRow] at *
        omega
      rw [hlines, List.getLast?_drop, if_neg (by rw [List.length_append, length_streamRows, length_newRows]; exact Nat.not_le_of_lt hlength),
        List.getLast?_append, hnew, Option.some_or]
    have hread := hin.shown
    rw [hm] at hread
    rw [hread, streamRows_getLast?, hnew, hgrouping, Option.some.injEq] at hlast
    have hoffset : (w.appendData data).droppedByteCount + kBytesPerRow * m =
        w.droppedByteCount + (kBytesPerRow * ((w.buffer.length + data.length) / kBytesPerRow) - kBytesPerRow) := by
      rw [hdropped, htrim]
      rw [hkept] at hm
      simp only [kBytesPerRow] at *
      omega
    rw [hoffset] at hlast
    refine formatRow_ne_empty _ ?_ w.grouping hlast
    have hstream : w.buffer.length + data.length = (s ++ data).length - w.droppedByteCount := by
      rw [← List.length_drop, ← h.grown_buffer, List.length_append]
    rw [rowBytesAt, List.length_take, List.length_drop]
    simp only [kBytesPerRow] at *
    omega
  · -- the number of bytes to trim does not fit, and too many stay
    have hfew : (toInt (kBytesPerRow * rows)).toNat + kMaxBufferedBytes < w.buffer.length + data.length := by
      simp only [toInt, kMaxBufferedBytes, kBytesPerRow] at *
      omega
    have hkept := hin.capped
    rw [hbuffer, htrim, removeFront, List.length_drop, List.length_append] at hkept
    omega

/-! ## Runs -/

/-- The bytes received since the last clear. -/
def received (events : List Event) : List UInt8 :=
  events.foldl (fun s event => match event with
    | .appendData data => s ++ data
    | .setGrouping _ => s
    | .clear => []) []

theorem inStep_opened : InStep [] {} :=
  inStep_of_document rfl (Nat.zero_le _) (Nat.dvd_zero _) (by simp) (Nat.zero_le _) (by simp [streamRows, TextEdit.ofLines])

/-- One event keeps the dump in step, if and only if it is no append that does not fit. -/
theorem inStep_handle_iff {events : List Event} (h : InStep (received events) w) (event : Event) :
    InStep (received (events ++ [event])) (w.handle event) ↔ ∀ data, event = .appendData data → w.fits data := by
  rw [received, List.foldl_append, ← received]
  cases event with
  | appendData data =>
    constructor
    · intro hin _ heq
      cases heq
      exact of_not_not fun hfits => not_inStep_appendData h hfits hin
    · intro hfits
      exact inStep_appendData h (hfits data rfl)
  | setGrouping grouping => exact iff_of_true (inStep_setGrouping h grouping) nofun
  | clear => exact iff_of_true (inStep_clear w) nofun

/-- A new dump is in step with what it received, after any events, if and only if no append takes its buffer past the range
of an `int`. -/
theorem inStep_iff (events : List Event) :
    (∀ past, past <+: events → InStep (received past) (past.foldl handle {})) ↔
      ∀ past data, past ++ [.appendData data] <+: events → (past.foldl handle {}).fits data := by
  induction events using List.reverseRecOn with
  | nil =>
    refine iff_of_true (fun past hpast => ?_) fun past data hpast => ?_
    · rw [List.prefix_nil.mp hpast]
      exact inStep_opened
    · exact absurd (List.prefix_nil.mp hpast) (by simp)
  | append_singleton events event ih =>
    constructor
    · intro hall past data hpast
      have hpresent : InStep (received (past ++ [Event.appendData data])) ((past ++ [Event.appendData data]).foldl handle {}) := hall _ hpast
      rw [List.foldl_append] at hpresent
      exact (inStep_handle_iff (hall past ((List.prefix_append _ _).trans hpast)) _).mp hpresent data rfl
    · intro hfits past hpast
      have hbefore := ih.mpr fun past data hpast => hfits past data (hpast.trans (List.prefix_append _ _))
      rcases List.prefix_concat_iff.mp hpast with rfl | hpast
      · rw [List.foldl_append]
        refine (inStep_handle_iff (hbefore events (List.prefix_refl _)) event).mpr fun data hdata => ?_
        exact hfits events data (hdata ▸ List.prefix_refl _)
      · exact hbefore past hpast

theorem long_chunk_not_in_step {data : List UInt8} (h : 2 ^ 31 + kBytesPerRow ≤ data.length) :
    ¬ InStep (received [.appendData data]) ([Event.appendData data].foldl handle {}) := by
  have hfits : ¬ ({} : HexDumpWidget).fits data := by
    rw [fits]
    exact Nat.not_lt_of_le (Nat.le_trans h (Nat.le_add_left _ _))
  exact not_inStep_appendData inStep_opened hfits

/-- One chunk of `2 ^ 31 + 16` bytes. -/
theorem huge_chunk_not_in_step : ¬ InStep (received [.appendData (List.replicate (2 ^ 31 + 16) 0)])
    ([Event.appendData (List.replicate (2 ^ 31 + 16) 0)].foldl handle {}) :=
  long_chunk_not_in_step (Nat.le_of_eq List.length_replicate.symm)

end HexDumpWidget

end LvdTerm.Terminal
