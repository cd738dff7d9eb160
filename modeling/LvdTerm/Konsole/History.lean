import LvdTerm.Lib.CArray
import LvdTerm.Lib.Ring
import LvdTerm.Konsole.Character

/-!
# History: the lines that scrolled off

`HistoryScrollBuffer`, the ring of lines that the sessions use, and `HistoryScrollNone`, which the second screen has. The history in
a file, in blocks and in compact blocks are left out: no session asks for them.
-/
namespace LvdTerm.Konsole

open LvdTerm.Lib

/-! ## HistoryScrollBuffer -/

structure HistoryScrollBuffer where
  historyBuffer : List ImageLine
  wrappedLine : List Bool
  maxLineCount : Nat
  usedLines : Nat
  head : Int
  deriving Repr

/-- `memset(buffer, 0, …)` -/
def zeroChar : Character := ⟨0, 0, .undefined, .undefined, 0⟩

namespace HistoryScrollBuffer

def bufferIndex (lineNumber : Int) (b : HistoryScrollBuffer) : Option Int :=
  if b.usedLines = b.maxLineCount then
    if b.maxLineCount = 0 then none else some ((b.head + lineNumber + 1).tmod b.maxLineCount)
  else some lineNumber

/-- The lines `newBuffer[i] = oldBuffer[bufferIndex(i)]` for `i` below `count`. -/
def copied (b : HistoryScrollBuffer) : Nat → Option (List ImageLine)
  | 0 => some []
  | count + 1 => do
    let lines ← b.copied count
    let index ← b.bufferIndex count
    let line ← CArray.get b.historyBuffer index
    return lines ++ [line]

/-- `QBitArray::resize` -/
def resizeBits (n : Nat) (bits : List Bool) : List Bool := bits.take n ++ List.replicate (n - bits.length) false

def setMaxNbLines (lineCount : Nat) (b : HistoryScrollBuffer) : Option HistoryScrollBuffer := do
  let usedLines := min b.usedLines lineCount
  let lines ← b.copied usedLines
  return {
    historyBuffer := lines ++ List.replicate (lineCount - usedLines) []
    wrappedLine := resizeBits lineCount b.wrappedLine
    maxLineCount := lineCount
    usedLines := usedLines
    head := if usedLines = lineCount then 0 else usedLines - 1 }

/-- The constructor, before it calls `setMaxNbLines`. -/
def unsized : HistoryScrollBuffer := ⟨[], [], 0, 0, 0⟩

def new (maxLineCount : Nat) : Option HistoryScrollBuffer := unsized.setMaxNbLines maxLineCount

def addCellsVector (cells : ImageLine) (b : HistoryScrollBuffer) : Option HistoryScrollBuffer := do
  let usedLines := if b.usedLines < b.maxLineCount then b.usedLines + 1 else b.usedLines
  let head := if b.head + 1 ≥ b.maxLineCount then 0 else b.head + 1
  let b := { b with usedLines := usedLines, head := head }
  let index ← b.bufferIndex (usedLines - 1)
  let historyBuffer ← CArray.put b.historyBuffer index cells
  let wrappedLine ← CArray.put b.wrappedLine index false
  return { b with historyBuffer := historyBuffer, wrappedLine := wrappedLine }

def addLine (previousWrapped : Bool) (b : HistoryScrollBuffer) : Option HistoryScrollBuffer := do
  let index ← b.bufferIndex (b.usedLines - 1)
  let wrappedLine ← CArray.put b.wrappedLine index previousWrapped
  return { b with wrappedLine := wrappedLine }

def getLineLen (lineNumber : Int) (b : HistoryScrollBuffer) : Option Nat :=
  if lineNumber < b.usedLines then do
    let index ← b.bufferIndex lineNumber
    return (← CArray.get b.historyBuffer index).length
  else some 0

def isWrappedLine (lineNumber : Int) (b : HistoryScrollBuffer) : Option Bool :=
  if lineNumber < b.usedLines then do
    let index ← b.bufferIndex lineNumber
    CArray.get b.wrappedLine index
  else some false

/-- The cells that are copied; none where the copy would leave the line. -/
def getCells (lineNumber : Int) (startColumn count : Nat) (b : HistoryScrollBuffer) : Option (List Character) :=
  if count = 0 then some []
  else if lineNumber ≥ b.usedLines then some (List.replicate count zeroChar)
  else do
    let index ← b.bufferIndex lineNumber
    let line ← CArray.get b.historyBuffer index
    if startColumn + count ≤ line.length then some ((line.drop startColumn).take count) else none

end HistoryScrollBuffer

/-! ## HistoryScroll -/

inductive HistoryScroll where
  | none
  | buffer (b : HistoryScrollBuffer)
  deriving Repr

inductive HistoryType where
  | none
  | buffer (nbLines : Nat)
  deriving DecidableEq, Repr

namespace HistoryScroll

def hasScroll : HistoryScroll → Bool
  | none => false
  | buffer _ => true

def getType : HistoryScroll → HistoryType
  | none => .none
  | buffer b => .buffer b.maxLineCount

def getLines : HistoryScroll → Nat
  | none => 0
  | buffer b => b.usedLines

def getLineLen (lineNumber : Int) : HistoryScroll → Option Nat
  | none => some 0
  | buffer b => b.getLineLen lineNumber

def isWrappedLine (lineNumber : Int) : HistoryScroll → Option Bool
  | none => some false
  | buffer b => b.isWrappedLine lineNumber

/-- What is in the destination afterwards; `HistoryScrollNone` leaves it as it is. -/
def getCells (lineNumber : Int) (startColumn count : Nat) : HistoryScroll → Option (List Character)
  | none => some []
  | buffer b => b.getCells lineNumber startColumn count

def addCellsVector (cells : ImageLine) : HistoryScroll → Option HistoryScroll
  | none => some none
  | buffer b => (b.addCellsVector cells).map buffer

def addLine (previousWrapped : Bool) : HistoryScroll → Option HistoryScroll
  | none => some none
  | buffer b => (b.addLine previousWrapped).map buffer

end HistoryScroll

/-- `HistoryType::scroll`; `old` is the history whose lines are taken over. -/
def HistoryType.scroll (old : Option HistoryScroll) : HistoryType → Option HistoryScroll
  | .none => some .none
  | .buffer nbLines =>
    match old with
    | some (.buffer b) => (b.setMaxNbLines nbLines).map .buffer
    | _ => (HistoryScrollBuffer.new nbLines).map .buffer

/-! ## The lines in the ring -/

namespace HistoryScrollBuffer

/-- A line of the history, and whether it goes on in the next one. -/
abbrev Row := ImageLine × Bool

/-- The ring has these rows, from the oldest. -/
structure Keeps (b : HistoryScrollBuffer) (rows : List Row) : Prop where
  lines : Ring.Holds b.maxLineCount b.usedLines b.head b.historyBuffer (rows.map Prod.fst)
  flags : Ring.Holds b.maxLineCount b.usedLines b.head b.wrappedLine (rows.map Prod.snd)

variable {b b' : HistoryScrollBuffer} {rows : List Row} {row : Row} {i n : Nat}

theorem Keeps.used (h : b.Keeps rows) : b.usedLines = rows.length := by rw [h.lines.count, List.length_map]

theorem Keeps.bufferIndex (h : b.Keeps rows) (i : Nat) :
    b.bufferIndex i = some (Ring.slot b.maxLineCount b.usedLines b.head i) := by
  have hpositive := h.lines.positive
  unfold HistoryScrollBuffer.bufferIndex Ring.slot
  split
  next hfull =>
    obtain ⟨hhead, -⟩ := h.lines.full (by rw [← h.lines.count, hfull])
    rw [if_neg (by omega), Int.tmod_eq_emod_of_nonneg (by omega)]
  next => rfl

theorem Keeps.reads (h : b.Keeps rows) (hi : i < rows.length) :
    ∃ index, b.bufferIndex i = some index ∧ CArray.get b.historyBuffer index = (rows[i]?).map Prod.fst ∧
      CArray.get b.wrappedLine index = (rows[i]?).map Prod.snd := by
  have hslot := h.lines.slot_lt (i := i) (by rwa [List.length_map])
  have hline := h.lines.reads i (by rwa [List.length_map])
  have hflag := h.flags.reads i (by rwa [List.length_map])
  refine ⟨_, h.bufferIndex i, ?_, ?_⟩
  · rw [CArray.get, if_pos hslot.1, hline, List.getElem?_map]
  · rw [CArray.get, if_pos hslot.1, hflag, List.getElem?_map]

theorem Keeps.getLineLen (h : b.Keeps rows) (hi : i < rows.length) : b.getLineLen i = some rows[i].1.length := by
  obtain ⟨index, hindex, hline, -⟩ := h.reads hi
  have hused := h.used
  rw [HistoryScrollBuffer.getLineLen, if_pos (by omega), hindex, Option.bind_eq_bind, Option.bind_some, hline,
    List.getElem?_eq_getElem hi]
  rfl

theorem Keeps.isWrappedLine (h : b.Keeps rows) (hi : i < rows.length) : b.isWrappedLine i = some rows[i].2 := by
  obtain ⟨index, hindex, -, hflag⟩ := h.reads hi
  have hused := h.used
  rw [HistoryScrollBuffer.isWrappedLine, if_pos (by omega), hindex, Option.bind_eq_bind, Option.bind_some, hflag,
    List.getElem?_eq_getElem hi]
  rfl

theorem Keeps.getCells (h : b.Keeps rows) (hi : i < rows.length) {start count : Nat} (hfits : start + count ≤ rows[i].1.length) :
    b.getCells i start count = some ((rows[i].1.drop start).take count) := by
  obtain ⟨index, hindex, hline, -⟩ := h.reads hi
  have hused := h.used
  unfold HistoryScrollBuffer.getCells
  by_cases hzero : count = 0
  · rw [if_pos hzero, hzero, List.take_zero]
  · rw [if_neg hzero, if_neg (by omega), hindex, Option.bind_eq_bind, Option.bind_some, hline, List.getElem?_eq_getElem hi]
    exact if_pos hfits

/-- A line that is added, with its flag. -/
def addRow (row : Row) (b : HistoryScrollBuffer) : Option HistoryScrollBuffer :=
  (b.addCellsVector row.1).bind (addLine row.2)

theorem Keeps.newest (h : b.Keeps rows) (hne : rows ≠ []) : b.bufferIndex (b.usedLines - 1) = some b.head := by
  have hpos := List.length_pos_iff.mpr hne
  have hused := h.used
  have hlast : (b.usedLines : Int) - 1 = (b.usedLines - 1 : Nat) := by omega
  rw [hlast, h.bufferIndex, h.lines.slot_newest (by simpa using hne)]

theorem Keeps.head_range (h : b.Keeps rows) (hne : rows ≠ []) : 0 ≤ b.head ∧ b.head < b.maxLineCount := by
  have hpos := List.length_pos_iff.mpr hne
  have hslot := h.lines.slot_lt (i := rows.length - 1) (by rw [List.length_map]; omega)
  rwa [← h.used, h.lines.slot_newest (by simpa using hne)] at hslot

/-- The buffer with a new row at the place after the head. -/
def pushed (row : Row) (b : HistoryScrollBuffer) : HistoryScrollBuffer where
  historyBuffer := b.historyBuffer.set (Ring.advance b.maxLineCount b.head).toNat row.1
  wrappedLine := b.wrappedLine.set (Ring.advance b.maxLineCount b.head).toNat row.2
  maxLineCount := b.maxLineCount
  usedLines := min (b.usedLines + 1) b.maxLineCount
  head := Ring.advance b.maxLineCount b.head

theorem Keeps.pushed (h : b.Keeps rows) (row : Row) : (b.pushed row).Keeps (Ring.keepLast b.maxLineCount (rows ++ [row])) := by
  have hlines := h.lines.push row.1
  have hflags := h.flags.push row.2
  constructor
  · rw [Ring.map_keepLast, List.map_append]
    exact hlines
  · rw [Ring.map_keepLast, List.map_append]
    exact hflags

theorem Keeps.addCellsVector (h : b.Keeps rows) (cells : ImageLine) :
    b.addCellsVector cells = some (b.pushed (cells, false)) := by
  have hpositive := h.lines.positive
  have hfits := h.lines.fits
  have hused := h.used
  rw [List.length_map] at hfits
  have hcount : (if b.usedLines < b.maxLineCount then b.usedLines + 1 else b.usedLines) = min (b.usedLines + 1) b.maxLineCount := by
    split <;> omega
  have hadvance : (if b.head + 1 ≥ b.maxLineCount then 0 else b.head + 1) = Ring.advance b.maxLineCount b.head := rfl
  have hkept := h.pushed (cells, false)
  have hne : Ring.keepLast b.maxLineCount (rows ++ [(cells, false)]) ≠ [] := by
    apply List.ne_nil_of_length_pos
    rw [Ring.length_keepLast, List.length_append, List.length_singleton]
    omega
  obtain ⟨hnonneg, hlt⟩ := hkept.head_range hne
  have hindex := hkept.newest hne
  rw [HistoryScrollBuffer.addCellsVector]
  simp only [hcount, hadvance]
  have hplace : HistoryScrollBuffer.bufferIndex ((min (b.usedLines + 1) b.maxLineCount : Nat) - 1)
      { b with usedLines := min (b.usedLines + 1) b.maxLineCount, head := Ring.advance b.maxLineCount b.head } =
      some (Ring.advance b.maxLineCount b.head) := hindex
  have hsize := h.lines.size
  have hflags := h.flags.size
  change 0 ≤ Ring.advance b.maxLineCount b.head at hnonneg
  change Ring.advance b.maxLineCount b.head < b.maxLineCount at hlt
  rw [hplace, Option.bind_eq_bind, Option.bind_some, CArray.put, if_pos ⟨hnonneg, by omega⟩, Option.bind_eq_bind, Option.bind_some,
    CArray.put, if_pos ⟨hnonneg, by omega⟩]
  rfl

/-- A line that is added and then given its flag stands at the head. -/
theorem Keeps.addRow (h : b.Keeps rows) (row : Row) : b.addRow row = some (b.pushed row) := by
  have hpositive := h.lines.positive
  have hkept := h.pushed (row.1, false)
  have hne : Ring.keepLast b.maxLineCount (rows ++ [(row.1, false)]) ≠ [] := by
    apply List.ne_nil_of_length_pos
    rw [Ring.length_keepLast, List.length_append, List.length_singleton]
    omega
  obtain ⟨hnonneg, hlt⟩ := hkept.head_range hne
  have hsize := hkept.flags.size
  rw [HistoryScrollBuffer.addRow, h.addCellsVector, Option.bind_some, HistoryScrollBuffer.addLine, hkept.newest hne,
    Option.bind_eq_bind, Option.bind_some, CArray.put, if_pos ⟨hnonneg, by rw [hsize]; exact hlt⟩]
  simp only [Option.bind_some, HistoryScrollBuffer.pushed, List.set_set]
  rfl

def addRows : List Row → HistoryScrollBuffer → Option HistoryScrollBuffer
  | [], b => some b
  | row :: rows, b => (b.addRow row).bind (addRows rows)

theorem Keeps.addRows (h : b.Keeps rows) (more : List Row) :
    ∃ b', b.addRows more = some b' ∧ b'.maxLineCount = b.maxLineCount ∧ b'.Keeps (Ring.keepLast b.maxLineCount (rows ++ more)) := by
  induction more generalizing b rows with
  | nil =>
    have hfits := h.lines.fits
    rw [List.length_map] at hfits
    exact ⟨b, rfl, rfl, by rwa [List.append_nil, Ring.keepLast_of_le hfits]⟩
  | cons row more ih =>
    obtain ⟨b', hadd, hmax, hkeeps⟩ := ih (h.pushed row)
    refine ⟨b', by rw [HistoryScrollBuffer.addRows, h.addRow]; exact hadd, hmax, ?_⟩
    rwa [show (b.pushed row).maxLineCount = b.maxLineCount from rfl, Ring.keepLast_keepLast_append, List.append_assoc] at hkeeps

theorem new_keeps (hn : 0 < n) : ∃ b, new n = some b ∧ b.maxLineCount = n ∧ b.Keeps [] := by
  have hhead : (if min 0 n = n then (0 : Int) else (min 0 n : Nat) - 1) = -1 := by
    rw [Nat.zero_min, if_neg (by omega)]
    rfl
  have hnew : new n = some ⟨List.replicate n [], List.replicate n false, n, 0, -1⟩ := by
    rw [← hhead]
    simp [new, setMaxNbLines, unsized, copied, resizeBits]
  refine ⟨_, hnew, rfl, ?_, ?_⟩
  · exact Ring.holds_nil hn List.length_replicate
  · exact Ring.holds_nil hn List.length_replicate

/-- Whatever is added to a history of `n` lines, it has the last `n` of it, in order, each as it was added. -/
theorem history_has_last_lines (hn : 0 < n) (rows : List Row) :
    ∃ b, (new n).bind (addRows rows) = some b ∧ b.usedLines = min rows.length n ∧
      ∀ i < b.usedLines, ∃ row, rows[rows.length - n + i]? = some row ∧ b.getLineLen i = some row.1.length ∧
        b.isWrappedLine i = some row.2 ∧
        ∀ start count, start + count ≤ row.1.length → b.getCells i start count = some ((row.1.drop start).take count) := by
  obtain ⟨b, hnew, hmax, hempty⟩ := new_keeps hn
  obtain ⟨b', hadd, -, hkeeps⟩ := hempty.addRows rows
  rw [hmax, List.nil_append] at hkeeps
  have hused := hkeeps.used
  rw [Ring.length_keepLast] at hused
  refine ⟨b', by rw [hnew]; exact hadd, hused, fun i hi => ?_⟩
  have hin : i < (Ring.keepLast n rows).length := by rwa [Ring.length_keepLast, ← hused]
  refine ⟨(Ring.keepLast n rows)[i], ?_, hkeeps.getLineLen hin, hkeeps.isWrappedLine hin, fun start count => hkeeps.getCells hin⟩
  rw [← Ring.getElem?_keepLast, List.getElem?_eq_getElem hin]

theorem history_has_last_lines_three : ∃ b, (new 2).bind (addRows [([], true), ([nullChar], false), ([], false)]) = some b ∧
    b.usedLines = 2 ∧ ∀ i < b.usedLines, ∃ row, [([], true), ([nullChar], false), ([], false)][1 + i]? = some row ∧
      b.getLineLen i = some row.1.length ∧ b.isWrappedLine i = some row.2 ∧
      ∀ start count, start + count ≤ row.1.length → b.getCells i start count = some ((row.1.drop start).take count) :=
  history_has_last_lines (by decide) _

/-! ## Another number of lines -/

theorem Keeps.copied (h : b.Keeps rows) {count : Nat} (hcount : count ≤ rows.length) :
    b.copied count = some ((rows.take count).map Prod.fst) := by
  induction count with
  | zero => rfl
  | succ count ih =>
    obtain ⟨index, hindex, hline, -⟩ := h.reads (i := count) (by omega)
    rw [HistoryScrollBuffer.copied, ih (by omega), Option.bind_eq_bind, Option.bind_some, hindex, Option.bind_eq_bind,
      Option.bind_some, hline, List.getElem?_eq_getElem (by omega), List.take_succ, List.map_append,
      List.getElem?_eq_getElem (by omega)]
    rfl

def line (i : Nat) (b : HistoryScrollBuffer) : Option ImageLine := (b.bufferIndex i).bind (CArray.get b.historyBuffer)

/-- A resize keeps the oldest lines, not the newest. Where they fill the new ring the head is one place too far, and the lines are
read from the second on, with the first one last. -/
theorem resized_lines (h : b.Keeps rows) (hn : 0 < n) :
    ∃ b', b.setMaxNbLines n = some b' ∧ b'.usedLines = min rows.length n ∧
      ∀ i < b'.usedLines, b'.line i = ((if rows.length < n then rows else (rows.take n).rotate 1)[i]?).map Prod.fst := by
  have hused := h.used
  have hcopied := h.copied (Nat.min_le_left rows.length n)
  have hresized : b.setMaxNbLines n = some ⟨(rows.take (min rows.length n)).map Prod.fst ++ List.replicate (n - min rows.length n) [],
      resizeBits n b.wrappedLine, n, min rows.length n, if min rows.length n = n then 0 else (min rows.length n : Nat) - 1⟩ := by
    rw [setMaxNbLines, hused, hcopied]
    rfl
  refine ⟨_, hresized, rfl, fun i hi => ?_⟩
  change i < min rows.length n at hi
  unfold line HistoryScrollBuffer.bufferIndex
  simp only
  by_cases hroom : rows.length < n
  · rw [if_neg (by omega), if_pos hroom, Option.bind_some, CArray.get_natCast, Nat.min_eq_left (by omega), List.take_length,
      List.getElem?_append_left (by rw [List.length_map]; omega), List.getElem?_map]
  · rw [if_pos (by omega), if_neg (by omega), if_neg hroom, Option.bind_some, Nat.min_eq_right (by omega), if_pos rfl,
      Int.zero_add, Int.tmod_eq_emod_of_nonneg (by omega), ← Int.natCast_succ, ← Int.natCast_emod, CArray.get_natCast,
      List.getElem?_append_left, List.getElem?_map, List.getElem?_rotate, List.length_take, Nat.min_eq_left (by omega)]
    · rw [List.length_take]
      omega
    · rw [List.length_map, List.length_take, Nat.min_eq_left (by omega)]
      exact Nat.mod_lt _ hn

theorem resized_lines_two : ∃ b', HistoryScrollBuffer.setMaxNbLines 2 ⟨[[nullChar], [defaultChar], []], [false, false, false], 3, 2, 1⟩ =
    some b' ∧ b'.usedLines = 2 ∧ ∀ i < b'.usedLines, b'.line i =
      ((if 2 < 2 then [([nullChar], false), ([defaultChar], false)] else
        ([([nullChar], false), ([defaultChar], false)].take 2).rotate 1)[i]?).map Prod.fst := by
  have hkeeps : Keeps ⟨[[nullChar], [defaultChar], []], [false, false, false], 3, 2, 1⟩ [([nullChar], false), ([defaultChar], false)] :=
    ⟨⟨rfl, by decide, rfl, by decide, fun _ => rfl, by decide, by decide⟩, ⟨rfl, by decide, rfl, by decide, fun _ => rfl, by decide, by decide⟩⟩
  exact resized_lines hkeeps (by decide)

end HistoryScrollBuffer

end LvdTerm.Konsole
