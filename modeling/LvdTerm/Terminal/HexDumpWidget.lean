import Mathlib.Algebra.Ring.Nat
import Mathlib.Algebra.Ring.Int.Defs
import Mathlib.Data.List.Basic

/-!
# HexDumpWidget: a growing hex dump

The bytes kept, the two offsets and the text edit, as `appendData`, `clear` and `setGrouping` leave them. Finding, the
scroll position and the context menu are left out.
-/
namespace LvdTerm.Terminal

/-- A line of text, without its end. -/
abbrev Line := List Char

/-- `HexDumpWidget::Grouping` -/
inductive Grouping where
  | byte | word | dword
  deriving DecidableEq, Repr

def Grouping.size : Grouping → Nat
  | .byte => 1
  | .word => 2
  | .dword => 4

/-! ## Rows -/

def kMaxBufferedBytes : Nat := 1 * 1024 * 1024

def kBytesPerRow : Nat := 16

/-- `QStringLiteral("%1").arg(n, width, 16, '0').toUpper()` -/
def upperHex (n width : Nat) : Line := (List.leftpad width '0' (Nat.toDigits 16 n)).map Char.toUpper

def hexPartOnly (rowBytes : List UInt8) (grouping : Grouping) : Line :=
  rowBytes.zipIdx.flatMap fun (b, i) =>
    let isLastByte := i = rowBytes.length - 1
    upperHex b.toNat 2 ++ if ¬ isLastByte ∧ (i + 1) % grouping.size = 0 then [' '] else []

def fullRowHexWidth (grouping : Grouping) : Nat := (hexPartOnly (List.replicate 16 0) grouping).length

def asciiPart (rowBytes : List UInt8) : Line :=
  rowBytes.map fun b => if 0x20 ≤ b ∧ b < 0x7f then Char.ofNat b.toNat else '.'

def formatRow (offset : Nat) (rowBytes : List UInt8) (grouping : Grouping) : Line :=
  let hexPart := List.rightpad (fullRowHexWidth grouping) ' ' (hexPartOnly rowBytes grouping)
  upperHex offset 8 ++ [' ', ' '] ++ hexPart ++ [' ', ' ', '|'] ++ asciiPart rowBytes ++ ['|']

example : String.ofList (formatRow 0x1a0 [0x4c, 0x76, 0x64, 0x00, 0xff] .word) =
    "000001A0  4C76 6400 FF                             |Lvd..|" := by decide

/-! ## Qt -/

/-- `static_cast<int>` of a number of bytes -/
def toInt (n : Nat) : Int := if n % 2 ^ 32 < 2 ^ 31 then (n % 2 ^ 32 : Nat) else (n % 2 ^ 32 : Nat) - 2 ^ 32

/-- `QByteArray::mid` -/
def mid (bytes : List UInt8) (pos : Int) (len : Nat) : List UInt8 :=
  if pos < 0 then bytes.take (pos + len).toNat else (bytes.drop pos.toNat).take len

/-- `QByteArray::remove(0, len)`; a negative length removes nothing. -/
def removeFront (bytes : List UInt8) (len : Int) : List UInt8 := bytes.drop len.toNat

/-- `QStringList::join('\n')` -/
def joinLines (lines : List Line) : List Char := ['\n'].intercalate lines

/-- A `QPlainTextEdit` as the blocks of its document; an empty document has one, without text. -/
structure TextEdit where
  blocks : List Line
  deriving DecidableEq, Repr

namespace TextEdit

def isEmpty (t : TextEdit) : Prop := t.blocks = [[]]

instance (t : TextEdit) : Decidable t.isEmpty := inferInstanceAs (Decidable (_ = _))

/-- The lines one sees. -/
def lines (t : TextEdit) : List Line := if t.isEmpty then [] else t.blocks

def setPlainText (text : List Char) : TextEdit := ⟨text.splitOn '\n'⟩

def clear : TextEdit := ⟨[[]]⟩

def appendPlainText (text : List Char) (t : TextEdit) : TextEdit :=
  if t.isEmpty then setPlainText text else ⟨t.blocks ++ text.splitOn '\n'⟩

/-- A cursor at the start selects its block and removes it; unless that was the last one, it deletes the line end too. -/
def removeFirstBlock (t : TextEdit) : TextEdit :=
  match t.blocks with
  | [] | [_] => ⟨[[]]⟩
  | _ :: rest => ⟨rest⟩

def removeFirstBlocks : Nat → TextEdit → TextEdit
  | 0, t => t
  | n + 1, t => removeFirstBlocks n t.removeFirstBlock

end TextEdit

/-! ## The widget -/

structure HexDumpWidget where
  textEdit : TextEdit := .clear
  buffer : List UInt8 := []
  droppedByteCount : Nat := 0
  formattedOffset : Nat := 0
  grouping : Grouping := .byte
  deriving DecidableEq

namespace HexDumpWidget

/-- The row of the buffer at an offset, formatted. -/
def rowAt (w : HexDumpWidget) (offset : Nat) : Line :=
  formatRow (w.droppedByteCount + offset) (mid w.buffer (toInt offset) kBytesPerRow) w.grouping

/-- The first loop of `appendData`: every complete row that was not formatted yet. -/
def formatRows (w : HexDumpWidget) (newLines : List Line) : HexDumpWidget × List Line :=
  if kBytesPerRow ≤ w.buffer.length - w.formattedOffset then
    formatRows { w with formattedOffset := w.formattedOffset + kBytesPerRow } (newLines ++ [w.rowAt w.formattedOffset])
  else (w, newLines)
termination_by w.buffer.length - w.formattedOffset
decreasing_by simp only [kBytesPerRow] at *; omega

/-- The end of `appendData`: rows that are already formatted leave at the front once the buffer is over the cap. -/
def trim (w : HexDumpWidget) : HexDumpWidget :=
  if w.buffer.length > kMaxBufferedBytes then
    let excess := w.buffer.length - kMaxBufferedBytes
    let rowsToTrim := (excess + kBytesPerRow - 1) / kBytesPerRow
    let bytesToTrim := min (rowsToTrim * kBytesPerRow) w.formattedOffset
    if bytesToTrim > 0 then
      { w with buffer := removeFront w.buffer (toInt bytesToTrim)
               droppedByteCount := w.droppedByteCount + bytesToTrim
               formattedOffset := w.formattedOffset - bytesToTrim
               textEdit := w.textEdit.removeFirstBlocks (bytesToTrim / kBytesPerRow) }
    else w
  else w

def appendData (data : List UInt8) (w : HexDumpWidget) : HexDumpWidget :=
  if data = [] then w
  else
    let (w, newLines) := formatRows { w with buffer := w.buffer ++ data } []
    let w := if newLines ≠ [] then { w with textEdit := w.textEdit.appendPlainText (joinLines newLines) } else w
    w.trim

def clear (w : HexDumpWidget) : HexDumpWidget :=
  { w with buffer := [], droppedByteCount := 0, formattedOffset := 0, textEdit := .clear }

/-- The loop of `rebuildDisplay`. -/
def rebuildLines (w : HexDumpWidget) (offset : Nat) (lines : List Line) : List Line :=
  if offset < w.formattedOffset then rebuildLines w (offset + kBytesPerRow) (lines ++ [w.rowAt offset])
  else lines
termination_by w.formattedOffset - offset
decreasing_by simp only [kBytesPerRow]; omega

def rebuildDisplay (w : HexDumpWidget) : HexDumpWidget :=
  { w with textEdit := .setPlainText (joinLines (w.rebuildLines 0 [])) }

def setGrouping (grouping : Grouping) (w : HexDumpWidget) : HexDumpWidget :=
  if w.grouping = grouping then w else rebuildDisplay { w with grouping := grouping }

/-- What happens to the widget. -/
inductive Event where
  | appendData (data : List UInt8)
  | setGrouping (grouping : Grouping)
  | clear

def handle (w : HexDumpWidget) : Event → HexDumpWidget
  | .appendData data => w.appendData data
  | .setGrouping grouping => w.setGrouping grouping
  | .clear => w.clear

end HexDumpWidget

end LvdTerm.Terminal
