import LvdTerm.Konsole.ExtendedCharTable
import LvdTerm.Konsole.ScreenImage

/-!
# Screen::displayCharacter

A character is put at the cursor, which first goes to the next line where it does not fit; a mark is combined with the character
before it instead, and so is the second half of a flag. `lastDrawnChar` is an `unsigned short`.
-/
namespace LvdTerm.Konsole

open LvdTerm.Lib

namespace Screen

/-- The place of the character before column `x` of line `y`, past the right halves of wide ones where `w` is 0 and on to the
line before where that goes on in this one; none where there is no such character. -/
def previousChar (w : Int) (s : Screen) (y x : Nat) : Option (Option (Nat × Nat)) :=
  match y, x with
  | y, x + 1 => do
    let cells ← s.screenLines[y]?
    let currentChar ← cells[x]?
    if w = 0 ∧ currentChar = nullChar then s.previousChar w y x else some (some (y, x))
  | 0, 0 => some none
  | y + 1, 0 => do
    let property ← s.lineProperties[y]?
    if property.wrapped then
      let cells ← s.screenLines[y]?
      if cells = [] then some none
      else
        let currentChar ← cells[cells.length - 1]?
        if w = 0 ∧ currentChar = nullChar then s.previousChar w y (cells.length - 1) else some (some (y, cells.length - 1))
    else some none
termination_by (y, x)

def charToCombineWith (w : Int) (s : Screen) : Option (Option (Nat × Nat)) := do
  let line ← s.screenLines[s.cuY]?
  s.previousChar w s.cuY (min s.cuX line.length)

/-- `goto` the next line where `w` more columns do not fit, or back where the mode does not wrap. -/
def wrapFor (w : Nat) (s : Screen) : Option Screen :=
  if s.cuX + w > s.columns then
    if s.getMode .wrap then do
      let s ← s.changeProperty s.cuY (· ||| LINE_WRAPPED)
      s.nextLine
    -- a wide character on a screen of one column would be put at column -1
    else if s.columns < w then none
    else some { s with cuX := s.columns - w }
  else some s

/-- `if (getMode(MODE_Insert)) insertChars(n)` -/
def makeRoom (n : Nat) (s : Screen) : Option Screen := if s.getMode .insert then s.insertChars n else some s

/-- A cell in the current colors. -/
def penned (c : Nat) (s : Screen) : Character :=
  ⟨c, s.effectiveRendition, s.effectiveForeground, s.effectiveBackground, s.currentHyperlinkId⟩

def setCell (x y : Nat) (ch : Character) (s : Screen) : Option Screen :=
  s.changeLine y fun line => if x < line.length then some (line.set x ch) else none

/-- `lastPos = loc(cuX, cuY); checkSelection(lastPos, lastPos)` -/
def touch (s : Screen) : Screen :=
  { s with lastPos := s.loc s.cuX s.cuY }.checkSelection (s.loc s.cuX s.cuY) (s.loc s.cuX s.cuY)

/-- The other cells of a wide character, `i` and those after it. -/
def fillWide : Nat → Nat → Screen → Option Screen
  | 0, _, s => some s
  | w + 1, i, s => do
    let s ← s.changeLine s.cuY fun line => some (line.resizeUp (s.cuX + i + 1))
    let s ← s.setCell (s.cuX + i) s.cuY (s.penned 0)
    s.fillWide w (i + 1)

/-- From `notcombine` on. -/
def putCharacter (c w : Nat) (s : Screen) : Option Screen := do
  let s ← s.wrapFor w
  let s ← s.changeLine s.cuY fun line => some (line.resizeUp (s.cuX + w))
  let s ← s.makeRoom w
  let s := s.touch
  let s ← s.setCell s.cuX s.cuY (s.penned c)
  let s := { s with lastDrawnChar := c % 2 ^ 16 }
  let s ← s.fillWide (w - 1) 1
  return { s with cuX := s.cuX + w }

/-- The cell after the two halves of a flag, which count as one cell each. `lastDrawnChar` is read through a reference to the combined
cell, which resizing its line may have left dangling; here it is what was written through it. -/
def putSecondHalf (key : Nat) (s : Screen) : Option Screen := do
  let s ← s.wrapFor 1
  let s ← s.changeLine s.cuY fun line => some (line.resizeUp (s.cuX + 1))
  let s ← s.setCell s.cuX s.cuY (s.penned 0)
  let s ← s.makeRoom 1
  return { s.touch with lastDrawnChar := key % 2 ^ 16, cuX := s.cuX + 1 }

/-- `c` joins the character in the cell. -/
def combine (c : Nat) (w : Int) (y x : Nat) (currentChar : Character) (s : Screen) (t : ExtendedCharTable) :
    Option (Screen × ExtendedCharTable) :=
  if currentChar.rendition.has RE_EXTENDED_CHAR then
    match t.lookupExtendedChar currentChar.character with
    | none => some (s, t)
    | some oldChars =>
      if oldChars.length < 8 then do
        let (key, t) ← t.createExtendedChar (oldChars ++ [c])
        let s ← s.setCell x y { currentChar with character := key }
        return (s, t)
      else some (s, t)
  else do
    let (key, t) ← t.createExtendedChar [currentChar.character, c]
    let s ← s.setCell x y { currentChar with rendition := currentChar.rendition.set RE_EXTENDED_CHAR, character := key }
    let s ← if w > 0 then s.putSecondHalf key else some s
    return (s, t)

def displayCharacter (env : Widths) (c : Nat) (s : Screen) (t : ExtendedCharTable) : Option (Screen × ExtendedCharTable) :=
  let w := env.width c
  let notcombine (w : Int) := (s.putCharacter c w.toNat).map fun s => (s, t)
  if w < 0 then some (s, t)
  else if w = 0 ∨ w = 1 ∧ isRegionalIndicator c then
    if w = 0 ∧ ¬ env.nonSpacing c then some (s, t)
    else do
      match ← s.charToCombineWith w with
      | none => notcombine (if w = 0 then 2 else w)
      | some (y, x) =>
        let cells ← s.screenLines[y]?
        let currentChar ← cells[x]?
        if w > 0 ∧ ¬ isRegionalIndicator currentChar.character then notcombine w
        else s.combine c w y x currentChar t
  else notcombine w

/-- `for (i = 0; i < count; i++) displayCharacter(lastDrawnChar)` -/
def displayLast (env : Widths) : Nat → Screen → ExtendedCharTable → Option (Screen × ExtendedCharTable)
  | 0, s, t => some (s, t)
  | n + 1, s, t => do
    let (s, t) ← s.displayCharacter env s.lastDrawnChar t
    s.displayLast env n t

def repeatChars (env : Widths) (count : Nat) (s : Screen) (t : ExtendedCharTable) : Option (Screen × ExtendedCharTable) :=
  s.displayLast env (orOne count) t

end Screen

end LvdTerm.Konsole
