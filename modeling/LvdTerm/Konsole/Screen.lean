import Mathlib.Logic.Function.Basic
import LvdTerm.Konsole.History

/-!
# Screen: the image, the cursor and the margins

The state of `Screen` and the operations that leave the image as it is. A position `loc(x, y)` is an integer, since that of a cell
left of or above the image is negative. `QBitArray tabStops` and the arrays of modes are a list and functions.
-/
namespace LvdTerm.Konsole

open LvdTerm.Lib

inductive ScreenMode where
  | origin | wrap | insert | screen | cursor | newLine
  deriving DecidableEq, Repr

structure SavedState where
  cursorColumn : Nat
  cursorLine : Nat
  rendition : Rendition
  foreground : CharacterColor
  background : CharacterColor
  deriving DecidableEq, Repr

structure QRect where
  x : Int
  y : Int
  width : Int
  height : Int
  deriving DecidableEq, Repr

/-- The places selected from and to, counted from the oldest line of the history, -1 where nothing is selected. -/
structure Selection where
  selBegin : Int
  selTopLeft : Int
  selBottomRight : Int
  blockSelectionMode : Bool
  deriving DecidableEq, Repr

def Selection.cleared (sel : Selection) : Selection := { sel with selBottomRight := -1, selTopLeft := -1, selBegin := -1 }

structure Screen where
  lines : Nat
  columns : Nat
  screenLines : List ImageLine
  scrolledLines : Int
  lastScrolledRegion : QRect
  droppedLines : Int
  lineProperties : List LineProperty
  history : HistoryScroll
  cuX : Nat
  cuY : Nat
  currentForeground : CharacterColor
  currentBackground : CharacterColor
  currentRendition : Rendition
  currentHyperlinkId : Nat
  topMargin : Nat
  bottomMargin : Nat
  currentModes : ScreenMode → Bool
  savedModes : ScreenMode → Bool
  tabStops : List Bool
  selection : Selection
  effectiveForeground : CharacterColor
  effectiveBackground : CharacterColor
  effectiveRendition : Rendition
  savedState : SavedState
  lastPos : Int
  lastDrawnChar : Nat

namespace Screen

def loc (x y : Int) (s : Screen) : Int := y * s.columns + x

/-- The argument of a control sequence, 1 where it is left out. -/
def orOne (n : Nat) : Nat := if n = 0 then 1 else n

@[simp] theorem orOne_one : orOne 1 = 1 := rfl

theorem orOne_pos (n : Nat) : 0 < orOne n := by
  unfold orOne
  split <;> omega

/-! ## The cursor -/

def cursorUp (n : Nat) (s : Screen) : Screen :=
  let stop := if s.cuY < s.topMargin then 0 else s.topMargin
  { s with cuX := min (s.columns - 1) s.cuX, cuY := max stop (s.cuY - orOne n) }

def cursorDown (n : Nat) (s : Screen) : Screen :=
  let stop := if s.cuY > s.bottomMargin then s.lines - 1 else s.bottomMargin
  { s with cuX := min (s.columns - 1) s.cuX, cuY := min stop (s.cuY + orOne n) }

def cursorLeft (n : Nat) (s : Screen) : Screen := { s with cuX := min (s.columns - 1) s.cuX - orOne n }

def cursorRight (n : Nat) (s : Screen) : Screen := { s with cuX := min (s.columns - 1) (s.cuX + orOne n) }

def cursorNextLine (n : Nat) (s : Screen) : Screen :=
  { s with cuX := 0, cuY := (fun y => if y < s.lines - 1 then y + 1 else y)^[orOne n] s.cuY }

def cursorPreviousLine (n : Nat) (s : Screen) : Screen :=
  { s with cuX := 0, cuY := (fun y => if y > 0 then y - 1 else y)^[orOne n] s.cuY }

def setCursorX (x : Int) (s : Screen) : Screen :=
  { s with cuX := (max 0 (min ((s.columns : Int) - 1) ((if x = 0 then 1 else x) - 1))).toNat }

def setCursorY (y : Int) (s : Screen) : Screen :=
  let top : Int := if s.currentModes .origin then s.topMargin else 0
  { s with cuY := (max 0 (min ((s.lines : Int) - 1) ((if y = 0 then 1 else y) - 1 + top))).toNat }

def setCursorYX (y x : Int) (s : Screen) : Screen := (s.setCursorY y).setCursorX x

def home (s : Screen) : Screen := { s with cuX := 0, cuY := 0 }

def toStartOfLine (s : Screen) : Screen := { s with cuX := 0 }

def saveCursor (s : Screen) : Screen :=
  { s with savedState := ⟨s.cuX, s.cuY, s.currentRendition, s.currentForeground, s.currentBackground⟩ }

/-! ## Margins -/

def setMargins (top bot : Nat) (s : Screen) : Screen :=
  let top := orOne top - 1
  let bot := (if bot = 0 then s.lines else bot) - 1
  if ¬ (top < bot ∧ bot < s.lines) then s
  else { s with topMargin := top, bottomMargin := bot, cuX := 0, cuY := if s.currentModes .origin then top else 0 }

def setDefaultMargins (s : Screen) : Screen := { s with topMargin := 0, bottomMargin := s.lines - 1 }

/-! ## Modes -/

def getMode (m : ScreenMode) (s : Screen) : Bool := s.currentModes m

def setMode (m : ScreenMode) (s : Screen) : Screen :=
  let s := { s with currentModes := Function.update s.currentModes m true }
  match m with
  | .origin => { s with cuX := 0, cuY := s.topMargin }
  | _ => s

def resetMode (m : ScreenMode) (s : Screen) : Screen :=
  let s := { s with currentModes := Function.update s.currentModes m false }
  match m with
  | .origin => { s with cuX := 0, cuY := 0 }
  | _ => s

def saveMode (m : ScreenMode) (s : Screen) : Screen :=
  { s with savedModes := Function.update s.savedModes m (s.currentModes m) }

def restoreMode (m : ScreenMode) (s : Screen) : Screen :=
  { s with currentModes := Function.update s.currentModes m (s.savedModes m) }

/-! ## Rendition and colors -/

def updateEffectiveRendition (s : Screen) : Screen :=
  let reversed := s.currentRendition.has RE_REVERSE
  let foreground := if reversed then s.currentBackground else s.currentForeground
  { s with
    effectiveRendition := s.currentRendition
    effectiveForeground := if s.currentRendition.has RE_BOLD then foreground.setIntensive else foreground
    effectiveBackground := if reversed then s.currentForeground else s.currentBackground }

def restoreCursor (s : Screen) : Screen :=
  { s with
    cuX := min s.savedState.cursorColumn (s.columns - 1)
    cuY := min s.savedState.cursorLine (s.lines - 1)
    currentRendition := s.savedState.rendition
    currentForeground := s.savedState.foreground
    currentBackground := s.savedState.background }.updateEffectiveRendition

def setRendition (re : Nat) (s : Screen) : Screen :=
  { s with currentRendition := s.currentRendition.set re }.updateEffectiveRendition

def resetRendition (re : Nat) (s : Screen) : Screen :=
  { s with currentRendition := s.currentRendition.reset re }.updateEffectiveRendition

/-- A color that is not valid is the default one. -/
def setForeColor (space color : Nat) (s : Screen) : Screen :=
  let foreground := CharacterColor.ofSpace (UInt8.ofNat space) color
  if foreground.isValid then { s with currentForeground := foreground }.updateEffectiveRendition
  else { s with currentForeground := .ofSpace COLOR_SPACE_DEFAULT DEFAULT_FORE_COLOR }.updateEffectiveRendition

def setBackColor (space color : Nat) (s : Screen) : Screen :=
  let background := CharacterColor.ofSpace (UInt8.ofNat space) color
  if background.isValid then { s with currentBackground := background }.updateEffectiveRendition
  else { s with currentBackground := .ofSpace COLOR_SPACE_DEFAULT DEFAULT_BACK_COLOR }.updateEffectiveRendition

def setDefaultRendition (s : Screen) : Screen :=
  let s := s.setForeColor COLOR_SPACE_DEFAULT.toNat DEFAULT_FORE_COLOR
  let s := s.setBackColor COLOR_SPACE_DEFAULT.toNat DEFAULT_BACK_COLOR
  { s with currentRendition := UInt8.ofNat DEFAULT_RENDITION }.updateEffectiveRendition

def clearCurrentHyperlink (s : Screen) : Screen := { s with currentHyperlinkId := 0 }

/-! ## Tab stops -/

def initTabStops (s : Screen) : Screen :=
  { s with tabStops := (List.range s.columns).map fun i => i % 8 = 0 ∧ i ≠ 0 }

def clearTabStops (s : Screen) : Option Screen :=
  if s.columns ≤ s.tabStops.length then
    some { s with tabStops := List.replicate s.columns false ++ s.tabStops.drop s.columns }
  else none

def changeTabStop (set : Bool) (s : Screen) : Option Screen :=
  if s.cuX ≥ s.columns then some s
  else (CArray.put s.tabStops s.cuX set).map fun tabStops => { s with tabStops := tabStops }

/-- `while (cuX < columns-1 && !tabStops[cuX]) cursorRight(1)` -/
def tabForward (s : Screen) : Option Screen :=
  if s.cuX < s.columns - 1 then do
    if ← s.tabStops[s.cuX]? then return s
    else tabForward (s.cursorRight 1)
  else some s
termination_by s.columns - s.cuX
decreasing_by simp only [cursorRight, orOne_one]; omega

/-- `while (cuX > 0 && !tabStops[cuX]) cursorLeft(1)` -/
def tabBackward (s : Screen) : Option Screen :=
  if s.cuX > 0 then do
    if ← s.tabStops[s.cuX]? then return s
    else tabBackward (s.cursorLeft 1)
  else some s
termination_by s.cuX
decreasing_by simp only [cursorLeft, orOne_one]; omega

def tabs (n : Nat) (s : Screen) : Option Screen :=
  match n with
  | 0 => some s
  | n + 1 => if s.cuX < s.columns - 1 then (s.cursorRight 1).tabForward.bind (tabs n) else some s

def tab (n : Nat) (s : Screen) : Option Screen := tabs (orOne n) s

def backtabs (n : Nat) (s : Screen) : Option Screen :=
  match n with
  | 0 => some s
  | n + 1 => if s.cuX > 0 then (s.cursorLeft 1).tabBackward.bind (backtabs n) else some s

def backtab (n : Nat) (s : Screen) : Option Screen := backtabs (orOne n) s

/-! ## Selection -/

def clearSelection (s : Screen) : Screen := { s with selection := s.selection.cleared }

def checkSelection (start stop : Int) (s : Screen) : Screen :=
  let scr_TL := s.loc 0 s.history.getLines
  if s.selection.selBegin ≠ -1 ∧ s.selection.selBottomRight ≥ start + scr_TL ∧ s.selection.selTopLeft ≤ stop + scr_TL then
    s.clearSelection
  else s

def setSelectionStart (x y : Int) (mode : Bool) (s : Screen) : Screen :=
  let selBegin := if x = s.columns then s.loc x y - 1 else s.loc x y
  { s with selection := ⟨selBegin, selBegin, selBegin, mode⟩ }

/-- In column mode the corners are put in order. -/
def normalizeSelection (s : Screen) : Screen :=
  if s.selection.blockSelectionMode then
    let topRow := s.selection.selTopLeft.tdiv s.columns
    let topColumn := s.selection.selTopLeft.tmod s.columns
    let bottomRow := s.selection.selBottomRight.tdiv s.columns
    let bottomColumn := s.selection.selBottomRight.tmod s.columns
    { s with selection := { s.selection with
      selTopLeft := s.loc (min topColumn bottomColumn) topRow
      selBottomRight := s.loc (max topColumn bottomColumn) bottomRow } }
  else s

def setSelectionEnd (x y : Int) (s : Screen) : Screen :=
  let selBegin := s.selection.selBegin
  if selBegin = -1 then s
  else
    let endPos := s.loc x y
    if endPos < selBegin then
      { s with selection := { s.selection with selTopLeft := endPos, selBottomRight := selBegin } }.normalizeSelection
    else
      let endPos := if x = s.columns then endPos - 1 else endPos
      { s with selection := { s.selection with selTopLeft := selBegin, selBottomRight := endPos } }.normalizeSelection

def isSelectionValid (s : Screen) : Bool :=
  0 ≤ s.selection.selTopLeft ∧ 0 ≤ s.selection.selBottomRight ∧ s.selection.selTopLeft ≤ s.selection.selBottomRight

end Screen

end LvdTerm.Konsole
