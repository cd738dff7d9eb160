import LvdTerm.Konsole.Screen

/-!
# Screen: the operations on the image

Moving and clearing, which scrolling, editing and resizing are made of, and the character that is put at the cursor. A result of
none is an access outside of the image, of the tab stops or of the history.
-/
namespace LvdTerm.Konsole

open LvdTerm.Lib

namespace Screen

/-- `f` applied to the line of the image. -/
def changeLine (y : Nat) (f : ImageLine → Option ImageLine) (s : Screen) : Option Screen := do
  let line ← s.screenLines[y]?
  let line ← f line
  return { s with screenLines := s.screenLines.set y line }

def changeProperty (y : Nat) (f : LineProperty → LineProperty) (s : Screen) : Option Screen := do
  let property ← s.lineProperties[y]?
  return { s with lineProperties := s.lineProperties.set y (f property) }

/-! ## Moving and clearing -/

/-- The selection follows the cells that move, and is dropped where they are moved over it; `scr_TL` is the image's place in all. -/
def moveSelection (scr_TL dest sourceBegin sourceEnd : Int) (sel : Selection) : Selection :=
  if sel.selBegin = -1 then sel
  else
    let beginIsTL := sel.selBegin = sel.selTopLeft
    let diff := dest - sourceBegin
    let srca := sourceBegin + scr_TL
    let srce := sourceEnd + scr_TL
    let desta := srca + diff
    let deste := srce + diff
    let sel :=
      if srca ≤ sel.selTopLeft ∧ sel.selTopLeft ≤ srce then { sel with selTopLeft := sel.selTopLeft + diff }
      else if desta ≤ sel.selTopLeft ∧ sel.selTopLeft ≤ deste then { sel with selBottomRight := -1 }
      else sel
    let sel :=
      if srca ≤ sel.selBottomRight ∧ sel.selBottomRight ≤ srce then { sel with selBottomRight := sel.selBottomRight + diff }
      else if desta ≤ sel.selBottomRight ∧ sel.selBottomRight ≤ deste then { sel with selBottomRight := -1 }
      else sel
    let sel := if sel.selBottomRight < 0 then sel.cleared else { sel with selTopLeft := max sel.selTopLeft 0 }
    { sel with selBegin := if beginIsTL then sel.selTopLeft else sel.selBottomRight }

def moveImage (dest sourceBegin sourceEnd : Int) (s : Screen) : Option Screen := do
  let lines := (sourceEnd - sourceBegin).tdiv s.columns
  let move {α : Type} (xs : List α) :=
    CArray.move (lines + 1).toNat (dest.tdiv s.columns) (sourceBegin.tdiv s.columns) xs
  let screenLines ← move s.screenLines
  let lineProperties ← move s.lineProperties
  let lastPos := s.lastPos + (dest - sourceBegin)
  return { s with
    screenLines := screenLines
    lineProperties := lineProperties
    lastPos := if s.lastPos = -1 ∨ lastPos < 0 ∨ lastPos ≥ lines * s.columns then -1 else lastPos
    selection := moveSelection (s.loc 0 s.history.getLines) dest sourceBegin sourceEnd s.selection }

/-- The cells `startCol .. endCol` set to `ch`; with the default character a line that is cleared to its end is shortened. -/
def clearCells (isDefaultCh : Bool) (ch : Character) (startCol endCol columns : Int) (line : ImageLine) : Option ImageLine :=
  if startCol < 0 then none
  else if isDefaultCh ∧ endCol = columns - 1 then some (line.resize startCol.toNat)
  else
    let line := line.resizeUp (endCol + 1).toNat
    some (if startCol ≤ endCol then
      line.take startCol.toNat ++ List.replicate (endCol + 1 - startCol).toNat ch ++ line.drop (endCol + 1).toNat else line)

/-- The lines `y, y + 1, …`, `n` of them, each changed by `f`. -/
def clearLines (f : Int → ImageLine → Option ImageLine) : Nat → Int → Screen → Option Screen
  | 0, _, s => some s
  | n + 1, y, s => do
    let lineProperties ← CArray.put s.lineProperties y 0
    let line ← CArray.get s.screenLines y
    let line ← f y line
    let screenLines ← CArray.put s.screenLines y line
    clearLines f n (y + 1) { s with screenLines := screenLines, lineProperties := lineProperties }

/-- Line `y` with its cells from `loca` to `loce` set to `c` in the current colors. -/
def clearLine (loca loce : Int) (c : Nat) (s : Screen) (y : Int) (line : ImageLine) : Option ImageLine :=
  let clearCh : Character := ⟨c, UInt8.ofNat DEFAULT_RENDITION, s.currentForeground, s.currentBackground, 0⟩
  let isDefaultCh := clearCh = defaultChar
  let endCol := if y = loce.tdiv s.columns then loce.tmod s.columns else s.columns - 1
  let startCol := if y = loca.tdiv s.columns then loca.tmod s.columns else 0
  clearCells isDefaultCh clearCh startCol endCol s.columns line

def clearImage (loca loce : Int) (c : Nat) (s : Screen) : Option Screen :=
  let scr_TL := s.loc 0 s.history.getLines
  let s := if s.selection.selBottomRight > loca + scr_TL ∧ s.selection.selTopLeft < loce + scr_TL then s.clearSelection else s
  let topLine := loca.tdiv s.columns
  let bottomLine := loce.tdiv s.columns
  clearLines (s.clearLine loca loce c) (bottomLine + 1 - topLine).toNat topLine s

/-! ## History and scrolling -/

/-- The selection, counted from the oldest line, after a line went into the history, and maybe one out of it. -/
def addHistSelection (columns : Int) (oldHistLines newHistLines : Nat) (sel : Selection) : Selection :=
  if sel.selBegin = -1 then sel
  else
    let beginIsTL := sel.selBegin = sel.selTopLeft
    let sel := if newHistLines > oldHistLines then
      { sel with selTopLeft := sel.selTopLeft + columns, selBottomRight := sel.selBottomRight + columns } else sel
    let top_BR := (1 + newHistLines) * columns
    let sel := if sel.selTopLeft < top_BR then { sel with selTopLeft := sel.selTopLeft - columns } else sel
    let sel := if sel.selBottomRight < top_BR then { sel with selBottomRight := sel.selBottomRight - columns } else sel
    let sel := if sel.selBottomRight < 0 then sel.cleared else { sel with selTopLeft := max sel.selTopLeft 0 }
    { sel with selBegin := if beginIsTL then sel.selTopLeft else sel.selBottomRight }

def hasScroll (s : Screen) : Bool := s.history.hasScroll

def addHistLine (s : Screen) : Option Screen :=
  if s.hasScroll then do
    let line ← s.screenLines[0]?
    let property ← s.lineProperties[0]?
    let history ← s.history.addCellsVector line
    let history ← history.addLine property.wrapped
    return { s with
      history := history
      droppedLines := if history.getLines = s.history.getLines then s.droppedLines + 1 else s.droppedLines
      selection := addHistSelection s.columns s.history.getLines history.getLines s.selection }
  else some s

def scrollUpFrom (top n : Nat) (s : Screen) : Option Screen :=
  if n = 0 ∨ top > s.bottomMargin then some s
  else do
    let n := if top + n > s.bottomMargin then s.bottomMargin + 1 - top else n
    let s := { s with
      scrolledLines := s.scrolledLines - n
      lastScrolledRegion := ⟨0, s.topMargin, s.columns - 1, s.bottomMargin - s.topMargin⟩ }
    let s ← s.moveImage (s.loc 0 top) (s.loc 0 (top + n)) (s.loc s.columns s.bottomMargin)
    s.clearImage (s.loc 0 (s.bottomMargin - n + 1)) (s.loc (s.columns - 1) s.bottomMargin) 0x20

def scrollUp (n : Nat) (s : Screen) : Option Screen := do
  let s ← if s.topMargin = 0 then s.addHistLine else some s
  s.scrollUpFrom s.topMargin (orOne n)

/-- One line less than asked for is moved where `n` lines reach below the margin, and then one less is cleared. -/
def scrollDownFrom (top n : Nat) (s : Screen) : Option Screen :=
  let s := { s with scrolledLines := s.scrolledLines + n }
  if n = 0 ∨ top > s.bottomMargin then some s
  else do
    let n := if top + n > s.bottomMargin then s.bottomMargin - top else n
    let s ← s.moveImage (s.loc 0 (top + n)) (s.loc 0 top) (s.loc (s.columns - 1) (s.bottomMargin - n))
    s.clearImage (s.loc 0 top) (s.loc (s.columns - 1) ((top : Int) + n - 1)) 0x20

def scrollDown (n : Nat) (s : Screen) : Option Screen := s.scrollDownFrom s.topMargin (orOne n)

def index (s : Screen) : Option Screen :=
  if s.cuY = s.bottomMargin then s.scrollUp 1
  else some (if s.cuY < s.lines - 1 then { s with cuY := s.cuY + 1 } else s)

def reverseIndex (s : Screen) : Option Screen :=
  if s.cuY = s.topMargin then s.scrollDownFrom s.topMargin 1
  else some (if s.cuY > 0 then { s with cuY := s.cuY - 1 } else s)

def nextLine (s : Screen) : Option Screen := s.toStartOfLine.index

def newLine (s : Screen) : Option Screen := (if s.getMode .newLine then s.toStartOfLine else s).index

def deleteLines (n : Nat) (s : Screen) : Option Screen := s.scrollUpFrom s.cuY (orOne n)

def insertLines (n : Nat) (s : Screen) : Option Screen := s.scrollDownFrom s.cuY (orOne n)

/-! ## Clearing parts of the image -/

def clearToEndOfScreen (s : Screen) : Option Screen :=
  s.clearImage (s.loc s.cuX s.cuY) (s.loc (s.columns - 1) (s.lines - 1)) 0x20

def clearToBeginOfScreen (s : Screen) : Option Screen := s.clearImage (s.loc 0 0) (s.loc s.cuX s.cuY) 0x20

/-- `for (i = 0; i < n; i++) { addHistLine(); scrollUp(0, 1); }` -/
def pushLines : Nat → Screen → Option Screen
  | 0, s => some s
  | n + 1, s => do pushLines n (← (← s.addHistLine).scrollUpFrom 0 1)

def clearEntireScreen (s : Screen) : Option Screen := do
  let s ← s.pushLines (s.lines - 1)
  s.clearImage (s.loc 0 0) (s.loc (s.columns - 1) (s.lines - 1)) 0x20

def helpAlign (s : Screen) : Option Screen := s.clearImage (s.loc 0 0) (s.loc (s.columns - 1) (s.lines - 1)) 'E'.toNat

def clearToEndOfLine (s : Screen) : Option Screen :=
  s.clearImage (s.loc s.cuX s.cuY) (s.loc (s.columns - 1) s.cuY) 0x20

def clearToBeginOfLine (s : Screen) : Option Screen := s.clearImage (s.loc 0 s.cuY) (s.loc s.cuX s.cuY) 0x20

def clearEntireLine (s : Screen) : Option Screen := s.clearImage (s.loc 0 s.cuY) (s.loc (s.columns - 1) s.cuY) 0x20

def eraseChars (n : Nat) (s : Screen) : Option Screen :=
  let p := max 0 (min ((s.cuX : Int) + orOne n - 1) (s.columns - 1))
  s.clearImage (s.loc s.cuX s.cuY) (s.loc p s.cuY) 0x20

def setLineProperty (property : LineProperty) (enable : Bool) (s : Screen) : Option Screen :=
  s.changeProperty s.cuY fun p => if enable then p ||| property else p &&& ~~~ property

/-! ## Editing the cursor's line -/

def backspace (s : Screen) : Option Screen :=
  let s := { s with cuX := min (s.columns - 1) s.cuX - 1 }
  s.changeLine s.cuY fun line => some (line.resizeUp (s.cuX + 1))

def deleteChars (n : Nat) (s : Screen) : Option Screen :=
  s.changeLine s.cuY fun line =>
    if s.cuX ≥ line.length then some line
    else
      let n := if s.cuX + orOne n > line.length then line.length - s.cuX else orOne n
      some (line.take s.cuX ++ line.drop (s.cuX + n))

def insertChars (n : Nat) (s : Screen) : Option Screen :=
  s.changeLine s.cuY fun line =>
    let line := line.resizeUp s.cuX
    let line := line.take s.cuX ++ List.replicate (orOne n) defaultChar ++ line.drop s.cuX
    some (if line.length > s.columns then ImageLine.resize s.columns line else line)

/-! ## The whole screen -/

def clear (s : Screen) : Option Screen := do return (← s.clearEntireScreen).home

def resetModes (s : Screen) : Screen :=
  s.setMode .wrap |>.saveMode .wrap |>.resetMode .origin |>.saveMode .origin |>.resetMode .insert |>.saveMode .insert
    |>.setMode .cursor |>.resetMode .screen |>.resetMode .newLine

def reset (clearScreen : Bool) (s : Screen) : Option Screen :=
  let s := s.resetModes.setDefaultMargins.setDefaultRendition.clearCurrentHyperlink.saveCursor
  if clearScreen then s.clear else some s

/-- The members before the constructor's body; `lastDrawnChar` and the saved modes have no value yet. -/
def blank (l c lastDrawnChar : Nat) (savedModes : ScreenMode → Bool) : Screen where
  lines := l
  columns := c
  screenLines := List.replicate (l + 1) []
  scrolledLines := 0
  lastScrolledRegion := ⟨0, 0, 0, 0⟩
  droppedLines := 0
  lineProperties := List.replicate (l + 1) LINE_DEFAULT
  history := .none
  cuX := 0
  cuY := 0
  currentForeground := .undefined
  currentBackground := .undefined
  currentRendition := 0
  currentHyperlinkId := 0
  topMargin := 0
  bottomMargin := 0
  currentModes := fun _ => false
  savedModes := savedModes
  tabStops := []
  selection := ⟨0, 0, 0, false⟩
  effectiveForeground := .undefined
  effectiveBackground := .undefined
  effectiveRendition := 0
  savedState := ⟨0, 0, 0, .undefined, .undefined⟩
  lastPos := -1
  lastDrawnChar := lastDrawnChar

def new (l c lastDrawnChar : Nat) (savedModes : ScreenMode → Bool) : Option Screen :=
  (blank l c lastDrawnChar savedModes).initTabStops.clearSelection.reset true

/-- The new array: the old elements as far as they are lines of both images, and `a` in the others. -/
def resized {α : Type} (lines newLines : Nat) (a : α) (xs : List α) : List α :=
  xs.take (min lines (newLines + 1)) ++ List.replicate (newLines + 1 - lines) a

def resizedTo (newLines newColumns : Nat) (s : Screen) : Screen :=
  let s := { s with
    screenLines := resized s.lines newLines (List.replicate newColumns defaultChar) s.screenLines
    lineProperties := resized s.lines newLines LINE_DEFAULT s.lineProperties
    lines := newLines
    columns := newColumns
    cuX := min s.cuX (newColumns - 1)
    cuY := min s.cuY (newLines - 1)
    topMargin := 0
    bottomMargin := newLines - 1 }
  s.clearSelection.initTabStops

/-- The lines above the cursor's that the new screen has no room for go into the history. -/
def resizeImage (newLines newColumns : Nat) (s : Screen) : Option Screen :=
  if newLines = s.lines ∧ newColumns = s.columns then some s
  else do
    let s ← if s.cuY + 1 > newLines then ({ s with bottomMargin := s.lines - 1 } : Screen).pushLines (s.cuY + 1 - newLines) else some s
    return s.resizedTo newLines newColumns

def setScroll (t : HistoryType) (copyPreviousScroll : Bool) (s : Screen) : Option Screen :=
  let s := s.clearSelection
  (t.scroll (if copyPreviousScroll then some s.history else none)).map fun history => { s with history := history }

def resetScrolledLines (s : Screen) : Screen := { s with scrolledLines := 0 }

def resetDroppedLines (s : Screen) : Screen := { s with droppedLines := 0 }

end Screen

end LvdTerm.Konsole
