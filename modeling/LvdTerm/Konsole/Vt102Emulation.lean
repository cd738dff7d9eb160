import LvdTerm.Konsole.Command
import LvdTerm.Konsole.Hyperlink

/-!
# Vt102Emulation: the two screens and the modes

What `processToken` calls, with the session's view, whose size the screens get back after every other size. What goes to the host is
kept in `sent`, the size that the transport is told in `resizes`. Signals that nothing is connected to, and the timer of a repaint, are
left out.
-/
namespace LvdTerm.Konsole

open LvdTerm.Lib

structure CharCodes where
  charset : Nat → Char
  cu_cs : Nat
  graphic : Bool
  pound : Bool
  sa_graphic : Bool
  sa_pound : Bool

/-- The tokenizer; what is beyond the position in the buffer, and beyond the arguments, is left over from before. -/
structure Tokenizer where
  tokenBuffer : Nat → Nat
  tokenBufferPos : Nat
  argv : Nat → Nat
  argc : Nat
  prevCC : Nat

def Tokenizer.reset (t : Tokenizer) : Tokenizer :=
  { t with tokenBufferPos := 0, argc := 0, argv := Function.update (Function.update t.argv 0 0) 1 0, prevCC := 0 }

/-- `_screen[i]` and `_charset[i]` are those of `false` and `true`. -/
structure Emulation where
  screen : Bool → Screen
  currentScreen : Bool
  table : ExtendedCharTable
  links : HyperlinkTable
  charset : Bool → CharCodes
  currentModes : Mode → Bool
  savedModes : Mode → Bool
  tokenizer : Tokenizer
  reportsFocusEvents : Bool
  usesMouse : Bool
  bracketedPasteMode : Bool
  pendingTitleUpdates : List (Int × Text)
  bells : Nat
  cursorShape : Option (CursorShape × Bool)
  tabTextColor : Option Nat
  view : Option (Nat × Nat)
  sent : List String
  resizes : List (Nat × Nat)

namespace Emulation

variable {α : Type}

/-! ## The screens -/

def onScreen (i : Bool) (op : Screen → Option Screen) (e : Emulation) : Option Emulation :=
  (op (e.screen i)).map fun s => { e with screen := Function.update e.screen i s }

def onBoth (op : Screen → Option Screen) (e : Emulation) : Option Emulation := (e.onScreen false op).bind (onScreen true op)

def displayCharacter (env : Widths) (c : Nat) (e : Emulation) : Option Emulation := do
  let (s, t) ← (e.screen e.currentScreen).displayCharacter env c e.table
  return { e with screen := Function.update e.screen e.currentScreen s, table := t }

def repeatChars (env : Widths) (n : Nat) (e : Emulation) : Option Emulation := do
  let (s, t) ← (e.screen e.currentScreen).repeatChars env n e.table
  return { e with screen := Function.update e.screen e.currentScreen s, table := t }

def clearHistory (e : Emulation) : Option Emulation := e.onScreen false fun s => s.setScroll s.history.getType false

def clearHyperlinkPens (e : Emulation) : Emulation := { e with screen := fun i => (e.screen i).clearCurrentHyperlink }

def setMargins (t b : Nat) (e : Emulation) : Emulation := { e with screen := fun i => (e.screen i).setMargins t b }

def setDefaultMargins (e : Emulation) : Emulation := { e with screen := fun i => (e.screen i).setDefaultMargins }

/-! ## Sizes -/

def hasSize (lines columns : Nat) (e : Emulation) : Prop := ∀ i, (e.screen i).lines = lines ∧ (e.screen i).columns = columns

instance (lines columns : Nat) (e : Emulation) : Decidable (e.hasSize lines columns) :=
  decidable_of_iff (∀ i ∈ [false, true], (e.screen i).lines = lines ∧ (e.screen i).columns = columns)
    ⟨fun h i => h i (by cases i <;> decide), fun h i _ => h i⟩

/-- `TerminalSession::updateTerminalSize` where the screens have the size of the view, or there is none. -/
def tellTransport (e : Emulation) : Emulation :=
  match e.view with
  | none => e
  | some (lines, columns) => if lines < 1 ∨ columns < 1 then e else { e with resizes := e.resizes ++ [(columns, lines)] }

/-- `Emulation::setImageSize` for the size of the view; `imageSizeChanged` asks for the same size, which the screens have by then. -/
def setViewSize (lines columns : Nat) (e : Emulation) : Option Emulation :=
  if e.hasSize lines columns then some e
  else (e.onBoth (Screen.resizeImage lines columns)).map tellTransport

def updateTerminalSize (e : Emulation) : Option Emulation :=
  match e.view with
  | none => some e
  | some (lines, columns) => if lines < 1 ∨ columns < 1 then some e else (e.setViewSize lines columns).map tellTransport

def setImageSize (lines columns : Nat) (e : Emulation) : Option Emulation :=
  if lines < 1 ∨ columns < 1 ∨ e.hasSize lines columns then some e
  else (e.onBoth (Screen.resizeImage lines columns)).bind updateTerminalSize

def clearScreenAndSetColumns (columnCount : Nat) (e : Emulation) : Option Emulation := do
  let e ← e.setImageSize (e.screen e.currentScreen).lines columnCount
  let e ← e.onScreen e.currentScreen Screen.clearEntireScreen
  let e := e.setDefaultMargins
  e.onScreen e.currentScreen fun s => some (s.setCursorYX 0 0)

/-! ## Character sets -/

def useCharset (n : Nat) (e : Emulation) : Emulation :=
  let c := e.charset e.currentScreen
  let c := { c with cu_cs := n % 4, graphic := c.charset (n % 4) = '0', pound := c.charset (n % 4) = 'A' }
  { e with charset := Function.update e.charset e.currentScreen c }

def putCharset (i : Bool) (n : Nat) (cs : Char) (e : Emulation) : Emulation :=
  { e with charset := Function.update e.charset i { e.charset i with charset := Function.update (e.charset i).charset (n % 4) cs } }

/-- The set of both screens is changed, and the one in use read again, for the current screen both times. -/
def setCharset (n : Nat) (cs : Char) (e : Emulation) : Emulation :=
  let e := e.putCharset false n cs
  let e := e.useCharset (e.charset false).cu_cs
  let e := e.putCharset true n cs
  e.useCharset (e.charset true).cu_cs

def setAndUseCharset (n : Nat) (cs : Char) (e : Emulation) : Emulation := (e.putCharset e.currentScreen n cs).useCharset (n % 4)

def resetCharset (i : Bool) (e : Emulation) : Emulation :=
  { e with charset := Function.update e.charset i ⟨fun _ => 'B', 0, false, false, false, false⟩ }

def vt100_graphics : List Nat :=
  [0x0020, 0x25C6, 0x2592, 0x2409, 0x240c, 0x240d, 0x240a, 0x00b0, 0x00b1, 0x2424, 0x240b, 0x2518, 0x2510, 0x250c, 0x2514, 0x253c,
    0xF800, 0xF801, 0x2500, 0xF803, 0xF804, 0x251c, 0x2524, 0x2534, 0x252c, 0x2502, 0x2264, 0x2265, 0x03C0, 0x2260, 0x00A3, 0x00b7]

def applyCharset (c : Nat) (e : Emulation) : Nat :=
  let codes := e.charset e.currentScreen
  if codes.graphic ∧ 0x5f ≤ c ∧ c ≤ 0x7e then vt100_graphics.getD (c - 0x5f) 0
  else if codes.pound ∧ c = '#'.toNat then 0xa3
  else c

def saveCursor (e : Emulation) : Emulation :=
  let c := e.charset e.currentScreen
  { e with
    charset := Function.update e.charset e.currentScreen { c with sa_graphic := c.graphic, sa_pound := c.pound }
    screen := Function.update e.screen e.currentScreen (e.screen e.currentScreen).saveCursor }

def restoreCursor (e : Emulation) : Emulation :=
  let c := e.charset e.currentScreen
  { e with
    charset := Function.update e.charset e.currentScreen { c with graphic := c.sa_graphic, pound := c.sa_pound }
    screen := Function.update e.screen e.currentScreen (e.screen e.currentScreen).restoreCursor }

/-! ## Modes -/

def getMode (m : Mode) (e : Emulation) : Bool := e.currentModes m

def putMode (m : Mode) (on : Bool) (e : Emulation) : Emulation := { e with currentModes := Function.update e.currentModes m on }

def setMode (m : Mode) (e : Emulation) : Option Emulation :=
  let e := e.putMode m true
  match m with
  | .columns132 => if e.getMode .allow132Columns then e.clearScreenAndSetColumns 132 else some (e.putMode m false)
  | .mouse1000 => some { e with usesMouse := false }
  | .mouse1001 => some { e with usesMouse := false }
  | .mouse1002 => some { e with usesMouse := false }
  | .mouse1003 => some { e with usesMouse := false }
  | .bracketedPaste => some { e with bracketedPasteMode := true }
  | .appScreen =>
    some { e with screen := Function.update e.screen true (e.screen true).clearSelection, currentScreen := true }
  | .screen m => e.onBoth fun s => some (s.setMode m)
  | _ => some e

def resetMode (m : Mode) (e : Emulation) : Option Emulation :=
  let e := e.putMode m false
  match m with
  | .columns132 => if e.getMode .allow132Columns then e.clearScreenAndSetColumns 80 else some e
  | .mouse1000 => some { e with usesMouse := true }
  | .mouse1001 => some { e with usesMouse := true }
  | .mouse1002 => some { e with usesMouse := true }
  | .mouse1003 => some { e with usesMouse := true }
  | .bracketedPaste => some { e with bracketedPasteMode := false }
  | .appScreen =>
    some { e with screen := Function.update e.screen false (e.screen false).clearSelection, currentScreen := false }
  | .screen m => e.onBoth fun s => some (s.resetMode m)
  | _ => some e

def saveMode (m : Mode) (e : Emulation) : Emulation := { e with savedModes := Function.update e.savedModes m (e.currentModes m) }

def restoreMode (m : Mode) (e : Emulation) : Option Emulation := if e.savedModes m then e.setMode m else e.resetMode m

def resetAndSave : List Mode → Emulation → Option Emulation
  | [], e => some e
  | m :: modes, e => do resetAndSave modes ((← e.resetMode m).saveMode m)

/-- All modes but `MODE_Allow132Columns`. -/
def resetModes (e : Emulation) : Option Emulation := do
  let e ← e.resetAndSave [.columns132, .mouse1000, .mouse1001, .mouse1002, .mouse1003, .mouse1005, .mouse1006, .mouse1015,
    .bracketedPaste, .appScreen, .appCuKeys, .appKeyPad]
  let e ← e.resetMode (.screen .newLine)
  e.setMode .ansi

def resetTokenizer (e : Emulation) : Emulation := { e with tokenizer := e.tokenizer.reset }

def reset (e : Emulation) : Option Emulation := do
  let e ← e.resetTokenizer.resetModes
  let e ← (e.resetCharset false).onScreen false (Screen.reset true)
  (e.resetCharset true).onScreen true (Screen.reset true)

/-! ## Reports -/

def sendString (s : String) (e : Emulation) : Emulation := { e with sent := e.sent ++ [s] }

def ModeQuery.status (e : Emulation) : ModeQuery → Nat
  | .always status => status
  | .mode m => if e.getMode m then 1 else 2
  | .currentScreen m => if (e.screen e.currentScreen).getMode m then 1 else 2
  | .focusEvents => if e.reportsFocusEvents then 1 else 2

/-- The text of a report. The buffers they are printed to are long enough. -/
def Report.text (e : Emulation) : Report → String
  | .answerBack => ""
  | .terminalType => if e.getMode .ansi then "\x1b[?1;2c" else "\x1b/Z"
  | .secondaryAttributes => if e.getMode .ansi then "\x1b[>0;115;0c" else "\x1b/Z"
  | .status => "\x1b[0n"
  | .cursorPosition =>
    let s := e.screen e.currentScreen
    "\x1b[" ++ toString (s.cuY + 1) ++ ";" ++ toString (s.cuX + 1) ++ "R"
  | .terminalParms p => "\x1b[" ++ toString p ++ ";1;1;112;112;1;0x"
  | .ansiMode mode query => "\x1b[" ++ toString mode ++ ";" ++ toString (ModeQuery.status e query) ++ "$y"
  | .decMode mode query => "\x1b[?" ++ toString mode ++ ";" ++ toString (ModeQuery.status e query) ++ "$y"

/-! ## Commands -/

def perform (env : Widths) (e : Emulation) : Command → Option Emulation
  | .current op => e.onScreen e.currentScreen fun s => op.run s
  | .second op => e.onScreen true fun s => op.run s
  | .displayCharacter c => e.displayCharacter env c
  | .repeatChars n => e.repeatChars env n
  | .bell => some { e with bells := e.bells + 1 }
  | .report r => some (e.sendString (Report.text e r))
  | .useCharset n => some (e.useCharset n)
  | .setCharset n cs => some (e.setCharset n cs)
  | .setAndUseCharset n cs => some (e.setAndUseCharset n cs)
  | .reset => e.reset
  | .saveCursor => some e.saveCursor
  | .restoreCursor => some e.restoreCursor
  | .setMode m => e.setMode m
  | .resetMode m => e.resetMode m
  | .saveMode m => some (e.saveMode m)
  | .restoreMode m => e.restoreMode m
  | .setImageSize lines columns => e.setImageSize lines columns
  | .changeTabTextColor color => some { e with tabTextColor := some color }
  | .clearHistory => e.clearHistory
  | .setMargins t b => some (e.setMargins t b)
  | .cursorChanged shape blinking => some { e with cursorShape := some (shape, blinking) }
  | .reportFocusEvents on => some { e with reportsFocusEvents := on }
  | .clearHyperlinkPens => some e.clearHyperlinkPens
  | .undecodable => some e

def performAll (env : Widths) : List Command → Emulation → Option Emulation
  | [], e => some e
  | c :: commands, e => (e.perform env c).bind (performAll env commands)

def processToken (env : Widths) (token : Token) (p q : Nat) (e : Emulation) : Option Emulation := performAll env (decode token p q) e

end Emulation

end LvdTerm.Konsole
