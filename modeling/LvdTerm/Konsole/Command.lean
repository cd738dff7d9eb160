import LvdTerm.Konsole.DisplayCharacter

/-!
# Vt102Emulation::processToken: what a token asks for

The tokens as the tokenizer builds them, of which a character keeps its low 8 bits and an argument its low 16, and the operations that
`processToken` has for each. Those without one are undecodable, except two kinds that are ignored.
-/
namespace LvdTerm.Konsole

/-- The modes of the emulation, which include those of the screens. -/
inductive Mode where
  | screen (m : ScreenMode)
  | appScreen | appCuKeys | appKeyPad
  | mouse1000 | mouse1001 | mouse1002 | mouse1003 | mouse1005 | mouse1006 | mouse1015
  | ansi | columns132 | allow132Columns | bracketedPaste
  deriving DecidableEq, Repr

/-! ## Tokens -/

inductive Token where
  | chr
  | ctl (a : Char)
  | esc (a : Char)
  | escCs (a b : Char)
  | escDe (a : Char)
  | csiPs (a : Char) (n : Nat)
  | csiPn (a : Char)
  | csiPr (a : Char) (n : Nat)
  | vt52 (a : Char)
  | csiPg (a : Char)
  | csiPe (a : Char)
  | csiPsSp (a : Char) (n : Nat)
  | csiPq (a : Char)
  | csiPl (a : Char)
  deriving DecidableEq, Repr

/-- The low 8 bits of `TY_CONSTRUCT` -/
def lowByte (a : Nat) : Char := Char.ofNat (a % 256)

namespace Token

def ofCtl (a : Nat) : Token := .ctl (lowByte a)
def ofEsc (a : Nat) : Token := .esc (lowByte a)
def ofEscCs (a b : Nat) : Token := .escCs (lowByte a) (Char.ofNat (b % 2 ^ 16))
def ofEscDe (a : Nat) : Token := .escDe (lowByte a)
def ofCsiPs (a n : Nat) : Token := .csiPs (lowByte a) (n % 2 ^ 16)
def ofCsiPn (a : Nat) : Token := .csiPn (lowByte a)
def ofCsiPr (a n : Nat) : Token := .csiPr (lowByte a) (n % 2 ^ 16)
def ofVt52 (a : Nat) : Token := .vt52 (lowByte a)
def ofCsiPg (a : Nat) : Token := .csiPg (lowByte a)
def ofCsiPe (a : Nat) : Token := .csiPe (lowByte a)
def ofCsiPsSp (a n : Nat) : Token := .csiPsSp (lowByte a) (n % 2 ^ 16)
def ofCsiPq (a : Nat) : Token := .csiPq (lowByte a)
def ofCsiPl (a : Nat) : Token := .csiPl (lowByte a)

end Token

/-! ## Operations -/

/-- What is done on one screen. -/
inductive ScreenOp where
  | backspace | newLine | toStartOfLine | index | nextLine | reverseIndex | home
  | tab (n : Nat) | backtab (n : Nat) | changeTabStop (set : Bool) | clearTabStops
  | cursorUp (n : Nat) | cursorDown (n : Nat) | cursorRight (n : Nat) | cursorLeft (n : Nat)
  | cursorNextLine (n : Nat) | cursorPreviousLine (n : Nat)
  | setCursorX (x : Int) | setCursorY (y : Int) | setCursorYX (y x : Int)
  | saveCursor | restoreCursor
  | scrollUp (n : Nat) | scrollDown (n : Nat) | insertLines (n : Nat) | deleteLines (n : Nat)
  | insertChars (n : Nat) | deleteChars (n : Nat) | eraseChars (n : Nat)
  | clearToEndOfLine | clearToBeginOfLine | clearEntireLine
  | clearToEndOfScreen | clearToBeginOfScreen | clearEntireScreen | helpAlign
  | setLineProperty (property : LineProperty) (enable : Bool)
  | setMargins (top bot : Nat) | setDefaultMargins
  | setMode (m : ScreenMode) | resetMode (m : ScreenMode) | saveMode (m : ScreenMode) | restoreMode (m : ScreenMode)
  | setDefaultRendition | setRendition (re : Nat) | resetRendition (re : Nat)
  | setForeColor (space color : Nat) | setBackColor (space color : Nat)
  | clearCurrentHyperlink | clearSelection | reset
  deriving DecidableEq, Repr

def ScreenOp.run (s : Screen) : ScreenOp → Option Screen
  | backspace => s.backspace
  | newLine => s.newLine
  | toStartOfLine => some s.toStartOfLine
  | index => s.index
  | nextLine => s.nextLine
  | reverseIndex => s.reverseIndex
  | home => some s.home
  | tab n => s.tab n
  | backtab n => s.backtab n
  | changeTabStop set => s.changeTabStop set
  | clearTabStops => s.clearTabStops
  | cursorUp n => some (s.cursorUp n)
  | cursorDown n => some (s.cursorDown n)
  | cursorRight n => some (s.cursorRight n)
  | cursorLeft n => some (s.cursorLeft n)
  | cursorNextLine n => some (s.cursorNextLine n)
  | cursorPreviousLine n => some (s.cursorPreviousLine n)
  | setCursorX x => some (s.setCursorX x)
  | setCursorY y => some (s.setCursorY y)
  | setCursorYX y x => some (s.setCursorYX y x)
  | saveCursor => some s.saveCursor
  | restoreCursor => some s.restoreCursor
  | scrollUp n => s.scrollUp n
  | scrollDown n => s.scrollDown n
  | insertLines n => s.insertLines n
  | deleteLines n => s.deleteLines n
  | insertChars n => s.insertChars n
  | deleteChars n => s.deleteChars n
  | eraseChars n => s.eraseChars n
  | clearToEndOfLine => s.clearToEndOfLine
  | clearToBeginOfLine => s.clearToBeginOfLine
  | clearEntireLine => s.clearEntireLine
  | clearToEndOfScreen => s.clearToEndOfScreen
  | clearToBeginOfScreen => s.clearToBeginOfScreen
  | clearEntireScreen => s.clearEntireScreen
  | helpAlign => s.helpAlign
  | setLineProperty property enable => s.setLineProperty property enable
  | setMargins top bot => some (s.setMargins top bot)
  | setDefaultMargins => some s.setDefaultMargins
  | setMode m => some (s.setMode m)
  | resetMode m => some (s.resetMode m)
  | saveMode m => some (s.saveMode m)
  | restoreMode m => some (s.restoreMode m)
  | setDefaultRendition => some s.setDefaultRendition
  | setRendition re => some (s.setRendition re)
  | resetRendition re => some (s.resetRendition re)
  | setForeColor space color => some (s.setForeColor space color)
  | setBackColor space color => some (s.setBackColor space color)
  | clearCurrentHyperlink => some s.clearCurrentHyperlink
  | clearSelection => some s.clearSelection
  | reset => s.reset true

/-- What the second argument of a report on a mode depends on. -/
inductive ModeQuery where
  | always (status : Nat)
  | mode (m : Mode)
  | currentScreen (m : ScreenMode)
  | focusEvents
  deriving DecidableEq, Repr

inductive Report where
  | answerBack | terminalType | secondaryAttributes | status | cursorPosition
  | terminalParms (p : Nat)
  | ansiMode (mode : Nat) (query : ModeQuery)
  | decMode (mode : Nat) (query : ModeQuery)
  deriving DecidableEq, Repr

inductive CursorShape where
  | block | underline | iBeam
  deriving DecidableEq, Repr

inductive Command where
  | current (op : ScreenOp)
  | second (op : ScreenOp)
  | displayCharacter (c : Nat)
  | repeatChars (n : Nat)
  | bell
  | report (r : Report)
  | useCharset (n : Nat)
  | setCharset (n : Nat) (cs : Char)
  | setAndUseCharset (n : Nat) (cs : Char)
  | reset
  | saveCursor | restoreCursor
  | setMode (m : Mode) | resetMode (m : Mode) | saveMode (m : Mode) | restoreMode (m : Mode)
  | setImageSize (lines columns : Nat)
  | changeTabTextColor (color : Nat)
  | clearHistory
  | setMargins (top bot : Nat)
  | cursorChanged (shape : CursorShape) (blinking : Bool)
  | reportFocusEvents (on : Bool)
  | clearHyperlinkPens
  | undecodable
  deriving DecidableEq, Repr

/-! ## The table -/

def decodeCtl : Char → List Command
  | 'E' => [.report .answerBack]
  | 'G' => [.bell]
  | 'H' => [.current .backspace]
  | 'I' => [.current (.tab 1)]
  | 'J' => [.current .newLine]
  | 'K' => [.current .newLine]
  | 'L' => [.current .newLine]
  | 'M' => [.current .toStartOfLine]
  | 'N' => [.useCharset 1]
  | 'O' => [.useCharset 0]
  | 'X' => [.displayCharacter 0x2592]
  | 'Z' => [.displayCharacter 0x2592]
  | a => if '@' ≤ a ∧ a ≤ '_' then [] else [.undecodable]

def decodeEsc : Char → List Command
  | 'D' => [.current .index]
  | 'E' => [.current .nextLine]
  | 'H' => [.current (.changeTabStop true)]
  | 'M' => [.current .reverseIndex]
  | 'Z' => [.report .terminalType]
  | 'c' => [.reset]
  | 'n' => [.useCharset 2]
  | 'o' => [.useCharset 3]
  | '7' => [.saveCursor]
  | '8' => [.restoreCursor]
  | '=' => [.setMode .appKeyPad]
  | '>' => [.resetMode .appKeyPad]
  | '<' => [.setMode .ansi]
  | _ => [.undecodable]

/-- The set that `ESC (`, `)`, `*` and `+` are for. -/
def charsetSlot : Char → Option Nat
  | '(' => some 0
  | ')' => some 1
  | '*' => some 2
  | '+' => some 3
  | _ => none

def decodeEscCs (a b : Char) : List Command :=
  match charsetSlot a with
  | some n => if b = '0' ∨ b = 'A' ∨ b = 'B' then [.setCharset n b] else [.undecodable]
  | none => if a = '%' ∧ (b = 'G' ∨ b = '@') then [] else [.undecodable]

def lineSize (doubleWidth doubleHeight : Bool) : List Command :=
  [.current (.setLineProperty LINE_DOUBLEWIDTH doubleWidth), .current (.setLineProperty LINE_DOUBLEHEIGHT doubleHeight)]

def decodeEscDe : Char → List Command
  | '3' => lineSize true true
  | '4' => lineSize true true
  | '5' => lineSize false false
  | '6' => lineSize true false
  | '8' => [.current .helpAlign]
  | _ => [.undecodable]

/-- `CSI … m`; the colors of 38 and 48 are in the arguments. -/
def decodeRendition (n p q : Nat) : List Command :=
  match n with
  | 0 => [.current .setDefaultRendition]
  | 1 => [.current (.setRendition RE_BOLD)]
  | 2 => [.current (.setRendition RE_FAINT)]
  | 3 => [.current (.setRendition RE_ITALIC)]
  | 4 => [.current (.setRendition RE_UNDERLINE)]
  | 5 => [.current (.setRendition RE_BLINK)]
  | 7 => [.current (.setRendition RE_REVERSE)]
  | 8 => [.current (.setRendition RE_CONCEAL)]
  | 9 => [.current (.setRendition RE_STRIKEOUT)]
  | 53 => [.current (.setRendition RE_OVERLINE)]
  | 10 => []
  | 11 => []
  | 12 => []
  | 21 => [.current (.resetRendition RE_BOLD)]
  | 22 => [.current (.resetRendition RE_BOLD), .current (.resetRendition RE_FAINT)]
  | 23 => [.current (.resetRendition RE_ITALIC)]
  | 24 => [.current (.resetRendition RE_UNDERLINE)]
  | 25 => [.current (.resetRendition RE_BLINK)]
  | 27 => [.current (.resetRendition RE_REVERSE)]
  | 28 => [.current (.resetRendition RE_CONCEAL)]
  | 29 => [.current (.resetRendition RE_STRIKEOUT)]
  | 55 => [.current (.resetRendition RE_OVERLINE)]
  | 38 => [.current (.setForeColor p q)]
  | 39 => [.current (.setForeColor COLOR_SPACE_DEFAULT.toNat 0)]
  | 48 => [.current (.setBackColor p q)]
  | 49 => [.current (.setBackColor COLOR_SPACE_DEFAULT.toNat 1)]
  | n =>
    if 30 ≤ n ∧ n ≤ 37 then [.current (.setForeColor COLOR_SPACE_SYSTEM.toNat (n - 30))]
    else if 40 ≤ n ∧ n ≤ 47 then [.current (.setBackColor COLOR_SPACE_SYSTEM.toNat (n - 40))]
    else if 90 ≤ n ∧ n ≤ 97 then [.current (.setForeColor COLOR_SPACE_SYSTEM.toNat (n - 90 + 8))]
    else if 100 ≤ n ∧ n ≤ 107 then [.current (.setBackColor COLOR_SPACE_SYSTEM.toNat (n - 100 + 8))]
    else [.undecodable]

def decodeCsiPs (a : Char) (n p q : Nat) : List Command :=
  match a, n with
  | 't', 8 => [.setImageSize p q]
  | 't', 28 => [.changeTabTextColor p]
  | 'K', 0 => [.current .clearToEndOfLine]
  | 'K', 1 => [.current .clearToBeginOfLine]
  | 'K', 2 => [.current .clearEntireLine]
  | 'J', 0 => [.current .clearToEndOfScreen]
  | 'J', 1 => [.current .clearToBeginOfScreen]
  | 'J', 2 => [.current .clearEntireScreen]
  | 'J', 3 => [.clearHistory]
  | 'g', 0 => [.current (.changeTabStop false)]
  | 'g', 3 => [.current .clearTabStops]
  | 'h', 4 => [.current (.setMode .insert)]
  | 'h', 20 => [.setMode (.screen .newLine)]
  | 'i', 0 => []
  | 'l', 4 => [.current (.resetMode .insert)]
  | 'l', 20 => [.resetMode (.screen .newLine)]
  | 's', 0 => [.saveCursor]
  | 'u', 0 => [.restoreCursor]
  | 'm', n => decodeRendition n p q
  | 'n', 5 => [.report .status]
  | 'n', 6 => [.report .cursorPosition]
  | 'q', n => if n ≤ 4 then [] else [.undecodable]
  | 'x', 0 => [.report (.terminalParms 2)]
  | 'x', 1 => [.report (.terminalParms 3)]
  | 'p', 2 => [.report (.ansiMode 2 (.always 2))]
  | 'p', 4 => [.report (.ansiMode 4 (.currentScreen .insert))]
  | 'p', 10 => [.report (.ansiMode 10 (.always 4))]
  | 'p', 20 => [.report (.ansiMode 20 (.mode (.screen .newLine)))]
  | _, _ => [.undecodable]

def decodeCsiPsSp (a : Char) (n : Nat) : List Command :=
  match a, n with
  | 'q', 0 => [.cursorChanged .block true]
  | 'q', 1 => [.cursorChanged .block true]
  | 'q', 2 => [.cursorChanged .block false]
  | 'q', 3 => [.cursorChanged .underline true]
  | 'q', 4 => [.cursorChanged .underline false]
  | 'q', 5 => [.cursorChanged .iBeam true]
  | 'q', 6 => [.cursorChanged .iBeam false]
  | _, _ => [.undecodable]

def decodeCsiPn (a : Char) (p q : Nat) : List Command :=
  match a with
  | '@' => [.current (.insertChars p)]
  | 'A' => [.current (.cursorUp p)]
  | 'B' => [.current (.cursorDown p)]
  | 'C' => [.current (.cursorRight p)]
  | 'D' => [.current (.cursorLeft p)]
  | 'E' => [.current (.cursorNextLine p)]
  | 'F' => [.current (.cursorPreviousLine p)]
  | 'G' => [.current (.setCursorX p)]
  | 'H' => [.current (.setCursorYX p q)]
  | 'I' => [.current (.tab p)]
  | 'L' => [.current (.insertLines p)]
  | 'M' => [.current (.deleteLines p)]
  | 'P' => [.current (.deleteChars p)]
  | 'S' => [.current (.scrollUp p)]
  | 'T' => [.current (.scrollDown p)]
  | 'X' => [.current (.eraseChars p)]
  | 'Z' => [.current (.backtab p)]
  | 'b' => [.repeatChars p]
  | 'c' => [.report .terminalType]
  | 'd' => [.current (.setCursorY p)]
  | 'f' => [.current (.setCursorYX p q)]
  | 'r' => [.setMargins p q]
  | 'y' => []
  | _ => [.undecodable]

/-- The modes of the emulation that can be set, reset, saved and restored by a number alike. -/
def privateMode : Nat → Option Mode
  | 1 => some .appCuKeys
  | 25 => some (.screen .cursor)
  | 47 => some .appScreen
  | 1000 => some .mouse1000
  | 1002 => some .mouse1002
  | 1003 => some .mouse1003
  | 1005 => some .mouse1005
  | 1006 => some .mouse1006
  | 1015 => some .mouse1015
  | 2004 => some .bracketedPaste
  | _ => none

/-- The ones of the screen. -/
def privateScreenMode : Nat → Option ScreenMode
  | 6 => some .origin
  | 7 => some .wrap
  | _ => none

def decodeSet : Nat → List Command
  | 3 => [.setMode .columns132]
  | 4 => []
  | 5 => [.current (.setMode .screen)]
  | 8 => []
  | 9 => []
  | 12 => []
  | 40 => [.setMode .allow132Columns]
  | 41 => []
  | 67 => []
  | 1001 => []
  | 1004 => [.reportFocusEvents true]
  | 1034 => []
  | 1047 => [.setMode .appScreen]
  | 1048 => [.saveCursor]
  | 1049 => [.saveCursor, .second .clearEntireScreen, .setMode .appScreen]
  | n =>
    match privateMode n, privateScreenMode n with
    | some m, _ => [.setMode m]
    | none, some m => [.current (.setMode m)]
    | none, none => [.undecodable]

def decodeReset : Nat → List Command
  | 2 => [.resetMode .ansi]
  | 3 => [.resetMode .columns132]
  | 4 => []
  | 5 => [.current (.resetMode .screen)]
  | 8 => []
  | 9 => []
  | 12 => []
  | 40 => [.resetMode .allow132Columns]
  | 41 => []
  | 67 => []
  | 1001 => [.resetMode .mouse1001]
  | 1004 => [.reportFocusEvents false]
  | 1047 => [.second .clearEntireScreen, .resetMode .appScreen]
  | 1048 => [.restoreCursor]
  | 1049 => [.resetMode .appScreen, .restoreCursor]
  | n =>
    match privateMode n, privateScreenMode n with
    | some m, _ => [.resetMode m]
    | none, some m => [.current (.resetMode m)]
    | none, none => [.undecodable]

def decodeSave : Nat → List Command
  | 8 => []
  | 9 => []
  | 12 => []
  | 41 => []
  | 67 => []
  | 1001 => []
  | 1047 => [.saveMode .appScreen]
  | 1048 => [.saveCursor]
  | n =>
    match privateMode n, privateScreenMode n with
    | some m, _ => [.saveMode m]
    | none, some m => [.current (.saveMode m)]
    | none, none => [.undecodable]

def decodeRestore : Nat → List Command
  | 8 => []
  | 9 => []
  | 12 => []
  | 41 => []
  | 67 => []
  | 1001 => []
  | 1047 => [.restoreMode .appScreen]
  | 1048 => [.restoreCursor]
  | n =>
    match privateMode n, privateScreenMode n with
    | some m, _ => [.restoreMode m]
    | none, some m => [.current (.restoreMode m)]
    | none, none => [.undecodable]

def decodeRequestMode : Nat → List Command
  | 1 => [.report (.decMode 1 (.mode .appCuKeys))]
  | 2 => [.report (.decMode 2 (.mode .ansi))]
  | 3 => [.report (.decMode 3 (.mode .columns132))]
  | 4 => [.report (.decMode 4 (.always 4))]
  | 5 => [.report (.decMode 5 (.currentScreen .screen))]
  | 6 => [.report (.decMode 6 (.currentScreen .origin))]
  | 7 => [.report (.decMode 7 (.currentScreen .wrap))]
  | 8 => [.report (.decMode 8 (.always 4))]
  | 9 => [.report (.decMode 9 (.always 4))]
  | 10 => [.report (.decMode 10 (.always 4))]
  | 25 => [.report (.decMode 25 (.currentScreen .cursor))]
  | 47 => [.report (.decMode 47 (.mode .appScreen))]
  | 1000 => [.report (.decMode 1000 (.mode .mouse1000))]
  | 1002 => [.report (.decMode 1002 (.mode .mouse1002))]
  | 1003 => [.report (.decMode 1003 (.mode .mouse1003))]
  | 1004 => [.report (.decMode 1004 .focusEvents)]
  | 1005 => [.report (.decMode 1005 (.mode .mouse1005))]
  | 1006 => [.report (.decMode 1006 (.mode .mouse1006))]
  | 1015 => [.report (.decMode 1015 (.mode .mouse1015))]
  | 1047 => [.report (.decMode 1047 (.mode .appScreen))]
  | 1049 => [.report (.decMode 1049 (.mode .appScreen))]
  | 2004 => [.report (.decMode 2004 (.mode .bracketedPaste))]
  | _ => [.undecodable]

def decodeCsiPr (a : Char) (n : Nat) : List Command :=
  match a with
  | 'h' => decodeSet n
  | 'l' => decodeReset n
  | 's' => decodeSave n
  | 'r' => decodeRestore n
  | 'p' => decodeRequestMode n
  | _ => [.undecodable]

def decodeVt52 (a : Char) (p q : Nat) : List Command :=
  match a with
  | 'A' => [.current (.cursorUp 1)]
  | 'B' => [.current (.cursorDown 1)]
  | 'C' => [.current (.cursorRight 1)]
  | 'D' => [.current (.cursorLeft 1)]
  | 'F' => [.setAndUseCharset 0 '0']
  | 'G' => [.setAndUseCharset 0 'B']
  | 'H' => [.current (.setCursorYX 1 1)]
  | 'I' => [.current .reverseIndex]
  | 'J' => [.current .clearToEndOfScreen]
  | 'K' => [.current .clearToEndOfLine]
  | 'Y' => [.current (.setCursorYX ((p : Int) - 31) ((q : Int) - 31))]
  | 'Z' => [.report .terminalType]
  | '<' => [.setMode .ansi]
  | '=' => [.setMode .appKeyPad]
  | '>' => [.resetMode .appKeyPad]
  | _ => [.undecodable]

def decode (token : Token) (p q : Nat) : List Command :=
  match token with
  | .chr => [.displayCharacter p]
  | .ctl a => decodeCtl a
  | .esc a => decodeEsc a
  | .escCs a b => decodeEscCs a b
  | .escDe a => decodeEscDe a
  | .csiPs a n => decodeCsiPs a n p q
  | .csiPsSp a n => decodeCsiPsSp a n
  | .csiPn a => decodeCsiPn a p q
  | .csiPr a n => decodeCsiPr a n
  | .csiPe a => if a = 'p' then [.clearHyperlinkPens, .current .setDefaultRendition] else [.undecodable]
  | .vt52 a => decodeVt52 a p q
  | .csiPg a => if a = 'c' then [.report .secondaryAttributes] else [.undecodable]
  | .csiPq _ => []
  | .csiPl _ => []

end LvdTerm.Konsole
