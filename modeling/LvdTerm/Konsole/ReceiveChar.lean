import LvdTerm.Konsole.Vt102Emulation

/-!
# Vt102Emulation::receiveChar: the tokenizer

The state of the scan is deduced from the token scanned so far, the macros of the source are the predicates here. A character is its
code point.
-/
namespace LvdTerm.Konsole

def ESC : Nat := 27
def DEL : Nat := 127

def MAX_TOKEN_LENGTH : Nat := 4096
def MAXARGS : Nat := 15
def MAX_ARGUMENT : Nat := 4096

def oneOf (set : String) (c : Nat) : Bool := c ∈ codes set

/-- The classes of `charClass`, each of characters below 256. -/
def CTL (c : Nat) : Bool := c < 32
def CHR (c : Nat) : Bool := 32 ≤ c ∧ c < 256
def CPN (c : Nat) : Bool := oneOf "@ABCDEFGHILMPSTXZbcdfry" c
def CPS (c : Nat) : Bool := oneOf "t" c
def DIG (c : Nat) : Bool := oneOf "0123456789" c
def SCS (c : Nat) : Bool := oneOf "()+*%" c
def GRP (c : Nat) : Bool := oneOf "()+*#[]%_^PX" c

namespace Tokenizer

def addDigit (digit : Nat) (t : Tokenizer) : Tokenizer :=
  if t.argv t.argc < MAX_ARGUMENT then { t with argv := Function.update t.argv t.argc (10 * t.argv t.argc + digit) } else t

def addArgument (t : Tokenizer) : Tokenizer :=
  let argc := min (t.argc + 1) (MAXARGS - 1)
  { t with argc := argc, argv := Function.update t.argv argc 0 }

def addToCurrentToken (cc : Nat) (t : Tokenizer) : Tokenizer :=
  { t with tokenBuffer := Function.update t.tokenBuffer t.tokenBufferPos cc, tokenBufferPos := min (t.tokenBufferPos + 1) (MAX_TOKEN_LENGTH - 1) }

variable (t : Tokenizer)

/-- `lec(P,L,C)` -/
def lec (p l c : Nat) : Bool := t.tokenBufferPos = p ∧ t.tokenBuffer l = c

/-- `les(P,L,C)` -/
def les (p l : Nat) (cls : Nat → Bool) : Bool := t.tokenBufferPos = p ∧ cls (t.tokenBuffer l)

/-- `eps(C)` for the character `cc`, without a mark of private use before the arguments -/
def eps (cc : Nat) (cls : Nat → Bool) : Bool := 3 ≤ t.tokenBufferPos ∧ ¬ oneOf "?!<=>" (t.tokenBuffer 2) ∧ cls cc

/-- `epp()`, `epe()`, `elt()`, `eeq()` and `egt()` -/
def marked (mark : Char) : Bool := 3 ≤ t.tokenBufferPos ∧ t.tokenBuffer 2 = mark.toNat

/-- `Cse`: in a control string -/
def cse : Bool := 2 ≤ t.tokenBufferPos ∧ oneOf "]P_^X" (t.tokenBuffer 1)

/-- `Cte`: at its end -/
def cte (cc : Nat) : Bool := t.cse ∧ (t.tokenBuffer 1 = ']'.toNat ∧ cc = 7 ∨ t.prevCC = ESC ∧ cc = '\\'.toNat)

end Tokenizer

namespace Emulation

def onTokenizer (f : Tokenizer → Tokenizer) (e : Emulation) : Emulation := { e with tokenizer := f e.tokenizer }

def abortControlString (e : Emulation) : Emulation := e.clearHyperlinkPens.resetTokenizer

/-- The token is interpreted and done with. -/
def finish (env : Widths) (token : Token) (p q : Nat) (e : Emulation) : Option Emulation :=
  (e.processToken env token p q).map resetTokenizer

/-! ## Window attributes -/

/-- The digits from place `i` on, at most `n` of them, of the token: the number, which wraps around, and the place after them. -/
def attributeNumber (t : Tokenizer) : Nat → Nat → Int → Int × Nat
  | 0, i, number => (number, i)
  | n + 1, i, number =>
    if i < t.tokenBufferPos ∧ DIG (t.tokenBuffer i) then
      attributeNumber t n (i + 1) ((10 * number + ((t.tokenBuffer i : Int) - '0'.toNat)).bmod (2 ^ 32))
    else (number, i)

/-- `QString::fromWCharArray(tokenBuffer + i, n)` -/
def tokenText (t : Tokenizer) (i n : Nat) : Text := (List.range n).map fun k => t.tokenBuffer (i + k)

/-- `_pendingTitleUpdates[arg] = value` -/
def setPending (arg : Int) (value : Text) (updates : List (Int × Text)) : List (Int × Text) :=
  (arg, value) :: updates.filter fun update => update.1 ≠ arg

def setHyperlink (urls : Urls) (params uri : Text) (e : Emulation) : Emulation :=
  let (s, links) := (e.screen e.currentScreen).setHyperlinkFromOsc urls params uri e.links
  { e with screen := Function.update e.screen e.currentScreen s, links := links }

def processWindowAttributeChange (urls : Urls) (e : Emulation) : Emulation :=
  let t := e.tokenizer
  let (attributeToChange, i) := attributeNumber t t.tokenBufferPos 2 0
  if t.tokenBuffer i ≠ ';'.toNat then if attributeToChange = 8 then e.clearHyperlinkPens else e
  else
    let newValue := tokenText t (i + 1) (t.tokenBufferPos - i - 2)
    if attributeToChange = 8 then
      match newValue.idxOf? ';'.toNat with
      | none => e.setHyperlink urls [] []
      | some sep => e.setHyperlink urls (newValue.take sep) (newValue.drop (sep + 1))
    else
      let e := if attributeToChange = 0 ∨ attributeToChange = 1 ∨ attributeToChange = 2 then e.clearHyperlinkPens else e
      { e with pendingTitleUpdates := setPending attributeToChange newValue e.pendingTitleUpdates }

/-- `updateTitle`, when the timer is done -/
def updateTitle (e : Emulation) : Emulation := { e with pendingTitleUpdates := [] }

/-! ## Control sequences -/

/-- The arguments from `i` on, each by itself but for a color of 38 or 48; `argc` is less than `MAXARGS`. -/
def dispatch (env : Widths) (cc : Nat) : Nat → Nat → Emulation → Option Emulation
  | 0, _, e => some e
  | n + 1, i, e =>
    let t := e.tokenizer
    if i > t.argc then some e
    else if t.marked '?' then (e.processToken env (.ofCsiPr cc (t.argv i)) 0 0).bind (dispatch env cc n (i + 1))
    else if t.marked '>' then (e.processToken env (.ofCsiPg cc) 0 0).bind (dispatch env cc n (i + 1))
    else if cc = 'm'.toNat ∧ t.argc - i ≥ 4 ∧ (t.argv i = 38 ∨ t.argv i = 48) ∧ t.argv (i + 1) = 2 then
      let color := t.argv (i + 2) * 2 ^ 16 ||| t.argv (i + 3) * 2 ^ 8 ||| t.argv (i + 4)
      (e.processToken env (.ofCsiPs cc (t.argv i)) COLOR_SPACE_RGB.toNat color).bind (dispatch env cc n (i + 5))
    else if cc = 'm'.toNat ∧ t.argc - i ≥ 2 ∧ (t.argv i = 38 ∨ t.argv i = 48) ∧ t.argv (i + 1) = 5 then
      (e.processToken env (.ofCsiPs cc (t.argv i)) COLOR_SPACE_256.toNat (t.argv (i + 2))).bind (dispatch env cc n (i + 3))
    else (e.processToken env (.ofCsiPs cc (t.argv i)) 0 0).bind (dispatch env cc n (i + 1))

def addsArgument (cc : Nat) : Bool := cc = ';'.toNat ∨ cc = ':'.toNat

/-- A sequence with `<` or `=` before its arguments. -/
def privateSequence (env : Widths) (token : Token) (cc : Nat) (e : Emulation) : Option Emulation :=
  if 0x40 ≤ cc ∧ cc ≤ 0x7E then e.finish env token 0 0
  else if DIG cc then some (e.onTokenizer (Tokenizer.addDigit (cc - '0'.toNat)))
  else if addsArgument cc then some (e.onTokenizer Tokenizer.addArgument)
  else some e

/-- What is left of a sequence after the plain tokens. -/
def controlSequence (env : Widths) (cc : Nat) (e : Emulation) : Option Emulation :=
  let t := e.tokenizer
  if t.eps cc CPN then e.finish env (.ofCsiPn cc) (t.argv 0) (t.argv 1)
  else if t.tokenBufferPos = 4 ∧ t.tokenBuffer 3 = ' '.toNat then some e
  else if 3 ≤ t.tokenBufferPos ∧ cc = '$'.toNat then some e
  else if t.marked '<' then e.privateSequence env (.ofCsiPl cc) cc
  else if t.marked '=' then e.privateSequence env (.ofCsiPq cc) cc
  else if t.lec 5 4 'q'.toNat ∧ t.tokenBuffer 3 = ' '.toNat then e.finish env (.ofCsiPsSp cc (t.argv 0)) (t.argv 0) 0
  else if t.eps cc CPS then e.finish env (.ofCsiPs cc (t.argv 0)) (t.argv 1) (t.argv 2)
  else if t.marked '!' then e.finish env (.ofCsiPe cc) 0 0
  else if 3 ≤ t.tokenBufferPos ∧ DIG cc then some (e.onTokenizer (Tokenizer.addDigit (cc - '0'.toNat)))
  else if 3 ≤ t.tokenBufferPos ∧ addsArgument cc then some (e.onTokenizer Tokenizer.addArgument)
  else if 4 ≤ t.tokenBufferPos ∧ 0x3C ≤ cc ∧ cc ≤ 0x3F then some e
  else (e.dispatch env cc MAXARGS 0).map resetTokenizer

/-- `again` is `receiveChar` itself. -/
def scanAnsi (env : Widths) (urls : Urls) (again : Nat → Emulation → Option Emulation) (cc : Nat) (e : Emulation) : Option Emulation :=
  let t := e.tokenizer
  if t.lec 1 0 ESC then some e
  else if t.lec 1 0 (ESC + 128) then
    again '['.toNat (e.onTokenizer fun t => { t with tokenBuffer := Function.update t.tokenBuffer 0 ESC })
  else if t.les 2 1 GRP then some e
  else if t.cte cc then
    some (if t.tokenBuffer 1 = ']'.toNat then e.processWindowAttributeChange urls else e).resetTokenizer
  else if t.cse then
    if t.tokenBufferPos ≥ MAX_TOKEN_LENGTH - 1 then some e.abortControlString
    else some (e.onTokenizer fun t => { t with prevCC := cc })
  else if t.les 3 2 (oneOf "?>!<=") then some e
  else if t.tokenBufferPos = 1 ∧ cc ≥ 32 then e.finish env .chr (e.applyCharset cc) 0
  else if t.lec 2 0 ESC then e.finish env (.ofEsc (t.tokenBuffer 1)) 0 0
  else if t.les 3 1 SCS then e.finish env (.ofEscCs (t.tokenBuffer 1) (t.tokenBuffer 2)) 0 0
  else if t.lec 3 1 '#'.toNat then e.finish env (.ofEscDe (t.tokenBuffer 2)) 0 0
  else e.controlSequence env cc

/-- A character from 256 on is taken for the one that is still in the buffer after the escape. -/
def scanVt52 (env : Widths) (e : Emulation) : Option Emulation :=
  let t := e.tokenizer
  if t.lec 1 0 ESC then some e
  else if t.les 1 0 CHR then e.finish env .chr (t.tokenBuffer 0) 0
  else if t.lec 2 1 'Y'.toNat then some e
  else if t.lec 3 1 'Y'.toNat then some e
  else if t.tokenBufferPos < 4 then e.finish env (.ofVt52 (t.tokenBuffer 1)) 0 0
  else e.finish env (.ofVt52 (t.tokenBuffer 1)) (t.tokenBuffer 2) (t.tokenBuffer 3)

def scan (env : Widths) (urls : Urls) (again : Nat → Emulation → Option Emulation) (cc : Nat) (e : Emulation) : Option Emulation :=
  let e := e.onTokenizer (Tokenizer.addToCurrentToken cc)
  if e.getMode .ansi then e.scanAnsi env urls again cc else e.scanVt52 env

def CAN : Nat := 24
def SUB : Nat := 26

def receiveCharWith (env : Widths) (urls : Urls) (again : Nat → Emulation → Option Emulation) (cc : Nat) (e : Emulation) :
    Option Emulation :=
  if cc = DEL then some e
  else if CTL cc ∧ ¬ e.tokenizer.cte cc then
    if e.tokenizer.cse then
      if cc = CAN ∨ cc = SUB then some e.abortControlString
      else some (e.onTokenizer fun t => { t with prevCC := cc })
    else
      let e := if cc = CAN ∨ cc = SUB ∨ cc = ESC then e.resetTokenizer else e
      let e := if cc = CAN ∨ cc = SUB then e.clearHyperlinkPens else e
      -- an escape begins a token
      if cc ≠ ESC then e.processToken env (.ofCtl (cc + '@'.toNat)) 0 0 else e.scan env urls again cc
  else if e.tokenizer.cse ∧ e.tokenizer.prevCC = ESC ∧ cc = 'c'.toNat then e.reset
  else e.scan env urls again cc

/-- The character after a CSI in one byte is not one itself. -/
def receiveChar (env : Widths) (urls : Urls) : Nat → Emulation → Option Emulation :=
  receiveCharWith env urls (receiveCharWith env urls fun _ _ => none)

def receiveData (env : Widths) (urls : Urls) : Text → Emulation → Option Emulation
  | [], e => some e
  | cc :: text, e => (e.receiveChar env urls cc).bind (receiveData env urls text)

end Emulation

end LvdTerm.Konsole
