import LvdTerm.Vnc.Client
import LvdTerm.Lib.Runs

/-!
# VncWidget: keyboard and mouse

What the widget sends for the events Qt delivers to it, and the desk it stands on: which keys and
buttons are down, and whether the widget has the focus. A key event names the physical key by
its scan code, since the Qt key of a press and of its release may differ.
-/
namespace LvdTerm.Vnc

/-- The input messages of `VncClient::sendPointer` and `VncClient::sendKey`. -/
inductive InputMessage where
  | pointer (buttonMask : UInt8) (x y : UInt16)
  | key (keysym : UInt32) (down : Bool)
  deriving DecidableEq

structure QKeyEvent where
  /-- A `Qt::Key`. -/
  key : Int
  /-- `text().toUcs4()` -/
  text : List UInt32
  autoRepeat : Bool

inductive MouseButton where
  | left | middle | right
  | other (bit : Nat)
  deriving DecidableEq

abbrev QPoint := Int × Int

structure VncWidget where
  /-- The stage of `m_client`, if there is one. -/
  client : Option Stage
  /-- `m_pressedKeys`; the order of a hash stands for any. -/
  pressedKeys : List (Int × UInt32)
  /-- Everything sent so far. -/
  sent : List InputMessage

/-! ## Keysyms -/

namespace Qt

def keyF1 : Int := 0x01000030
def keyF35 : Int := 0x01000052
def keyA : Int := 0x41
def keyZ : Int := 0x5a

end Qt

/-- X11 keysyms for keys that have no printable character. -/
def specialKeysym (key : Int) : UInt32 :=
  match key with
  | 0x01000003 => 0xff08 -- Backspace
  | 0x01000001 => 0xff09 -- Tab
  | 0x01000002 => 0xff09 -- Backtab
  | 0x01000004 => 0xff0d -- Return
  | 0x01000005 => 0xff8d -- Enter
  | 0x01000000 => 0xff1b -- Escape
  | 0x01000006 => 0xff63 -- Insert
  | 0x01000007 => 0xffff -- Delete
  | 0x01000010 => 0xff50 -- Home
  | 0x01000012 => 0xff51 -- Left
  | 0x01000013 => 0xff52 -- Up
  | 0x01000014 => 0xff53 -- Right
  | 0x01000015 => 0xff54 -- Down
  | 0x01000016 => 0xff55 -- PageUp
  | 0x01000017 => 0xff56 -- PageDown
  | 0x01000011 => 0xff57 -- End
  | 0x01000020 => 0xffe1 -- Shift
  | 0x01000021 => 0xffe3 -- Control
  | 0x01000023 => 0xffe9 -- Alt
  | 0x01001103 => 0xfe03 -- AltGr
  | 0x01000022 => 0xffeb -- Meta
  | 0x01000024 => 0xffe5 -- CapsLock
  | 0x01000025 => 0xff7f -- NumLock
  | 0x01000026 => 0xff14 -- ScrollLock
  | 0x01000008 => 0xff13 -- Pause
  | 0x01000009 => 0xff61 -- Print
  | 0x01000055 => 0xff67 -- Menu
  | key => if Qt.keyF1 ≤ key ∧ key ≤ Qt.keyF35 then 0xffbe + UInt32.ofInt (key - Qt.keyF1) else 0

/-- The keysym of a character, if it is a printable one. -/
def textKeysym (text : List UInt32) : Option UInt32 :=
  match text with
  | [] => none
  | cp :: _ => if cp ≥ 0x20 ∧ cp ≠ 0x7f then some (if cp ≤ 0xff then cp else 0x01000000 + cp) else none

def bareKeysym (key : Int) : UInt32 :=
  if Qt.keyA ≤ key ∧ key ≤ Qt.keyZ then UInt32.ofInt (key - Qt.keyA + 0x61)
  else if 0x20 ≤ key ∧ key ≤ 0x7e then UInt32.ofInt key
  else 0

def keysymFor (event : QKeyEvent) : UInt32 :=
  if specialKeysym event.key ≠ 0 then specialKeysym event.key
  else (textKeysym event.text).getD (bareKeysym event.key)

/-! ## Sending -/

namespace VncWidget

/-- The client sends nothing before the session runs. -/
def send (w : VncWidget) (message : InputMessage) : VncWidget :=
  if w.client = some .running then { w with sent := w.sent ++ [message] } else w

def sendKey (w : VncWidget) (keysym : UInt32) (down : Bool) : VncWidget := w.send (.key keysym down)

def buttonMask (buttons : List MouseButton) (wheelBits : UInt8) : UInt8 :=
  wheelBits ||| (if .left ∈ buttons then 1 else 0) ||| (if .middle ∈ buttons then 2 else 0) |||
    (if .right ∈ buttons then 4 else 0)

/-- `qBound(0, v, 65535)` as a `quint16`. -/
def bound16 (v : Int) : UInt16 := UInt16.ofInt (max 0 (min v 65535))

/-- `remote` is the point that `toRemote` makes of the position. -/
def sendPointer (w : VncWidget) (remote : QPoint) (buttons : List MouseButton) (wheelBits : UInt8) : VncWidget :=
  w.send (.pointer (buttonMask buttons wheelBits) (bound16 remote.1) (bound16 remote.2))

/-! ## Events -/

/-- Also for a double click. -/
def mousePressEvent (w : VncWidget) (button : MouseButton) (remote : QPoint) (shift : Bool) (buttons : List MouseButton) :
    VncWidget :=
  if button = .right ∧ shift then w else w.sendPointer remote buttons 0

def mouseReleaseEvent (w : VncWidget) (button : MouseButton) (remote : QPoint) (shift : Bool) (buttons : List MouseButton) :
    VncWidget :=
  if button = .right ∧ shift then w else w.sendPointer remote buttons 0

def mouseMoveEvent (w : VncWidget) (remote : QPoint) (buttons : List MouseButton) : VncWidget := w.sendPointer remote buttons 0

def wheelSteps (w : VncWidget) (remote : QPoint) (buttons : List MouseButton) (bit : UInt8) : Nat → VncWidget
  | 0 => w
  | n + 1 => ((w.sendPointer remote buttons bit).sendPointer remote buttons 0).wheelSteps remote buttons bit n

def wheelEvent (w : VncWidget) (remote : QPoint) (dy : Int) (buttons : List MouseButton) : VncWidget :=
  if dy = 0 ∨ w.client = none then w
  else w.wheelSteps remote buttons (if dy > 0 then 8 else 16) (max 1 (dy.natAbs / 120))

def keyPressEvent (w : VncWidget) (event : QKeyEvent) : VncWidget :=
  if w.client = none then w
  else if keysymFor event = 0 then w
  else { w with pressedKeys := (event.key, keysymFor event) :: w.pressedKeys.filter (·.1 ≠ event.key) }.sendKey
    (keysymFor event) true

def keyReleaseEvent (w : VncWidget) (event : QKeyEvent) : VncWidget :=
  if w.client = none ∨ event.autoRepeat then w
  else
    match w.pressedKeys.lookup event.key with
    | none => w
    | some keysym => { w.sendKey keysym false with pressedKeys := w.pressedKeys.filter (·.1 ≠ event.key) }

def releaseAllKeys (w : VncWidget) : VncWidget :=
  { (if w.client = none then w else (w.pressedKeys.map (·.2)).foldl (fun w keysym => w.sendKey keysym false) w) with
    pressedKeys := [] }

end VncWidget

/-! ## The desk -/

structure Desk where
  widget : VncWidget
  /-- The keys that are down, by scan code, with each Qt key they have reported. -/
  heldKeys : List (Nat × Int)
  buttons : List MouseButton
  focused : Bool

inductive DeskEvent where
  | keyPress (scan : Nat) (event : QKeyEvent)
  | keyRelease (scan : Nat) (event : QKeyEvent)
  | mousePress (button : MouseButton) (remote : QPoint) (shift : Bool)
  | mouseRelease (button : MouseButton) (remote : QPoint) (shift : Bool)
  | mouseMove (remote : QPoint)
  | wheel (remote : QPoint) (dy : Int)
  /-- A button goes up over something else, as a popup menu. -/
  | releasedElsewhere (button : MouseButton)
  | focusIn
  | focusOut

/-- Key events go where the focus is. A press of the mouse takes the focus. -/
def Desk.step (d : Desk) : DeskEvent → Desk
  | .keyPress scan event => { d with
      heldKeys := (scan, event.key) :: d.heldKeys
      widget := if d.focused then d.widget.keyPressEvent event else d.widget }
  | .keyRelease scan event => { d with
      heldKeys := if event.autoRepeat then d.heldKeys else d.heldKeys.filter (·.1 ≠ scan)
      widget := if d.focused then d.widget.keyReleaseEvent event else d.widget }
  | .mousePress button remote shift => { d with
      buttons := button :: d.buttons
      focused := true
      widget := d.widget.mousePressEvent button remote shift (button :: d.buttons) }
  | .mouseRelease button remote shift => { d with
      buttons := d.buttons.filter (· ≠ button)
      widget := d.widget.mouseReleaseEvent button remote shift (d.buttons.filter (· ≠ button)) }
  | .mouseMove remote => { d with widget := d.widget.mouseMoveEvent remote d.buttons }
  | .wheel remote dy => { d with widget := d.widget.wheelEvent remote dy d.buttons }
  | .releasedElsewhere button => { d with buttons := d.buttons.filter (· ≠ button) }
  | .focusIn => { d with focused := true }
  | .focusOut => { d with focused := false, widget := d.widget.releaseAllKeys }

/-- A widget bound to a client, at a desk in any state. -/
def Desk.bind (client : Option Stage) (heldKeys : List (Nat × Int)) (buttons : List MouseButton) (focused : Bool) : Desk :=
  ⟨⟨client, [], []⟩, heldKeys, buttons, focused⟩

end LvdTerm.Vnc
