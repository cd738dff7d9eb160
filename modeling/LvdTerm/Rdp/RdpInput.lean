import LvdTerm.Lib.Presses
import LvdTerm.Lib.Runs
import Mathlib.Data.List.Perm.Basic

/-!
# RDP: mouse and keyboard input

`RdpWidget` turns the events Qt delivers into input events, the GUI thread pushes them into the queue of `RdpThread`, and
the session thread wakes up, resets its event and drains the queue into FreeRDP. The two threads take their steps in any
order. The table of held keys is the GUI thread's own: a handler changes it first and then pushes.
-/
namespace LvdTerm.Rdp

/-! ## Input events -/

/-- `InputEvent::Kind` -/
inductive Kind where
  | mouse | scancode | unicode | clipboardChanged
  deriving DecidableEq, Repr

structure InputEvent where
  kind : Kind
  flags : UInt16 := 0
  x : UInt16 := 0
  y : UInt16 := 0
  code : UInt16 := 0
  deriving DecidableEq, Repr

def KBD_FLAGS_EXTENDED : UInt16 := 0x0100
def KBD_FLAGS_DOWN : UInt16 := 0x4000
def KBD_FLAGS_RELEASE : UInt16 := 0x8000

def PTR_FLAGS_WHEEL_NEGATIVE : UInt16 := 0x0100
def PTR_FLAGS_WHEEL : UInt16 := 0x0200
def PTR_FLAGS_MOVE : UInt16 := 0x0800
def PTR_FLAGS_BUTTON1 : UInt16 := 0x1000
def PTR_FLAGS_BUTTON2 : UInt16 := 0x2000
def PTR_FLAGS_BUTTON3 : UInt16 := 0x4000
def PTR_FLAGS_DOWN : UInt16 := 0x8000

structure Scan where
  code : UInt8 := 0
  extended : Bool := false
  deriving DecidableEq, Repr

def Scan.valid (s : Scan) : Bool := s.code ≠ 0

/-- What `sendScancode` pushes. -/
def scancodeEvent (scan : Scan) (down : Bool) : InputEvent where
  kind := .scancode
  flags := (if scan.extended then KBD_FLAGS_EXTENDED else 0) ||| (if down then KBD_FLAGS_DOWN else KBD_FLAGS_RELEASE)
  code := scan.code.toUInt16

/-- What `sendUnicode` pushes. -/
def unicodeEvent (codepoint : UInt16) (down : Bool) : InputEvent where
  kind := .unicode
  flags := if down then KBD_FLAGS_DOWN else KBD_FLAGS_RELEASE
  code := codepoint

/-- A `Qt::MouseButton` -/
inductive Button where
  | none | left | right | middle | other
  deriving DecidableEq, Repr

/-- `qBound(0, v, 65535)` as a `quint16` -/
def bound16 (v : Int) : UInt16 := UInt16.ofInt (max 0 (min v 65535))

/-- What `sendMouse` pushes. -/
def sendMouse (x y : Int) (changed : Button) (pressed : Bool) : List InputEvent :=
  let send (flags : UInt16) : List InputEvent := [⟨.mouse, flags, bound16 x, bound16 y, 0⟩]
  let down : UInt16 := if pressed then PTR_FLAGS_DOWN else 0
  match changed with
  | .none => send PTR_FLAGS_MOVE
  | .left => send (PTR_FLAGS_BUTTON1 ||| down)
  | .right => send (PTR_FLAGS_BUTTON2 ||| down)
  | .middle => send (PTR_FLAGS_BUTTON3 ||| down)
  | .other => []

/-- What `sendWheel` pushes: a negative rotation is the two's complement of its magnitude in the low byte. -/
def sendWheel (x y delta : Int) : List InputEvent :=
  if delta = 0 then []
  else
    let magnitude := max 1 (min delta.natAbs 255)
    let low : UInt16 := UInt16.ofNat (if delta < 0 then (0x100 - magnitude) % 0x100 else magnitude)
    [⟨.mouse, PTR_FLAGS_WHEEL ||| (if delta < 0 then PTR_FLAGS_WHEEL_NEGATIVE else 0) ||| low, bound16 x, bound16 y, 0⟩]

/-! ## Keys -/

def letters : List UInt8 :=
  [0x1e, 0x30, 0x2e, 0x20, 0x12, 0x21, 0x22, 0x23, 0x17, 0x24, 0x25, 0x26, 0x32,
   0x31, 0x18, 0x19, 0x10, 0x13, 0x1f, 0x14, 0x16, 0x2f, 0x11, 0x2d, 0x15, 0x2c]

/-- Scan codes of the keys that are neither letters nor in a row of digits or function keys. -/
def namedScan (key : Int) : Scan :=
  match key with
  | 0x30 => ⟨0x0b, false⟩ -- 0
  | 0x2d => ⟨0x0c, false⟩ -- Minus
  | 0x3d => ⟨0x0d, false⟩ -- Equal
  | 0x01000003 => ⟨0x0e, false⟩ -- Backspace
  | 0x01000001 => ⟨0x0f, false⟩ -- Tab
  | 0x01000002 => ⟨0x0f, false⟩ -- Backtab
  | 0x5b => ⟨0x1a, false⟩ -- BracketLeft
  | 0x5d => ⟨0x1b, false⟩ -- BracketRight
  | 0x01000004 => ⟨0x1c, false⟩ -- Return
  | 0x01000005 => ⟨0x1c, true⟩ -- Enter
  | 0x3b => ⟨0x27, false⟩ -- Semicolon
  | 0x27 => ⟨0x28, false⟩ -- Apostrophe
  | 0x60 => ⟨0x29, false⟩ -- QuoteLeft
  | 0x5c => ⟨0x2b, false⟩ -- Backslash
  | 0x2c => ⟨0x33, false⟩ -- Comma
  | 0x2e => ⟨0x34, false⟩ -- Period
  | 0x2f => ⟨0x35, false⟩ -- Slash
  | 0x20 => ⟨0x39, false⟩ -- Space
  | 0x01000000 => ⟨0x01, false⟩ -- Escape
  | 0x01000024 => ⟨0x3a, false⟩ -- CapsLock
  | 0x01000025 => ⟨0x45, false⟩ -- NumLock
  | 0x01000026 => ⟨0x46, false⟩ -- ScrollLock
  | 0x0100003a => ⟨0x57, false⟩ -- F11
  | 0x0100003b => ⟨0x58, false⟩ -- F12
  | 0x01000020 => ⟨0x2a, false⟩ -- Shift
  | 0x01000021 => ⟨0x1d, false⟩ -- Control
  | 0x01000023 => ⟨0x38, false⟩ -- Alt
  | 0x01001103 => ⟨0x38, true⟩ -- AltGr
  | 0x01000022 => ⟨0x5b, true⟩ -- Meta
  | 0x01000055 => ⟨0x5d, true⟩ -- Menu
  | 0x01000006 => ⟨0x52, true⟩ -- Insert
  | 0x01000007 => ⟨0x53, true⟩ -- Delete
  | 0x01000010 => ⟨0x47, true⟩ -- Home
  | 0x01000011 => ⟨0x4f, true⟩ -- End
  | 0x01000016 => ⟨0x49, true⟩ -- PageUp
  | 0x01000017 => ⟨0x51, true⟩ -- PageDown
  | 0x01000013 => ⟨0x48, true⟩ -- Up
  | 0x01000015 => ⟨0x50, true⟩ -- Down
  | 0x01000012 => ⟨0x4b, true⟩ -- Left
  | 0x01000014 => ⟨0x4d, true⟩ -- Right
  | 0x01000009 => ⟨0x37, true⟩ -- Print
  | _ => {}

/-- US-layout set 1 scan codes. -/
def scanFor (key : Int) : Scan :=
  if 0x41 ≤ key ∧ key ≤ 0x5a then ⟨letters.getD (key - 0x41).toNat 0, false⟩
  else if 0x31 ≤ key ∧ key ≤ 0x39 then ⟨0x02 + UInt8.ofInt (key - 0x31), false⟩
  else if 0x01000030 ≤ key ∧ key ≤ 0x01000039 then ⟨0x3b + UInt8.ofInt (key - 0x01000030), false⟩
  else namedScan key

/-- Shift, Control, Alt, AltGr and Meta. -/
def isModifierKey (key : Int) : Bool :=
  key = 0x01000020 ∨ key = 0x01000021 ∨ key = 0x01000023 ∨ key = 0x01001103 ∨ key = 0x01000022

structure QKeyEvent where
  /-- A `Qt::Key`. -/
  key : Int
  /-- `text().toUcs4()` -/
  text : List UInt32
  /-- Control, Alt or Meta is among the modifiers. -/
  shortcutModifier : Bool
  autoRepeat : Bool

/-- The character a key press sends as Unicode. -/
def codepointOf (event : QKeyEvent) : Option UInt16 :=
  let codepoint := event.text.headD 0
  if ¬ event.shortcutModifier ∧ ¬ isModifierKey event.key ∧ codepoint ≥ 0x20 ∧ codepoint ≠ 0x7f ∧ codepoint ≤ 0xffff then
    some codepoint.toUInt16
  else none

/-! ## The two threads -/

/-- Where the session thread is in its loop. -/
inductive Phase where
  | connecting
  /-- In `WaitForMultipleObjects`. -/
  | waiting
  /-- In `freerdp_check_event_handles`. -/
  | checking
  /-- Before `ResetEvent`. -/
  | resetting
  /-- After it, before the queue is taken. -/
  | swapping
  /-- In the loop of `drainInput`. -/
  | draining
  deriving DecidableEq, Repr

/-- The desk, the widget that is bound to a client, and the client's session. -/
structure RdpSession where
  /-- The keys that are down, by their number on the keyboard, with each Qt key they have reported. -/
  heldLocally : List (Nat × Int)
  focused : Bool
  /-- `m_heldKeys`; the order of a hash stands for any. -/
  heldKeys : List (Int × Scan)
  /-- What the GUI thread has still to push for the event it is handling. -/
  todo : List InputEvent
  /-- `m_input` -/
  input : List InputEvent
  /-- `m_wake` is set. -/
  wake : Bool
  /-- The pushes that have not come to their `SetEvent`. -/
  setting : Nat
  phase : Phase
  /-- `drainInput`'s. -/
  events : List InputEvent
  sent : List InputEvent
  pushed : List InputEvent

/-- A widget that was just bound to its client, on a desk in any state. -/
def RdpSession.bind (heldLocally : List (Nat × Int)) (focused : Bool) : RdpSession :=
  ⟨heldLocally, focused, [], [], [], false, 0, .connecting, [], [], []⟩

inductive GuiEvent where
  | keyPress (physical : Nat) (event : QKeyEvent)
  | keyRelease (physical : Nat) (event : QKeyEvent)
  | focusIn
  /-- With the order the hash has. -/
  | focusOut (order : List (Int × Scan))
  | mouse (x y : Int) (changed : Button) (pressed : Bool)
  | wheel (x y delta : Int)
  | clipboardChanged

namespace RdpSession

/-- Key events reach the widget while it has the focus. -/
def keyPressEvent (event : QKeyEvent) (s : RdpSession) : RdpSession :=
  if ¬ s.focused then s
  else
    match codepointOf event with
    | some codepoint => { s with todo := [unicodeEvent codepoint true, unicodeEvent codepoint false] }
    | none =>
      let scan := scanFor event.key
      if ¬ scan.valid then s
      else { s with heldKeys := (event.key, scan) :: s.heldKeys.filter (·.1 ≠ event.key), todo := [scancodeEvent scan true] }

def keyReleaseEvent (event : QKeyEvent) (s : RdpSession) : RdpSession :=
  if ¬ s.focused ∨ event.autoRepeat then s
  else
    match s.heldKeys.lookup event.key with
    | none => s
    | some scan => { s with heldKeys := s.heldKeys.filter (·.1 ≠ event.key), todo := [scancodeEvent scan false] }

def releaseAllKeys (order : List (Int × Scan)) (s : RdpSession) : RdpSession :=
  let held := if order.Perm s.heldKeys then order else s.heldKeys
  { s with heldKeys := [], todo := held.map fun k => scancodeEvent k.2 false }

/-- An event is handled once the one before it has been. -/
def gui (event : GuiEvent) (s : RdpSession) : RdpSession :=
  if s.todo ≠ [] then s
  else
    match event with
    | .keyPress physical event => { s with heldLocally := (physical, event.key) :: s.heldLocally }.keyPressEvent event
    | .keyRelease physical event =>
      { s with heldLocally := if event.autoRepeat then s.heldLocally else s.heldLocally.filter (·.1 ≠ physical) }.keyReleaseEvent
        event
    | .focusIn => { s with focused := true }
    | .focusOut order => { s with focused := false }.releaseAllKeys order
    | .mouse x y changed pressed => { s with todo := sendMouse x y changed pressed }
    | .wheel x y delta => { s with todo := sendWheel x y delta }
    | .clipboardChanged => { s with todo := [{ kind := .clipboardChanged }] }

def kMaxInput : Nat := 4096

/-- `RdpThread::push` up to the unlocking; an event that finds too many is dropped. -/
def push (s : RdpSession) : RdpSession :=
  match s.todo with
  | [] => s
  | e :: todo =>
    if s.input.length > kMaxInput then { s with todo := todo, pushed := s.pushed ++ [e] }
    else { s with todo := todo, pushed := s.pushed ++ [e], input := s.input ++ [e], setting := s.setting + 1 }

/-- `SetEvent(m_wake)` at the end of a push. -/
def setEvent (s : RdpSession) : RdpSession :=
  if s.setting = 0 then s else { s with setting := s.setting - 1, wake := true }

/-- The session thread goes on. A wait ends when `m_wake` or a handle of FreeRDP is set, or after 200 ms. -/
def runThread (s : RdpSession) : RdpSession :=
  match s.phase with
  | .connecting => { s with phase := .waiting }
  | .waiting => { s with phase := .checking }
  | .checking => { s with phase := .resetting }
  | .resetting => { s with phase := .swapping, wake := false }
  | .swapping => { s with phase := .draining, events := s.input, input := [] }
  | .draining =>
    match s.events with
    | [] => { s with phase := .waiting }
    | e :: events => { s with events := events, sent := s.sent ++ [e] }

inductive Step where
  | gui (event : GuiEvent)
  | push
  | setEvent
  | runThread

def step (s : RdpSession) : Step → RdpSession
  | .gui event => s.gui event
  | .push => s.push
  | .setEvent => s.setEvent
  | .runThread => s.runThread

end RdpSession

end LvdTerm.Rdp
