import LvdTerm.Lib.LineEnds
import LvdTerm.Rdp.RdpInput

/-!
# RDP: the clipboard

`RdpWidget` hands what is copied on this machine to `RdpClient`, and puts what was copied on the remote one on this machine's
clipboard. The session thread learns of the former through its input queue, the widget of the latter through a queued signal.
A question over the clipboard channel is answered at once: the texts themselves are asked for and sent in one step.
-/
namespace LvdTerm.Rdp

open Lib.LineEnds

/-- A `QString`. -/
abbrev Text := List UInt16

def CR : UInt16 := 13
def LF : UInt16 := 10

/-- What a program on the remote machine has copied, as the server answers a request for it. -/
inductive Offer where
  /-- `CF_UNICODETEXT`, its terminating NUL included. -/
  | unicode (data : Text)
  /-- `CF_TEXT` only. -/
  | text (data : List UInt8)
  /-- Nothing that is text, or text the server fails to send. -/
  | other
  deriving DecidableEq

/-- Whose formats were announced last over the channel. -/
inductive Owner where
  | client
  | server (offer : Offer)
  deriving DecidableEq

/-- The last copy made on either machine. -/
inductive LastCopy where
  | locally (text : Text)
  | remotely (text : Text)
  | other

structure RdpClipboard where
  /-- `QGuiApplication::clipboard()->text()` -/
  clipboard : Text
  /-- `m_fromRemote` -/
  fromRemote : Text
  /-- `m_localClipboard` -/
  localClipboard : Text
  /-- `m_input` -/
  input : List InputEvent
  /-- `drainInput`'s. -/
  events : List InputEvent
  /-- The `remoteClipboardText` signals on their way to the widget. -/
  signals : List Text
  owner : Owner
  /-- The texts the client offered. -/
  announced : List Text
  /-- The texts that were copied here. -/
  copied : List Text
  lastCopy : LastCopy

namespace RdpClipboard

/-- Up to the first NUL. -/
def truncated (text : Text) : Text := text.takeWhile (· ≠ 0)

section Channel

-- `QString::fromLocal8Bit`, the encoding of the locale.
variable (fromLocal8Bit : List UInt8 → Text)

/-- The text of an offer, as units. -/
def textOf : Offer → Option Text
  | .unicode data => some (truncated data)
  | .text data => some (truncated (fromLocal8Bit data))
  | .other => none

/-- `clipServerFormatList` asks for the text, and `clipServerFormatDataResponse` passes it on. -/
def clipServerFormatDataResponse (offer : Offer) : List Text :=
  match textOf fromLocal8Bit offer with
  | some text => [collapse CR LF text]
  | none => []

/-- What `clipServerFormatDataRequest` answers to a request for `CF_UNICODETEXT`. -/
def clipServerFormatDataRequest (s : RdpClipboard) : Text := expand CR LF (collapse CR LF s.localClipboard) ++ [0]

/-- The `CF_UNICODETEXT` a program on the remote machine gets when it pastes. -/
def remotePaste (s : RdpClipboard) : Option Text :=
  match s.owner with
  | .client => some s.clipServerFormatDataRequest
  | .server (.unicode data) => some data
  | .server (.text data) => some (fromLocal8Bit data)
  | .server .other => none

end Channel

def sendClipboardFormats (s : RdpClipboard) : RdpClipboard :=
  if s.localClipboard = [] then s else { s with owner := .client, announced := s.announced ++ [s.localClipboard] }

/-- `RdpThread::push` -/
def push (e : InputEvent) (s : RdpClipboard) : RdpClipboard :=
  if s.input.length > RdpSession.kMaxInput then s else { s with input := s.input ++ [e] }

def setLocalClipboardText (text : Text) (s : RdpClipboard) : RdpClipboard :=
  if text = s.localClipboard then s else { s with localClipboard := text }.push { kind := .clipboardChanged }

/-- The widget's handler of `dataChanged`. -/
def dataChanged (s : RdpClipboard) : RdpClipboard :=
  if s.clipboard ≠ s.fromRemote then s.setLocalClipboardText s.clipboard else s

/-- The handler of `remoteClipboardText`, which sets off the other one. -/
def remoteClipboardText (s : RdpClipboard) : RdpClipboard :=
  match s.signals with
  | [] => s
  | text :: signals =>
    if text = [] then { s with signals := signals }
    else { s with signals := signals, fromRemote := text, clipboard := text }.dataChanged

/-- A program on this machine copies; what is not text is the empty one. -/
def copyLocally (text : Text) (s : RdpClipboard) : RdpClipboard :=
  { s with clipboard := text, copied := text :: s.copied, lastCopy := .locally text }.dataChanged

def copyRemotely (fromLocal8Bit : List UInt8 → Text) (offer : Offer) (s : RdpClipboard) : RdpClipboard :=
  { s with
    owner := .server offer
    signals := s.signals ++ clipServerFormatDataResponse fromLocal8Bit offer
    lastCopy := match textOf fromLocal8Bit offer with
      | some text => .remotely text
      | none => .other }

/-- `drainInput` takes the queue, -/
def swapInput (s : RdpClipboard) : RdpClipboard := if s.events = [] then { s with events := s.input, input := [] } else s

/-- and one event after the other. -/
def handleEvent (s : RdpClipboard) : RdpClipboard :=
  match s.events with
  | [] => s
  | e :: events => if e.kind = .clipboardChanged then { s with events := events }.sendClipboardFormats else { s with events := events }

inductive Step where
  | copyLocally (text : Text)
  | copyRemotely (offer : Offer)
  /-- Mouse and keyboard. -/
  | input (e : { e : InputEvent // e.kind ≠ .clipboardChanged })
  | remoteClipboardText
  | swapInput
  | handleEvent

def step (fromLocal8Bit : List UInt8 → Text) (s : RdpClipboard) : Step → RdpClipboard
  | .copyLocally text => s.copyLocally text
  | .copyRemotely offer => s.copyRemotely fromLocal8Bit offer
  | .input e => s.push e
  | .remoteClipboardText => s.remoteClipboardText
  | .swapInput => s.swapInput
  | .handleEvent => s.handleEvent

/-- When `clipMonitorReady` has sent the formats. The clipboards hold what they hold. -/
def monitorReady (clipboard fromRemote localClipboard : Text) (input events : List InputEvent) (offer : Offer) : RdpClipboard :=
  sendClipboardFormats ⟨clipboard, fromRemote, localClipboard, input, events, [], .server offer, [], [localClipboard], .other⟩

end RdpClipboard

end LvdTerm.Rdp
