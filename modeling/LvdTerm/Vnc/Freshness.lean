import LvdTerm.Vnc.AlikeRuns
import LvdTerm.Vnc.Repaint

/-!
# VNC client: connecting again

`startConnection` empties the buffer and starts the stages anew, and leaves the members of the running
session as the last connection left them. What it leaves is dead unless that connection ended in the
middle of an update or had used a zlib stream.
-/
namespace LvdTerm.Vnc

open Lib Lib.Action

variable {E : Env} {c : VncClient E}

/-- `c`, which had said `old` before, is seen to do what `c'` does. -/
structure LooksLike (old : List Event) (c c' : VncClient E) : Prop where
  stage : c.stage = c'.stage
  events : c.events = old ++ c'.events
  framebuffer : .ready ∈ c'.events → c.fb = c'.fb

/-- Connected once more, `c` reacts to everything as a new client with its settings does. -/
def ConnectsAfresh (c : VncClient E) : Prop :=
  ∀ password events, Outcomes (fun _ => True) (fun _ => LooksLike c.events)
    ((connectToHost password >>= fun _ => run events) c)
    (run events (.connecting E c.passwordProvider c.encodings password))

/-- No update is under way, and no zlib stream has been used. -/
structure Clean (c : VncClient E) : Prop where
  inRect : c.inRect = false
  rectsLeft : c.rectsLeft ≤ 0
  dirty : c.dirty = ⟨0, 0, 0, 0⟩
  resized : c.resized = false
  tightStreams : ∀ i, Unused (c.tightStreams i)
  zrleStream : Unused c.zrleStream

/-- The client `connectToHost` leaves. -/
def reconnected (password : String) (c : VncClient E) : VncClient E :=
  { c with password := password, maxMinor := 8, failedAlready := false, buf := [], stage := .version, socket := true }

theorem connectToHost_apply (password : String) (c : VncClient E) :
    connectToHost password c = .ok ((), reconnected password c) := rfl

theorem Clean.alike (h : Clean c) (password : String) :
    Alike c.events (reconnected password c) (.connecting E c.passwordProvider c.encodings password) where
  events := (List.append_nil _).symm
  socket := rfl
  buf := rfl
  stage := rfl
  passwordProvider := rfl
  password := rfl
  maxMinor := rfl
  encodings := rfl
  failedAlready := rfl
  open_iff := by simp [VncClient.connecting]
  failed hf := by cases hf
  minor _ hv := absurd rfl hv
  dirty := h.dirty
  resized := h.resized
  tightStreams i := .inr ⟨h.tightStreams i, .inl rfl⟩
  zrleStream := .inr ⟨h.zrleStream, .inl rfl⟩
  screen hr := by cases hr
  running hs := by cases hs
  inRect := h.inRect
  progress hin := by cases hin
  left := .inr ⟨rfl, h.rectsLeft, Int.le_refl 0⟩
  mode hp := by
    rcases hp with hin | hpos
    · cases hin
    · cases hpos

theorem Alike.looksLike {old : List Event} {c' : VncClient E} (h : Alike old c c') : LooksLike old c c' where
  stage := h.stage
  events := h.events
  framebuffer hr := congrArg (fun s => s.2.1) (h.screen hr)

theorem Outcomes.weaken {α : Type} {F G : Fault → Prop} {T U : α → VncClient E → VncClient E → Prop}
    {r r' : Except Fault (α × VncClient E)} (h : Outcomes F T r r') (hFG : ∀ f, F f → G f) (hTU : ∀ a c c', T a c c' → U a c c') :
    Outcomes G U r r' := by
  cases h with
  | ok a h => exact .ok a (hTU _ _ _ h)
  | error e h => exact .error e (hFG e h)

/-- A client whose last connection has left nothing behind starts afresh. -/
theorem clean_connects_afresh (h : Clean c) : ConnectsAfresh c := by
  intro password events
  have hrun : Outcomes Excused (fun _ => Alike c.events) (run events (reconnected password c))
      (run events (.connecting E c.passwordProvider c.encodings password)) := alike_run (h.alike password) events
  rw [bind_of_ok (connectToHost_apply password c)]
  exact Outcomes.weaken hrun (fun _ _ => trivial) fun _ _ _ h => h.looksLike

/-! ## What is left behind -/

/-- What is done with a client. -/
inductive Call where
  | connectToHost (password : String)
  | close
  | socket (event : SocketEvent)

def call : Call → ClientM E Unit
  | .connectToHost password => connectToHost password
  | .close => close
  | .socket event => deliver event

def callAll : List Call → ClientM E Unit
  | [] => pure ()
  | c :: cs => do
    call c
    callAll cs

/-- A handshake without a password, to a screen of one pixel. -/
def onePixelDesktop : List UInt8 :=
  version38 ++ [1, 1] ++ [0, 0, 0, 0] ++ [0, 1, 0, 1] ++ List.replicate 16 0 ++ [0, 0, 0, 0]

/-- The client has shown a bell of its server, and the connection is closed. -/
def afterBell : VncClient .bare :=
  left (.new .bare none []) (callAll [.connectToHost "", .socket (.readyRead (onePixelDesktop ++ [2])), .socket .disconnected]
    (.new .bare none []))

theorem clean_connects_afresh_bell : ConnectsAfresh afterBell := by
  refine clean_connects_afresh ⟨by decide +kernel, by decide +kernel, by decide +kernel, by decide +kernel, fun i => .inl ?_, .inl ?_⟩
  · have hnone : ∀ i, (afterBell.tightStreams i).isNone = true := by decide +kernel
    exact Option.isNone_iff_eq_none.mp (hnone i)
  · exact Option.isNone_iff_eq_none.mp (by decide +kernel)

/-- The server has announced a raw pixel that never came. -/
def cutOff : List Call :=
  [.connectToHost "", .socket (.readyRead (onePixelDesktop ++ [0, 0, 0, 1] ++ [0, 0, 0, 0, 0, 1, 0, 1, 0, 0, 0, 0])),
    .socket .disconnected]

def afterCutOff : VncClient .bare := left (.new .bare none []) (callAll cutOff (.new .bare none []))

/-- The next connection's handshake, and four bells. -/
def bells : List SocketEvent := [.readyRead (onePixelDesktop ++ [2, 2, 2, 2])]

def afterBells : VncClient .bare := left afterCutOff ((connectToHost "" >>= fun _ => run bells) afterCutOff)

def newAfterBells : VncClient .bare :=
  left afterCutOff (run bells (.connecting .bare afterCutOff.passwordProvider afterCutOff.encodings ""))

/-- The bells are taken for the pixel of the connection before. -/
theorem stale_rectangle_swallows_bells :
    ¬ ∀ past (c : VncClient .bare), callAll past (.new .bare none []) = .ok ((), c) → ConnectsAfresh c := by
  intro hclaim
  have hpast : callAll cutOff (.new .bare none []) = .ok ((), afterCutOff) := eq_ok_of_value _ (by decide +kernel)
  have hstale : (connectToHost "" >>= fun _ => run bells) afterCutOff = .ok ((), afterBells) :=
    eq_ok_of_value _ (by decide +kernel)
  have hnew : run bells (.connecting .bare afterCutOff.passwordProvider afterCutOff.encodings "") = .ok ((), newAfterBells) :=
    eq_ok_of_value _ (by decide +kernel)
  have hfresh := hclaim cutOff afterCutOff hpast "" bells
  rw [hstale, hnew] at hfresh
  have hbell : .bell ∈ newAfterBells.events := by decide +kernel
  have hlost : .bell ∉ afterBells.events := by decide +kernel
  rw [hfresh.related.events] at hlost
  exact hlost (List.mem_append_right _ hbell)

end LvdTerm.Vnc
