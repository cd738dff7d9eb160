import LvdTerm.Lib.Association
import LvdTerm.Vnc.Widget

/-!
# VncWidget: keys and buttons are let go

`LetsGo` is what the server must have been told once no key is held (or the focus is gone) and
no button is. The widget keeps one keysym for each Qt key, reads the keysym from the text at the
moment, and does not forward a right button that goes up under Shift. `Follows` is the condition
on an event that none of this loses track of something the server holds down.
-/
namespace LvdTerm.Vnc

open Lib.Association Lib.Runs

/-- Sent with `down=true`, and not with `down=false` since. -/
def StillDown (sent : List InputMessage) (keysym : UInt32) : Prop :=
  ∃ before after, sent = before ++ .key keysym true :: after ∧ .key keysym false ∉ after

def InputMessage.mask : InputMessage → Option UInt8
  | .pointer buttonMask _ _ => some buttonMask
  | .key _ _ => none

/-- The last pointer message, if there is one, has no button bit set. -/
def ButtonsUp (sent : List InputMessage) : Prop := ∀ mask, (sent.filterMap InputMessage.mask).getLast? = some mask → mask = 0

structure LetsGo (d : Desk) : Prop where
  keys : d.heldKeys = [] ∨ d.focused = false → ∀ keysym, ¬ StillDown d.widget.sent keysym
  buttons : d.buttons = [] → ButtonsUp d.widget.sent

/-- A held key that meets `other` has reported a Qt key under which the widget keeps the keysym. -/
def Recorded (d : Desk) (other : Nat × Int → Prop) (keysym : UInt32) : Prop :=
  ∃ held ∈ d.heldKeys, other held ∧ d.widget.pressedKeys.lookup held.2 = some keysym

/-- What is down at the server is the keysym of the key event, or that of another held key; and
a button that goes up unnoticed is not the last one the server knows of. -/
def Follows (d : Desk) : DeskEvent → Prop
  | .keyPress _ event => d.focused = true → keysymFor event ≠ 0 → ∀ keysym, StillDown d.widget.sent keysym →
    keysym = keysymFor event ∨ Recorded d (·.2 ≠ event.key) keysym
  | .keyRelease scan event => event.autoRepeat = false → ∀ keysym, StillDown d.widget.sent keysym →
    d.widget.pressedKeys.lookup event.key = some keysym ∨ Recorded d (·.1 ≠ scan) keysym
  | .mouseRelease button _ shift => button = .right → shift = true → (∀ b ∈ d.buttons, b = button) → ButtonsUp d.widget.sent
  | .releasedElsewhere button => (∀ b ∈ d.buttons, b = button) → ButtonsUp d.widget.sent
  | _ => True

/-! ## What a message changes -/

theorem stillDown_concat (sent : List InputMessage) (message : InputMessage) (keysym : UInt32) :
    StillDown (sent ++ [message]) keysym ↔
      message = .key keysym true ∨ (StillDown sent keysym ∧ message ≠ .key keysym false) := by
  constructor
  · rintro ⟨before, after, hsent, hup⟩
    rcases List.eq_nil_or_concat after with rfl | ⟨after, last, rfl⟩
    · exact .inl (List.append_inj_right' hsent rfl |> List.singleton_inj.mp)
    · rw [List.concat_eq_append, ← List.cons_append, ← List.append_assoc] at hsent
      have hlast : message = last := List.singleton_inj.mp (List.append_inj_right' hsent rfl)
      rw [List.concat_eq_append, List.mem_append, List.mem_singleton, not_or] at hup
      right
      constructor
      · exact ⟨before, after, List.append_inj_left' hsent rfl, hup.1⟩
      · intro h
        exact hup.2 (h.symm.trans hlast)
  · rintro (rfl | ⟨⟨before, after, rfl, hup⟩, hmessage⟩)
    · exact ⟨sent, [], rfl, List.not_mem_nil⟩
    · refine ⟨before, after ++ [message], by simp, ?_⟩
      rw [List.mem_append, List.mem_singleton, not_or]
      exact ⟨hup, fun h => hmessage h.symm⟩

theorem not_stillDown_nil (keysym : UInt32) : ¬ StillDown [] keysym := by
  rintro ⟨before, after, h, _⟩
  simp at h

theorem buttonsUp_key (sent : List InputMessage) (keysym : UInt32) (down : Bool) :
    ButtonsUp (sent ++ [.key keysym down]) ↔ ButtonsUp sent := by
  unfold ButtonsUp
  rw [List.filterMap_append]
  have hnone : [InputMessage.key keysym down].filterMap InputMessage.mask = [] := rfl
  rw [hnone, List.append_nil]

theorem buttonsUp_pointer (sent : List InputMessage) (mask : UInt8) (x y : UInt16) :
    ButtonsUp (sent ++ [.pointer mask x y]) ↔ mask = 0 := by
  unfold ButtonsUp
  rw [List.filterMap_append]
  have hone : [InputMessage.pointer mask x y].filterMap InputMessage.mask = [mask] := rfl
  rw [hone, List.getLast?_append, List.getLast?_singleton, Option.some_or]
  constructor
  · intro h
    exact h mask rfl
  · intro h m hm
    cases hm
    exact h

/-! ## What sending changes -/

namespace VncWidget

/-- Before the session runs nothing has been sent. -/
def Silent (w : VncWidget) : Prop := w.client ≠ some .running → w.sent = []

@[simp] theorem send_client (w : VncWidget) (message : InputMessage) : (w.send message).client = w.client := by
  unfold send
  split <;> rfl

@[simp] theorem send_pressedKeys (w : VncWidget) (message : InputMessage) : (w.send message).pressedKeys = w.pressedKeys := by
  unfold send
  split <;> rfl

theorem Silent.send {w : VncWidget} (hw : w.Silent) (message : InputMessage) : (w.send message).Silent := by
  intro h
  rw [send_client] at h
  rw [VncWidget.send, if_neg h]
  exact hw h

theorem Silent.stillDown_send {w : VncWidget} (hw : w.Silent) {message : InputMessage} {keysym : UInt32}
    (h : StillDown (w.send message).sent keysym) :
    message = .key keysym true ∨ (StillDown w.sent keysym ∧ message ≠ .key keysym false) := by
  unfold VncWidget.send at h
  split at h
  · exact (stillDown_concat w.sent message keysym).mp h
  · next hclient =>
    rw [hw hclient] at h
    exact absurd h (not_stillDown_nil keysym)

theorem Silent.buttonsUp_sendPointer {w : VncWidget} (hw : w.Silent) (remote : QPoint) :
    ButtonsUp (w.sendPointer remote [] 0).sent := by
  unfold sendPointer VncWidget.send
  split
  · exact (buttonsUp_pointer w.sent _ _ _).mpr rfl
  · next hclient =>
    rw [hw hclient]
    intro mask hmask
    cases hmask

theorem buttonsUp_sendKey {w : VncWidget} (keysym : UInt32) (down : Bool) :
    ButtonsUp (w.sendKey keysym down).sent ↔ ButtonsUp w.sent := by
  unfold sendKey send
  split
  · exact buttonsUp_key w.sent keysym down
  · exact Iff.rfl

theorem Silent.wheelSteps {remote : QPoint} {buttons : List MouseButton} {bit : UInt8} (n : Nat) {w : VncWidget}
    (hw : w.Silent) : (w.wheelSteps remote buttons bit n).Silent := by
  induction n generalizing w with
  | zero => exact hw
  | succ n ih => exact ih ((hw.send _).send _)

theorem Silent.buttonsUp_wheelSteps {remote : QPoint} {bit : UInt8} (n : Nat) {w : VncWidget} (hw : w.Silent)
    (hup : ButtonsUp w.sent) : ButtonsUp (w.wheelSteps remote [] bit n).sent := by
  induction n generalizing w with
  | zero => exact hup
  | succ n ih => exact ih ((hw.send _).send _) ((hw.send _).buttonsUp_sendPointer remote)

end VncWidget

/-! ## The table of pressed keys -/

namespace VncWidget

theorem Silent.sendKeys (keysyms : List UInt32) {w : VncWidget} (hw : w.Silent) :
    (keysyms.foldl (fun w keysym => w.sendKey keysym false) w).Silent := by
  induction keysyms generalizing w with
  | nil => exact hw
  | cons k keysyms ih => exact ih (hw.send _)

theorem Silent.stillDown_sendKeys {keysym : UInt32} (keysyms : List UInt32) {w : VncWidget} (hw : w.Silent)
    (h : StillDown (keysyms.foldl (fun w keysym => w.sendKey keysym false) w).sent keysym) :
    StillDown w.sent keysym ∧ keysym ∉ keysyms := by
  induction keysyms generalizing w with
  | nil => exact ⟨h, List.not_mem_nil⟩
  | cons k keysyms ih =>
    obtain ⟨hdown, hnot⟩ := ih (hw.send _) h
    obtain hpress | ⟨hdown, hne⟩ := hw.stillDown_send hdown
    · cases hpress
    · refine ⟨hdown, ?_⟩
      rintro (_ | _)
      · exact hne rfl
      · exact hnot ‹_›

theorem buttonsUp_sendKeys (keysyms : List UInt32) (w : VncWidget) :
    ButtonsUp (keysyms.foldl (fun w keysym => w.sendKey keysym false) w).sent ↔ ButtonsUp w.sent := by
  induction keysyms generalizing w with
  | nil => exact Iff.rfl
  | cons k keysyms ih => exact (ih (w.sendKey k false)).trans (buttonsUp_sendKey k false)

theorem keyReleaseEvent_same {w : VncWidget} {event : QKeyEvent}
    (h : w.client = none ∨ event.autoRepeat = true ∨ w.pressedKeys.lookup event.key = none) : w.keyReleaseEvent event = w := by
  unfold keyReleaseEvent
  split
  · rfl
  · next hsends =>
    rw [not_or] at hsends
    rw [(h.resolve_left hsends.1).resolve_left hsends.2]

theorem keyReleaseEvent_released {w : VncWidget} {event : QKeyEvent} {keysym : UInt32} (hclient : w.client ≠ none)
    (hrepeat : event.autoRepeat = false) (hfound : w.pressedKeys.lookup event.key = some keysym) :
    w.keyReleaseEvent event = { w.sendKey keysym false with pressedKeys := w.pressedKeys.filter (·.1 ≠ event.key) } := by
  unfold keyReleaseEvent
  rw [if_neg (not_or.mpr ⟨hclient, Bool.eq_false_iff.mp hrepeat⟩), hfound]

/-- Only the mouse has been at work. -/
structure PointerOnly (w w' : VncWidget) : Prop where
  silent : w'.Silent
  pressedKeys : w'.pressedKeys = w.pressedKeys
  stillDown : ∀ keysym, StillDown w'.sent keysym → StillDown w.sent keysym

theorem Silent.pointerOnly {w : VncWidget} (hw : w.Silent) : PointerOnly w w := ⟨hw, rfl, fun _ h => h⟩

theorem PointerOnly.sendPointer {w w' : VncWidget} (h : PointerOnly w w') (remote : QPoint) (buttons : List MouseButton)
    (wheelBits : UInt8) : PointerOnly w (w'.sendPointer remote buttons wheelBits) where
  silent := h.silent.send _
  pressedKeys := (send_pressedKeys w' _).trans h.pressedKeys
  stillDown keysym hdown := by
    obtain hpress | ⟨hdown, _⟩ := h.silent.stillDown_send hdown
    · cases hpress
    · exact h.stillDown keysym hdown

theorem PointerOnly.wheelSteps {w : VncWidget} {remote : QPoint} {buttons : List MouseButton} {bit : UInt8} (n : Nat)
    {w' : VncWidget} (h : PointerOnly w w') : PointerOnly w (w'.wheelSteps remote buttons bit n) := by
  induction n generalizing w' with
  | zero => exact h
  | succ n ih => exact ih ((h.sendPointer _ _ _).sendPointer _ _ _)

end VncWidget

/-! ## The invariant -/

structure Tracked (d : Desk) : Prop where
  silent : d.widget.Silent
  recorded : ∀ keysym, StillDown d.widget.sent keysym → Recorded d (fun _ => True) keysym
  unfocused : d.focused = false → d.widget.pressedKeys = []
  buttons : d.buttons = [] → ButtonsUp d.widget.sent

namespace Tracked

variable {d : Desk}

theorem bind (client : Option Stage) (heldKeys : List (Nat × Int)) (buttons : List MouseButton) (focused : Bool) :
    Tracked (.bind client heldKeys buttons focused) where
  silent _ := rfl
  recorded keysym h := absurd h (not_stillDown_nil keysym)
  unfocused _ := rfl
  buttons _ mask h := by cases h

theorem letsGo (hd : Tracked d) : LetsGo d where
  keys hgone keysym hdown := by
    obtain ⟨held, hmem, _, hlookup⟩ := hd.recorded keysym hdown
    obtain hnone | haway := hgone
    · rw [hnone] at hmem
      cases hmem
    · rw [hd.unfocused haway] at hlookup
      cases hlookup
  buttons := hd.buttons

theorem pointer (hd : Tracked d) {w : VncWidget} (h : d.widget.PointerOnly w) {buttons : List MouseButton} {focused : Bool}
    (hfocus : focused = false → d.focused = false) (hbuttons : buttons = [] → ButtonsUp w.sent) :
    Tracked ⟨w, d.heldKeys, buttons, focused⟩ where
  silent := h.silent
  recorded keysym hdown := by
    obtain ⟨held, hmem, _, hlookup⟩ := hd.recorded keysym (h.stillDown keysym hdown)
    exact ⟨held, hmem, trivial, h.pressedKeys ▸ hlookup⟩
  unfocused haway := h.pressedKeys.trans (hd.unfocused (hfocus haway))
  buttons := hbuttons

/-- More has been reported by the held keys. -/
theorem moreKeys (hd : Tracked d) (held : Nat × Int) : Tracked { d with heldKeys := held :: d.heldKeys } where
  silent := hd.silent
  recorded keysym hdown := by
    obtain ⟨old, hmem, _, hlookup⟩ := hd.recorded keysym hdown
    exact ⟨old, List.mem_cons_of_mem _ hmem, trivial, hlookup⟩
  unfocused := hd.unfocused
  buttons := hd.buttons

theorem keyPress (hd : Tracked d) (scan : Nat) (event : QKeyEvent) (h : Follows d (.keyPress scan event)) :
    Tracked (d.step (.keyPress scan event)) := by
  have hstep : d.step (.keyPress scan event) = { d with
      heldKeys := (scan, event.key) :: d.heldKeys
      widget := if d.focused then d.widget.keyPressEvent event else d.widget } := rfl
  rw [hstep]
  by_cases hsends : d.focused = true ∧ d.widget.client ≠ none ∧ keysymFor event ≠ 0
  · obtain ⟨hfocus, hclient, hkeysym⟩ := hsends
    rw [if_pos hfocus, VncWidget.keyPressEvent, if_neg hclient, if_neg hkeysym]
    have hsilent : VncWidget.Silent { d.widget with
        pressedKeys := (event.key, keysymFor event) :: d.widget.pressedKeys.filter (·.1 ≠ event.key) } := hd.silent
    constructor
    · exact hsilent.send _
    · intro keysym hdown
      unfold Recorded
      dsimp only
      rw [VncWidget.sendKey, VncWidget.send_pressedKeys]
      obtain hpress | ⟨hdown, _⟩ := hsilent.stillDown_send hdown
      · cases hpress
        exact ⟨(scan, event.key), List.mem_cons_self, trivial, List.lookup_cons_self⟩
      · obtain rfl | ⟨held, hmem, hother, hlookup⟩ := h hfocus hkeysym keysym hdown
        · exact ⟨(scan, event.key), List.mem_cons_self, trivial, List.lookup_cons_self⟩
        · have hne : (held.2 == event.key) = false := by simpa using hother
          refine ⟨held, List.mem_cons_of_mem _ hmem, trivial, ?_⟩
          rw [List.lookup_cons, hne]
          exact (lookup_filter_ne hother _).trans hlookup
    · intro haway
      rw [hfocus] at haway
      cases haway
    · intro hnone
      exact (VncWidget.buttonsUp_sendKey _ _).mpr (hd.buttons hnone)
  · have hsame : (if d.focused then d.widget.keyPressEvent event else d.widget) = d.widget := by
      unfold VncWidget.keyPressEvent
      split
      · split
        · rfl
        · split
          · rfl
          · exact absurd ⟨‹_›, ‹_›, ‹_›⟩ hsends
      · rfl
    rw [hsame]
    exact hd.moreKeys _

/-- The keys that stay held have reported what is still down. -/
theorem keyUp (hd : Tracked d) (scan : Nat) {w : VncWidget} (hsilent : w.Silent)
    (hrecorded : ∀ keysym, StillDown w.sent keysym →
      ∃ held ∈ d.heldKeys, held.1 ≠ scan ∧ w.pressedKeys.lookup held.2 = some keysym)
    (hunfocused : d.focused = false → w.pressedKeys = []) (hbuttons : ButtonsUp w.sent ↔ ButtonsUp d.widget.sent) :
    Tracked { d with heldKeys := d.heldKeys.filter (·.1 ≠ scan), widget := w } where
  silent := hsilent
  recorded keysym hdown := by
    obtain ⟨held, hmem, hother, hlookup⟩ := hrecorded keysym hdown
    exact ⟨held, List.mem_filter.mpr ⟨hmem, decide_eq_true hother⟩, trivial, hlookup⟩
  unfocused := hunfocused
  buttons hnone := hbuttons.mpr (hd.buttons hnone)

/-- Without the focus or a client nothing is down. -/
theorem nothingDown (hd : Tracked d) (h : d.focused = false ∨ d.widget.client = none) (keysym : UInt32) :
    ¬ StillDown d.widget.sent keysym := by
  intro hdown
  obtain haway | hclient := h
  · exact hd.letsGo.keys (.inr haway) keysym hdown
  · rw [hd.silent (by rw [hclient]; exact nofun)] at hdown
    exact not_stillDown_nil keysym hdown

theorem keyRelease (hd : Tracked d) (scan : Nat) (event : QKeyEvent) (h : Follows d (.keyRelease scan event)) :
    Tracked (d.step (.keyRelease scan event)) := by
  have hstep : d.step (.keyRelease scan event) = { d with
      heldKeys := if event.autoRepeat then d.heldKeys else d.heldKeys.filter (·.1 ≠ scan)
      widget := if d.focused then d.widget.keyReleaseEvent event else d.widget } := rfl
  rw [hstep]
  cases hrepeat : event.autoRepeat with
  | true =>
    rw [if_pos rfl, VncWidget.keyReleaseEvent_same (.inr (.inl hrepeat)), ite_self]
    exact hd
  | false =>
    rw [if_neg Bool.false_ne_true]
    by_cases hsends : d.focused = false ∨ d.widget.client = none
    · have hsame : (if d.focused then d.widget.keyReleaseEvent event else d.widget) = d.widget := by
        obtain haway | hclient := hsends
        · rw [haway, if_neg Bool.false_ne_true]
        · rw [VncWidget.keyReleaseEvent_same (.inl hclient), ite_self]
      rw [hsame]
      apply hd.keyUp scan hd.silent _ hd.unfocused Iff.rfl
      intro keysym hdown
      exact absurd hdown (hd.nothingDown hsends keysym)
    rw [not_or, Bool.not_eq_false] at hsends
    rw [if_pos hsends.1]
    cases hfound : d.widget.pressedKeys.lookup event.key with
    | none =>
      rw [VncWidget.keyReleaseEvent_same (.inr (.inr hfound))]
      apply hd.keyUp scan hd.silent _ hd.unfocused Iff.rfl
      intro keysym hdown
      obtain hown | hother := h hrepeat keysym hdown
      · rw [hfound] at hown
        cases hown
      · exact hother
    | some released =>
      rw [VncWidget.keyReleaseEvent_released hsends.2 hrepeat hfound]
      have hsilent : VncWidget.Silent { d.widget.sendKey released false with
          pressedKeys := d.widget.pressedKeys.filter (·.1 ≠ event.key) } := hd.silent.send _
      apply hd.keyUp scan hsilent _ _ (VncWidget.buttonsUp_sendKey released false)
      · intro keysym hdown
        obtain hpress | ⟨hdown, hne⟩ := hd.silent.stillDown_send hdown
        · cases hpress
        obtain hown | ⟨held, hmem, hother, hlookup⟩ := h hrepeat keysym hdown
        · rw [hfound] at hown
          cases hown
          exact absurd rfl hne
        · -- its Qt key is another one, since its keysym is
          have hkey : held.2 ≠ event.key := by
            intro hsame
            rw [hsame, hfound] at hlookup
            cases hlookup
            exact hne rfl
          exact ⟨held, hmem, hother, (lookup_filter_ne hkey _).trans hlookup⟩
      · intro haway
        rw [hsends.1] at haway
        cases haway

theorem focusOut (hd : Tracked d) : Tracked (d.step .focusOut) := by
  have hstep : d.step .focusOut = { d with focused := false, widget := d.widget.releaseAllKeys } := rfl
  rw [hstep, VncWidget.releaseAllKeys]
  split
  next hclient =>
    refine ⟨hd.silent, ?_, fun _ => rfl, hd.buttons⟩
    intro keysym hdown
    exact absurd hdown (hd.nothingDown (.inr hclient) keysym)
  next =>
    constructor
    · exact hd.silent.sendKeys _
    · intro keysym hdown
      obtain ⟨hdown, hnot⟩ := hd.silent.stillDown_sendKeys _ hdown
      obtain ⟨held, _, _, hlookup⟩ := hd.recorded keysym hdown
      exact absurd (List.mem_map_of_mem (mem_of_lookup hlookup)) hnot
    · exact fun _ => rfl
    · intro hnone
      exact (VncWidget.buttonsUp_sendKeys _ _).mpr (hd.buttons hnone)

/-- What a mouse event leaves behind once no button is down. -/
theorem sendPointer (hd : Tracked d) (remote : QPoint) (buttons : List MouseButton) (focused : Bool)
    (hfocus : focused = false → d.focused = false) :
    Tracked ⟨d.widget.sendPointer remote buttons 0, d.heldKeys, buttons, focused⟩ := by
  apply hd.pointer (hd.silent.pointerOnly.sendPointer remote buttons 0) hfocus
  intro hnone
  rw [hnone]
  exact hd.silent.buttonsUp_sendPointer remote

theorem step (hd : Tracked d) (event : DeskEvent) (h : Follows d event) : Tracked (d.step event) := by
  cases event with
  | keyPress scan event => exact hd.keyPress scan event h
  | keyRelease scan event => exact hd.keyRelease scan event h
  | mousePress button remote shift =>
    unfold Desk.step VncWidget.mousePressEvent
    dsimp only
    split
    · exact hd.pointer hd.silent.pointerOnly nofun nofun
    · exact hd.sendPointer remote _ true nofun
  | mouseRelease button remote shift =>
    unfold Desk.step VncWidget.mouseReleaseEvent
    dsimp only
    split
    next hmenu =>
      apply hd.pointer hd.silent.pointerOnly id
      intro hnone
      apply h hmenu.1 hmenu.2
      intro b hb
      have hall := List.filter_eq_nil_iff.mp hnone b hb
      simpa using hall
    next => exact hd.sendPointer remote _ d.focused id
  | mouseMove remote => exact hd.sendPointer remote d.buttons d.focused id
  | wheel remote dy =>
    unfold Desk.step VncWidget.wheelEvent
    dsimp only
    split
    · exact hd
    · apply hd.pointer (hd.silent.pointerOnly.wheelSteps _) id
      intro hnone
      rw [hnone]
      exact hd.silent.buttonsUp_wheelSteps _ (hd.buttons hnone)
  | releasedElsewhere button =>
    apply hd.pointer hd.silent.pointerOnly id
    intro hnone
    apply h
    intro b hb
    have hall := List.filter_eq_nil_iff.mp hnone b hb
    simpa using hall
  | focusIn => exact hd.pointer hd.silent.pointerOnly nofun hd.buttons
  | focusOut => exact hd.focusOut

end Tracked

/-- Where every event is one the widget can follow, nothing is left down at the server. -/
theorem keys_and_buttons_let_go (client : Option Stage) (heldKeys : List (Nat × Int)) (buttons : List MouseButton)
    (focused : Bool) (events : List DeskEvent) (h : Along Desk.step Follows events (.bind client heldKeys buttons focused)) :
    Along Desk.step (fun d event => LetsGo (d.step event)) events (.bind client heldKeys buttons focused) := by
  apply Along.imp (I := Tracked) _ _ (Tracked.bind client heldKeys buttons focused) h
  · intro d event hd hf
    exact hd.step event hf
  · intro d event hd hf
    exact (hd.step event hf).letsGo

/-! ## A click and a key, and a key that stays down -/

def aKey (text : List UInt32) (autoRepeat : Bool) : QKeyEvent := ⟨Qt.keyA, text, autoRepeat⟩

def shiftKey : QKeyEvent := ⟨0x01000020, [], false⟩

theorem click_and_key_let_go : Along Desk.step (fun d event => LetsGo (d.step event))
    [.mousePress .left (3, 4) false, .mouseRelease .left (3, 4) false, .keyPress 38 (aKey [0x61] false),
      .keyRelease 38 (aKey [] false)] (.bind (some .running) [] [] true) := by
  apply keys_and_buttons_let_go
  refine ⟨trivial, nofun, fun _ _ keysym hdown => ?_, fun _ keysym hdown => ?_, trivial⟩
  · obtain h | ⟨h, _⟩ := (stillDown_concat [.pointer 1 3 4] (.pointer 0 3 4) keysym).mp hdown
    · cases h
    · obtain h | ⟨h, _⟩ := (stillDown_concat [] (.pointer 1 3 4) keysym).mp h
      · cases h
      · exact absurd h (not_stillDown_nil keysym)
  · obtain h | ⟨h, _⟩ := (stillDown_concat [.pointer 1 3 4, .pointer 0 3 4] (.key 0x61 true) keysym).mp hdown
    · cases h
      exact .inl (by decide)
    · obtain h | ⟨h, _⟩ := (stillDown_concat [.pointer 1 3 4] (.pointer 0 3 4) keysym).mp h
      · cases h
      · obtain h | ⟨h, _⟩ := (stillDown_concat [] (.pointer 1 3 4) keysym).mp h
        · cases h
        · exact absurd h (not_stillDown_nil keysym)

/-- An `a` that starts to repeat under Shift goes down under two keysyms, and up under one. -/
theorem shift_leaves_down : ¬ ∀ (client : Option Stage) (heldKeys : List (Nat × Int)) (buttons : List MouseButton)
    (focused : Bool) (events : List DeskEvent),
    Along Desk.step (fun d event => LetsGo (d.step event)) events (.bind client heldKeys buttons focused) := by
  intro h
  have hrun := h (some .running) [] [] true [.keyPress 38 (aKey [0x61] false), .keyPress 50 shiftKey,
    .keyPress 38 (aKey [0x41] true), .keyRelease 38 (aKey [0x41] false), .keyRelease 50 shiftKey]
  have hkeys := hrun.2.2.2.2.1.keys (.inl rfl) 0x61
  apply hkeys
  exact ⟨[], [.key 0xffe1 true, .key 0x41 true, .key 0x41 false, .key 0xffe1 false], by decide, by decide⟩

end LvdTerm.Vnc
