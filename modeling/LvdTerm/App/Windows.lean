import LvdTerm.App.MainWindow
import LvdTerm.App.PaneChanges

/-!
# All windows

The windows of the application, between which tabs can be moved. What the handlers of a picker have captured goes with them: the
splitter, the pane that was split, and the window that made it, which is told nothing when the tab goes to another one. A window
other than the first one is deleted when it is closed, and its handlers with it. What a window does with a pane that is in another
one, as handlers that act from afar can leave it, is left out.
-/
namespace LvdTerm.App.Panes

open LvdTerm.Core LvdTerm.Lib

/-! ## The last session -/

/-- How many connections took an answer, and the next widget's number. -/
structure Building where
  answered : Nat
  next : Nat

mutual

def buildNode (answers : Nat → Answer) : SessionNode → Building → Option Widget × Building
  | .leaf none, b => (none, b)
  | .leaf (some profile), b =>
    match resultForProfile (answers b.answered) profile with
    | none => (none, { b with answered := b.answered + 1 })
    | some _ => (some (.leaf (.view b.next)), ⟨b.answered + 1, b.next + 1⟩)
  | .splitter orientation _ children, b =>
    let (widgets, b') := buildNodes answers children { b with next := b.next + 1 }
    (if widgets.isEmpty then none else some (.node ⟨b.next, orientation⟩ widgets), b')

def buildNodes (answers : Nat → Answer) : List SessionNode → Building → List Widget × Building
  | [], b => ([], b)
  | node :: nodes, b =>
    let (widget, b) := buildNode answers node b
    let (widgets, b) := buildNodes answers nodes b
    (widget.toList ++ widgets, b)

end

namespace Window

def restoreTabs (answers : Nat → Answer) : List SessionTab → Nat → Window → Window
  | [], _, s => s
  | tab :: tabs, answered, s =>
    let (page, b) := buildNode answers tab.root ⟨answered, s.next⟩
    let s := { s with next := b.next }
    restoreTabs answers tabs b.answered (page.elim s fun page => s.addTab ⟨tab.title, page⟩)

def restoreSession (answers : Nat → Answer) (state : SessionState) (s : Window) : Window :=
  let s := s.restoreTabs answers state.tabs 0
  if 0 ≤ state.currentTabIndex ∧ state.currentTabIndex < s.tabs.length then s.setCurrentIndex state.currentTabIndex.toNat else s

def addWelcome (s : Window) : Window := { s with next := s.next + 1 }.addTab ⟨"Welcome".toList, .leaf (.plain s.next)⟩

/-- The picker whose signal the event sends. -/
def signals (s : Window) : Event → Option Nat
  | .choose picker _ => if .picker picker ∈ s.currentLeaves then some picker else none
  | .cancel picker => if s.active ∧ .picker picker ∈ s.currentLeaves then some picker else none
  | .closeActivePane => if s.active then s.focusedPicker.filter (.picker · ∈ s.currentLeaves) else none
  | .confirmCloseActivePane _ => if s.active then s.focusedPicker.filter (.picker · ∈ s.currentLeaves) else none
  | _ => none

/-- What is left of the tab without the picker, where the picker's splitter is the page and has one other widget in it. -/
def leftOver (picker : Nat) (s : Window) : Option (Nat × Widget) :=
  match s.tabRootOf (.picker picker) with
  | none => none
  | some i =>
    match ((s.pageAt i).map (·.takeOut (.picker picker)) : Option Widget) with
    | some (.node b [remaining]) => if b.number = (s.captured picker).splitter then some (i, remaining) else none
    | _ => none

end Window

/-! ## The system -/

structure System where
  /-- The window with this number, unless it is not open. The first one is 0. -/
  windows : Nat → Option Window
  /-- How many windows were opened. -/
  opened : Nat
  /-- No widget of any window has this number yet. -/
  next : Nat
  captured : Nat → Captured
  /-- The window that a picker was made in, which its handlers act on. -/
  maker : Nat → Nat

namespace System

def start : System where
  windows := Function.update (fun _ => none) 0 (some Window.empty)
  opened := 1
  next := 0
  captured := fun _ => ⟨0, 0⟩
  maker := fun _ => 0

/-- A window with what all windows share. -/
def enter (s : Window) (sys : System) : Window := { s with next := sys.next, captured := sys.captured }

/-- The window has done something. The pickers that it made are its own. -/
def leave (w : Nat) (s : Window) (sys : System) : System :=
  { sys with
    windows := Function.update sys.windows w (some s)
    next := s.next
    captured := s.captured
    maker := fun p => if p < sys.next then sys.maker p else w }

def act (w : Nat) (f : Window → Option Window) (sys : System) : Option System :=
  match sys.windows w with
  | none => some sys
  | some s => (f (sys.enter s)).map (sys.leave w)

/-- The collapsed splitter is no page of the window `m` of the handlers: there what is left becomes the last tab, without a title. -/
def cancelElsewhere (w m picker : Nat) (sys : System) : Option System :=
  match (sys.windows w).bind fun s => (sys.enter s).leftOver picker with
  | none => sys.act w (·.cancel picker)
  | some (i, remaining) =>
    let existing : Leaf := .view (sys.captured picker).existing
    if existing ∈ remaining.leaves then
      (sys.act w fun s => some (s.removeTab i)).bind fun sys =>
        sys.act m fun s => some ((s.addTab ⟨[], remaining⟩).setFocus existing)
    else none

/-- The signal of a picker; nothing is connected to it any more when the window that made it is closed. -/
def signalled (w picker : Nat) (e : Event) (sys : System) : Option System :=
  let m := sys.maker picker
  if (sys.windows m).isNone then some sys
  else if m = w then sys.act w (step · e)
  else
    match e with
    | .choose _ _ => sys.act w (step · e)
    | _ => sys.cancelElsewhere w m picker

def command (w : Nat) (e : Event) (sys : System) : Option System :=
  match sys.windows w with
  | none => some sys
  | some s =>
    match (sys.enter s).signals e with
    | none => sys.act w (step · e)
    | some picker => sys.signalled w picker e

/-- The tab goes from one window to another. -/
def transferTab (w i dest : Nat) (sys : System) : Option System :=
  match (sys.windows w).bind (·.tabs[i]?), sys.windows dest with
  | some tab, some _ =>
    if dest = w then some sys
    else (sys.act w fun s => some (s.transferTab i)).bind fun sys => sys.act dest fun s => some (s.acceptTab tab)
  | _, _ => some sys

def tabCount (w : Nat) (sys : System) : Nat := (sys.windows w).elim 0 (·.tabs.length)

def detachTab (w i : Nat) (sys : System) : Option System :=
  if sys.tabCount w < 2 then some sys
  else
    { sys with
      windows := Function.update sys.windows sys.opened (some Window.empty)
      opened := sys.opened + 1 }.transferTab w i sys.opened

inductive Event where
  /-- There is no last session. -/
  | addWelcome
  | restoreSession (answers : Nat → Answer) (state : SessionState)
  | command (w : Nat) (e : Panes.Event)
  | detachTab (w i : Nat)
  | moveTabToPrimary (w i : Nat)
  | closeWindow (w : Nat)

/-- `none` where a deleted object is used. -/
def step (sys : System) : System.Event → Option System
  | .addWelcome => sys.act 0 fun s => some s.addWelcome
  | .restoreSession answers state => sys.act 0 fun s => some (s.restoreSession answers state)
  | .command w e => if e.ofWindow then sys.command w e else some sys
  | .detachTab w i => sys.detachTab w i
  | .moveTabToPrimary w i => sys.transferTab w i 0
  | .closeWindow w => some (if w = 0 then sys else { sys with windows := Function.update sys.windows w none })

/-- The run ends where a deleted object is used. -/
def advance (s : Option System) (e : System.Event) : Option System := s.bind (step · e)

end System

end LvdTerm.App.Panes
