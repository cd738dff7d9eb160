import LvdTerm.Core.SessionStore
import LvdTerm.Lib.Rose

/-!
# MainWindow: tabs, splitters and panes

One window with its tabs, each of them a tree of splitters over terminal panes and pickers, its active pane and its focus. Widgets
are told apart by their numbers. `QTabWidget` and `QSplitter` do what is documented. The focus goes at once to a pane on screen in
an active window, and otherwise when the window is activated; where it goes when nothing is told to take it is an event of its own.
Icons, sizes and what is in the panes are left out. The handlers of a picker act on the window it was made in, and are here those
of pickers that still are in it.
-/
namespace LvdTerm.App.Panes

open LvdTerm.Core (Orientation)
open LvdTerm.Lib

/-! ## Widgets -/

inductive Leaf where
  | view (number : Nat)
  | picker (number : Nat)
  /-- The welcome page, or a placeholder. -/
  | plain (number : Nat)
  deriving DecidableEq

def Leaf.number : Leaf → Nat
  | .view n => n
  | .picker n => n
  | .plain n => n

structure Splitter where
  number : Nat
  orientation : Orientation
  deriving DecidableEq

abbrev Widget := Rose Leaf Splitter

def viewOf : Leaf → Option Nat
  | .view v => some v
  | _ => none

def collectViews (root : Widget) : List Nat := root.leaves.filterMap viewOf

def isPicker : Leaf → Bool
  | .picker _ => true
  | _ => false

def isPlain : Widget → Bool
  | .leaf (.plain _) => true
  | _ => false

namespace Widget

def numbers (page : Widget) : List Nat := page.tokens.map (Sum.elim Leaf.number Splitter.number)

/-- The splitter that a pane or a picker is in, if it is not the page itself. -/
def parentSplitter (a : Leaf) (page : Widget) : Option Splitter := ((page.links none).lookup a).join

def hasSplitter (n : Nat) (page : Widget) : Bool := page.tokens.any (Sum.elim (fun _ => false) (·.number = n))

/-- `setParent(nullptr)`, or the destructor, of what is in a splitter. -/
def takeOut (a : Leaf) (page : Widget) : Widget := page.editBelow (· = a) fun _ => []

/-- `splitter->replaceWidget(splitter->indexOf(a), b)` -/
def replaceWidget (a b : Leaf) (page : Widget) : Widget := page.editBelow (· = a) fun _ => [.leaf b]

/-- Several widgets in the place of one. -/
def insertAt (a : Leaf) (widgets : List Widget) (page : Widget) : Widget := page.editBelow (· = a) fun _ => widgets

end Widget

inductive PaneDropZone where
  | swap | left | right | top | bottom
  deriving DecidableEq

def PaneDropZone.orientation (zone : PaneDropZone) : Orientation :=
  if zone = .left ∨ zone = .right then .horizontal else .vertical

def PaneDropZone.after (zone : PaneDropZone) : Bool := zone = .right ∨ zone = .bottom

structure Tab where
  title : List Char
  page : Widget

/-- What the handlers of a picker have captured. -/
structure Captured where
  splitter : Nat
  existing : Nat

structure Window where
  tabs : List Tab
  /-- `m_tabs->currentIndex()`, which is -1 without tabs. -/
  currentIndex : Option Nat
  /-- `m_activeView` -/
  activeView : Option Nat
  /-- The focus of the window, where it is in a pane or a picker. -/
  focus : Option Leaf
  /-- It is the active window. -/
  active : Bool
  captured : Nat → Captured
  /-- No widget has this number yet. -/
  next : Nat

namespace Window

def empty : Window := ⟨[], none, none, none, false, fun _ => ⟨0, 0⟩, 0⟩

/-- The page of `m_tabs->currentWidget()`. -/
def currentWidget (s : Window) : Option Widget := s.currentIndex.bind fun i => s.tabs[i]?.map (·.page)

def currentLeaves (s : Window) : List Leaf := (s.currentWidget.map (·.leaves)).getD []

def currentViews (s : Window) : List Nat := s.currentLeaves.filterMap viewOf

/-- The index of the tab with this pane or picker. -/
def tabRootOf (a : Leaf) (s : Window) : Option Nat := s.tabs.findIdx? fun tab => a ∈ tab.page.leaves

def pageAt (i : Nat) (s : Window) : Option Widget := s.tabs[i]?.map (·.page)

def hasLeaf (a : Leaf) (s : Window) : Bool := (s.tabRootOf a).isSome

def hasSplitter (n : Nat) (s : Window) : Bool := s.tabs.any (·.page.hasSplitter n)

/-- The page is changed without leaving its tab. -/
def changePage (i : Nat) (f : Widget → Widget) (s : Window) : Window :=
  { s with tabs := s.tabs.modify i fun tab => { tab with page := f tab.page } }

/-! ## Focus -/

def onFocusChanged (now : Leaf) (s : Window) : Window :=
  match now with
  | .view v => if s.hasLeaf (.view v) then { s with activeView := some v } else s
  | _ => s

/-- What is not on screen does not take the focus. -/
def setFocus (a : Leaf) (s : Window) : Window :=
  if a ∈ s.currentLeaves then
    let s := { s with focus := some a }
    if s.active then s.onFocusChanged a else s
  else s

/-- The focus does not stay on what is not on screen any more. -/
def loseFocus (s : Window) : Window := { s with focus := s.focus.filter (· ∈ s.currentLeaves) }

/-! ## QTabWidget -/

def onCurrentTabChanged (s : Window) : Window :=
  let s := s.loseFocus
  match s.currentViews.head? with
  | some v => s.setFocus (.view v)
  | none => s

def setCurrentIndex (i : Nat) (s : Window) : Window :=
  if i < s.tabs.length ∧ s.currentIndex ≠ some i then { s with currentIndex := some i }.onCurrentTabChanged else s

/-- The tab to the right becomes the current one. -/
def removeTab (i : Nat) (s : Window) : Window :=
  if i < s.tabs.length then
    let tabs := s.tabs.eraseIdx i
    match s.currentIndex with
    | none => { s with tabs := tabs }
    | some c =>
      if c < i then { s with tabs := tabs }
      else
        let c' := if i < c then c - 1 else min i (tabs.length - 1)
        { s with tabs := tabs, currentIndex := if tabs.isEmpty then none else some c' }.onCurrentTabChanged
  else s

/-- The first tab becomes the current one. -/
def insertTab (i : Nat) (tab : Tab) (s : Window) : Window :=
  if s.tabs.isEmpty then { s with tabs := [tab], currentIndex := some 0 }.onCurrentTabChanged
  else
    { s with
      tabs := s.tabs.insertIdx i tab
      currentIndex := s.currentIndex.map fun c => if i ≤ c then c + 1 else c }

def addTab (tab : Tab) (s : Window) : Window := s.insertTab s.tabs.length tab

/-- A page is taken out, and another put in with its title and made current. -/
def replacePage (i : Nat) (page : Widget) (s : Window) : Window :=
  match s.tabs[i]? with
  | none => s
  | some tab => ((s.removeTab i).insertTab i ⟨tab.title, page⟩).setCurrentIndex i

section Tabs

variable (s : Window)

@[simp] theorem onFocusChanged_tabs (a : Leaf) : (s.onFocusChanged a).tabs = s.tabs := by
  unfold onFocusChanged
  cases a with
  | view v =>
    simp only
    split
    next => rfl
    next => rfl
  | picker p => rfl
  | plain n => rfl

@[simp] theorem setFocus_tabs (a : Leaf) : (s.setFocus a).tabs = s.tabs := by
  unfold setFocus
  split
  next =>
    simp only
    split
    next => exact onFocusChanged_tabs _ a
    next => rfl
  next => rfl

@[simp] theorem onCurrentTabChanged_tabs : s.onCurrentTabChanged.tabs = s.tabs := by
  unfold onCurrentTabChanged
  simp only
  split
  next => exact setFocus_tabs _ _
  next => rfl

@[simp] theorem setCurrentIndex_tabs (i : Nat) : (s.setCurrentIndex i).tabs = s.tabs := by
  unfold setCurrentIndex
  split
  next => exact onCurrentTabChanged_tabs _
  next => rfl

@[simp] theorem removeTab_tabs (i : Nat) : (s.removeTab i).tabs = s.tabs.eraseIdx i := by
  unfold removeTab
  split
  next =>
    cases s.currentIndex with
    | none => rfl
    | some c =>
      simp only
      split
      next => rfl
      next => exact onCurrentTabChanged_tabs _
  next h => rw [List.eraseIdx_of_length_le (Nat.le_of_not_lt h)]

theorem insertTab_tabs {i : Nat} (h : i ≤ s.tabs.length) (tab : Tab) : (s.insertTab i tab).tabs = s.tabs.insertIdx i tab := by
  unfold insertTab
  split
  next hnil =>
    rw [List.isEmpty_iff] at hnil
    rw [hnil, List.length_nil, Nat.le_zero] at h
    rw [onCurrentTabChanged_tabs, hnil, h]
    rfl
  next => rfl

theorem insertIdx_eraseIdx_eq_modify {α : Type} {l : List α} {i : Nat} {a : α} (f : α → α) (h : l[i]? = some a) :
    (l.eraseIdx i).insertIdx i (f a) = l.modify i f := by
  induction l generalizing i with
  | nil => cases h
  | cons x xs ih =>
    cases i with
    | zero =>
      cases h
      rfl
    | succ i =>
      rw [List.getElem?_cons_succ] at h
      rw [List.eraseIdx_cons_succ, List.insertIdx_succ_cons, List.modify_succ_cons, ih h]

/-- The new page has the title and the place of the old one. -/
@[simp] theorem replacePage_tabs (i : Nat) (page : Widget) :
    (s.replacePage i page).tabs = s.tabs.modify i fun tab => { tab with page := page } := by
  unfold replacePage
  cases htab : s.tabs[i]? with
  | none => rw [List.modify_eq_self (List.getElem?_eq_none_iff.mp htab)]
  | some tab =>
    obtain ⟨hi, hget⟩ := List.getElem?_eq_some_iff.mp htab
    have hle : i ≤ (s.removeTab i).tabs.length := by
      rw [removeTab_tabs, List.length_eraseIdx_of_lt hi]
      omega
    simp only [setCurrentIndex_tabs]
    rw [insertTab_tabs _ hle, removeTab_tabs]
    exact insertIdx_eraseIdx_eq_modify (fun tab : Tab => { tab with page := page }) htab

/-- No widget was made, and the window is active if it was. -/
structure Same (s s' : Window) : Prop where
  next : s'.next = s.next
  active : s'.active = s.active

theorem onFocusChanged_same (a : Leaf) : Same s (s.onFocusChanged a) := by
  unfold onFocusChanged
  cases a with
  | view v =>
    simp only
    split
    next => exact ⟨rfl, rfl⟩
    next => exact ⟨rfl, rfl⟩
  | picker p => exact ⟨rfl, rfl⟩
  | plain n => exact ⟨rfl, rfl⟩

theorem setFocus_same (a : Leaf) : Same s (s.setFocus a) := by
  unfold setFocus
  split
  next =>
    simp only
    split
    next =>
      have hfocus := onFocusChanged_same { s with focus := some a } a
      exact ⟨hfocus.next, hfocus.active⟩
    next => exact ⟨rfl, rfl⟩
  next => exact ⟨rfl, rfl⟩

theorem onCurrentTabChanged_same : Same s s.onCurrentTabChanged := by
  unfold onCurrentTabChanged
  simp only
  split
  next v _ =>
    have hfocus := setFocus_same s.loseFocus (.view v)
    exact ⟨hfocus.next, hfocus.active⟩
  next => exact ⟨rfl, rfl⟩

theorem setCurrentIndex_same (i : Nat) : Same s (s.setCurrentIndex i) := by
  unfold setCurrentIndex
  split
  next =>
    have hchanged := onCurrentTabChanged_same { s with currentIndex := some i }
    exact ⟨hchanged.next, hchanged.active⟩
  next => exact ⟨rfl, rfl⟩

theorem removeTab_same (i : Nat) : Same s (s.removeTab i) := by
  unfold removeTab
  split
  next =>
    simp only
    split
    next => exact ⟨rfl, rfl⟩
    next =>
      split
      next => exact ⟨rfl, rfl⟩
      next =>
        exact ⟨(onCurrentTabChanged_same _).next, (onCurrentTabChanged_same _).active⟩
  next => exact ⟨rfl, rfl⟩

theorem insertTab_same (i : Nat) (tab : Tab) : Same s (s.insertTab i tab) := by
  unfold insertTab
  split
  next =>
    have hchanged := onCurrentTabChanged_same { s with tabs := [tab], currentIndex := some 0 }
    exact ⟨hchanged.next, hchanged.active⟩
  next => exact ⟨rfl, rfl⟩

theorem replacePage_same (i : Nat) (page : Widget) : Same s (s.replacePage i page) := by
  unfold replacePage
  cases s.tabs[i]? with
  | none => exact ⟨rfl, rfl⟩
  | some tab =>
    have hremove := removeTab_same s i
    have hinsert := insertTab_same (s.removeTab i) i ⟨tab.title, page⟩
    have hcurrent := setCurrentIndex_same ((s.removeTab i).insertTab i ⟨tab.title, page⟩) i
    exact ⟨hcurrent.next.trans (hinsert.next.trans hremove.next), hcurrent.active.trans (hinsert.active.trans hremove.active)⟩

@[simp] theorem setFocus_currentIndex (a : Leaf) : (s.setFocus a).currentIndex = s.currentIndex := by
  unfold setFocus onFocusChanged
  split
  next =>
    simp only
    split
    next =>
      cases a with
      | view v =>
        simp only
        split
        next => rfl
        next => rfl
      | picker p => rfl
      | plain n => rfl
    next => rfl
  next => rfl

@[simp] theorem onCurrentTabChanged_currentIndex : s.onCurrentTabChanged.currentIndex = s.currentIndex := by
  unfold onCurrentTabChanged
  simp only
  split
  next => exact setFocus_currentIndex _ _
  next => rfl

theorem setCurrentIndex_currentIndex {i : Nat} (h : i < s.tabs.length) : (s.setCurrentIndex i).currentIndex = some i := by
  unfold setCurrentIndex
  by_cases hcurrent : s.currentIndex = some i
  · rw [if_neg fun hboth => hboth.2 hcurrent]
    exact hcurrent
  · rw [if_pos ⟨h, hcurrent⟩]
    exact onCurrentTabChanged_currentIndex _

theorem replacePage_currentIndex {i : Nat} (h : i < s.tabs.length) (page : Widget) : (s.replacePage i page).currentIndex = some i := by
  unfold replacePage
  rw [List.getElem?_eq_getElem h]
  refine setCurrentIndex_currentIndex _ ?_
  have hlength := List.length_eraseIdx_of_lt h
  rw [insertTab_tabs _ (by rw [removeTab_tabs]; omega), removeTab_tabs, List.length_insertIdx_of_le_length (by omega)]
  omega

end Tabs

/-! ## Opening and splitting -/

def addTerminalTab (title : List Char) (s : Window) : Window :=
  let view := s.next
  let index := s.tabs.length
  let s := { s with next := s.next + 1 }
  let s := s.addTab ⟨title, .leaf (.view view)⟩
  (s.setCurrentIndex index).setFocus (.view view)

def currentActiveView (s : Window) : Option Nat :=
  match s.activeView with
  | some v => some v
  | none => s.currentViews.head?

def collapseSplitterIfSingle (n : Nat) (s : Window) : Window :=
  match s.tabs.findIdx? (·.page.hasSplitter n) with
  | none => s
  | some i =>
    match s.pageAt i with
    | some (.node b [remaining]) =>
      if b.number = n then s.replacePage i remaining else s.changePage i (Rose.collapse (·.number = n))
    | _ => s.changePage i (Rose.collapse (·.number = n))

def splitActivePane (orientation : Orientation) (s : Window) : Window :=
  let s := { s with activeView := s.currentActiveView }
  match s.activeView with
  | none => s
  | some existing =>
    match s.tabRootOf (.view existing) with
    | none => s
    | some i =>
      let picker := s.next
      let splitter : Splitter := ⟨s.next + 1, orientation⟩
      let both : Widget := .node splitter [.leaf (.view existing), .leaf (.picker picker)]
      let s := { s with captured := Function.update s.captured picker ⟨splitter.number, existing⟩, next := s.next + 2 }
      let s :=
        match (s.pageAt i).bind (·.parentSplitter (.view existing)) with
        | some _ => s.changePage i (·.insertAt (.view existing) [both])
        | none => s.replacePage i both
      s.setFocus (.picker picker)

/-- The splitter may have the picker no longer: then `replaceWidget` does nothing, and the picker is deleted all the same. -/
def finishSplitWithResult (splitter picker : Nat) (s : Window) : Option Window :=
  match s.tabRootOf (.picker picker) with
  | none => some s
  | some i =>
    if ¬ s.hasSplitter splitter then none
    else
      let view := s.next
      let shown := (s.pageAt i).bind (·.parentSplitter (.picker picker))
      let s := { s with next := s.next + 1 }
      if shown.any (·.number = splitter) then
        some ((s.changePage i (·.replaceWidget (.picker picker) (.view view))).setFocus (.view view))
      else some (s.changePage i (·.takeOut (.picker picker))).loseFocus

/-- A choice in the picker; the first one needs the pane that was split. -/
def choose (picker : Nat) (duplicate : Bool) (s : Window) : Option Window :=
  let c := s.captured picker
  if duplicate ∧ ¬ s.hasLeaf (.view c.existing) then none else s.finishSplitWithResult c.splitter picker

/-- `cancelled` of the picker. -/
def cancel (picker : Nat) (s : Window) : Option Window :=
  let c := s.captured picker
  match s.tabRootOf (.picker picker) with
  | none => some s
  | some i =>
    let s := (s.changePage i (·.takeOut (.picker picker))).loseFocus
    if ¬ s.hasSplitter c.splitter ∨ ¬ s.hasLeaf (.view c.existing) then none
    else some ((s.collapseSplitterIfSingle c.splitter).setFocus (.view c.existing))

/-! ## Closing -/

def closeTab (i : Nat) (s : Window) : Window :=
  match s.pageAt i with
  | none => s
  | some root => { s with activeView := s.activeView.filter (· ∉ collectViews root) }.removeTab i

/-- The page is one pane, which takes the focus. -/
def focusPage (s : Window) : Window :=
  match s.currentWidget with
  | some (.leaf (.view v)) => s.setFocus (.view v)
  | _ => s

def closePane (view : Nat) (s : Window) : Window :=
  match s.tabRootOf (.view view) with
  | none => s
  | some i =>
    match s.pageAt i with
    | none => s
    | some root =>
      if (collectViews root).length = 1 then s.closeTab i
      else
        match root.parentSplitter (.view view) with
        | none => s.closeTab i
        | some splitter =>
          let s := { s with activeView := none }
          let s := (s.changePage i (·.takeOut (.view view))).loseFocus
          (s.collapseSplitterIfSingle splitter.number).focusPage

/-- `QApplication::focusWidget()` is in a picker of the current tab. -/
def focusedPicker (s : Window) : Option Nat :=
  match s.focus with
  | some (.picker p) => if s.active ∧ s.tabRootOf (.picker p) = s.currentIndex then some p else none
  | _ => none

def closeActivePane (s : Window) : Option Window :=
  match s.focusedPicker with
  | some picker => s.cancel picker
  | none =>
    match s.currentActiveView with
    | some view => some (s.closePane view)
    | none => some s

def confirmClosePane (yes : Bool) (target : Nat) (s : Window) : Window :=
  if s.hasLeaf (.view target) ∧ yes then
    { s with activeView := if s.activeView = some target then none else s.activeView }.closePane target
  else s

/-- The pane that `confirmCloseActivePane` asks for. -/
def confirmTarget (s : Window) : Option Nat :=
  match s.activeView with
  | some v => if v ∈ s.currentViews then some v else s.currentViews.head?
  | none => s.currentViews.head?

def confirmCloseActivePane (yes : Bool) (s : Window) : Option Window :=
  match s.currentIndex with
  | none => some s
  | some i =>
    match s.focusedPicker with
    | some picker => s.cancel picker
    | none =>
      match s.confirmTarget with
      | none => some (s.closeTab i)
      | some view => some (s.confirmClosePane yes view)

/-! ## Moving -/

/-- The two in the order of the zone. -/
def besides (source target : Nat) (zone : PaneDropZone) : List Widget :=
  if zone.after then [.leaf (.view target), .leaf (.view source)] else [.leaf (.view source), .leaf (.view target)]

/-- A placeholder keeps the first slot open while the second one is filled. -/
def swapPanes (i source target : Nat) (s : Window) : Window :=
  let placeholder : Leaf := .plain s.next
  let s := { s with next := s.next + 1 }
  ((s.changePage i (·.replaceWidget (.view source) placeholder)).changePage i
    (·.replaceWidget (.view target) (.view source))).changePage i (·.replaceWidget placeholder (.view target))

/-- `source` is nowhere when it is put next to `target`. -/
def insertPane (i source target : Nat) (zone : PaneDropZone) (s : Window) : Window :=
  match (s.pageAt i).bind (·.parentSplitter (.view target)) with
  | some parent =>
    if parent.orientation = zone.orientation then s.changePage i (·.insertAt (.view target) (besides source target zone))
    else
      { s with next := s.next + 1 }.changePage i
        (·.insertAt (.view target) [.node ⟨s.next, zone.orientation⟩ (besides source target zone)])
  | none => { s with next := s.next + 1 }.replacePage i (.node ⟨s.next, zone.orientation⟩ (besides source target zone))

/-- `source` was dropped on `target`. -/
def movePane (source target : Nat) (zone : PaneDropZone) (s : Window) : Window :=
  match s.tabRootOf (.view source), s.tabRootOf (.view target) with
  | some i, some j =>
    match (s.pageAt i).bind (·.parentSplitter (.view source)), (s.pageAt j).bind (·.parentSplitter (.view target)) with
    | some sourceSplitter, some _ =>
      if source = target ∨ i ≠ j then s
      else
        let s :=
          if zone = .swap then s.swapPanes i source target
          else
            let s := s.changePage i (·.takeOut (.view source))
            (s.collapseSplitterIfSingle sourceSplitter.number).insertPane i source target zone
        { s.loseFocus with activeView := some source }.setFocus (.view source)
    | _, _ => s
  | _, _ => s

/-- A tab is dragged to another place. -/
def moveTab (i j : Nat) (s : Window) : Window :=
  match s.tabs[i]? with
  | none => s
  | some tab =>
    if j < s.tabs.length then
      { s with
        tabs := (s.tabs.eraseIdx i).insertIdx j tab
        currentIndex := s.currentIndex.map fun c =>
          if c = i then j else
            let c' := if i < c then c - 1 else c
            if j ≤ c' then c' + 1 else c' }
    else s

/-- The tab goes to another window. -/
def transferTab (i : Nat) (s : Window) : Window :=
  match s.pageAt i with
  | none => s
  | some root => { s with activeView := s.activeView.filter (· ∉ collectViews root) }.removeTab i

/-- A tab comes from another window. -/
def acceptTab (tab : Tab) (s : Window) : Window :=
  let index := s.tabs.length
  (s.addTab tab).setCurrentIndex index

/-- The pane that is clicked on becomes the active one. -/
def showPaneContextMenu (view : Nat) (s : Window) : Window := { s with activeView := some view }.setFocus (.view view)

end Window

/-! ## Runs -/

/-- The widgets of a page are all different, and have numbers below this one. -/
def Made (next : Nat) (page : Widget) : Prop := page.numbers.Nodup ∧ ∀ n ∈ page.numbers, n < next

instance (next : Nat) (page : Widget) : Decidable (Made next page) := inferInstanceAs (Decidable (_ ∧ _))

/-- Only the welcome page has no pane. -/
def Peopled (page : Widget) : Prop := isPlain page = true ∨ collectViews page ≠ []

instance (page : Widget) : Decidable (Peopled page) := inferInstanceAs (Decidable (_ ∨ _))

def hasPicker (page : Widget) : Bool := page.leaves.any isPicker

/-- A page that can come to this window, where none of its widgets is. -/
def Window.CanTake (s : Window) (page : Widget) (next : Nat) : Prop :=
  Made next page ∧ Peopled page ∧ ∀ n ∈ page.numbers, ∀ tab ∈ s.tabs, n ∉ tab.page.numbers

instance (s : Window) (page : Widget) (next : Nat) : Decidable (s.CanTake page next) := inferInstanceAs (Decidable (_ ∧ _ ∧ _))

/-- What the user does is done in the active window, with what is on screen there. -/
inductive Event where
  /-- The welcome page, or a page of the last session, which has no picker. `next` is above the numbers of all widgets that were made. -/
  | addTab (tab : Tab) (next : Nat)
  | addTerminalTab (title : List Char)
  | splitActivePane (orientation : Orientation)
  | choose (picker : Nat) (duplicate : Bool)
  | cancel (picker : Nat)
  | closeActivePane
  | confirmCloseActivePane (yes : Bool)
  /-- From the menu of the pane. -/
  | confirmClosePane (yes : Bool) (view : Nat)
  | showPaneContextMenu (view : Nat)
  | closeTab (i : Nat)
  | setCurrentIndex (i : Nat)
  | moveTab (i j : Nat)
  | movePane (source target : Nat) (zone : PaneDropZone)
  | transferTab (i : Nat)
  | acceptTab (tab : Tab) (next : Nat)
  | focus (a : Leaf)
  | focusElsewhere
  | activate
  | deactivate

/-- `none` where a deleted object is used. -/
def step (s : Window) : Event → Option Window
  | .addTab tab next =>
    some (if s.CanTake tab.page next ∧ hasPicker tab.page = false then { s with next := max s.next next }.addTab tab else s)
  | .addTerminalTab title => some (s.addTerminalTab title)
  | .splitActivePane orientation => some (if s.active then s.splitActivePane orientation else s)
  | .choose picker duplicate => if .picker picker ∈ s.currentLeaves then s.choose picker duplicate else some s
  | .cancel picker => if s.active ∧ .picker picker ∈ s.currentLeaves then s.cancel picker else some s
  | .closeActivePane => if s.active then s.closeActivePane else some s
  | .confirmCloseActivePane yes => if s.active then s.confirmCloseActivePane yes else some s
  | .confirmClosePane yes view => some (if s.active then s.confirmClosePane yes view else s)
  | .showPaneContextMenu view => some (if s.active ∧ view ∈ s.currentViews then s.showPaneContextMenu view else s)
  | .closeTab i => some (if s.active then s.closeTab i else s)
  | .setCurrentIndex i => some (s.setCurrentIndex i)
  | .moveTab i j => some (s.moveTab i j)
  | .movePane source target zone => some (s.movePane source target zone)
  | .transferTab i => some (if s.active then s.transferTab i else s)
  | .acceptTab tab next => some (if s.CanTake tab.page next then { s with next := max s.next next }.acceptTab tab else s)
  | .focus a => some (if s.active then s.setFocus a else s)
  | .focusElsewhere => some (if s.active then { s with focus := none } else s)
  | .activate =>
    let s := { s with active := true }
    some (s.focus.elim s s.onFocusChanged)
  | .deactivate => some { s with active := false }

/-- The run ends where a deleted object is used. -/
def next (s : Option Window) (e : Event) : Option Window := s.bind (step · e)

end LvdTerm.App.Panes
