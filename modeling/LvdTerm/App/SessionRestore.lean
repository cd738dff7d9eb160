import LvdTerm.App.MainWindow
import LvdTerm.Core.SessionRoundTrip
import Mathlib.Data.List.Basic
import Mathlib.Data.List.Forall2

/-!
# The session after a restart

What the windows hold when the session is saved, and what they hold when it has been read and restored: the same tabs, but for
those with an empty splitter, and the same current tab, unless a tab before it was not saved (`session_round_trip_iff`).
-/
namespace LvdTerm.App

open LvdTerm.Core

/-! ## The same tabs -/

section Panes

variable (views views' : List TerminalView)

def snapshotOf (n : Nat) : Option ConnectionProfile := views[n]?.bind (·.sessionSnapshot)

mutual

/-- Every pane has a connection that is saved. -/
def Pane.persistable : Pane → Bool
  | .view n => (snapshotOf views n).isSome
  | .picker _ => false
  | .welcome => false
  | .splitter _ _ children => persistableAll children

def persistableAll : List Pane → Bool
  | [] => true
  | page :: pages => page.persistable && persistableAll pages

end

mutual

/-- One shape, one orientation and one list of sizes at every splitter, and the same connection in every place. -/
def SamePane : Pane → Pane → Prop
  | .view n, .view n' => ∃ p p', snapshotOf views n = some p ∧ snapshotOf views' n' = some p' ∧ p'.selected = p.selected
  | .splitter orientation sizes children, .splitter orientation' sizes' children' =>
    orientation' = orientation ∧ sizes' = sizes ∧ SamePanes children children'
  | _, _ => False

def SamePanes : List Pane → List Pane → Prop
  | [], [] => True
  | page :: pages, page' :: pages' => SamePane page page' ∧ SamePanes pages pages'
  | _, _ => False

end

def SameTab (tab tab' : Tab) : Prop := tab'.title = tab.title ∧ SamePane views views' tab.page tab'.page

end Panes

mutual

/-- No splitter is empty. -/
def Pane.Full : Pane → Prop
  | .splitter _ _ children => children ≠ [] ∧ FullPanes children
  | _ => True

def FullPanes : List Pane → Prop
  | [] => True
  | page :: pages => page.Full ∧ FullPanes pages

end

mutual

def Pane.SizesFit : Pane → Prop
  | .splitter _ sizes children => (∀ size ∈ sizes, FitsInt size) ∧ SizesFitAll children
  | _ => True

def SizesFitAll : List Pane → Prop
  | [] => True
  | page :: pages => page.SizesFit ∧ SizesFitAll pages

end

namespace MainWindow

/-- The tabs of all windows, in the order in which they are saved. -/
def tabs (app : MainWindow) : List Tab := app.windows.flatMap (·.tabs)

def persistableTabs (app : MainWindow) : List Tab := app.tabs.filter (·.page.persistable app.views)

/-- The first window is the only one that is not secondary, and what is an `int` is in its range. -/
structure Proper (pl : Platform) (app : MainWindow) : Prop where
  secondary : ∀ w ∈ app.windows.tail, w.secondary = true
  index : ∀ w, app.windows.head? = some w → FitsInt w.currentIndex
  sizes : ∀ tab ∈ app.tabs, tab.page.SizesFit
  profiles : ∀ v ∈ app.views, ∀ p, v.sessionSnapshot = some p → p.Proper pl

/-- What the restored windows owe to the saved ones. -/
structure RoundTrip (app restored : MainWindow) : Prop where
  /-- The tabs that are saved, or the welcome tab where there are none. -/
  tabs : ∃ index shown, restored.windows = [⟨false, shown, index⟩] ∧
    if app.persistableTabs = [] then shown = [⟨"Welcome".toList, .welcome⟩]
    else List.Forall₂ (SameTab app.views restored.views) app.persistableTabs shown
  /-- The current tab is in the place it has among them. -/
  current : ∀ w w' (i : Nat) tab, app.windows.head? = some w → restored.windows.head? = some w' → w.currentIndex = i →
    w.tabs[i]? = some tab → tab.page.persistable app.views = true →
    w'.currentIndex = (w.tabs.take i).countP (·.page.persistable app.views)

/-- Every tab before the current one is saved; or none of them is, and there are so few in all that the first one is current. -/
def CurrentKept (app : MainWindow) : Prop :=
  ∀ w (i : Nat) tab, app.windows.head? = some w → w.currentIndex = i → w.tabs[i]? = some tab →
    tab.page.persistable app.views = true →
    (∀ t ∈ w.tabs.take i, t.page.persistable app.views = true) ∨
      (∀ t ∈ w.tabs.take i, t.page.persistable app.views = false) ∧ app.persistableTabs.length ≤ i

/-- The first window is closed, and the application started again. -/
def restarted (pl : Platform) (answers : Nat → Answer) (geometry state : QByteArray) (c profileCalls opening : StoreCalls)
    (app : MainWindow) : MainWindow :=
  (app.saveSession pl geometry state c).launch pl answers profileCalls opening

end MainWindow

/-! ## Capturing -/

section Capture

variable {views views' : List TerminalView} {pl : Platform}

mutual

theorem isSome_captureNode : ∀ page : Pane, (MainWindow.captureNode views page).isSome = page.persistable views
  | .view n => by rw [MainWindow.captureNode, Option.isSome_map, Pane.persistable, snapshotOf]
  | .picker _ => rfl
  | .welcome => rfl
  | .splitter _ _ children => by simp [MainWindow.captureNode, Pane.persistable, isSome_captureNodes children]

theorem isSome_captureNodes : ∀ pages : List Pane, (MainWindow.captureNodes views pages).isSome = persistableAll views pages
  | [] => rfl
  | page :: pages => by
    have hpage := isSome_captureNode page
    have hpages := isSome_captureNodes pages
    cases h : MainWindow.captureNode views page <;> simp_all [MainWindow.captureNodes, persistableAll]

end

mutual

theorem captureNode_mono (hviews : views <+: views') : ∀ {page : Pane} {node : SessionNode},
    MainWindow.captureNode views page = some node → MainWindow.captureNode views' page = some node
  | .view n, node, h => by
    obtain ⟨more, rfl⟩ := hviews
    obtain ⟨p, hp, rfl⟩ := Option.map_eq_some_iff.mp h
    obtain ⟨v, hv, hsnapshot⟩ := Option.bind_eq_some_iff.mp hp
    have hn : n < views.length := (List.getElem?_eq_some_iff.mp hv).1
    simp [MainWindow.captureNode, List.getElem?_append_left hn, hv, hsnapshot]
  | .picker _, _, h => by simp [MainWindow.captureNode] at h
  | .welcome, _, h => by simp [MainWindow.captureNode] at h
  | .splitter orientation sizes children, node, h => by
    obtain ⟨nodes, hnodes, rfl⟩ := Option.map_eq_some_iff.mp h
    rw [MainWindow.captureNode, captureNodes_mono hviews hnodes, Option.map_some]

theorem captureNodes_mono (hviews : views <+: views') : ∀ {pages : List Pane} {nodes : List SessionNode},
    MainWindow.captureNodes views pages = some nodes → MainWindow.captureNodes views' pages = some nodes
  | [], _, h => h
  | page :: pages, nodes, h => by
    rw [MainWindow.captureNodes] at h
    cases hpage : MainWindow.captureNode views page with
    | none => simp [hpage] at h
    | some node =>
      rw [hpage] at h
      obtain ⟨rest, hrest, rfl⟩ := Option.map_eq_some_iff.mp h
      simp [MainWindow.captureNodes, captureNode_mono hviews hpage, captureNodes_mono hviews hrest]

end

mutual

theorem samePane_iff : ∀ page page' : Pane, SamePane views views' page page' ↔ ∃ node node',
    MainWindow.captureNode views page = some node ∧ MainWindow.captureNode views' page' = some node' ∧ node'.selected = node.selected
  | .view n, page' => by
    cases page' with
    | view n' =>
      simp only [SamePane, MainWindow.captureNode, Option.map_eq_some_iff, snapshotOf]
      constructor
      · rintro ⟨p, p', hp, hp', hsame⟩
        exact ⟨_, _, ⟨p, hp, rfl⟩, ⟨p', hp', rfl⟩, by simp [SessionNode.selected, hsame]⟩
      · rintro ⟨_, _, ⟨p, hp, rfl⟩, ⟨p', hp', rfl⟩, hsame⟩
        exact ⟨p, p', hp, hp', by simpa [SessionNode.selected] using hsame⟩
    | splitter orientation sizes children =>
      simp only [SamePane, MainWindow.captureNode, Option.map_eq_some_iff, false_iff, not_exists, not_and]
      rintro _ _ ⟨p, -, rfl⟩ ⟨nodes, -, rfl⟩ hsame
      simp [SessionNode.selected] at hsame
    | picker | welcome => simp [SamePane, MainWindow.captureNode]
  | .picker _, _ => by simp [SamePane, MainWindow.captureNode]
  | .welcome, _ => by simp [SamePane, MainWindow.captureNode]
  | .splitter orientation sizes children, page' => by
    cases page' with
    | splitter orientation' sizes' children' =>
      have hchildren := samePanes_iff children children'
      simp only [SamePane, MainWindow.captureNode, Option.map_eq_some_iff, hchildren]
      constructor
      · rintro ⟨rfl, rfl, nodes, nodes', h, h', hsame⟩
        exact ⟨_, _, ⟨nodes, h, rfl⟩, ⟨nodes', h', rfl⟩, by simp [SessionNode.selected, hsame]⟩
      · rintro ⟨_, _, ⟨nodes, h, rfl⟩, ⟨nodes', h', rfl⟩, hsame⟩
        simp only [SessionNode.selected, SessionNode.splitter.injEq] at hsame
        exact ⟨hsame.1, hsame.2.1, nodes, nodes', h, h', hsame.2.2⟩
    | view n =>
      simp only [SamePane, MainWindow.captureNode, Option.map_eq_some_iff, false_iff, not_exists, not_and]
      rintro _ _ ⟨nodes, -, rfl⟩ ⟨p, -, rfl⟩ hsame
      simp [SessionNode.selected] at hsame
    | picker | welcome => simp [SamePane, MainWindow.captureNode]

theorem samePanes_iff : ∀ pages pages' : List Pane, SamePanes views views' pages pages' ↔ ∃ nodes nodes',
    MainWindow.captureNodes views pages = some nodes ∧ MainWindow.captureNodes views' pages' = some nodes' ∧
      selectedNodes nodes' = selectedNodes nodes
  | [], [] => by simp [SamePanes, MainWindow.captureNodes]
  | [], page' :: pages' => by
    cases h : MainWindow.captureNode views' page' <;> simp [SamePanes, MainWindow.captureNodes, h, selectedNodes]
  | page :: pages, [] => by
    cases h : MainWindow.captureNode views page <;> simp [SamePanes, MainWindow.captureNodes, h, selectedNodes]
  | page :: pages, page' :: pages' => by
    have hpage := samePane_iff page page'
    have hpages := samePanes_iff pages pages'
    cases h : MainWindow.captureNode views page <;> cases h' : MainWindow.captureNode views' page' <;>
      simp only [h, h', SamePanes, MainWindow.captureNodes, hpage, hpages, reduceCtorEq, false_and, exists_false, Option.some.injEq,
        and_false, Option.map_eq_some_iff]
    constructor
    · rintro ⟨⟨_, _, rfl, rfl, hsame⟩, nodes, nodes', hnodes, hnodes', hrest⟩
      exact ⟨_, _, ⟨nodes, hnodes, rfl⟩, ⟨nodes', hnodes', rfl⟩, by simp [selectedNodes, hsame, hrest]⟩
    · rintro ⟨_, _, ⟨nodes, hnodes, rfl⟩, ⟨nodes', hnodes', rfl⟩, hsame⟩
      simp only [selectedNodes, List.cons.injEq] at hsame
      exact ⟨⟨_, _, rfl, rfl, hsame.1⟩, nodes, nodes', hnodes, hnodes', hsame.2⟩

end

mutual

theorem full_iff_of_captured : ∀ {page : Pane} {node : SessionNode}, MainWindow.captureNode views page = some node →
    (page.Full ↔ node.Full)
  | .view n, node, h => by
    obtain ⟨p, -, rfl⟩ := Option.map_eq_some_iff.mp h
    simp [Pane.Full, SessionNode.Full]
  | .picker _, _, h => by simp [MainWindow.captureNode] at h
  | .welcome, _, h => by simp [MainWindow.captureNode] at h
  | .splitter orientation sizes children, node, h => by
    obtain ⟨nodes, hnodes, rfl⟩ := Option.map_eq_some_iff.mp h
    obtain ⟨hnil, hfull⟩ := fullPanes_iff_of_captured hnodes
    simp [Pane.Full, SessionNode.Full, hnil, hfull]

theorem fullPanes_iff_of_captured : ∀ {pages : List Pane} {nodes : List SessionNode},
    MainWindow.captureNodes views pages = some nodes → (pages = [] ↔ nodes = []) ∧ (FullPanes pages ↔ FullNodes nodes)
  | [], _, h => by
    cases h
    simp [FullPanes, FullNodes]
  | page :: pages, nodes, h => by
    rw [MainWindow.captureNodes] at h
    cases hpage : MainWindow.captureNode views page with
    | none => simp [hpage] at h
    | some node =>
      rw [hpage] at h
      obtain ⟨rest, hrest, rfl⟩ := Option.map_eq_some_iff.mp h
      have hfirst := full_iff_of_captured hpage
      have hothers := (fullPanes_iff_of_captured hrest).2
      simp [FullPanes, FullNodes, hfirst, hothers]

end

mutual

theorem proper_of_captured (hviews : ∀ v ∈ views, ∀ p, v.sessionSnapshot = some p → p.Proper pl) :
    ∀ {page : Pane} {node : SessionNode}, page.SizesFit → MainWindow.captureNode views page = some node → node.Proper pl
  | .view n, node, _, h => by
    obtain ⟨p, hp, rfl⟩ := Option.map_eq_some_iff.mp h
    obtain ⟨v, hv, hsnapshot⟩ := Option.bind_eq_some_iff.mp hp
    rintro _ ⟨⟩
    exact hviews v (List.mem_of_getElem? hv) p hsnapshot
  | .picker _, _, _, h => by simp [MainWindow.captureNode] at h
  | .welcome, _, _, h => by simp [MainWindow.captureNode] at h
  | .splitter orientation sizes children, node, hfit, h => by
    obtain ⟨nodes, hnodes, rfl⟩ := Option.map_eq_some_iff.mp h
    exact ⟨hfit.1, properNodes_of_captured hviews hfit.2 hnodes⟩

theorem properNodes_of_captured (hviews : ∀ v ∈ views, ∀ p, v.sessionSnapshot = some p → p.Proper pl) :
    ∀ {pages : List Pane} {nodes : List SessionNode}, SizesFitAll pages → MainWindow.captureNodes views pages = some nodes →
      ProperNodes pl nodes
  | [], _, _, h => by
    cases h
    trivial
  | page :: pages, nodes, hfit, h => by
    rw [MainWindow.captureNodes] at h
    cases hpage : MainWindow.captureNode views page with
    | none => simp [hpage] at h
    | some node =>
      rw [hpage] at h
      obtain ⟨rest, hrest, rfl⟩ := Option.map_eq_some_iff.mp h
      exact ⟨proper_of_captured hviews hfit.1 hpage, properNodes_of_captured hviews hfit.2 hrest⟩

end

end Capture

/-! ## Building -/

/-- No dialog for the credentials is cancelled. -/
def Answered (answers : Nat → Answer) : Prop := ∀ i, (answers i).username ≠ none ∧ (answers i).password ≠ none

section Build

variable {answers : Nat → Answer} (hanswers : Answered answers)
include hanswers

theorem resolve_ne_none (i : Nat) (settings : SshConnectionSettings) : resolve (answers i) settings ≠ none := by
  obtain ⟨username, hu⟩ := Option.ne_none_iff_exists'.mp (hanswers i).1
  obtain ⟨password, hp⟩ := Option.ne_none_iff_exists'.mp (hanswers i).2
  have hpassword : ∀ named, resolvePassword (answers i) named ≠ none := by
    intro named
    unfold resolvePassword
    split <;> simp [hp]
  simp only [resolve, resolveUsername, hu]
  split <;> exact hpassword _

theorem resultForProfile_snapshot (i : Nat) (profile : ConnectionProfile) :
    ∃ result, resultForProfile (answers i) profile = some result ∧ result.snapshot = some profile := by
  unfold resultForProfile
  cases profile.type with
  | ssh =>
    obtain ⟨settings, h⟩ := Option.ne_none_iff_exists'.mp (resolve_ne_none hanswers i profile.ssh)
    simp [h, profileResult]
  | serial | telnet | shell | vnc | rdp => simp [profileResult]

end Build

mutual

theorem buildNode_captured {answers : Nat → Answer} (hanswers : Answered answers) : ∀ (node : SessionNode) (app : MainWindow),
    node.Full → ∃ page app', MainWindow.buildNode answers node app = (some page, app') ∧ app.views <+: app'.views ∧
      MainWindow.captureNode app'.views page = some node
  | .leaf none, _, h => absurd rfl h
  | .leaf (some profile), app, _ => by
    obtain ⟨result, hresult, hsnapshot⟩ := resultForProfile_snapshot hanswers app.answered profile
    refine ⟨.view app.views.length, app.answer.makeView result, ?_, List.prefix_append app.views _, ?_⟩
    · simp [MainWindow.buildNode, hresult]
    · simp [MainWindow.captureNode, MainWindow.makeView, MainWindow.answer, hsnapshot]
  | .splitter orientation sizes children, app, h => by
    obtain ⟨pages, app', hbuilt, hviews, hcaptured⟩ := buildNodes_captured hanswers children app h.2
    have hne : pages ≠ [] := fun hnil => by
      rw [hnil] at hcaptured
      exact h.1 (Option.some.inj hcaptured).symm
    refine ⟨.splitter orientation sizes pages, app', ?_, hviews, ?_⟩
    · simp [MainWindow.buildNode, hbuilt, hne]
    · simp [MainWindow.captureNode, hcaptured]

theorem buildNodes_captured {answers : Nat → Answer} (hanswers : Answered answers) :
    ∀ (nodes : List SessionNode) (app : MainWindow), FullNodes nodes → ∃ pages app',
      MainWindow.buildNodes answers nodes app = (pages, app') ∧ app.views <+: app'.views ∧
        MainWindow.captureNodes app'.views pages = some nodes
  | [], app, _ => ⟨[], app, rfl, List.prefix_rfl, rfl⟩
  | node :: nodes, app, h => by
    obtain ⟨page, app', hbuilt, hviews, hcaptured⟩ := buildNode_captured hanswers node app h.1
    obtain ⟨pages, app'', hbuilt', hviews', hcaptured'⟩ := buildNodes_captured hanswers nodes app' h.2
    refine ⟨page :: pages, app'', ?_, hviews.trans hviews', ?_⟩
    · simp [MainWindow.buildNodes, hbuilt, hbuilt']
    · simp [MainWindow.captureNodes, captureNode_mono hviews' hcaptured, hcaptured']

end

theorem buildTabs_captured {answers : Nat → Answer} (hanswers : Answered answers) (tabs : List SessionTab) (app : MainWindow)
    (h : ∀ tab ∈ tabs, tab.root.Full) : ∃ shown app', MainWindow.buildTabs answers tabs app = (shown, app') ∧
      app.views <+: app'.views ∧ shown.map (MainWindow.captureTab app'.views) = tabs.map some := by
  induction tabs generalizing app with
  | nil => exact ⟨[], app, rfl, List.prefix_rfl, rfl⟩
  | cons tab tabs ih =>
    obtain ⟨page, app', hbuilt, hviews, hcaptured⟩ := buildNode_captured hanswers tab.root app (h tab List.mem_cons_self)
    obtain ⟨shown, app'', hbuilt', hviews', hcaptured'⟩ := ih app' fun t ht => h t (List.mem_cons_of_mem tab ht)
    refine ⟨⟨tab.title, page⟩ :: shown, app'', ?_, hviews.trans hviews', ?_⟩
    · simp [MainWindow.buildTabs, hbuilt, hbuilt']
    · simp [hcaptured', MainWindow.captureTab, captureNode_mono hviews' hcaptured]

/-! ## The round trip -/

namespace MainWindow

theorem captureSession_tabs {app : MainWindow} (h : ∀ w ∈ app.windows.tail, w.secondary = true) (geometry state : QByteArray) :
    (app.captureSession geometry state).tabs = app.tabs.filterMap (captureTab app.views) := by
  have hall : (app.windows.drop 1).filter (·.secondary) = app.windows.drop 1 := by
    rw [List.filter_eq_self, List.drop_one]
    exact h
  simp only [captureSession, hall, List.take_append_drop, tabs, List.filterMap_flatMap]

theorem map_captureTab (app : MainWindow) :
    app.persistableTabs.map (captureTab app.views) = (app.tabs.filterMap (captureTab app.views)).map some := by
  unfold persistableTabs
  induction app.tabs with
  | nil => rfl
  | cons tab tabs ih =>
    have hcaptured : (captureNode app.views tab.page).isSome = tab.page.persistable app.views := isSome_captureNode tab.page
    cases hnode : captureNode app.views tab.page <;> simp_all [captureTab]

theorem sameTab_iff {views views' : List TerminalView} {tab tab' : Tab} {node node' : SessionTab}
    (h : captureTab views tab = some node) (h' : captureTab views' tab' = some node') :
    SameTab views views' tab tab' ↔ node'.title = node.title ∧ node'.root.selected = node.root.selected := by
  obtain ⟨root, hroot, rfl⟩ := Option.map_eq_some_iff.mp h
  obtain ⟨root', hroot', rfl⟩ := Option.map_eq_some_iff.mp h'
  simp [SameTab, samePane_iff, hroot, hroot']

/-- What two lists of tabs are captured as tells whether they are the same. -/
theorem sameTabs_iff {views views' : List TerminalView} {saved shown : List Tab} {nodes nodes' : List SessionTab}
    (hsaved : saved.map (captureTab views) = nodes.map some) (hshown : shown.map (captureTab views') = nodes'.map some) :
    List.Forall₂ (SameTab views views') saved shown ↔
      nodes'.map (·.selected) = nodes.map (·.selected) := by
  induction saved generalizing shown nodes nodes' with
  | nil =>
    cases nodes with
    | cons node nodes => simp at hsaved
    | nil => cases shown <;> cases nodes' <;> simp_all
  | cons tab saved ih =>
    cases nodes with
    | nil => simp at hsaved
    | cons node nodes =>
      cases shown <;> cases nodes' <;> simp only [List.map_cons, List.map_nil, List.cons.injEq, reduceCtorEq] at hsaved hshown ⊢
      · simp
      · have hrest := ih hsaved.2 hshown.2
        have htab := sameTab_iff hsaved.1 hshown.1
        simp only [List.forall₂_cons, hrest, htab, SessionTab.selected, SessionTab.mk.injEq]

theorem full_persistableTabs_iff (app : MainWindow) : (∀ tab ∈ app.persistableTabs, tab.page.Full) ↔
    ∀ node ∈ app.tabs.filterMap (captureTab app.views), node.root.Full := by
  constructor
  · intro h node hnode
    obtain ⟨tab, htab, hcaptured⟩ := List.mem_filterMap.mp hnode
    obtain ⟨root, hroot, rfl⟩ := Option.map_eq_some_iff.mp hcaptured
    have hpersistable : tab.page.persistable app.views = true := by rw [← isSome_captureNode, hroot]; rfl
    exact (full_iff_of_captured hroot).mp (h tab (List.mem_filter.mpr ⟨htab, hpersistable⟩))
  · intro h tab htab
    obtain ⟨hmem, hpersistable⟩ := List.mem_filter.mp htab
    rw [← isSome_captureNode, Option.isSome_iff_exists] at hpersistable
    obtain ⟨root, hroot⟩ := hpersistable
    have hcaptured : captureTab app.views tab = some ⟨tab.title, root⟩ := by simp [captureTab, hroot]
    exact (full_iff_of_captured hroot).mpr (h _ (List.mem_filterMap.mpr ⟨tab, hmem, hcaptured⟩))

theorem length_persistableTabs (app : MainWindow) :
    app.persistableTabs.length = (app.tabs.filterMap (captureTab app.views)).length := by
  simpa using congrArg List.length app.map_captureTab

/-- A saved tab of the first window comes after the saved ones before it. -/
theorem countP_lt_persistableTabs {app : MainWindow} {w : Window} {i : Nat} {tab : Tab} (hw : app.windows.head? = some w)
    (htab : w.tabs[i]? = some tab) (hpersistable : tab.page.persistable app.views = true) :
    (w.tabs.take i).countP (·.page.persistable app.views) < app.persistableTabs.length := by
  obtain ⟨rest, hrest⟩ := List.head?_eq_some_iff.mp hw
  obtain ⟨hi, rfl⟩ := List.getElem?_eq_some_iff.mp htab
  have hsplit : w.tabs = w.tabs.take i ++ w.tabs[i] :: w.tabs.drop (i + 1) := by simp
  have htabs : app.persistableTabs.length = w.tabs.countP (·.page.persistable app.views) +
      (rest.flatMap (·.tabs)).countP (·.page.persistable app.views) := by
    simp [persistableTabs, MainWindow.tabs, hrest, List.countP_eq_length_filter]
  have hwindow := congrArg (List.countP (·.page.persistable app.views)) hsplit
  rw [List.countP_append, List.countP_cons_of_pos (p := fun t : Tab => t.page.persistable app.views) hpersistable] at hwindow
  omega

/-- Nothing but saved tabs is like a saved one. -/
theorem not_sameTab_welcome {views views' : List TerminalView} {tab : Tab} (title : QString) :
    ¬ SameTab views views' tab ⟨title, .welcome⟩ := by
  rintro ⟨-, hpage⟩
  obtain ⟨_, _, -, hwelcome, -⟩ := (samePane_iff _ _).mp hpage
  simp [captureNode] at hwelcome

/-- Where the current tab goes: it is the `k`-th of `n` saved tabs and was the `i`-th of all. -/
theorem restored_index_iff {k i n : Nat} (hn : k < n) {empty : Bool} (hempty : empty = false) :
    (if 0 ≤ (i : Int) ∧ (i : Int) < n then (i : Int) else if empty then -1 else 0) = k ↔ k = i ∨ k = 0 ∧ n ≤ i := by
  rw [hempty]
  rcases Nat.lt_or_ge i n with h | h
  · rw [if_pos (by omega)]
    omega
  · rw [if_neg (by omega), if_neg Bool.false_ne_true]
    omega

/-- The restored current tab is the right one if and only if the tabs before it are all saved, or none of them is and it is too far
on to be chosen. -/
theorem current_iff {app restored : MainWindow} {shown : List Tab} (hlength : shown.length = app.persistableTabs.length)
    (hrestored : let index := (app.windows.head?.map (·.currentIndex)).getD (-1)
      restored.windows = [⟨false, shown, if 0 ≤ index ∧ index < shown.length then index else if shown.isEmpty then -1 else 0⟩]) :
    (∀ w w' (i : Nat) tab, app.windows.head? = some w → restored.windows.head? = some w' → w.currentIndex = i →
      w.tabs[i]? = some tab → tab.page.persistable app.views = true →
      w'.currentIndex = (w.tabs.take i).countP (·.page.persistable app.views)) ↔ app.CurrentKept := by
  have hone : ∀ w (i : Nat) tab, app.windows.head? = some w → w.currentIndex = i → w.tabs[i]? = some tab →
      tab.page.persistable app.views = true →
      ((∀ w', restored.windows.head? = some w' → w'.currentIndex = (w.tabs.take i).countP (·.page.persistable app.views)) ↔
        (∀ t ∈ w.tabs.take i, t.page.persistable app.views = true) ∨
          (∀ t ∈ w.tabs.take i, t.page.persistable app.views = false) ∧ app.persistableTabs.length ≤ i) := by
    intro w i tab hw hi htab hpersistable
    have hbefore := countP_lt_persistableTabs hw htab hpersistable
    have htake : (w.tabs.take i).length = i := by
      rw [List.length_take, Nat.min_eq_left (Nat.le_of_lt (List.getElem?_eq_some_iff.mp htab).1)]
    have hsome : shown.isEmpty = false := by
      rw [List.isEmpty_eq_false_iff, ← List.length_pos_iff]
      omega
    have hall : (w.tabs.take i).countP (·.page.persistable app.views) = i ↔
        ∀ t ∈ w.tabs.take i, t.page.persistable app.views = true := by
      conv => lhs; rhs; rw [← htake]
      exact List.countP_eq_length
    have hnone : (w.tabs.take i).countP (·.page.persistable app.views) = 0 ↔
        ∀ t ∈ w.tabs.take i, t.page.persistable app.views = false := by
      simp [List.countP_eq_zero]
    rw [← hall, ← hnone, ← hlength, ← restored_index_iff (by rw [hlength]; exact hbefore) hsome]
    simp only [hw, Option.map_some, Option.getD_some, hi] at hrestored
    simp [hrestored]
  constructor
  · intro h w i tab hw hi htab hpersistable
    exact (hone w i tab hw hi htab hpersistable).mp fun w' hw' => h w w' i tab hw hw' hi htab hpersistable
  · intro h w w' i tab hw hw' hi htab hpersistable
    exact (hone w i tab hw hi htab hpersistable).mpr (h w i tab hw hi htab hpersistable) w' hw'

section Restart

variable {pl : Platform} {key : QByteArray} (hpl : pl.Seals key) {answers : Nat → Answer} (hanswers : Answered answers)
  {app : MainWindow} (happ : app.Proper pl) (geometry state : QByteArray) {c opening : StoreCalls} (hc : Unlocked key c)
  (hopening : Unlocked key opening) (profileCalls : StoreCalls)
include hpl hanswers happ hc hopening

/-- What is restored are the tabs that survive, or the welcome tab. -/
theorem restarted_windows : let restored := app.restarted pl answers geometry state c profileCalls opening
    let surviving := survivingTabs (app.tabs.filterMap (captureTab app.views))
    let index := (app.windows.head?.map (·.currentIndex)).getD (-1)
    surviving = [] ∧ restored.windows = [⟨false, [⟨"Welcome".toList, .welcome⟩], 0⟩] ∨
      surviving ≠ [] ∧ ∃ shown : List Tab, shown.map (captureTab restored.views) = surviving.map some ∧
        restored.windows = [⟨false, shown,
          if 0 ≤ index ∧ index < shown.length then index else if shown.isEmpty then -1 else 0⟩] := by
  intro restored surviving index
  have htabs := captureSession_tabs happ.secondary geometry state
  have hproper : ∀ tab ∈ (app.captureSession geometry state).tabs, tab.root.Proper pl := by
    rw [htabs]
    intro node hnode
    obtain ⟨tab, htab, hcaptured⟩ := List.mem_filterMap.mp hnode
    obtain ⟨root, hroot, rfl⟩ := Option.map_eq_some_iff.mp hcaptured
    exact proper_of_captured happ.profiles (happ.sizes tab htab) hroot
  have hindex : FitsInt (app.captureSession geometry state).currentTabIndex := by
    show FitsInt index
    cases hwindow : app.windows.head? with
    | none => simp [index, hwindow, FitsInt]
    | some w => simpa [index, hwindow] using happ.index w hwindow
  obtain ⟨hread, hreadIndex⟩ := load_save hpl hproper hindex hc hopening
  rw [htabs] at hread
  let session := SessionState.load pl opening (some (.object ((app.captureSession geometry state).save pl c)))
  let start : MainWindow := { app.saveSession pl geometry state c with
    views := []
    windows := [⟨false, [⟨"Welcome".toList, .welcome⟩], 0⟩]
    profileStore := ProfileStore.load pl profileCalls app.connectionsJson ⟨[], []⟩ }
  have hlaunch : restored = if session.tabs.isEmpty then start else start.restoreSession answers session := rfl
  by_cases hnone : surviving = []
  · left
    have hempty : session.tabs.isEmpty = true := by rw [hread, List.isEmpty_iff]; exact hnone
    rw [hlaunch, if_pos hempty]
    exact ⟨hnone, rfl⟩
  · right
    have hempty : ¬ session.tabs.isEmpty = true := by rw [hread, List.isEmpty_iff]; exact hnone
    have hfull : ∀ tab ∈ session.tabs, tab.root.Full := by
      rw [hread]
      exact survivingTabs_full _
    obtain ⟨shown, app', hbuilt, -, hshown⟩ := buildTabs_captured hanswers session.tabs start hfull
    rw [hlaunch, if_neg hempty, restoreSession, hbuilt]
    rw [hread] at hshown
    exact ⟨hnone, shown, hshown, by rw [hreadIndex]; rfl⟩

/-- The session comes back as it was saved if and only if no saved tab has an empty splitter, and the index of the current tab is
the same before and after the tabs that are not saved are left out. -/
theorem session_round_trip_iff : RoundTrip app (app.restarted pl answers geometry state c profileCalls opening) ↔
    (∀ tab ∈ app.persistableTabs, tab.page.Full) ∧ app.CurrentKept := by
  rw [full_persistableTabs_iff, ← survivingTabs_eq_iff]
  have hlength := app.length_persistableTabs
  have hnil : app.persistableTabs = [] ↔ app.tabs.filterMap (captureTab app.views) = [] := by
    rw [← List.length_eq_zero_iff, hlength, List.length_eq_zero_iff]
  rcases restarted_windows hpl hanswers happ geometry state hc hopening profileCalls with
    ⟨hnone, hrestored⟩ | ⟨hne, shown, hshown, hrestored⟩
  · by_cases hempty : app.persistableTabs = []
    · have hno : ∀ w (i : Nat) tab, app.windows.head? = some w → w.tabs[i]? = some tab →
          ¬ tab.page.persistable app.views = true := by
        intro w i tab hw htab hpersistable
        have hlt := countP_lt_persistableTabs hw htab hpersistable
        simp [hempty] at hlt
      apply iff_of_true
      · refine ⟨⟨0, _, hrestored, by rw [if_pos hempty]⟩, ?_⟩
        intro w w' i tab hw _ _ htab hpersistable
        exact absurd hpersistable (hno w i tab hw htab)
      · refine ⟨by rw [hnil.mp hempty]; rfl, ?_⟩
        intro w i tab hw _ htab hpersistable
        exact absurd hpersistable (hno w i tab hw htab)
    · apply iff_of_false
      · rintro ⟨⟨index, shown, hwindows, hsame⟩, -⟩
        rw [if_neg hempty] at hsame
        rw [hrestored, List.cons.injEq, Window.mk.injEq] at hwindows
        obtain ⟨⟨-, rfl, -⟩, -⟩ := hwindows
        cases hsaved : app.persistableTabs with
        | nil => exact hempty hsaved
        | cons tab rest =>
          rw [hsaved, List.forall₂_cons] at hsame
          exact not_sameTab_welcome _ hsame.1
      · rintro ⟨hall, -⟩
        rw [hnone] at hall
        exact hempty (hnil.mpr (List.map_eq_nil_iff.mp hall.symm))
  · have hsaved : app.persistableTabs ≠ [] := by
      intro hempty
      rw [hnil.mp hempty] at hne
      exact hne rfl
    have hsame := sameTabs_iff app.map_captureTab hshown
    rw [survivingTabs_selected] at hsame
    have hcount : shown.length = (survivingTabs (app.tabs.filterMap (captureTab app.views))).length := by
      simpa using congrArg List.length hshown
    constructor
    · rintro ⟨⟨index, shown', hwindows, htabs⟩, hcurrent⟩
      rw [hrestored, List.cons.injEq, Window.mk.injEq] at hwindows
      obtain ⟨⟨-, rfl, -⟩, -⟩ := hwindows
      rw [if_neg hsaved, hsame] at htabs
      have hall : shown.length = app.persistableTabs.length := by rw [hcount, htabs, List.length_map, hlength]
      exact ⟨htabs, (current_iff hall hrestored).mp hcurrent⟩
    · rintro ⟨htabs, hcurrent⟩
      have hall : shown.length = app.persistableTabs.length := by rw [hcount, htabs, List.length_map, hlength]
      refine ⟨⟨_, shown, hrestored, ?_⟩, (current_iff hall hrestored).mpr hcurrent⟩
      rw [if_neg hsaved]
      exact hsame.mpr htabs

end Restart

/-! ## A session that comes back, and one that does not -/

def telnetView (id : QUuid) (host : QString) : TerminalView where
  transport := .telnet host 23
  recreate := .telnet host 23
  autoReconnect := true
  sshSettings := none
  sessionSnapshot := some { id, type := .telnet, telnetHost := host }

def loopbackView : TerminalView where
  transport := .loopback
  recreate := .loopback
  autoReconnect := true
  sshSettings := none
  sessionSnapshot := none

def onScreen (views : List TerminalView) (tabs : List Tab) (currentIndex : Int) : MainWindow :=
  { start none none with views := views, windows := [⟨false, tabs, currentIndex⟩] }

theorem telnetView_proper (host : QString) (p : ConnectionProfile) (h : (telnetView 1 host).sessionSnapshot = some p) :
    p.Proper .ascii := by
  cases h
  have hzero : ∀ n : Int, n ∈ [115200, 8, 0, 1, 0, 1280, 800] → FitsInt n := by simp [FitsInt]
  refine ⟨(by decide : (1 : QUuid) ≠ 0), (rfl : Platform.ascii.uuidFromString someIdText = 1), ?_, ?_, ?_, ?_, ?_, ?_, ?_, ?_⟩
  · intro text htext
    obtain rfl : text = [] := by simpa using htext
    rfl
  all_goals exact hzero _ (by simp)

def someAnswers : Nat → Answer := fun _ => ⟨some [], some []⟩

theorem someAnswers_answered : Answered someAnswers := fun _ => ⟨nofun, nofun⟩

/-- A loopback pane, and two connections side by side. -/
def someViews : List TerminalView := [loopbackView, telnetView 1 ['a'], telnetView 1 ['b']]

def sideBySide : Pane := .splitter .horizontal [400, 400] [.view 1, .view 2]

theorem onScreen_proper {tabs : List Tab} (htabs : ∀ tab ∈ tabs, tab.page.SizesFit) {index : Int} (hindex : FitsInt index) :
    (onScreen someViews tabs index).Proper .ascii := by
  refine ⟨by simp [onScreen], ?_, by simpa [onScreen, MainWindow.tabs] using htabs, ?_⟩
  · rintro w ⟨⟩
    exact hindex
  · intro v hv p hp
    simp only [onScreen, someViews, List.mem_cons, List.not_mem_nil, or_false] at hv
    rcases hv with rfl | rfl | rfl
    · cases hp
    · exact telnetView_proper _ p hp
    · exact telnetView_proper _ p hp

/-- Two tabs, the second one current. -/
theorem session_round_trip_two : RoundTrip (onScreen someViews [⟨['x'], sideBySide⟩, ⟨['b'], .view 2⟩] 1)
    ((onScreen someViews [⟨['x'], sideBySide⟩, ⟨['b'], .view 2⟩] 1).restarted .ascii someAnswers [] [] (callsWith (keyOf 1).val)
      (callsWith (keyOf 1).val) (callsWith (keyOf 1).val)) := by
  have hproper : (onScreen someViews [⟨['x'], sideBySide⟩, ⟨['b'], .view 2⟩] 1).Proper .ascii :=
    onScreen_proper (by simp [sideBySide, Pane.SizesFit, SizesFitAll, FitsInt]) (by simp [FitsInt])
  apply (session_round_trip_iff ascii_seals someAnswers_answered hproper [] [] callsWith_unlocked callsWith_unlocked _).mpr
  constructor
  · intro tab htab
    have hmem := (List.mem_filter.mp htab).1
    simp only [onScreen, MainWindow.tabs, List.flatMap_cons, List.flatMap_nil, List.append_nil, List.mem_cons, List.not_mem_nil,
      or_false] at hmem
    rcases hmem with rfl | rfl <;> simp [sideBySide, Pane.Full, FullPanes]
  · rintro w i tab ⟨⟩ hi - -
    have hindex : (1 : Int) = i := hi
    obtain rfl : i = 1 := by omega
    exact .inl (by decide)

/-- A loopback tab stands before two others, and the first of these is current: the second one is after the restart. -/
theorem current_tab_moves : ¬ ∀ (pl : Platform) (key : QByteArray) (answers : Nat → Answer) (app : MainWindow)
    (geometry state : QByteArray) (c profileCalls opening : StoreCalls), pl.Seals key → Answered answers → app.Proper pl →
    Unlocked key c → Unlocked key opening → RoundTrip app (app.restarted pl answers geometry state c profileCalls opening) := by
  intro h
  have hproper : (onScreen someViews [⟨['l'], .view 0⟩, ⟨['a'], .view 1⟩, ⟨['b'], .view 2⟩] 1).Proper .ascii :=
    onScreen_proper (by simp [Pane.SizesFit]) (by simp [FitsInt])
  have hround := h _ _ _ _ [] [] (callsWith (keyOf 1).val) (callsWith (keyOf 1).val) (callsWith (keyOf 1).val) ascii_seals
    someAnswers_answered hproper callsWith_unlocked callsWith_unlocked
  rcases restarted_windows ascii_seals someAnswers_answered hproper [] [] callsWith_unlocked callsWith_unlocked
    (callsWith (keyOf 1).val) with ⟨hnone, -⟩ | ⟨-, shown, hshown, hrestored⟩
  · cases hnone
  · have hlength : shown.length = 2 := (List.length_map _).symm.trans (congrArg List.length hshown)
    have hcurrent := hround.current _ _ 1 _ rfl (by rw [hrestored]; rfl) rfl rfl rfl
    rw [hlength] at hcurrent
    have hindex : (if (0 : Int) ≤ 1 ∧ (1 : Int) < (2 : Nat) then (1 : Int) else if shown.isEmpty then -1 else 0) = 0 := hcurrent
    rw [if_pos (by decide)] at hindex
    exact absurd hindex (by decide)

end MainWindow

end LvdTerm.App
