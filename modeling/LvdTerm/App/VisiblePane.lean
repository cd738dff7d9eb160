import LvdTerm.App.PaneTrees

/-!
# The pane that a command acts on

`m_activeView` is the pane that had the focus last, in whatever tab; only `confirmCloseActivePane` asks whether it is on screen. It
is as long as no tab without panes becomes the current one while there is an active pane: `commands_on_screen`.
-/
namespace LvdTerm.App.Panes

open LvdTerm.Lib Rose Runs

/-! ## Commands -/

inductive Command where
  | closeActivePane
  | confirmCloseActivePane
  | splitActivePane
  | toggleSessionLogging
  /-- Find, clear, copy, paste and the custom texts. -/
  | terminal

namespace Window

/-- The commands of a terminal are there only while one has the focus. -/
def terminalFocused (s : Window) : Bool := s.focus.any fun a => (viewOf a).isSome

/-- The pane that a command acts on. With the focus in a picker, closing is about that. -/
def target (s : Window) (c : Command) : Option Nat :=
  if s.active then
    match c with
    | .closeActivePane => if s.focusedPicker.isSome then none else s.currentActiveView
    | .confirmCloseActivePane => if s.focusedPicker.isSome then none else s.confirmTarget
    | .splitActivePane => s.currentActiveView
    | .toggleSessionLogging => s.currentActiveView
    | .terminal => if s.terminalFocused then s.currentActiveView else none
  else none

/-- What the steps may not do. A picker that is moved to another window still acts on this one. -/
def Keeps (s : Window) : Event → Prop
  | .setCurrentIndex i => ∀ tab, s.tabs[i]? = some tab → collectViews tab.page = [] → s.activeView = none
  | .acceptTab tab _ => hasPicker tab.page = false ∧ (collectViews tab.page = [] → s.activeView = none)
  | .transferTab i => ∀ tab, s.tabs[i]? = some tab → hasPicker tab.page = false
  | .movePane source _ _ => source ∈ s.currentViews
  | _ => True

end Window

/-! ## The active pane is on screen -/

/-- The focus is on screen. The active pane is too, or the window is not active and will find another pane that has the focus. -/
structure Settled (s : Window) : Prop where
  focused : ∀ a, s.focus = some a → a ∈ s.currentLeaves
  shown : ∀ v, s.activeView = some v → v ∈ s.currentViews ∨ s.active = false ∧ ∃ u, s.focus = some (.view u)

section Settled

variable {s s' : Window} {i n v : Nat} {tab : Tab} {page : Widget} {a : Leaf}

theorem mem_currentViews : v ∈ s.currentViews ↔ .view v ∈ s.currentLeaves := by
  unfold Window.currentViews
  rw [List.mem_filterMap]
  constructor
  · rintro ⟨x, hx, hv⟩
    cases x <;> cases hv
    exact hx
  · intro h
    exact ⟨_, h, rfl⟩

/-- What is on screen is in the current tab. -/
theorem mem_currentLeaves : a ∈ s.currentLeaves ↔ ∃ c tab, s.currentIndex = some c ∧ s.tabs[c]? = some tab ∧ a ∈ tab.page.leaves := by
  unfold Window.currentLeaves Window.currentWidget
  cases s.currentIndex with
  | none => simp
  | some c => cases htab : s.tabs[c]? <;> simp [htab]

theorem currentLeaves_of_widget (h : s.currentWidget = some page) : s.currentLeaves = page.leaves := by
  rw [Window.currentLeaves, h]
  rfl

theorem hasLeaf_of_current (h : a ∈ s.currentLeaves) : s.hasLeaf a = true := by
  obtain ⟨c, tab, -, htab, ha⟩ := mem_currentLeaves.mp h
  unfold Window.hasLeaf Window.tabRootOf
  rw [List.findIdx?_isSome, List.any_eq_true]
  exact ⟨tab, List.mem_of_getElem? htab, decide_eq_true ha⟩

/-- A pane on screen takes the focus, whatever was before. -/
theorem setFocus_view_settled (h : .view v ∈ s.currentLeaves) : Settled (s.setFocus (.view v)) := by
  have hleaf : ({ s with focus := some (.view v) } : Window).hasLeaf (.view v) = true := hasLeaf_of_current h
  unfold Window.setFocus
  rw [if_pos h]
  simp only
  split
  next =>
    unfold Window.onFocusChanged
    simp only
    rw [if_pos hleaf]
    refine ⟨fun a ha => ?_, fun u hu => ?_⟩
    · cases ha
      exact h
    · cases hu
      exact .inl (mem_currentViews.mpr h)
  next hactive =>
    refine ⟨fun a ha => ?_, fun u hu => ?_⟩
    · cases ha
      exact h
    · exact .inr ⟨Bool.eq_false_of_not_eq_true hactive, v, rfl⟩

theorem setFocus_settled (hs : Settled s) (hactive : s.active = true) (a : Leaf) : Settled (s.setFocus a) := by
  by_cases ha : a ∈ s.currentLeaves
  · cases a with
    | view v => exact setFocus_view_settled ha
    | _ =>
      unfold Window.setFocus Window.onFocusChanged
      rw [if_pos ha]
      simp only [ite_self]
      refine ⟨fun b hb => ?_, fun u hu => ?_⟩
      · cases hb
        exact ha
      · rcases hs.shown u hu with hshown | ⟨hnot, -⟩
        · exact .inl hshown
        · rw [hactive] at hnot
          cases hnot
  · rw [Window.setFocus, if_neg ha]
    exact hs

/-- More on screen than before. -/
theorem Settled.grow (hs : Settled s) (hleaves : ∀ a ∈ s.currentLeaves, a ∈ s'.currentLeaves) (hfocus : s'.focus = s.focus)
    (hview : s'.activeView = s.activeView) (hactive : s'.active = s.active) : Settled s' := by
  refine ⟨fun a ha => hleaves a (hs.focused a (hfocus ▸ ha)), fun v hv => ?_⟩
  rcases hs.shown v (hview ▸ hv) with hshown | ⟨hnot, u, hu⟩
  · exact .inl (mem_currentViews.mpr (hleaves _ (mem_currentViews.mp hshown)))
  · exact .inr ⟨hactive.trans hnot, u, hfocus.trans hu⟩

/-- The panes that were on screen still are. -/
theorem Settled.loseFocus (hs : Settled s) (hviews : ∀ v, .view v ∈ s.currentLeaves → .view v ∈ s'.currentLeaves)
    (hfocus : s'.focus = s.focus) (hview : s'.activeView = s.activeView) (hactive : s'.active = s.active) : Settled s'.loseFocus := by
  refine ⟨fun a ha => of_decide_eq_true (Option.filter_eq_some_iff.mp ha).2, fun v hv => ?_⟩
  rcases hs.shown v (hview ▸ hv) with hshown | ⟨hnot, u, hu⟩
  · exact .inl (mem_currentViews.mpr (hviews v (mem_currentViews.mp hshown)))
  · refine .inr ⟨hactive.trans hnot, u, ?_⟩
    exact Option.filter_eq_some_iff.mpr ⟨hfocus.trans hu, decide_eq_true (hviews u (hs.focused _ hu))⟩

theorem loseFocus_settled_of_none (h : s.activeView = none) : Settled s.loseFocus := by
  refine ⟨fun a ha => of_decide_eq_true (Option.filter_eq_some_iff.mp ha).2, fun v hv => ?_⟩
  change s.activeView = some v at hv
  rw [h] at hv
  cases hv

/-- The first pane of the tab takes the focus. -/
theorem onCurrentTabChanged_settled (h : s.currentViews = [] → s.activeView = none) : Settled s.onCurrentTabChanged := by
  unfold Window.onCurrentTabChanged
  simp only
  cases hhead : s.loseFocus.currentViews.head? with
  | none => exact loseFocus_settled_of_none (h (List.head?_eq_none_iff.mp hhead))
  | some v => exact setFocus_view_settled (mem_currentViews.mp (List.mem_of_head? hhead))

theorem setCurrentIndex_settled (hs : Settled s) (h : ∀ tab, s.tabs[i]? = some tab → collectViews tab.page = [] → s.activeView = none) :
    Settled (s.setCurrentIndex i) := by
  unfold Window.setCurrentIndex
  split
  next hi =>
    refine onCurrentTabChanged_settled fun hviews => ?_
    have htab : s.tabs[i]? = some s.tabs[i] := List.getElem?_eq_getElem hi.1
    refine h _ htab ?_
    have hwidget : ({ s with currentIndex := some i } : Window).currentWidget = some s.tabs[i].page := by
      simp [Window.currentWidget, htab]
    rw [Window.currentViews, currentLeaves_of_widget hwidget] at hviews
    exact hviews
  next => exact hs

/-! ## Tabs -/

theorem currentViews_of_widget (h : s.currentWidget = some page) : s.currentViews = collectViews page := by
  rw [Window.currentViews, currentLeaves_of_widget h]
  rfl

theorem currentWidget_eq (h : s.currentIndex = some i) : s.currentWidget = s.tabs[i]?.map (·.page) := by
  rw [Window.currentWidget, h]
  rfl

theorem leaves_of_currentWidget (h : s'.currentWidget = s.currentWidget) : s'.currentLeaves = s.currentLeaves := by
  rw [Window.currentLeaves, Window.currentLeaves, h]

/-- Without tabs nothing is on screen, and no pane is active. -/
theorem addTab_settled (hs : Settled s) (tab : Tab) : Settled (s.addTab tab) := by
  unfold Window.addTab Window.insertTab
  split
  next hnil =>
    rw [List.isEmpty_iff] at hnil
    refine onCurrentTabChanged_settled fun _ => ?_
    have hnothing : ∀ a, a ∉ s.currentLeaves := by
      intro a ha
      obtain ⟨c, tab', -, htab', -⟩ := mem_currentLeaves.mp ha
      rw [hnil] at htab'
      cases htab'
    cases hview : s.activeView with
    | none => rfl
    | some v =>
      rcases hs.shown v hview with hshown | ⟨-, u, hu⟩
      · exact absurd (mem_currentViews.mp hshown) (hnothing _)
      · exact absurd (hs.focused _ hu) (hnothing _)
  next =>
    refine hs.grow (fun a ha => ?_) rfl rfl rfl
    rw [leaves_of_currentWidget]
    · exact ha
    · unfold Window.currentWidget
      cases s.currentIndex with
      | none => rfl
      | some c =>
        simp only [Option.map_some, Option.bind_some, List.insertIdx_length_self]
        by_cases hc : s.tabs.length ≤ c
        · rw [if_pos hc, List.getElem?_eq_none hc, List.getElem?_eq_none (by simp; omega)]
        · rw [if_neg hc, List.getElem?_append_left (by omega)]

/-- A tab without panes makes none active. -/
theorem addTab_activeView (h : collectViews tab.page = []) : (s.addTab tab).activeView = s.activeView := by
  unfold Window.addTab Window.insertTab
  split
  next =>
    have hwidget : ({ s with tabs := [tab], currentIndex := some 0 } : Window).loseFocus.currentWidget = some tab.page := rfl
    unfold Window.onCurrentTabChanged
    simp only
    rw [currentViews_of_widget hwidget, h]
    rfl
  next => rfl

/-- The new page is current. -/
theorem addTerminalTab_settled (s : Window) (title : List Char) : Settled (s.addTerminalTab title) := by
  refine setFocus_view_settled ?_
  have htabs : ({ s with next := s.next + 1 }.addTab ⟨title, .leaf (.view s.next)⟩).tabs = s.tabs ++ [⟨title, .leaf (.view s.next)⟩] := by
    rw [Window.addTab, Window.insertTab_tabs _ (Nat.le_refl _)]
    exact List.insertIdx_length_self
  refine mem_currentLeaves.mpr ⟨s.tabs.length, ⟨title, .leaf (.view s.next)⟩, ?_, ?_, List.mem_singleton_self _⟩
  · refine Window.setCurrentIndex_currentIndex _ ?_
    rw [htabs]
    simp
  · rw [Window.setCurrentIndex_tabs, htabs]
    simp

/-- The page comes up at the end. -/
theorem replacePage_changed (htab : s.tabs[i]? = some tab) (page : Widget) :
    ∃ s₁ : Window, s.replacePage i page = s₁.onCurrentTabChanged ∧ s₁.currentWidget = some page := by
  have hi := (List.getElem?_eq_some_iff.mp htab).1
  have hlength := List.length_eraseIdx_of_lt hi
  unfold Window.replacePage
  rw [htab]
  simp only
  have htabs : ((s.removeTab i).insertTab i ⟨tab.title, page⟩).tabs = (s.tabs.eraseIdx i).insertIdx i ⟨tab.title, page⟩ := by
    rw [Window.insertTab_tabs _ (by rw [Window.removeTab_tabs]; omega), Window.removeTab_tabs]
  have hget : ((s.removeTab i).insertTab i ⟨tab.title, page⟩).tabs[i]? = some ⟨tab.title, page⟩ := by
    rw [htabs]
    rw [List.getElem?_insertIdx_self, if_pos (by omega)]
  have hlength' : i < ((s.removeTab i).insertTab i ⟨tab.title, page⟩).tabs.length := (List.getElem?_eq_some_iff.mp hget).1
  by_cases hnil : (s.removeTab i).tabs.isEmpty = true
  · have hzero : i = 0 := by
      rw [Window.removeTab_tabs, List.isEmpty_iff_length_eq_zero] at hnil
      omega
    subst hzero
    have hinsert : (s.removeTab 0).insertTab 0 ⟨tab.title, page⟩ =
        { s.removeTab 0 with tabs := [⟨tab.title, page⟩], currentIndex := some 0 }.onCurrentTabChanged := by
      rw [Window.insertTab, if_pos hnil]
    refine ⟨{ s.removeTab 0 with tabs := [⟨tab.title, page⟩], currentIndex := some 0 }, ?_, rfl⟩
    rw [hinsert, Window.setCurrentIndex, if_neg]
    intro hboth
    exact hboth.2 (Window.onCurrentTabChanged_currentIndex _)
  · refine ⟨{ (s.removeTab i).insertTab i ⟨tab.title, page⟩ with currentIndex := some i }, ?_, ?_⟩
    · rw [Window.setCurrentIndex, if_pos]
      refine ⟨hlength', ?_⟩
      rw [Window.insertTab, if_neg hnil]
      simp only
      cases (s.removeTab i).currentIndex with
      | none => exact nofun
      | some c =>
        intro heq
        rw [Option.map_some] at heq
        split at heq <;> cases heq <;> omega
    · unfold Window.currentWidget
      simp [hget]

theorem replacePage_settled (htab : s.tabs[i]? = some tab) (hview : .view v ∈ page.leaves) : Settled (s.replacePage i page) := by
  obtain ⟨s₁, heq, hwidget⟩ := replacePage_changed htab page
  rw [heq]
  refine onCurrentTabChanged_settled fun hviews => ?_
  rw [currentViews_of_widget hwidget] at hviews
  have hmem := view_mem_leaves.mpr hview
  rw [hviews] at hmem
  cases hmem

theorem moveTab_settled (hs : Settled s) (i j : Nat) : Settled (s.moveTab i j) := by
  unfold Window.moveTab
  split
  next => exact hs
  next tab htab =>
    split
    next hj =>
      have hi := (List.getElem?_eq_some_iff.mp htab).1
      have hlength := List.length_eraseIdx_of_lt hi
      refine hs.grow (fun a ha => ?_) rfl rfl rfl
      rw [leaves_of_currentWidget]
      · exact ha
      · unfold Window.currentWidget
        cases s.currentIndex with
        | none => rfl
        | some c =>
          simp only [Option.map_some, Option.bind_some]
          refine congrArg (Option.map Tab.page) ?_
          by_cases hc : c = i
          · rw [if_pos hc, List.getElem?_insertIdx_self, if_pos (by omega), hc, htab]
          · -- where the tab is without the one that is dragged
            have hrest : (s.tabs.eraseIdx i)[if i < c then c - 1 else c]? = s.tabs[c]? := by
              by_cases hlt : i < c
              · rw [if_pos hlt, List.getElem?_eraseIdx, if_neg (by omega), Nat.sub_add_cancel (by omega)]
              · rw [if_neg hlt, List.getElem?_eraseIdx, if_pos (by omega)]
            rw [if_neg hc, ← hrest]
            generalize (if i < c then c - 1 else c) = c'
            by_cases hle : j ≤ c'
            · rw [if_pos hle, List.getElem?_insertIdx_of_gt (by omega), Nat.add_sub_cancel]
            · rw [if_neg hle, List.getElem?_insertIdx_of_lt (by omega)]
    next => exact hs

/-- The active pane is not in a closed tab, and on screen in every other one. -/
theorem closeTab_settled (hs : Settled s) (hactive : s.active = true) (i : Nat) : Settled (s.closeTab i) := by
  have hshown : ∀ v, s.activeView = some v → v ∈ s.currentViews := by
    intro v hv
    rcases hs.shown v hv with hshown | ⟨hnot, -⟩
    · exact hshown
    · rw [hactive] at hnot
      cases hnot
  unfold Window.closeTab
  cases htab : s.tabs[i]? with
  | none =>
    rw [Window.pageAt, htab]
    exact hs
  | some tab =>
    have hi := (List.getElem?_eq_some_iff.mp htab).1
    rw [pageAt_eq htab]
    simp only
    have hleft : ∀ v, s.activeView.filter (· ∉ collectViews tab.page) = some v → s.activeView = some v ∧ v ∉ collectViews tab.page := by
      intro v hv
      obtain ⟨hview, hnot⟩ := Option.filter_eq_some_iff.mp hv
      exact ⟨hview, of_decide_eq_true hnot⟩
    have hfewer : ∀ c, s.currentIndex = some c → (s.tabs.eraseIdx i)[c]? = s.tabs[c]? →
        Settled { s with activeView := s.activeView.filter (· ∉ collectViews tab.page), tabs := s.tabs.eraseIdx i } := by
      intro c hc hget
      have hwidget : ({ s with tabs := s.tabs.eraseIdx i } : Window).currentWidget = s.currentWidget := by
        rw [currentWidget_eq hc, currentWidget_eq (s := { s with tabs := s.tabs.eraseIdx i }) hc, hget]
      have hleaves := leaves_of_currentWidget hwidget
      refine ⟨fun a ha => hleaves ▸ hs.focused a ha, fun v hv => .inl ?_⟩
      have hmem := mem_currentViews.mp (hshown v (hleft v hv).1)
      exact mem_currentViews.mpr (hleaves ▸ hmem)
    unfold Window.removeTab
    rw [if_pos hi]
    simp only
    split
    next hnone =>
      have hnothing : s.currentLeaves = [] := by rw [Window.currentLeaves, Window.currentWidget, hnone]; rfl
      refine ⟨fun a ha => ?_, fun v hv => ?_⟩
      · have hmem := hs.focused a ha
        rw [hnothing] at hmem
        cases hmem
      · have hmem := mem_currentViews.mp (hshown v (hleft v hv).1)
        rw [hnothing] at hmem
        cases hmem
    next c hc =>
      split
      next hlt => exact hfewer c hc (by rw [List.getElem?_eraseIdx, if_pos hlt])
      next hge =>
        refine onCurrentTabChanged_settled fun hviews => ?_
        by_contra hsome
        obtain ⟨v, hv⟩ := Option.ne_none_iff_exists'.mp hsome
        obtain ⟨hview, hnot⟩ := hleft v hv
        obtain ⟨c', tab', hc', htab', hmem⟩ := mem_currentLeaves.mp (mem_currentViews.mp (hshown v hview))
        rw [hc] at hc'
        cases hc'
        by_cases hci : c = i
        · subst hci
          rw [htab] at htab'
          cases htab'
          exact hnot (view_mem_leaves.mpr hmem)
        · -- the current tab has another index now
          have hlt : i < c := by omega
          have hlength := (List.getElem?_eq_some_iff.mp htab').1
          have hget : (s.tabs.eraseIdx i)[c - 1]? = some tab' := by
            rw [List.getElem?_eraseIdx, if_neg (by omega), Nat.sub_add_cancel (by omega), htab']
          have hsome : (s.tabs.eraseIdx i).isEmpty = false := by
            rw [List.isEmpty_eq_false_iff]
            intro hnil
            rw [hnil] at hget
            cases hget
          simp only [hsome, Bool.false_eq_true, if_false, if_pos hlt] at hviews
          exact List.ne_nil_of_mem (mem_currentViews.mpr (mem_currentLeaves.mpr ⟨c - 1, tab', rfl, hget, hmem⟩)) hviews

/-! ## Panes -/

theorem currentLeaves_changePage (htab : s.tabs[i]? = some tab) (f : Widget → Widget) :
    (s.changePage i f).currentLeaves = if s.currentIndex = some i then (f tab.page).leaves else s.currentLeaves := by
  split
  next hcurrent =>
    refine currentLeaves_of_widget ?_
    rw [currentWidget_eq (s := s.changePage i f) hcurrent, (changePage_reworks htab f).getElem? htab]
    rfl
  next hcurrent =>
    refine leaves_of_currentWidget ?_
    unfold Window.currentWidget Window.changePage
    cases hc : s.currentIndex with
    | none => rfl
    | some c =>
      simp only [Option.bind_some]
      rw [List.getElem?_modify_ne]
      intro heq
      exact hcurrent (hc.trans (congrArg some heq.symm))

theorem currentLeaves_of_current (hcurrent : s.currentIndex = some i) (htab : s.tabs[i]? = some tab) :
    s.currentLeaves = tab.page.leaves := by
  refine currentLeaves_of_widget ?_
  rw [currentWidget_eq hcurrent, htab]
  rfl

/-- A leaf on screen that is in a tab makes it the current one. -/
theorem current_of_tabRootOf (hs : Distinct s) (ha : a ∈ s.currentLeaves) (hroot : s.tabRootOf a = some i) : s.currentIndex = some i := by
  obtain ⟨c, tab, hc, htab, hmem⟩ := mem_currentLeaves.mp ha
  rw [hs.tabRootOf htab hmem] at hroot
  rw [hc, hroot]

theorem collapse_settled (hs : Settled s) (hsound : Sound s) (n : Nat) : Settled (s.collapseSplitterIfSingle n) := by
  unfold Window.collapseSplitterIfSingle
  split
  next => exact hs
  next i hfind =>
    obtain ⟨hi, -, -⟩ := List.findIdx?_eq_some_iff_getElem.mp hfind
    have htab : s.tabs[i]? = some s.tabs[i] := List.getElem?_eq_getElem hi
    have hsame : Settled (s.changePage i (Rose.collapse (·.number = n))) := by
      refine hs.grow (fun a ha => ?_) rfl rfl rfl
      rw [currentLeaves_changePage htab]
      split
      next hcurrent =>
        rw [currentLeaves_of_current hcurrent htab] at ha
        rwa [leaves_collapse]
      next => exact ha
    split
    next b remaining hroot =>
      split
      next =>
        rw [pageAt_eq htab, Option.some.injEq] at hroot
        obtain ⟨v, hv⟩ := (hsound.peopled _ (List.getElem_mem hi)).view (by rw [hroot]; rfl)
        rw [hroot, leaves_node, List.flatMap_singleton] at hv
        exact replacePage_settled htab hv
      next => exact hsame
    next => exact hsame

theorem focusPage_settled (hs : Settled s) : Settled s.focusPage := by
  unfold Window.focusPage
  split
  next v hwidget =>
    refine setFocus_view_settled ?_
    rw [currentLeaves_of_widget hwidget]
    exact List.mem_singleton_self _
  next => exact hs

theorem closePane_settled (hs : Settled s) (hsound : Sound s) (hactive : s.active = true) (v : Nat) : Settled (s.closePane v) := by
  rcases closePane_cases hsound v with heq | ⟨i, heq⟩ | ⟨s₁, n, htaken, hnone, heq⟩
  · rw [heq]
    exact hs
  · rw [heq]
    exact closeTab_settled hs hactive i
  · rw [heq]
    exact focusPage_settled (collapse_settled (loseFocus_settled_of_none hnone) htaken n)

/-- A picker does not hide a pane when it goes. -/
theorem takeOut_picker_settled (hs : Settled s) (htab : s.tabs[i]? = some tab) (hnode : ∀ x, tab.page ≠ leaf x) (p : Nat) :
    Settled (s.changePage i (·.takeOut (.picker p))).loseFocus := by
  refine hs.loseFocus (fun v hv => ?_) rfl rfl rfl
  rw [currentLeaves_changePage htab]
  split
  next hcurrent =>
    rw [currentLeaves_of_current hcurrent htab] at hv
    exact (mem_put_leaves (edit_eq_editBelow _ _ hnode)).mpr (.inl ⟨hv, nofun⟩)
  next => exact hv

theorem cancel_settled (hs : Settled s) (hsound : Sound s) (hactive : s.active = true) {picker : Nat} (h : s.cancel picker = some s') :
    Settled s' := by
  rcases cancel_cases hsound h with rfl | ⟨i, tab, n, e, htab, hnode, htaken, rfl⟩
  · exact hs
  · refine setFocus_settled (collapse_settled (takeOut_picker_settled hs htab hnode picker) htaken n) ?_ _
    rw [(collapse_same ..).active]
    exact hactive

/-- The new pane has the place of the picker, on screen. -/
theorem choose_settled (hs : Settled s) (hsound : Sound s) {picker : Nat} {duplicate : Bool} (hpicker : .picker picker ∈ s.currentLeaves)
    (h : s.choose picker duplicate = some s') : Settled s' := by
  rcases finishSplit_cases hsound (choose_cases h) with rfl | ⟨i, tab, hroot, htab, hmem, hnode, rfl | rfl⟩
  · exact hs
  · have hcurrent := current_of_tabRootOf hsound.toDistinct hpicker hroot
    refine setFocus_view_settled ?_
    rw [currentLeaves_changePage (s := { s with next := s.next + 1 }) htab, if_pos hcurrent]
    exact (mem_put_leaves (edit_eq_editBelow _ _ hnode)).mpr (.inr ⟨hmem, List.mem_singleton_self _⟩)
  · have hmore : Settled { s with next := s.next + 1 } := hs.grow (fun a ha => ha) rfl rfl rfl
    exact takeOut_picker_settled hmore htab hnode picker

/-- In the active window the pane that is split is on screen. -/
theorem currentActiveView_shown (hs : Settled s) (hactive : s.active = true) (h : s.currentActiveView = some v) : v ∈ s.currentViews := by
  unfold Window.currentActiveView at h
  split at h
  next u hu =>
    cases h
    rcases hs.shown v hu with hshown | ⟨hnot, -⟩
    · exact hshown
    · rw [hactive] at hnot
      cases hnot
  next => exact List.mem_of_head? h

theorem split_settled (hs : Settled s) (hsound : Sound s) (hactive : s.active = true) (o : Core.Orientation) :
    Settled (s.splitActivePane o) := by
  have hshown : ∀ v, s.currentActiveView = some v → v ∈ s.currentViews := fun v hv => currentActiveView_shown hs hactive hv
  rcases split_cases hsound o with heq | ⟨existing, i, tab, s₁, s₂, page, hexisting, htab, hmem, hput, hmarked, hchanged, heq⟩
  · rw [heq]
    exact ⟨hs.focused, fun v hv => .inl (hshown v hv)⟩
  · have hexists : .view existing ∈ page.leaves := (mem_put_leaves hput).mpr (.inr ⟨hmem, by simp⟩)
    have hs₁ : Settled s₁ := by
      rw [hmarked]
      exact ⟨hs.focused, fun v hv => .inl (hshown v (hexisting.trans hv))⟩
    have htab₁ : s₁.tabs[i]? = some tab := by rw [hmarked]; exact htab
    have hactive₁ : s₁.active = true := by rw [hmarked]; exact hactive
    rw [heq]
    rcases hchanged with rfl | rfl
    · have hgrown : Settled (s₁.changePage i fun _ => page) := by
        refine hs₁.grow (fun a ha => ?_) rfl rfl rfl
        rw [currentLeaves_changePage htab₁]
        split
        next hcurrent =>
          rw [currentLeaves_of_current hcurrent htab₁] at ha
          rw [mem_put_leaves hput]
          by_cases hview : a = .view existing
          · exact .inr ⟨hmem, by simp [hview]⟩
          · exact .inl ⟨ha, hview⟩
        next => exact ha
      exact setFocus_settled hgrown hactive₁ _
    · refine setFocus_settled (replacePage_settled htab₁ hexists) ?_ _
      rw [(Window.replacePage_same ..).active]
      exact hactive₁

theorem movePane_settled (hs : Settled s) (hsound : Sound s) {source : Nat} (hsource : source ∈ s.currentViews) (target : Nat)
    (zone : PaneDropZone) : Settled (s.movePane source target zone) := by
  rcases movePane_cases s source target zone with heq | ⟨i, tab, htab, hmem, hmem', hne⟩
  · rw [heq]
    exact hs
  · obtain ⟨s', page', heq, hreworks, -, -, -, hmoved⟩ := movePane_made hsound.toDistinct htab hmem hmem' hne zone
    have hroot := hsound.tabRootOf htab hmem
    have hcurrent := current_of_tabRootOf hsound.toDistinct (mem_currentViews.mp hsource) hroot
    rw [heq]
    exact setFocus_view_settled (mem_currentLeaves.mpr ⟨i, _, hreworks.current hcurrent, hreworks.getElem? htab, hmoved⟩)

theorem closeActivePane_settled (hs : Settled s) (hsound : Sound s) (hactive : s.active = true) (h : s.closeActivePane = some s') :
    Settled s' := by
  unfold Window.closeActivePane at h
  split at h
  next => exact cancel_settled hs hsound hactive h
  next =>
    split at h
    next v _ =>
      cases h
      exact closePane_settled hs hsound hactive v
    next =>
      cases h
      exact hs

theorem confirmClosePane_settled (hs : Settled s) (hsound : Sound s) (hactive : s.active = true) (yes : Bool) (v : Nat) :
    Settled (s.confirmClosePane yes v) := by
  unfold Window.confirmClosePane
  split
  next =>
    have hcleared : Sound { s with activeView := if s.activeView = some v then none else s.activeView } :=
      hsound.of_tabs (Nat.le_refl _) rfl
    have hsettled : Settled { s with activeView := if s.activeView = some v then none else s.activeView } := by
      refine ⟨hs.focused, fun u hu => ?_⟩
      simp only at hu
      split at hu
      next => cases hu
      next => exact hs.shown u hu
    exact closePane_settled hsettled hcleared hactive v
  next => exact hs

theorem confirmCloseActivePane_settled (hs : Settled s) (hsound : Sound s) (hactive : s.active = true) {yes : Bool}
    (h : s.confirmCloseActivePane yes = some s') : Settled s' := by
  unfold Window.confirmCloseActivePane at h
  split at h
  next =>
    cases h
    exact hs
  next i _ =>
    split at h
    next => exact cancel_settled hs hsound hactive h
    next =>
      split at h
      next =>
        cases h
        exact closeTab_settled hs hactive i
      next v _ =>
        cases h
        exact confirmClosePane_settled hs hsound hactive yes v

/-- The window is active again, and its focus tells which pane is active. -/
theorem activate_settled (hs : Settled s) : Settled (s.focus.elim { s with active := true } { s with active := true }.onFocusChanged) := by
  have hother : (∀ v, s.focus ≠ some (.view v)) → Settled { s with active := true } := by
    intro hnoView
    refine ⟨hs.focused, fun v hv => ?_⟩
    rcases hs.shown v hv with hshown | ⟨-, u, hu⟩
    · exact .inl hshown
    · exact absurd hu (hnoView u)
  have hall : ∀ o, s.focus = o → Settled (o.elim { s with active := true } { s with active := true }.onFocusChanged) := by
    intro o hfocus
    cases o with
    | none => exact hother fun v => by rw [hfocus]; exact nofun
    | some a =>
      cases a with
      | view v =>
        have ha : .view v ∈ ({ s with active := true } : Window).currentLeaves := hs.focused _ hfocus
        have hsame : Window.setFocus (.view v) { s with active := true } = Window.onFocusChanged (.view v) { s with active := true } := by
          rw [Window.setFocus, if_pos ha, ← hfocus]
          rfl
        rw [Option.elim_some, ← hsame]
        exact setFocus_view_settled ha
      | picker p => exact hother fun v => by rw [hfocus]; exact nofun
      | plain n => exact hother fun v => by rw [hfocus]; exact nofun
  exact hall s.focus rfl

end Settled

/-! ## Runs -/

theorem Settled.step {s s' : Window} (hs : Settled s) (hsound : Sound s) {e : Event} (hkeeps : s.Keeps e) (h : step s e = some s') :
    Settled s' := by
  cases e with
  | addTab tab next =>
    cases h
    split
    next =>
      have hmore : Settled { s with next := max s.next next } := hs.grow (fun a ha => ha) rfl rfl rfl
      exact addTab_settled hmore tab
    next => exact hs
  | addTerminalTab title =>
    cases h
    exact addTerminalTab_settled s title
  | splitActivePane o =>
    cases h
    split
    next hactive => exact split_settled hs hsound hactive o
    next => exact hs
  | choose picker duplicate =>
    simp only [Panes.step] at h
    split at h
    next hpicker => exact choose_settled hs hsound hpicker h
    next =>
      cases h
      exact hs
  | cancel picker =>
    simp only [Panes.step] at h
    split at h
    next hboth => exact cancel_settled hs hsound hboth.1 h
    next =>
      cases h
      exact hs
  | closeActivePane =>
    simp only [Panes.step] at h
    split at h
    next hactive => exact closeActivePane_settled hs hsound hactive h
    next =>
      cases h
      exact hs
  | confirmCloseActivePane yes =>
    simp only [Panes.step] at h
    split at h
    next hactive => exact confirmCloseActivePane_settled hs hsound hactive h
    next =>
      cases h
      exact hs
  | confirmClosePane yes view =>
    cases h
    split
    next hactive => exact confirmClosePane_settled hs hsound hactive yes view
    next => exact hs
  | showPaneContextMenu view =>
    cases h
    split
    next hboth =>
      have hmem : .view view ∈ ({ s with activeView := some view } : Window).currentLeaves := mem_currentViews.mp hboth.2
      exact setFocus_view_settled hmem
    next => exact hs
  | closeTab i =>
    cases h
    split
    next hactive => exact closeTab_settled hs hactive i
    next => exact hs
  | setCurrentIndex i =>
    cases h
    exact setCurrentIndex_settled hs hkeeps
  | moveTab i j =>
    cases h
    exact moveTab_settled hs i j
  | movePane source target zone =>
    cases h
    exact movePane_settled hs hsound hkeeps target zone
  | transferTab i =>
    cases h
    split
    next hactive => exact closeTab_settled hs hactive i
    next => exact hs
  | acceptTab tab next =>
    cases h
    split
    next =>
      have hmore : Settled { s with next := max s.next next } := hs.grow (fun a ha => ha) rfl rfl rfl
      refine setCurrentIndex_settled (addTab_settled hmore tab) fun tab' htab' hviews => ?_
      rw [Window.addTab, Window.insertTab_tabs _ (Nat.le_refl _), List.insertIdx_length_self, List.getElem?_concat_length] at htab'
      cases htab'
      rw [addTab_activeView hviews]
      exact hkeeps.2 hviews
    next => exact hs
  | focus a =>
    cases h
    split
    next hactive => exact setFocus_settled hs hactive a
    next => exact hs
  | focusElsewhere =>
    cases h
    split
    next hactive =>
      refine ⟨fun a ha => ?_, fun v hv => ?_⟩
      · cases ha
      · rcases hs.shown v hv with hshown | ⟨hnot, -⟩
        · exact .inl hshown
        · rw [hactive] at hnot
          cases hnot
    next => exact hs
  | activate =>
    cases h
    exact activate_settled (s := s) hs
  | deactivate =>
    cases h
    refine ⟨hs.focused, fun v hv => ?_⟩
    rcases hs.shown v hv with hshown | ⟨-, hu⟩
    · exact .inl hshown
    · exact .inr ⟨rfl, hu⟩

theorem empty_settled : Settled Window.empty := ⟨nofun, nofun⟩

/-- Where no step puts a tab without panes in front of the active pane, every command acts on a pane of the current tab. -/
theorem commands_on_screen (events : List Event)
    (hkeeps : Along next (fun o e => ∀ s, o = some s → s.Keeps e) events (some Window.empty)) {s : Window}
    (hs : run next events (some Window.empty) = some s) (c : Command) {v : Nat} (hv : s.target c = some v) : v ∈ s.currentViews := by
  have hall : ∀ s, run next events (some Window.empty) = some s → Sound s ∧ Settled s := by
    refine run_invariant (I := fun o => ∀ s, o = some s → Sound s ∧ Settled s) (fun o e hs hkeeps s' hs' => ?_) events (fun s hs => ?_)
      hkeeps
    · cases o with
      | none => cases hs'
      | some s =>
        obtain ⟨hsound, hsettled⟩ := hs s rfl
        exact ⟨hsound.step hs', hsettled.step hsound (hkeeps s rfl) hs'⟩
    · cases hs
      exact ⟨empty_sound, empty_settled⟩
  have hsettled := (hall s hs).2
  unfold Window.target at hv
  split at hv
  next hactive =>
    have hshown : ∀ v, s.currentActiveView = some v → v ∈ s.currentViews := fun v hv => currentActiveView_shown hsettled hactive hv
    cases c with
    | closeActivePane =>
      simp only at hv
      split at hv
      next => cases hv
      next => exact hshown v hv
    | confirmCloseActivePane =>
      simp only at hv
      split at hv
      next => cases hv
      next =>
        unfold Window.confirmTarget at hv
        split at hv
        next u _ =>
          split at hv
          next hmem =>
            cases hv
            exact hmem
          next => exact List.mem_of_head? hv
        next => exact List.mem_of_head? hv
    | splitActivePane => exact hshown v hv
    | toggleSessionLogging => exact hshown v hv
    | terminal =>
      simp only at hv
      split at hv
      next => exact hshown v hv
      next => cases hv
  next => cases hv

/-- A pane is split, its picker closed, and the other tab looked at. -/
theorem commands_on_screen_split : ∃ s, run next [.activate, .addTerminalTab [], .addTerminalTab [], .splitActivePane .horizontal,
    .closeActivePane, .setCurrentIndex 0] (some Window.empty) = some s ∧ s.target .closeActivePane = some 0 ∧ 0 ∈ s.currentViews := by
  refine ⟨_, rfl, rfl, commands_on_screen [.activate, .addTerminalTab [], .addTerminalTab [], .splitActivePane .horizontal,
    .closeActivePane, .setCurrentIndex 0] ?_ rfl .closeActivePane rfl⟩
  refine ⟨fun _ _ => trivial, fun _ _ => trivial, fun _ _ => trivial, fun _ _ => trivial, fun _ _ => trivial,
    fun s hs tab htab hviews => ?_, trivial⟩
  cases hs
  cases htab
  cases hviews

/-- The welcome tab is put in front of a session, and the session is closed. -/
theorem hidden_pane_closed : ¬ ∀ (events : List Event) (s : Window), run next events (some Window.empty) = some s →
    ∀ (c : Command) (v : Nat), s.target c = some v → v ∈ s.currentViews := by
  intro h
  have hmem := h [.activate, .addTab ⟨[], .leaf (.plain 0)⟩ 1, .addTerminalTab [], .setCurrentIndex 0] _ rfl .closeActivePane 1 rfl
  revert hmem
  decide

end LvdTerm.App.Panes
