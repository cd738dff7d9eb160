import LvdTerm.App.Windows

/-!
# What the windows do to each other

A window that does something leaves the others alone: all widgets stay different, and pickers tied to their splitters, also where a
tab goes to another window (`Sound.leave`, `tied_leave`, `transferTab_cases`).
-/
namespace LvdTerm.App.Panes

open LvdTerm.Lib Rose

/-- What a window has done: its widgets and its pickers are those that it had, or new. -/
structure Grows (s s' : Window) : Prop where
  next : s.next ≤ s'.next
  captured : ∀ p < s.next, s'.captured p = s.captured p
  numbers : ∀ tab' ∈ s'.tabs, ∀ n ∈ tab'.page.numbers, (∃ tab ∈ s.tabs, n ∈ tab.page.numbers) ∨ s.next ≤ n
  pickers : ∀ tab' ∈ s'.tabs, ∀ p, .picker p ∈ tab'.page.leaves → (∃ tab ∈ s.tabs, .picker p ∈ tab.page.leaves) ∨ s.next ≤ p

theorem Effect.grows {s s' : Window} {e : Event} (h : Effect s e s') (hs : Sound s) (hs' : Sound s') : Grows s s' where
  next := h.next
  captured := h.captured
  numbers _ hmem _ hn := h.numbers hs hmem hn
  pickers _ hmem _ hp := h.pickers hs hs' hmem hp

/-! ## Opening pages -/

/-- Pages are opened, without pickers. -/
structure Opens (s s' : Window) : Prop where
  next : s.next ≤ s'.next
  captured : s'.captured = s.captured
  tabs : ∀ tab ∈ s'.tabs, tab ∈ s.tabs ∨ hasPicker tab.page = false ∧ ∀ n ∈ tab.page.numbers, s.next ≤ n

/-- A page that was built with the numbers from `m` on. -/
structure Built (m m' : Nat) (page : Widget) : Prop where
  nodup : page.numbers.Nodup
  range : ∀ n ∈ page.numbers, m ≤ n ∧ n < m'
  peopled : Peopled page
  pickers : hasPicker page = false

section Opens

variable {s s' s'' : Window}

theorem Opens.trans (h : Opens s s') (h' : Opens s' s'') : Opens s s'' where
  next := Nat.le_trans h.next h'.next
  captured := h'.captured.trans h.captured
  tabs tab hmem := by
    rcases h'.tabs tab hmem with hmem | ⟨hpicker, hnumbers⟩
    · exact h.tabs tab hmem
    · exact .inr ⟨hpicker, fun n hn => Nat.le_trans h.next (hnumbers n hn)⟩

theorem not_picker_of_free {page : Widget} {p : Nat} (h : hasPicker page = false) : .picker p ∉ page.leaves := by
  intro hp
  rw [hasPicker, List.any_eq_false] at h
  exact h _ hp rfl

theorem Opens.grows (h : Opens s s') : Grows s s' where
  next := h.next
  captured p _ := congrFun h.captured p
  numbers tab' hmem n hn := (h.tabs tab' hmem).imp (fun hmem => ⟨tab', hmem, hn⟩) fun hnew => hnew.2 n hn
  pickers tab' hmem p hp := by
    rcases h.tabs tab' hmem with hmem | ⟨hnone, -⟩
    · exact .inl ⟨tab', hmem, hp⟩
    · exact absurd hp (not_picker_of_free hnone)

theorem Opens.tied (h : Opens s s') (htied : Tied s.pages s.next s.captured) : Tied s'.pages s'.next s'.captured := by
  rintro page ⟨tab, hmem, rfl⟩ p hp
  rcases h.tabs tab hmem with hmem | ⟨hnone, -⟩
  · obtain ⟨hlt, hcaptured, hparent⟩ := htied tab.page ⟨tab, hmem, rfl⟩ p hp
    refine ⟨Nat.lt_of_lt_of_le hlt h.next, by rw [h.captured, hcaptured], hparent.imp_right ?_⟩
    rintro hgone page' ⟨tab', hmem', rfl⟩ hn
    rcases h.tabs tab' hmem' with hold | ⟨-, hnumbers⟩
    · exact hgone tab'.page ⟨tab', hold, rfl⟩ hn
    · exact absurd hlt (Nat.not_lt.mpr (hnumbers _ hn))
  · exact absurd hp (not_picker_of_free hnone)

/-- A page that was built is added. -/
theorem Built.addTab {m : Nat} {page : Widget} (h : Built s.next m page) (hs : Sound s) (hle : s.next ≤ m) (title : List Char) :
    Sound ({ s with next := m }.addTab ⟨title, page⟩) ∧ Opens s ({ s with next := m }.addTab ⟨title, page⟩) := by
  have htake : s.CanTake page m := by
    refine ⟨⟨h.nodup, fun n hn => (h.range n hn).2⟩, h.peopled, fun n hn tab hmem hn' => ?_⟩
    exact absurd ((hs.pages tab hmem).2 n hn') (Nat.not_lt.mpr (h.range n hn).1)
  have hadded : Sound ({ s with next := max s.next m }.addTab ⟨title, page⟩) := hs.addTab htake
  rw [Nat.max_eq_right hle] at hadded
  refine ⟨hadded, ?_, ?_, fun tab hmem => ?_⟩
  · rw [Window.addTab, (Window.insertTab_same ..).next]
    exact hle
  · rw [Window.addTab, Window.insertTab_captured]
  · rw [Window.addTab, Window.insertTab_tabs { s with next := m } (Nat.le_refl s.tabs.length)] at hmem
    rcases List.eq_or_mem_of_mem_insertIdx hmem with rfl | hmem
    · exact .inr ⟨h.pickers, fun n hn => (h.range n hn).1⟩
    · exact .inl hmem

theorem addWelcome_opens (hs : Sound s) : Sound s.addWelcome ∧ Opens s s.addWelcome := by
  have hbuilt : Built s.next (s.next + 1) (leaf (.plain s.next)) := by
    refine ⟨List.nodup_singleton _, fun n hn => ?_, .inl rfl, rfl⟩
    rw [List.mem_singleton.mp hn]
    exact ⟨Nat.le_refl _, Nat.lt_succ_self _⟩
  exact hbuilt.addTab hs (Nat.le_succ _) _

/-! ## Restoring -/

/-- Widgets that were built one after the other. -/
structure BuiltAll (m m' : Nat) (widgets : List Widget) : Prop where
  le : m ≤ m'
  nodup : (widgets.flatMap Widget.numbers).Nodup
  range : ∀ n ∈ widgets.flatMap Widget.numbers, m ≤ n ∧ n < m'
  views : ∀ widget ∈ widgets, ∃ v, .view v ∈ widget.leaves
  pickers : ∀ widget ∈ widgets, hasPicker widget = false

theorem BuiltAll.nil {m m' : Nat} (h : m ≤ m') : BuiltAll m m' [] :=
  ⟨h, List.nodup_nil, by simp, by simp, by simp⟩

theorem BuiltAll.append {m m' m'' : Nat} {widgets widgets' : List Widget} (h : BuiltAll m m' widgets) (h' : BuiltAll m' m'' widgets') :
    BuiltAll m m'' (widgets ++ widgets') where
  le := Nat.le_trans h.le h'.le
  nodup := by
    rw [List.flatMap_append, List.nodup_append']
    refine ⟨h.nodup, h'.nodup, fun n hn hn' => ?_⟩
    exact absurd (h.range n hn).2 (Nat.not_lt.mpr (h'.range n hn').1)
  range n hn := by
    rw [List.flatMap_append, List.mem_append] at hn
    rcases hn with hn | hn
    · exact ⟨(h.range n hn).1, Nat.lt_of_lt_of_le (h.range n hn).2 h'.le⟩
    · exact ⟨Nat.le_trans h.le (h'.range n hn).1, (h'.range n hn).2⟩
  views widget hmem := (List.mem_append.mp hmem).elim (h.views widget) (h'.views widget)
  pickers widget hmem := (List.mem_append.mp hmem).elim (h.pickers widget) (h'.pickers widget)

/-- A splitter has the number before those of its children. -/
theorem BuiltAll.node {m m' : Nat} {widgets : List Widget} (h : BuiltAll (m + 1) m' widgets) (hne : widgets ≠ []) (o : Core.Orientation) :
    BuiltAll m m' [Rose.node ⟨m, o⟩ widgets] := by
  have hnumbers : [(Rose.node ⟨m, o⟩ widgets : Widget)].flatMap Widget.numbers = m :: widgets.flatMap Widget.numbers := by
    rw [List.flatMap_singleton, Widget.numbers, tokens_node, List.map_cons, List.map_flatMap]
    rfl
  have hle := h.le
  refine ⟨by omega, ?_, fun n hn => ?_, fun widget hmem => ?_, fun widget hmem => ?_⟩
  · rw [hnumbers]
    exact List.nodup_cons.mpr ⟨fun hm => Nat.not_succ_le_self m (h.range m hm).1, h.nodup⟩
  · rw [hnumbers] at hn
    rcases List.mem_cons.mp hn with rfl | hn
    · exact ⟨Nat.le_refl _, hle⟩
    · exact ⟨Nat.le_of_succ_le (h.range n hn).1, (h.range n hn).2⟩
  · rw [List.mem_singleton.mp hmem]
    obtain ⟨first, hfirst⟩ := List.exists_mem_of_ne_nil _ hne
    obtain ⟨v, hv⟩ := h.views first hfirst
    refine ⟨v, ?_⟩
    rw [leaves_node]
    exact List.mem_flatMap_of_mem hfirst hv
  · rw [List.mem_singleton.mp hmem, hasPicker, leaves_node, List.any_eq_false]
    intro a ha
    obtain ⟨child, hchild, ha⟩ := List.mem_flatMap.mp ha
    exact List.any_eq_false.mp (h.pickers child hchild) a ha

mutual

theorem buildNode_built (answers : Nat → Answer) : ∀ (node : Core.SessionNode) (b : Building),
    BuiltAll b.next (buildNode answers node b).2.next (buildNode answers node b).1.toList
  | .leaf none, b => .nil (Nat.le_refl _)
  | .leaf (some profile), b => by
    rw [buildNode]
    split
    next => exact .nil (Nat.le_refl _)
    next =>
      refine ⟨Nat.le_succ _, List.nodup_singleton _, fun n hn => ?_, fun widget hmem => ?_, fun widget hmem => ?_⟩
      · rw [show n = b.next from by simpa [Widget.numbers, Leaf.number] using hn]
        exact ⟨Nat.le_refl _, Nat.lt_succ_self _⟩
      · rw [show widget = leaf (.view b.next) from by simpa using hmem]
        exact ⟨b.next, List.mem_singleton_self _⟩
      · rw [show widget = leaf (.view b.next) from by simpa using hmem]
        rfl
  | .splitter o _ children, b => by
    have hchildren := buildNodes_built answers children { b with next := b.next + 1 }
    rw [buildNode]
    simp only
    split
    next => exact .nil (Nat.le_of_succ_le hchildren.le)
    next hne =>
      refine hchildren.node (fun h => hne ?_) o
      rw [h]
      rfl

theorem buildNodes_built (answers : Nat → Answer) : ∀ (nodes : List Core.SessionNode) (b : Building),
    BuiltAll b.next (buildNodes answers nodes b).2.next (buildNodes answers nodes b).1
  | [], _ => .nil (Nat.le_refl _)
  | child :: rest, b => (buildNode_built answers child b).append (buildNodes_built answers rest (buildNode answers child b).2)

end

theorem restoreTabs_opens (answers : Nat → Answer) (tabs : List Core.SessionTab) (answered : Nat) (hs : Sound s) :
    Sound (s.restoreTabs answers tabs answered) ∧ Opens s (s.restoreTabs answers tabs answered) := by
  induction tabs generalizing s answered with
  | nil => exact ⟨hs, Nat.le_refl _, rfl, fun tab hmem => .inl hmem⟩
  | cons tab tabs ih =>
    have hbuilt := buildNode_built answers tab.root ⟨answered, s.next⟩
    rw [Window.restoreTabs]
    generalize buildNode answers tab.root ⟨answered, s.next⟩ = result at hbuilt
    obtain ⟨page, b⟩ := result
    simp only at hbuilt ⊢
    cases page with
    | none =>
      have hraisedSound : Sound { s with next := b.next } := hs.of_tabs hbuilt.le rfl
      obtain ⟨hsound, hopens⟩ := ih b.answered hraisedSound
      have hraised : Opens s { s with next := b.next } := ⟨hbuilt.le, rfl, fun tab hmem => .inl hmem⟩
      exact ⟨hsound, hraised.trans hopens⟩
    | some page =>
      have hviews := hbuilt.views page (List.mem_singleton_self _)
      have hpage : Built s.next b.next page := by
        refine ⟨?_, fun n hn => ?_, hviews.elim fun v hv => peopled_of_view hv, hbuilt.pickers page (List.mem_singleton_self _)⟩
        · simpa using hbuilt.nodup
        · exact hbuilt.range n (by simpa using hn)
      obtain ⟨hadded, hopened⟩ := hpage.addTab hs hbuilt.le tab.title
      obtain ⟨hsound, hopens⟩ := ih b.answered hadded
      exact ⟨hsound, hopened.trans hopens⟩

theorem restoreSession_opens (answers : Nat → Answer) (state : Core.SessionState) (hs : Sound s) :
    Sound (s.restoreSession answers state) ∧ Opens s (s.restoreSession answers state) := by
  obtain ⟨hsound, hopens⟩ := restoreTabs_opens answers state.tabs 0 hs
  unfold Window.restoreSession
  simp only
  split
  next =>
    have hnext := (Window.setCurrentIndex_same (s.restoreTabs answers state.tabs 0) state.currentTabIndex.toNat).next
    refine ⟨hsound.of_tabs hnext.ge (Window.setCurrentIndex_tabs _ _), ?_, ?_, fun tab hmem => ?_⟩
    · rw [hnext]
      exact hopens.next
    · rw [Window.setCurrentIndex_captured, hopens.captured]
    · rw [Window.setCurrentIndex_tabs] at hmem
      exact hopens.tabs tab hmem
  next => exact ⟨hsound, hopens⟩

end Opens

/-! ## One window among others -/

namespace System

def pages (sys : System) : Set Widget := {page | ∃ w s, sys.windows w = some s ∧ page ∈ s.pages}

/-- The widget with this number is in the window. -/
def Holds (sys : System) (w n : Nat) : Prop := ∃ s, sys.windows w = some s ∧ ∃ tab ∈ s.tabs, n ∈ tab.page.numbers

/-- Every window is sound, and no widget is in two of them. -/
structure Sound (sys : System) : Prop where
  windows : ∀ w s, sys.windows w = some s → Panes.Sound (sys.enter s)
  apart : ∀ w w' n, sys.Holds w n → sys.Holds w' n → w = w'
  unopened : ∀ w, sys.opened ≤ w → sys.windows w = none
  first : ∃ s, sys.windows 0 = some s

variable {sys sys' : System} {w w' n : Nat} {s s' : Window}

theorem Sound.lt_next (hs : sys.Sound) (h : sys.Holds w n) : n < sys.next := by
  obtain ⟨s, hw, tab, hmem, hn⟩ := h
  exact ((hs.windows w s hw).pages tab hmem).2 n hn

theorem leave_self (w : Nat) (s : Window) (sys : System) : (sys.leave w s).windows w = some s := Function.update_self ..

theorem leave_of_ne (h : w' ≠ w) (s : Window) (sys : System) : (sys.leave w s).windows w' = sys.windows w' :=
  Function.update_of_ne h ..

theorem holds_of_ne (h : w' ≠ w) (hholds : (sys.leave w s).Holds w' n) : sys.Holds w' n := by
  obtain ⟨s₁, hw, hrest⟩ := hholds
  rw [leave_of_ne h] at hw
  exact ⟨s₁, hw, hrest⟩

theorem holds_leave (hw : sys.windows w = some s) (hgrows : Grows (sys.enter s) s') (hholds : (sys.leave w s').Holds w n) :
    sys.Holds w n ∨ sys.next ≤ n := by
  obtain ⟨s₁, hw', tab', hmem, hn⟩ := hholds
  rw [leave_self] at hw'
  cases hw'
  rcases hgrows.numbers tab' hmem n hn with ⟨tab, hold, hn⟩ | hn
  · exact .inl ⟨s, hw, tab, hold, hn⟩
  · exact .inr hn

theorem Sound.leave (hs : sys.Sound) (hw : sys.windows w = some s) (hs' : Panes.Sound s') (hgrows : Grows (sys.enter s) s') :
    (sys.leave w s').Sound where
  windows w' s₁ hw' := by
    by_cases h : w' = w
    · subst h
      rw [leave_self] at hw'
      cases hw'
      exact hs'
    · rw [leave_of_ne h] at hw'
      exact (hs.windows w' s₁ hw').of_tabs hgrows.next rfl
  apart w₁ w₂ n h₁ h₂ := by
    by_cases hw₁ : w₁ = w
    · by_cases hw₂ : w₂ = w
      · rw [hw₁, hw₂]
      · have hold := holds_of_ne hw₂ h₂
        subst hw₁
        rcases holds_leave hw hgrows h₁ with h | h
        · exact hs.apart w₁ w₂ n h hold
        · exact absurd (hs.lt_next hold) (Nat.not_lt.mpr h)
    · have hold := holds_of_ne hw₁ h₁
      by_cases hw₂ : w₂ = w
      · subst hw₂
        rcases holds_leave hw hgrows h₂ with h | h
        · exact hs.apart w₁ w₂ n hold h
        · exact absurd (hs.lt_next hold) (Nat.not_lt.mpr h)
      · exact hs.apart w₁ w₂ n hold (holds_of_ne hw₂ h₂)
  unopened w' hw' := by
    by_cases h : w' = w
    · subst h
      rw [hs.unopened w' hw'] at hw
      cases hw
    · rw [leave_of_ne h]
      exact hs.unopened w' hw'
  first := by
    by_cases h : 0 = w
    · exact ⟨s', h ▸ leave_self ..⟩
    · rw [leave_of_ne h]
      exact hs.first

theorem mem_pages_leave {page : Widget} (h : page ∈ (sys.leave w s').pages) :
    page ∈ s'.pages ∨ ∃ w₁ s₁, w₁ ≠ w ∧ sys.windows w₁ = some s₁ ∧ page ∈ s₁.pages := by
  obtain ⟨w₁, s₁, hw₁, hpage⟩ := h
  by_cases hne : w₁ = w
  · subst hne
    rw [leave_self] at hw₁
    cases hw₁
    exact .inl hpage
  · rw [leave_of_ne hne] at hw₁
    exact .inr ⟨w₁, s₁, hne, hw₁, hpage⟩

/-- The pickers of the other windows know that their splitters are where they were. -/
theorem tied_leave (htied : Tied sys.pages sys.next sys.captured) (hs : sys.Sound) (hw : sys.windows w = some s)
    (hgrows : Grows (sys.enter s) s') (hlocal : Tied s'.pages s'.next s'.captured) :
    Tied (sys.leave w s').pages (sys.leave w s').next (sys.leave w s').captured := by
  have hgone : ∀ {p : Nat}, p + 1 < sys.next → (∀ page ∈ sys.pages, p + 1 ∉ page.numbers) →
      ∀ page ∈ (sys.leave w s').pages, p + 1 ∉ page.numbers := by
    intro p hlt hdead page hpage hn
    rcases mem_pages_leave hpage with ⟨tab', hmem, rfl⟩ | ⟨w₁, s₁, -, hw₁, hpage⟩
    · rcases hgrows.numbers tab' hmem _ hn with ⟨tab, hold, hn⟩ | hn
      · exact hdead tab.page ⟨w, s, hw, tab, hold, rfl⟩ hn
      · exact absurd hlt (Nat.not_lt.mpr hn)
    · exact hdead page ⟨w₁, s₁, hw₁, hpage⟩ hn
  intro page hpage p hpicker
  rcases mem_pages_leave hpage with hpage | ⟨w₁, s₁, -, hw₁, hpage⟩
  · obtain ⟨hlt, hcaptured, hparent⟩ := hlocal page hpage p hpicker
    refine ⟨hlt, hcaptured, hparent.imp_right fun hdead page' hpage' hn => ?_⟩
    rcases mem_pages_leave hpage' with hpage' | ⟨w₁, s₁, hne, hw₁, tab₁, hmem₁, rfl⟩
    · exact hdead page' hpage' hn
    · have hthere : sys.Holds w₁ (p + 1) := ⟨s₁, hw₁, tab₁, hmem₁, hn⟩
      obtain ⟨tab', hmem', rfl⟩ := hpage
      rcases hgrows.pickers tab' hmem' p hpicker with ⟨tab, hold, hpicker⟩ | hnew
      · obtain ⟨-, -, ⟨q, hq, hnumber⟩ | hdead⟩ := htied tab.page ⟨w, s, hw, tab, hold, rfl⟩ p hpicker
        · have hhere : sys.Holds w (p + 1) := ⟨s, hw, tab, hold, hnumber ▸ number_of_splitter (splitter_of_parentSplitter hq)⟩
          exact hne (hs.apart w₁ w _ hthere hhere)
        · exact hdead tab₁.page ⟨w₁, s₁, hw₁, tab₁, hmem₁, rfl⟩ hn
      · have hlt := hs.lt_next hthere
        have hnew' : sys.next ≤ p := hnew
        omega
  · obtain ⟨hlt, hcaptured, hparent⟩ := htied page ⟨w₁, s₁, hw₁, hpage⟩ p hpicker
    refine ⟨Nat.lt_of_lt_of_le hlt hgrows.next, ?_, hparent.imp_right (hgone hlt)⟩
    have hkept : s'.captured p = sys.captured p := hgrows.captured p (show p < sys.next by omega)
    exact (congrArg Captured.splitter hkept).trans hcaptured

/-! ## A tab goes to another window -/

/-- A page comes whose widgets are in no window. -/
theorem Sound.accept (hs : sys.Sound) (hw : sys.windows w = some s) {tab : Tab} (hmade : Made sys.next tab.page)
    (hpeopled : Peopled tab.page) (hfree : ∀ n ∈ tab.page.numbers, ∀ w', ¬ sys.Holds w' n) :
    (sys.leave w ((sys.enter s).acceptTab tab)).Sound ∧ ((sys.enter s).acceptTab tab).next = sys.next ∧
      ((sys.enter s).acceptTab tab).captured = sys.captured ∧
      ∀ tab' ∈ ((sys.enter s).acceptTab tab).tabs, tab' ∈ s.tabs ∨ tab' = tab := by
  have hnext : ((sys.enter s).acceptTab tab).next = sys.next := by
    unfold Window.acceptTab
    exact (Window.setCurrentIndex_same _ _).next.trans (Window.insertTab_same _ _ _).next
  have hcaptured : ((sys.enter s).acceptTab tab).captured = sys.captured := by
    unfold Window.acceptTab Window.addTab
    rw [Window.setCurrentIndex_captured, Window.insertTab_captured]
    rfl
  have htabs : ∀ tab' ∈ ((sys.enter s).acceptTab tab).tabs, tab' ∈ s.tabs ∨ tab' = tab := by
    intro tab' hmem
    unfold Window.acceptTab Window.addTab at hmem
    rw [Window.setCurrentIndex_tabs, Window.insertTab_tabs _ (Nat.le_refl _)] at hmem
    rcases List.eq_or_mem_of_mem_insertIdx hmem with rfl | hmem
    · exact .inr rfl
    · exact .inl hmem
  refine ⟨?_, hnext, hcaptured, htabs⟩
  have htake : (sys.enter s).CanTake tab.page sys.next :=
    ⟨hmade, hpeopled, fun n hn tab' hmem hn' => hfree n hn w ⟨s, hw, tab', hmem, hn'⟩⟩
  have haccepted := (hs.windows w s hw).acceptTab htake
  rw [show max (sys.enter s).next sys.next = sys.next from Nat.max_self _] at haccepted
  have hhere : ∀ {n : Nat}, (sys.leave w ((sys.enter s).acceptTab tab)).Holds w n → sys.Holds w n ∨ n ∈ tab.page.numbers := by
    rintro n ⟨s₁, hw₁, tab', hmem, hn⟩
    rw [leave_self] at hw₁
    cases hw₁
    rcases htabs tab' hmem with hmem | rfl
    · exact .inl ⟨s, hw, tab', hmem, hn⟩
    · exact .inr hn
  constructor
  · intro w₁ s₁ hw₁
    by_cases h : w₁ = w
    · subst h
      rw [leave_self] at hw₁
      cases hw₁
      exact haccepted
    · rw [leave_of_ne h] at hw₁
      exact (hs.windows w₁ s₁ hw₁).of_tabs hnext.ge rfl
  · intro w₁ w₂ n h₁ h₂
    by_cases hw₁ : w₁ = w
    · by_cases hw₂ : w₂ = w
      · rw [hw₁, hw₂]
      · have hold := holds_of_ne hw₂ h₂
        subst hw₁
        rcases hhere h₁ with h | h
        · exact hs.apart w₁ w₂ n h hold
        · exact absurd hold (hfree n h w₂)
    · have hold := holds_of_ne hw₁ h₁
      by_cases hw₂ : w₂ = w
      · subst hw₂
        rcases hhere h₂ with h | h
        · exact hs.apart w₁ w₂ n hold h
        · exact absurd hold (hfree n h w₁)
      · exact hs.apart w₁ w₂ n hold (holds_of_ne hw₂ h₂)
  · intro w₁ hw₁
    by_cases h : w₁ = w
    · subst h
      rw [hs.unopened w₁ hw₁] at hw
      cases hw
    · rw [leave_of_ne h]
      exact hs.unopened w₁ hw₁
  · by_cases h : 0 = w
    · subst h
      exact ⟨_, leave_self ..⟩
    · rw [leave_of_ne h]
      exact hs.first

/-- All pages stay what they are, and only one tab is in another window. -/
structure Moves (sys sys' : System) (w i dest : Nat) : Prop where
  sound : sys'.Sound
  next : sys'.next = sys.next
  captured : sys'.captured = sys.captured
  maker : ∀ p < sys.next, sys'.maker p = sys.maker p
  tabs : ∀ w₁ s₁, sys'.windows w₁ = some s₁ → ∀ tab₁ ∈ s₁.tabs, (∃ s₀, sys.windows w₁ = some s₀ ∧ tab₁ ∈ s₀.tabs) ∨
    w₁ = dest ∧ dest ≠ w ∧ ∃ s, sys.windows w = some s ∧ s.tabs[i]? = some tab₁

theorem Moves.refl (hs : sys.Sound) (w i dest : Nat) : Moves sys sys w i dest :=
  ⟨hs, rfl, rfl, fun _ _ => rfl, fun _ s₁ hw₁ _ hmem => .inl ⟨s₁, hw₁, hmem⟩⟩

theorem transferTab_moves (hs : sys.Sound) (w i dest : Nat) : ∃ sys', sys.transferTab w i dest = some sys' ∧ Moves sys sys' w i dest := by
  unfold transferTab
  split
  next tab d hbind hdest =>
    split
    next => exact ⟨sys, rfl, .refl hs w i dest⟩
    next hne =>
      obtain ⟨s, hw, htab⟩ := Option.bind_eq_some_iff.mp hbind
      have hclosed : (sys.enter s).transferTab i = (sys.enter s).closeTab i := rfl
      have heffect : Effect (sys.enter s) (.closeTab i) ((sys.enter s).transferTab i) := by
        rw [hclosed]
        exact closeTab_effect (s := sys.enter s) s.activeView i
      have hsound := hs.windows w s hw
      have hleft : Panes.Sound ((sys.enter s).transferTab i) := hsound.closeTab i
      have hnext : ((sys.enter s).transferTab i).next = sys.next := by
        rw [hclosed, Window.closeTab]
        split
        next => rfl
        next => exact (Window.removeTab_same _ _).next
      have hcaptured : ((sys.enter s).transferTab i).captured = sys.captured := Window.closeTab_captured (sys.enter s) i
      have htabs : ((sys.enter s).transferTab i).tabs = s.tabs.eraseIdx i := by
        have hpage : (sys.enter s).pageAt i = some tab.page := pageAt_eq htab
        rw [hclosed, Window.closeTab, hpage]
        exact Window.removeTab_tabs _ _
      have hfirst : sys.act w (fun s => some (s.transferTab i)) = some (sys.leave w ((sys.enter s).transferTab i)) := by
        rw [act, hw]
        rfl
      rw [hfirst, Option.bind_some]
      have hsys := hs.leave hw hleft (heffect.grows hsound hleft)
      have hdest' : (sys.leave w ((sys.enter s).transferTab i)).windows dest = some d := (leave_of_ne hne _ _).trans hdest
      have hold := List.mem_of_getElem? htab
      have hmade : Made (sys.leave w ((sys.enter s).transferTab i)).next tab.page := by
        change Made ((sys.enter s).transferTab i).next tab.page
        rw [hnext]
        exact hsound.pages tab hold
      have hfree : ∀ n ∈ tab.page.numbers, ∀ w', ¬ (sys.leave w ((sys.enter s).transferTab i)).Holds w' n := by
        intro n hn w' hholds
        by_cases hw' : w' = w
        · subst hw'
          obtain ⟨s₁, hw₁, tab', hmem, hn'⟩ := hholds
          rw [leave_self] at hw₁
          cases hw₁
          rw [htabs] at hmem
          obtain ⟨j, hother, hj⟩ := List.mem_eraseIdx_iff_getElem?.mp hmem
          exact hsound.toDistinct.apart_of_ne htab hj hother hn hn'
        · exact hw' (hs.apart w' w n (holds_of_ne hw' hholds) ⟨s, hw, tab, hold, hn⟩)
      obtain ⟨haccepted, hnext', hcaptured', htabs'⟩ := hsys.accept hdest' hmade (hsound.peopled tab hold) hfree
      refine ⟨_, by rw [act, hdest']; rfl, haccepted, hnext'.trans hnext, hcaptured'.trans hcaptured, fun p hp => ?_, ?_⟩
      · simp only [leave, hnext, hp, if_true]
      · intro w₁ s₁ hw₁ tab₁ hmem
        by_cases h : w₁ = dest
        · subst h
          rw [leave_self] at hw₁
          cases hw₁
          rcases htabs' tab₁ hmem with hmem | rfl
          · exact .inl ⟨d, hdest, hmem⟩
          · exact .inr ⟨rfl, hne, s, hw, htab⟩
        · rw [leave_of_ne h] at hw₁
          by_cases h' : w₁ = w
          · subst h'
            rw [leave_self] at hw₁
            cases hw₁
            rw [htabs] at hmem
            exact .inl ⟨s, hw, List.mem_of_mem_eraseIdx hmem⟩
          · rw [leave_of_ne h'] at hw₁
            exact .inl ⟨s₁, hw₁, hmem⟩
  next => exact ⟨sys, rfl, .refl hs w i dest⟩

theorem Moves.pages {i dest : Nat} (h : Moves sys sys' w i dest) : ∀ page ∈ sys'.pages, page ∈ sys.pages := by
  rintro page ⟨w₁, s₁, hw₁, tab, hmem, rfl⟩
  rcases h.tabs w₁ s₁ hw₁ tab hmem with ⟨s₀, hw₀, hmem⟩ | ⟨-, -, s, hw, htab⟩
  · exact ⟨w₁, s₀, hw₀, tab, hmem, rfl⟩
  · exact ⟨w, s, hw, tab, List.mem_of_getElem? htab, rfl⟩

theorem Moves.tied {i dest : Nat} (h : Moves sys sys' w i dest) (htied : Tied sys.pages sys.next sys.captured) :
    Tied sys'.pages sys'.next sys'.captured := by
  rw [h.next, h.captured]
  exact htied.mono h.pages

theorem unfold_windows (h : Function.update sys.windows sys.opened (some Window.empty) w = some s) :
    s = Window.empty ∨ sys.windows w = some s := by
  by_cases hw : w = sys.opened
  · subst hw
    rw [Function.update_self] at h
    exact .inl (Option.some.inj h).symm
  · rw [Function.update_of_ne hw] at h
    exact .inr h

/-- A window is opened for the tab. -/
theorem Sound.unfold (hs : sys.Sound) : ({ sys with
    windows := Function.update sys.windows sys.opened (some Window.empty)
    opened := sys.opened + 1 } : System).Sound := by
  have hother : ∀ {w₁ n : Nat}, ({ sys with
      windows := Function.update sys.windows sys.opened (some Window.empty)
      opened := sys.opened + 1 } : System).Holds w₁ n → sys.Holds w₁ n := by
    rintro w₁ n ⟨s₁, hw₁, tab, hmem, hn⟩
    rcases unfold_windows hw₁ with rfl | hold
    · cases hmem
    · exact ⟨s₁, hold, tab, hmem, hn⟩
  refine ⟨fun w₁ s₁ hw₁ => ?_, fun w₁ w₂ n h₁ h₂ => hs.apart w₁ w₂ n (hother h₁) (hother h₂), fun w₁ hw₁ => ?_, ?_⟩
  · rcases unfold_windows hw₁ with rfl | hold
    · exact ⟨⟨by simp [enter, Window.empty], by simp [enter, Window.empty]⟩, by simp [enter, Window.empty]⟩
    · exact hs.windows w₁ s₁ hold
  · have hlt : sys.opened < w₁ := hw₁
    exact (Function.update_of_ne (Nat.ne_of_gt hlt) _ _).trans (hs.unopened w₁ (Nat.le_of_lt hlt))
  · obtain ⟨s, hs₀⟩ := hs.first
    have hne : 0 ≠ sys.opened := by
      intro h
      rw [hs.unopened 0 h.ge] at hs₀
      cases hs₀
    exact ⟨s, (Function.update_of_ne hne _ _).trans hs₀⟩

theorem detachTab_moves (hs : sys.Sound) (w i : Nat) : sys.tabCount w < 2 ∧ sys.detachTab w i = some sys ∨
    2 ≤ sys.tabCount w ∧ ∃ sys', sys.detachTab w i = some sys' ∧ Moves sys sys' w i sys.opened := by
  unfold detachTab
  split
  next h => exact .inl ⟨h, rfl⟩
  next h =>
    obtain ⟨sys', heq, hmoves⟩ := transferTab_moves hs.unfold w i sys.opened
    refine .inr ⟨by omega, sys', heq, hmoves.sound, hmoves.next, hmoves.captured, hmoves.maker, fun w₁ s₁ hw₁ tab₁ hmem => ?_⟩
    have hold : ∀ {w₁ s₀}, Function.update sys.windows sys.opened (some Window.empty) w₁ = some s₀ → ∀ {tab : Tab}, tab ∈ s₀.tabs →
        sys.windows w₁ = some s₀ := by
      intro w₁ s₀ hw₀ tab hmem
      rcases unfold_windows hw₀ with rfl | hold
      · cases hmem
      · exact hold
    rcases hmoves.tabs w₁ s₁ hw₁ tab₁ hmem with ⟨s₀, hw₀, hmem⟩ | ⟨heq', hne, s, hw, htab⟩
    · exact .inl ⟨s₀, hold hw₀ hmem, hmem⟩
    · exact .inr ⟨heq', hne, s, hold hw (List.mem_of_getElem? htab), htab⟩

/-! ## Windows are closed -/

theorem closeWindow_windows {w₁ : Nat} {s₁ : Window} (h : Function.update sys.windows w none w₁ = some s₁) : sys.windows w₁ = some s₁ := by
  by_cases hw : w₁ = w
  · subst hw
    rw [Function.update_self] at h
    cases h
  · rwa [Function.update_of_ne hw] at h

theorem Sound.closeWindow (hs : sys.Sound) (h : w ≠ 0) :
    ({ sys with windows := Function.update sys.windows w none } : System).Sound := by
  have hother : ∀ {w₁ n : Nat}, ({ sys with windows := Function.update sys.windows w none } : System).Holds w₁ n → sys.Holds w₁ n := by
    rintro w₁ n ⟨s₁, hw₁, hrest⟩
    exact ⟨s₁, closeWindow_windows hw₁, hrest⟩
  refine ⟨fun w₁ s₁ hw₁ => hs.windows w₁ s₁ (closeWindow_windows hw₁), fun w₁ w₂ n h₁ h₂ => hs.apart w₁ w₂ n (hother h₁) (hother h₂),
    fun w₁ hw₁ => ?_, ?_⟩
  · by_cases hw : w₁ = w
    · rw [hw]
      exact Function.update_self ..
    · exact (Function.update_of_ne hw _ _).trans (hs.unopened w₁ hw₁)
  · obtain ⟨s, hs₀⟩ := hs.first
    exact ⟨s, (Function.update_of_ne (Ne.symm h) _ _).trans hs₀⟩

/-! ## Commands -/

/-- A command of one window keeps the others. -/
theorem act_step (hs : sys.Sound) (htied : Tied sys.pages sys.next sys.captured) {e : Panes.Event} (hwindow : e.ofWindow = true)
    (hw : sys.windows w = some s) (h : Panes.step (sys.enter s) e = some s') : Effect (sys.enter s) e s' ∧ Panes.Sound s' ∧
      Tied s'.pages s'.next s'.captured ∧ (sys.leave w s').Sound ∧
      Tied (sys.leave w s').pages (sys.leave w s').next (sys.leave w s').captured := by
  have hsound := hs.windows w s hw
  have hlocal : Tied (sys.enter s).pages (sys.enter s).next (sys.enter s).captured := htied.mono fun page hpage => ⟨w, s, hw, hpage⟩
  have heffect := step_effect hsound hlocal hwindow h
  have hsound' := hsound.step h
  have hgrows := heffect.grows hsound hsound'
  have htied' := heffect.tied hsound hsound' hlocal
  exact ⟨heffect, hsound', htied', hs.leave hw hsound' hgrows, tied_leave htied hs hw hgrows htied'⟩

/-- Pages that a window opens do not touch the others. -/
theorem act_opens (hs : sys.Sound) (htied : Tied sys.pages sys.next sys.captured) (hw : sys.windows w = some s)
    (h : Panes.Sound s' ∧ Opens (sys.enter s) s') :
    (sys.leave w s').Sound ∧ Tied (sys.leave w s').pages (sys.leave w s').next (sys.leave w s').captured := by
  have hlocal : Tied (sys.enter s).pages (sys.enter s).next (sys.enter s).captured := htied.mono fun page hpage => ⟨w, s, hw, hpage⟩
  exact ⟨hs.leave hw h.1 h.2.grows, tied_leave htied hs hw h.2.grows (h.2.tied hlocal)⟩

theorem start_windows (h : w ≠ 0) : System.start.windows w = none := by
  simp [start, h]

theorem start_sound : System.start.Sound := by
  have honly : ∀ {w₁ s₁}, System.start.windows w₁ = some s₁ → s₁ = Window.empty := by
    intro w₁ s₁ hw₁
    by_cases h : w₁ = 0
    · subst h
      exact (Option.some.inj hw₁).symm
    · rw [start_windows h] at hw₁
      cases hw₁
  have hnone : ∀ {w₁ n}, ¬ System.start.Holds w₁ n := by
    rintro w₁ n ⟨s₁, hw₁, tab, hmem, -⟩
    rw [honly hw₁] at hmem
    cases hmem
  refine ⟨fun w₁ s₁ hw₁ => ?_, fun w₁ w₂ n h₁ => absurd h₁ hnone, fun w₁ hw₁ => ?_, ⟨_, rfl⟩⟩
  · rw [honly hw₁]
    exact empty_sound
  · have hlt : 1 ≤ w₁ := hw₁
    exact start_windows (by omega)

theorem start_tied : Tied System.start.pages System.start.next System.start.captured := by
  rintro page ⟨w₁, s₁, hw₁, tab, hmem, rfl⟩ p hp
  exact absurd ⟨s₁, hw₁, tab, hmem, number_of_leaf hp⟩ (fun h => absurd (start_sound.lt_next h) (Nat.not_lt_zero _))

end System

end LvdTerm.App.Panes
