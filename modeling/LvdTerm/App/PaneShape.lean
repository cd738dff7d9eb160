import LvdTerm.App.WindowRuns

/-!
# The shape of the pane trees

A command that closes, moves or cancels a pane collapses the splitter that it leaves with one child, so that every splitter keeps two
(`PageChange.branching`). `buildNode` collapses none: a restored split of which one child opens stays a splitter with one child. But for
that, and for pickers that act on a window they are not in, every page is in shape in every run (`panes_shaped`).
-/
namespace LvdTerm.App.Panes

open LvdTerm.Core (SessionNode SessionTab)
open LvdTerm.Lib Rose Runs

/-! ## What opens of a saved session -/

mutual

/-- Does something open, and how many connections took an answer by then? -/
def opens (answers : Nat → Answer) : SessionNode → Nat → Bool × Nat
  | .leaf none, k => (false, k)
  | .leaf (some profile), k => ((resultForProfile (answers k) profile).isSome, k + 1)
  | .splitter _ _ children, k =>
    let (count, k) := openCount answers children k
    (count != 0, k)

/-- How many of them open. -/
def openCount (answers : Nat → Answer) : List SessionNode → Nat → Nat × Nat
  | [], k => (0, k)
  | child :: rest, k =>
    let (opened, k) := opens answers child k
    let (count, k) := openCount answers rest k
    (opened.toNat + count, k)

end

mutual

/-- No split has just one child that opens. -/
def OpensWell (answers : Nat → Answer) : SessionNode → Nat → Prop
  | .leaf _, _ => True
  | .splitter _ _ children, k => (openCount answers children k).1 ≠ 1 ∧ AllOpenWell answers children k

def AllOpenWell (answers : Nat → Answer) : List SessionNode → Nat → Prop
  | [], _ => True
  | child :: rest, k => OpensWell answers child k ∧ AllOpenWell answers rest (opens answers child k).2

end

def TabsOpenWell (answers : Nat → Answer) : List SessionTab → Nat → Prop
  | [], _ => True
  | tab :: tabs, k => OpensWell answers tab.root k ∧ TabsOpenWell answers tabs (opens answers tab.root k).2

section Building

variable (answers : Nat → Answer)

mutual

theorem buildNode_opens : ∀ (node : SessionNode) (b : Building), (buildNode answers node b).1.isSome = (opens answers node b.answered).1 ∧
    (buildNode answers node b).2.answered = (opens answers node b.answered).2
  | .leaf none, b => ⟨rfl, rfl⟩
  | .leaf (some profile), b => by
    rw [buildNode, opens]
    split
    next h => simp [h]
    next h => simp [h]
  | .splitter o _ children, b => by
    obtain ⟨hlength, hanswered⟩ := buildNodes_opens children { b with next := b.next + 1 }
    rw [buildNode, opens]
    simp only at hlength hanswered ⊢
    rw [← hlength, ← hanswered]
    refine ⟨?_, rfl⟩
    cases (buildNodes answers children { b with next := b.next + 1 }).1 with
    | nil => rfl
    | cons widget widgets => rfl

theorem buildNodes_opens : ∀ (nodes : List SessionNode) (b : Building),
    (buildNodes answers nodes b).1.length = (openCount answers nodes b.answered).1 ∧
      (buildNodes answers nodes b).2.answered = (openCount answers nodes b.answered).2
  | [], b => ⟨rfl, rfl⟩
  | child :: rest, b => by
    obtain ⟨hsome, hanswered⟩ := buildNode_opens child b
    obtain ⟨hlength, hanswered'⟩ := buildNodes_opens rest (buildNode answers child b).2
    rw [buildNodes, openCount]
    simp only
    rw [List.length_append, hlength, hanswered', hanswered, ← hsome]
    refine ⟨?_, rfl⟩
    cases (buildNode answers child b).1 <;> rfl

end

mutual

/-- A page that is built has two children in every splitter if and only if the saved one opens well. -/
theorem opensWell_iff : ∀ (node : SessionNode) (b : Building), OpensWell answers node b.answered ↔
    ∀ page, (buildNode answers node b).1 = some page → page.Branching
  | .leaf none, b => by simp [OpensWell, buildNode]
  | .leaf (some profile), b => by
    rw [OpensWell, true_iff]
    intro page hpage
    rw [buildNode] at hpage
    split at hpage
    next => cases hpage
    next =>
      cases hpage
      trivial
  | .splitter o _ children, b => by
    have hall := allOpenWell_iff children { b with next := b.next + 1 }
    have hlength := (buildNodes_opens answers children { b with next := b.next + 1 }).1
    simp only at hall hlength
    rw [OpensWell, buildNode, hall, ← hlength]
    simp only
    generalize (buildNodes answers children { b with next := b.next + 1 }).1 = widgets
    cases widgets with
    | nil => simp
    | cons widget widgets =>
      simp only [List.isEmpty_cons, Bool.false_eq_true, if_false, Option.some.injEq, forall_eq', branching_node, List.length_cons]
      refine and_congr_left' ?_
      omega

theorem allOpenWell_iff : ∀ (nodes : List SessionNode) (b : Building), AllOpenWell answers nodes b.answered ↔
    ∀ widget ∈ (buildNodes answers nodes b).1, widget.Branching
  | [], b => by simp [AllOpenWell, buildNodes]
  | child :: rest, b => by
    have hanswered := (buildNode_opens answers child b).2
    have hrest := allOpenWell_iff rest (buildNode answers child b).2
    rw [AllOpenWell, buildNodes, opensWell_iff child b, ← hanswered, hrest]
    simp only
    constructor
    · rintro ⟨hchild, hrest⟩ widget hmem
      rcases List.mem_append.mp hmem with hmem | hmem
      · exact hchild widget (Option.mem_toList.mp hmem)
      · exact hrest widget hmem
    · intro h
      exact ⟨fun page hpage => h page (List.mem_append_left _ (Option.mem_toList.mpr hpage)),
        fun widget hmem => h widget (List.mem_append_right _ hmem)⟩

end

end Building

/-! ## What a command does to the shape -/

section Branching

variable {s s' : Window} {e : Event} {page page' : Widget}

theorem put_branching {a : Leaf} {widgets : List Widget} (h : page.Branching) (hput : edit (· = a) (fun _ => widgets) page = [page'])
    (hne : widgets ≠ []) (hwidgets : ∀ w ∈ widgets, w.Branching) : page'.Branching := by
  have hedited : ∀ t ∈ edit (· = a) (fun _ => widgets) page, t.Branching := (branching_edit (fun _ _ => ⟨hne, hwidgets⟩) h).2
  rw [hput] at hedited
  exact hedited page' (List.mem_singleton_self _)

theorem PageChange.branching (h : PageChange s e s' page page') (hmade : Made s.next page) (hb : page.Branching) : page'.Branching := by
  have hout : ∀ {a : Leaf} {q : Splitter}, page.parentSplitter a = some q → (taken a q page).Branching := by
    intro a q hparent
    exact taken_branching hb hmade.leaves_nodup (node_of_parentSplitter hparent) fun r hr => link_unique hmade.leaves_nodup hparent hr
  cases h with
  | split existing o page' hmem hput hnext hcaptured => exact put_branching hb hput (by simp) (by simp)
  | chosen picker q hparent hnext =>
    have hput : edit (· = .picker picker) (fun _ => [.leaf (.view s.next)]) page =
        [page.replaceWidget (.picker picker) (.view s.next)] := edit_eq_editBelow _ _ (node_of_parentSplitter hparent)
    exact put_branching hb hput (by simp) (by simp)
  | cancelled picker q hparent => exact hout hparent
  | closed v q hcloses hmore hparent => exact hout hparent
  | swapped source target hsource htarget => exact branching_mapLeaves _ hb
  | moved source target zone q page' he hzone hne htarget hparent hput =>
    obtain ⟨widgets, hedit, hplaced⟩ := hput.placed
    exact put_branching (hout hparent) hedit hplaced.ne_nil hplaced.branching

theorem Effect.branching (h : Effect s e s') (hs : Sound s) (hb : ∀ tab ∈ s.tabs, tab.page.Branching) :
    ∀ tab ∈ s'.tabs, tab.page.Branching := by
  intro tab' hmem
  cases h.change with
  | kept htabs => exact hb tab' (htabs tab' hmem)
  | opened hnext htabs =>
    rcases htabs tab' hmem with hmem | hpage
    · exact hb tab' hmem
    · rw [hpage]
      trivial
  | reworked i tab page htab htabs hpage =>
    have hreworks : Reworks s { s with tabs := s'.tabs } i page := ⟨htabs, fun h => h⟩
    have hold := List.mem_of_getElem? htab
    rcases hreworks.mem htab hmem with ⟨j, -, hj⟩ | rfl
    · exact hb tab' (List.mem_of_getElem? hj)
    · exact hpage.branching (hs.pages tab hold) (hb tab hold)

theorem addTab_branching {tab : Tab} (hb : ∀ tab ∈ s.tabs, tab.page.Branching) (h : tab.page.Branching) :
    ∀ tab' ∈ (s.addTab tab).tabs, tab'.page.Branching := by
  intro tab' hmem
  rw [Window.addTab, Window.insertTab_tabs _ (Nat.le_refl _)] at hmem
  rcases List.eq_or_mem_of_mem_insertIdx hmem with rfl | hmem
  · exact h
  · exact hb tab' hmem

theorem restoreTabs_branching (answers : Nat → Answer) (tabs : List SessionTab) (answered : Nat) (hwell : TabsOpenWell answers tabs answered)
    (hb : ∀ tab ∈ s.tabs, tab.page.Branching) : ∀ tab ∈ (s.restoreTabs answers tabs answered).tabs, tab.page.Branching := by
  induction tabs generalizing s answered with
  | nil => exact hb
  | cons tab tabs ih =>
    obtain ⟨hroot, hrest⟩ := hwell
    have hpage := (opensWell_iff answers tab.root ⟨answered, s.next⟩).mp hroot
    have hanswered := (buildNode_opens answers tab.root ⟨answered, s.next⟩).2
    rw [← hanswered] at hrest
    rw [Window.restoreTabs]
    generalize buildNode answers tab.root ⟨answered, s.next⟩ = result at hpage hrest
    obtain ⟨page, b⟩ := result
    cases page with
    | none => exact ih b.answered hrest hb
    | some page => exact ih b.answered hrest (addTab_branching (s := { s with next := b.next }) hb (hpage page rfl))

end Branching

/-! ## Runs -/

namespace System

/-- Every splitter has two children or more, and every page but the welcome page has a pane. -/
def Shaped (sys : System) : Prop := ∀ page ∈ sys.pages, page.Branching ∧ Peopled page

/-- The handlers of a picker act on the window that it is in. -/
def HandledHere (sys : System) (w : Nat) (e : Panes.Event) : Prop :=
  ∀ s picker, sys.windows w = some s → (sys.enter s).signals e = some picker →
    sys.maker picker = w ∨ sys.windows (sys.maker picker) = none

/-- No split is restored with one child, and no picker acts on a window that it is not in. -/
def Sane (sys : System) : System.Event → Prop
  | .restoreSession answers state => TabsOpenWell answers state.tabs 0
  | .command w e => sys.HandledHere w e
  | _ => True

variable {sys sys' : System} {w : Nat} {s s' : Window}

theorem act_eq (hw : sys.windows w = some s) (f : Window → Option Window) : sys.act w f = (f (sys.enter s)).map (sys.leave w) := by
  rw [act, hw]

/-- A command that acts on its own window. -/
theorem command_cases {e : Panes.Event} (hhere : sys.HandledHere w e) (h : sys.command w e = some sys') : sys' = sys ∨
    ∃ s s', sys.windows w = some s ∧ Panes.step (sys.enter s) e = some s' ∧ sys' = sys.leave w s' := by
  have hact : ∀ {s}, sys.windows w = some s → sys.act w (Panes.step · e) = some sys' →
      ∃ s s', sys.windows w = some s ∧ Panes.step (sys.enter s) e = some s' ∧ sys' = sys.leave w s' := by
    intro s hw h
    rw [act_eq hw] at h
    obtain ⟨s', hs', rfl⟩ := Option.map_eq_some_iff.mp h
    exact ⟨s, s', hw, hs', rfl⟩
  unfold command at h
  split at h
  next => exact .inl (Option.some.inj h).symm
  next s hw =>
    split at h
    next => exact .inr (hact hw h)
    next picker hpicker =>
      unfold signalled at h
      simp only at h
      split at h
      next => exact .inl (Option.some.inj h).symm
      next hopen =>
        split at h
        next => exact .inr (hact hw h)
        next hmaker =>
          rcases hhere s picker hw hpicker with hhere | hclosed
          · exact absurd hhere hmaker
          · rw [hclosed] at hopen
            exact absurd rfl hopen

/-- All that the induction needs. -/
structure Orderly (sys : System) : Prop where
  sound : sys.Sound
  tied : Tied sys.pages sys.next sys.captured
  branching : ∀ page ∈ sys.pages, page.Branching

theorem Orderly.shaped (h : sys.Orderly) : sys.Shaped := by
  rintro page ⟨w, s, hw, tab, hmem, rfl⟩
  exact ⟨h.branching tab.page ⟨w, s, hw, tab, hmem, rfl⟩, (h.sound.windows w s hw).peopled tab hmem⟩

theorem branching_leave (hb : ∀ page ∈ sys.pages, page.Branching) (hs' : ∀ tab ∈ s'.tabs, tab.page.Branching) :
    ∀ page ∈ (sys.leave w s').pages, page.Branching := by
  intro page hpage
  rcases mem_pages_leave hpage with ⟨tab, hmem, rfl⟩ | ⟨w₁, s₁, -, hw₁, hpage⟩
  · exact hs' tab hmem
  · exact hb page ⟨w₁, s₁, hw₁, hpage⟩

theorem Orderly.moves (h : sys.Orderly) {i dest : Nat} (hmoves : Moves sys sys' w i dest) : sys'.Orderly :=
  ⟨hmoves.sound, hmoves.tied h.tied, fun page hpage => h.branching page (hmoves.pages page hpage)⟩

theorem Orderly.opens (h : sys.Orderly) (hw : sys.windows w = some s) (hopens : Panes.Sound s' ∧ Opens (sys.enter s) s')
    (hb : ∀ tab ∈ s'.tabs, tab.page.Branching) : (sys.leave w s').Orderly := by
  obtain ⟨hsound, htied⟩ := act_opens h.sound h.tied hw hopens
  exact ⟨hsound, htied, branching_leave h.branching hb⟩

theorem Orderly.step (h : sys.Orderly) {e : System.Event} (hsane : sys.Sane e) (hstep : sys.step e = some sys') : sys'.Orderly := by
  have hpages : ∀ {w s}, sys.windows w = some s → ∀ tab ∈ (sys.enter s).tabs, tab.page.Branching :=
    fun hw tab hmem => h.branching tab.page ⟨_, _, hw, tab, hmem, rfl⟩
  obtain ⟨s₀, hs₀⟩ := h.sound.first
  cases e with
  | addWelcome =>
    rw [System.step, act_eq hs₀] at hstep
    cases hstep
    refine h.opens hs₀ (addWelcome_opens (h.sound.windows 0 s₀ hs₀)) ?_
    exact addTab_branching (s := { sys.enter s₀ with next := sys.next + 1 }) (fun tab hmem => hpages hs₀ tab hmem) trivial
  | restoreSession answers state =>
    rw [System.step, act_eq hs₀] at hstep
    cases hstep
    refine h.opens hs₀ (restoreSession_opens answers state (h.sound.windows 0 s₀ hs₀)) ?_
    have hbranching := restoreTabs_branching answers state.tabs 0 hsane (hpages hs₀)
    unfold Window.restoreSession
    simp only
    split
    next =>
      rw [Window.setCurrentIndex_tabs]
      exact hbranching
    next => exact hbranching
  | command w e =>
    rw [System.step] at hstep
    split at hstep
    next hwindow =>
      rcases command_cases hsane hstep with rfl | ⟨s, s', hw, hs', rfl⟩
      · exact h
      · obtain ⟨heffect, -, -, hsound, htied⟩ := act_step h.sound h.tied hwindow hw hs'
        exact ⟨hsound, htied, branching_leave h.branching (heffect.branching (h.sound.windows w s hw) (hpages hw))⟩
    next =>
      cases hstep
      exact h
  | detachTab w i =>
    rcases detachTab_moves h.sound w i with ⟨-, heq⟩ | ⟨-, sys₁, heq, hmoves⟩
    · rw [System.step, heq] at hstep
      cases hstep
      exact h
    · rw [System.step, heq] at hstep
      cases hstep
      exact h.moves hmoves
  | moveTabToPrimary w i =>
    obtain ⟨sys₁, heq, hmoves⟩ := transferTab_moves h.sound w i 0
    rw [System.step, heq] at hstep
    cases hstep
    exact h.moves hmoves
  | closeWindow w =>
    cases hstep
    split
    next => exact h
    next hne =>
      have hsub : ∀ page ∈ ({ sys with windows := Function.update sys.windows w none } : System).pages, page ∈ sys.pages := by
        rintro page ⟨w₁, s₁, hw₁, hpage⟩
        exact ⟨w₁, s₁, closeWindow_windows hw₁, hpage⟩
      exact ⟨h.sound.closeWindow hne, h.tied.mono hsub, fun page hpage => h.branching page (hsub page hpage)⟩

theorem start_orderly : System.start.Orderly := by
  refine ⟨start_sound, start_tied, ?_⟩
  rintro page ⟨w, s, hw, tab, hmem, rfl⟩
  by_cases h : w = 0
  · subst h
    cases hw
    cases hmem
  · rw [start_windows h] at hw
    cases hw

/-- Where no split is restored with one child, and no picker acts on a window that it is not in, every splitter of every tab has two
children, and every tab but the welcome tab has a pane. -/
theorem panes_shaped (events : List System.Event)
    (hsane : Along System.advance (fun o e => ∀ sys, o = some sys → sys.Sane e) events (some System.start)) {sys : System}
    (h : run System.advance events (some System.start) = some sys) : sys.Shaped := by
  have hall : ∀ sys, run System.advance events (some System.start) = some sys → sys.Orderly := by
    refine run_invariant (I := fun o => ∀ sys, o = some sys → sys.Orderly) (fun o e horderly hsane sys' hsys' => ?_) events (fun sys hsys => ?_)
      hsane
    · cases o with
      | none => cases hsys'
      | some sys => exact (horderly sys rfl).step (hsane sys rfl) hsys'
    · cases hsys
      exact start_orderly
  exact (hall sys h).shaped

/-- A session with one split, of a connection whose user is asked for and a shell. -/
def askingSplit : Core.SessionState where
  tabs := [⟨[], .splitter .horizontal [1, 1] [
    .leaf (some { id := 1, type := .ssh, ssh := { host := ['h'], promptForUsername := true } }),
    .leaf (some { id := 2, type := .shell })]⟩]

/-- The user is asked for, and both panes are there; one of them is split, another connection chosen, and the tab moved. -/
def splitAfterRestore : List System.Event := [.restoreSession (fun _ => ⟨some ['u'], some ['x']⟩) askingSplit, .command 0 .activate,
  .command 0 (.focus (.view 1)), .command 0 (.splitActivePane .vertical), .command 0 (.choose 3 false), .command 0 (.addTerminalTab []),
  .detachTab 0 0]

theorem panes_shaped_restored : ∃ sys, run System.advance splitAfterRestore (some System.start) = some sys ∧ sys.Shaped := by
  have hsome : (run System.advance splitAfterRestore (some System.start)).isSome = true := by decide +kernel
  obtain ⟨sys, hsys⟩ := Option.isSome_iff_exists.mp hsome
  refine ⟨sys, hsys, panes_shaped splitAfterRestore ?_ hsys⟩
  refine ⟨fun sys hsys => ?_, fun sys hsys => ?_, fun sys hsys => ?_, fun sys hsys => ?_, fun sys hsys => ?_, fun sys hsys => ?_,
    fun sys hsys => ?_, trivial⟩
  · exact ⟨⟨by decide, trivial, trivial, trivial⟩, trivial⟩
  · intro s picker hw hpicker
    cases hpicker
  · intro s picker hw hpicker
    cases hpicker
  · intro s picker hw hpicker
    cases hpicker
  · intro s picker hw hpicker
    cases hsys
    cases hw
    cases hpicker
    exact .inl rfl
  · intro s picker hw hpicker
    cases hpicker
  · trivial

/-- The prompt for the user is cancelled. -/
theorem restored_alone : ¬ ∀ (events : List System.Event) (sys : System), run System.advance events (some System.start) = some sys →
    sys.Shaped := by
  intro h
  have hshaped := h [.restoreSession (fun _ => ⟨none, none⟩) askingSplit] _ rfl
  have hpage := (hshaped (.node ⟨0, .horizontal⟩ [.leaf (.view 1)]) ⟨0, _, rfl, _, List.mem_singleton_self _, rfl⟩).1
  simp at hpage

end System

end LvdTerm.App.Panes
