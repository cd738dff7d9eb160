import LvdTerm.App.PaneShape
import LvdTerm.App.VisiblePane

/-!
# What the handlers of a picker act on

The handlers of a picker have captured its splitter, the pane that was split and the window. They stay what the picker is in, comes from
and is shown by, and act on nothing else, as long as no pane is closed that a picker comes from, no picker is left alone in its splitter,
and no tab with a picker goes to another window (`pickers_attached`).
-/
namespace LvdTerm.App.Panes

open LvdTerm.Lib Rose Runs

/-! ## Pages -/

/-- The captured splitter and pane are those that the picker is with. -/
structure PickerIn (captured : Nat → Captured) (p : Nat) (page : Widget) : Prop where
  splitter : ∃ q, page.parentSplitter (.picker p) = some q ∧ q.number = (captured p).splitter
  existing : .view (captured p).existing ∈ page.leaves

/-- Every picker of the window is with what was captured. -/
def Attached (s : Window) : Prop := ∀ tab ∈ s.tabs, ∀ p, .picker p ∈ tab.page.leaves → PickerIn s.captured p tab.page

/-- No pane is taken out that a picker of its tab needs: it would be left alone, or the pane is closed that was split for it. -/
def Window.Careful (s : Window) (e : Event) : Prop :=
  ∀ tab ∈ s.tabs, ∀ v, .view v ∈ tab.page.leaves → TakenBy s e tab.page (.view v) → ∀ p, .picker p ∈ tab.page.leaves →
    ¬ LeftAlone (.view v) p tab.page ∧ (s.closes e = some v → (s.captured p).existing ≠ v)

section Windows

variable {s s' : Window} {e : Event} {i : Nat} {tab : Tab} {page page' : Widget} {p picker : Nat}

theorem PageChange.attached (h : PageChange s e s' page page') (hmade : Made s.next page) (hmade' : Made s'.next page')
    (hle : s.next ≤ s'.next) (hcaptured : ∀ p < s.next, s'.captured p = s.captured p)
    (hnumbers : ∀ p, .picker p ∈ page.leaves → (s.captured p).splitter = p + 1)
    (hin : ∀ p, .picker p ∈ page.leaves → PickerIn s.captured p page)
    (hcareful : ∀ v, .view v ∈ page.leaves → TakenBy s e page (.view v) → ∀ p, .picker p ∈ page.leaves →
      ¬ LeftAlone (.view v) p page ∧ (s.closes e = some v → (s.captured p).existing ≠ v))
    {q : Splitter} (hparent : page'.parentSplitter (.picker p) = some q) : PickerIn s'.captured p page' := by
  have hlink := (parentSplitter_iff hmade'.leaves_nodup).mp hparent
  rcases h.picker hmade hle hlink with hlink | ⟨existing, o, rfl, hq, -, hnew, hexisting⟩ | ⟨a, r, hby, hne, hleft, ha, hold, -⟩
  · have hp := mem_leaves_of_links hlink
    obtain ⟨⟨r, hr, hnumber⟩, hexisting⟩ := hin p hp
    rw [(parentSplitter_iff hmade.leaves_nodup).mpr hlink, Option.some.injEq] at hr
    subst hr
    have hsame := hcaptured p (hmade.2 _ (number_of_leaf hp))
    refine ⟨⟨q, hparent, by rw [hsame]; exact hnumber⟩, ?_⟩
    rw [hsame]
    rcases h.views hmade hle hexisting with hkept | ⟨hcloses, hby⟩
    · exact hkept
    · exact absurd rfl ((hcareful _ hexisting hby p hp).2 hcloses)
  · refine ⟨⟨q, hparent, ?_⟩, ?_⟩
    · rw [hnew, Option.some.inj hq]
    · rw [hnew]
      exact hexisting
  · exfalso
    have hp := mem_of_parentSplitter hold
    rcases hby with ⟨c, rfl⟩ | hby
    · obtain ⟨r', hr', hnumber'⟩ := (hin p hp).splitter
      obtain ⟨r'', hr'', hnumber''⟩ := (hin c (mem_of_parentSplitter ha)).splitter
      rw [hold, Option.some.injEq] at hr'
      rw [ha, Option.some.injEq] at hr''
      subst hr'
      subst hr''
      rw [hnumbers p hp] at hnumber'
      rw [hnumbers c (mem_of_parentSplitter ha)] at hnumber''
      exact hne (congrArg Leaf.picker (by omega))
    · have hview : ∃ v, a = .view v := by
        rcases hby with ⟨v, rfl, -⟩ | ⟨v, -, -, rfl, -⟩
        · exact ⟨v, rfl⟩
        · exact ⟨v, rfl⟩
      obtain ⟨v, rfl⟩ := hview
      exact (hcareful v (mem_of_parentSplitter ha) (.inr hby) p hp).1 hleft

/-- A command that takes nothing from the pickers leaves them with what was captured. -/
theorem Effect.attached (h : Effect s e s') (hs : Sound s) (hs' : Sound s') (htied : Tied s.pages s.next s.captured)
    (hin : Attached s) (hcareful : s.Careful e) : Attached s' := by
  intro tab' hmem p hp
  rcases h.page_of_picker hs hs' hmem hp with hold | ⟨i, tab, q, htab, -, hpage, hparent, -⟩
  · obtain ⟨hsplitter, hexisting⟩ := hin tab' hold p hp
    have hsame := h.captured p ((hs.pages tab' hold).2 _ (number_of_leaf hp))
    exact ⟨by rw [hsame]; exact hsplitter, by rw [hsame]; exact hexisting⟩
  · have hold := List.mem_of_getElem? htab
    exact hpage.attached (hs.pages tab hold) (hs'.pages tab' hmem) h.next h.captured
      (fun p hp => (htied tab.page ⟨tab, hold, rfl⟩ p hp).2.1) (hin tab hold) (hcareful tab hold) hparent

/-! ## The handlers find what they have captured -/

/-- A choice puts a new pane in the place of the picker, and does nothing else to the tabs. -/
theorem choose_attached (hs : Sound s) (htab : s.tabs[i]? = some tab) (hp : .picker p ∈ tab.page.leaves)
    (hin : PickerIn s.captured p tab.page) (duplicate : Bool) : ∃ s', s.choose p duplicate = some s' ∧
      s'.tabs = s.tabs.set i ⟨tab.title, tab.page.mapLeaves fun x => if x = .picker p then .view s.next else x⟩ := by
  obtain ⟨⟨q, hparent, hq⟩, hexisting⟩ := hin
  have hroot := hs.toDistinct.tabRootOf htab hp
  have hleaf : s.hasLeaf (.view (s.captured p).existing) = true := hasLeaf_iff.mpr ⟨tab, List.mem_of_getElem? htab, hexisting⟩
  have hchosen : s.choose p duplicate =
      some (({ s with next := s.next + 1 }.changePage i (·.replaceWidget (.picker p) (.view s.next))).setFocus (.view s.next)) := by
    unfold Window.choose
    simp only [hleaf, not_true_eq_false, and_false, if_false]
    rw [← hq]
    exact finishSplit_eq hroot htab hparent
  refine ⟨_, hchosen, ?_⟩
  rw [Window.setFocus_tabs, ← replaceWidget_eq_mapLeaves (node_of_parentSplitter hparent)]
  exact modify_eq_set_of htab _

/-- Cancelling takes the picker out, and does nothing else to the tabs. -/
theorem cancel_attached (hs : Sound s) (htab : s.tabs[i]? = some tab) (hp : .picker p ∈ tab.page.leaves)
    (hin : PickerIn s.captured p tab.page) : ∃ s' page, s.cancel p = some s' ∧ s'.tabs = s.tabs.set i ⟨tab.title, page⟩ ∧
      page.leaves = tab.page.leaves.filter (· ≠ .picker p) := by
  obtain ⟨⟨q, hparent, hq⟩, hexisting⟩ := hin
  have hroot := hs.toDistinct.tabRootOf htab hp
  have hleaf : s.hasLeaf (.view (s.captured p).existing) = true := hasLeaf_iff.mpr ⟨tab, List.mem_of_getElem? htab, hexisting⟩
  obtain ⟨s₁, hreworks, -, -, heq⟩ := cancel_eq hs hroot htab hparent hq hleaf
  refine ⟨_, taken (.picker p) q tab.page, heq, ?_, taken_leaves (node_of_parentSplitter hparent)⟩
  rw [Window.setFocus_tabs, hreworks.tabs]
  exact modify_eq_set_of htab _

theorem cancel_total (hs : Sound s) (hin : Attached s) (p : Nat) : ∃ s', s.cancel p = some s' := by
  cases hroot : s.tabRootOf (.picker p) with
  | none =>
    refine ⟨s, ?_⟩
    rw [Window.cancel, hroot]
  | some i =>
    obtain ⟨tab, htab, hp⟩ := tabRootOf_eq_some hroot
    obtain ⟨s', page, heq, -⟩ := cancel_attached hs htab hp (hin tab (List.mem_of_getElem? htab) p hp)
    exact ⟨s', heq⟩

/-- No command uses an object that was deleted. -/
theorem step_total (hs : Sound s) (hin : Attached s) (e : Event) : ∃ s', step s e = some s' := by
  cases e with
  | choose p duplicate =>
    simp only [step]
    split
    next hshown =>
      obtain ⟨c, tab, -, htab, hp⟩ := mem_currentLeaves.mp hshown
      obtain ⟨s', heq, -⟩ := choose_attached hs htab hp (hin tab (List.mem_of_getElem? htab) p hp) duplicate
      exact ⟨s', heq⟩
    next => exact ⟨s, rfl⟩
  | cancel p =>
    simp only [step]
    split
    next => exact cancel_total hs hin p
    next => exact ⟨s, rfl⟩
  | closeActivePane =>
    simp only [step, Window.closeActivePane]
    split
    next =>
      split
      next p _ => exact cancel_total hs hin p
      next =>
        split
        next => exact ⟨_, rfl⟩
        next => exact ⟨_, rfl⟩
    next => exact ⟨s, rfl⟩
  | confirmCloseActivePane yes =>
    simp only [step, Window.confirmCloseActivePane]
    split
    next =>
      split
      next => exact ⟨s, rfl⟩
      next =>
        split
        next p _ => exact cancel_total hs hin p
        next =>
          split
          next => exact ⟨_, rfl⟩
          next => exact ⟨_, rfl⟩
    next => exact ⟨s, rfl⟩
  | _ => exact ⟨_, rfl⟩

/-- A signal is sent by a picker on screen. -/
theorem signals_shown (h : s.signals e = some p) : .picker p ∈ s.currentLeaves := by
  have hfocused : s.focusedPicker.filter (.picker · ∈ s.currentLeaves) = some p → .picker p ∈ s.currentLeaves :=
    fun h => of_decide_eq_true (Option.filter_eq_some_iff.mp h).2
  cases e with
  | choose p' duplicate =>
    rw [Window.signals] at h
    split at h
    next hshown =>
      cases h
      exact hshown
    next => cases h
  | cancel p' =>
    rw [Window.signals] at h
    split at h
    next hshown =>
      cases h
      exact hshown.2
    next => cases h
  | closeActivePane =>
    rw [Window.signals] at h
    split at h
    next => exact hfocused h
    next => cases h
  | confirmCloseActivePane yes =>
    rw [Window.signals] at h
    split at h
    next => exact hfocused h
    next => cases h
  | _ => cases h

end Windows

/-! ## All windows -/

namespace System

/-- The handlers of the picker act on live objects: its own splitter, a pane that is there, and the window that shows it. A choice puts a
new pane into its place, cancelling takes it out, and nothing else changes in the tabs. -/
structure HandlersAttached (sys : System) (w : Nat) (s : Window) (i : Nat) (tab : Tab) (p : Nat) : Prop where
  splitter : ∃ q, tab.page.parentSplitter (.picker p) = some q ∧ q.number = (sys.captured p).splitter
  existing : ∃ page ∈ sys.pages, .view (sys.captured p).existing ∈ page.leaves
  window : sys.maker p = w
  choosing : ∀ duplicate, ∃ s', (sys.enter s).choose p duplicate = some s' ∧
    s'.tabs = s.tabs.set i ⟨tab.title, tab.page.mapLeaves fun x => if x = .picker p then .view sys.next else x⟩
  cancelling : ∃ s' page, (sys.enter s).cancel p = some s' ∧ s'.tabs = s.tabs.set i ⟨tab.title, page⟩ ∧
    page.leaves = tab.page.leaves.filter (· ≠ .picker p)

/-- So it is for all pickers. -/
def PickersAttached (sys : System) : Prop := ∀ w s i tab p, sys.windows w = some s → s.tabs[i]? = some tab →
  .picker p ∈ tab.page.leaves → sys.HandlersAttached w s i tab p

/-- No pane is taken out that a picker needs, and no tab with a picker goes to another window. -/
def Careful (sys : System) : System.Event → Prop
  | .command w e => ∀ s, sys.windows w = some s → (sys.enter s).Careful e
  | .detachTab w i => 2 ≤ sys.tabCount w → ∀ s tab, sys.windows w = some s → s.tabs[i]? = some tab → hasPicker tab.page = false
  | .moveTabToPrimary w i => w ≠ 0 → ∀ s tab, sys.windows w = some s → s.tabs[i]? = some tab → hasPicker tab.page = false
  | _ => True

/-- What the induction needs. -/
structure Handled (sys : System) : Prop where
  sound : sys.Sound
  tied : Tied sys.pages sys.next sys.captured
  attached : ∀ w s, sys.windows w = some s → Attached (sys.enter s)
  maker : ∀ w s, sys.windows w = some s → ∀ tab ∈ s.tabs, ∀ p, .picker p ∈ tab.page.leaves → sys.maker p = w

variable {sys sys' : System} {w : Nat} {s s' : Window}

theorem Handled.pickers (h : sys.Handled) : sys.PickersAttached := by
  intro w s i tab p hw htab hp
  have hmem := List.mem_of_getElem? htab
  have hin := h.attached w s hw tab hmem p hp
  have hsound := h.sound.windows w s hw
  exact ⟨hin.splitter, ⟨tab.page, ⟨w, s, hw, tab, hmem, rfl⟩, hin.existing⟩, h.maker w s hw tab hmem p hp,
    choose_attached (s := sys.enter s) hsound htab hp hin, cancel_attached (s := sys.enter s) hsound htab hp hin⟩

theorem picker_lt (h : sys.Handled) (hw : sys.windows w = some s) {tab : Tab} (hmem : tab ∈ s.tabs) {p : Nat}
    (hp : .picker p ∈ tab.page.leaves) : p < sys.next :=
  ((h.sound.windows w s hw).pages tab hmem).2 _ (number_of_leaf hp)

/-- A window has done something, and its pickers are with what was captured. -/
theorem Handled.leave (h : sys.Handled) (hw : sys.windows w = some s) (hgrows : Grows (sys.enter s) s')
    (hsound : (sys.leave w s').Sound) (htied : Tied (sys.leave w s').pages (sys.leave w s').next (sys.leave w s').captured)
    (hin : Attached s') : (sys.leave w s').Handled := by
  refine ⟨hsound, htied, fun w₁ s₁ hw₁ => ?_, fun w₁ s₁ hw₁ tab hmem p hp => ?_⟩
  · by_cases hne : w₁ = w
    · subst hne
      rw [leave_self] at hw₁
      cases hw₁
      exact hin
    · rw [leave_of_ne hne] at hw₁
      intro tab hmem p hp
      obtain ⟨hsplitter, hexisting⟩ := h.attached w₁ s₁ hw₁ tab hmem p hp
      have hsame : s'.captured p = sys.captured p := hgrows.captured p (picker_lt h hw₁ hmem hp)
      change PickerIn s'.captured p tab.page
      exact ⟨by rw [hsame]; exact hsplitter, by rw [hsame]; exact hexisting⟩
  · change (if p < sys.next then sys.maker p else w) = w₁
    by_cases hne : w₁ = w
    · subst hne
      rw [leave_self] at hw₁
      cases hw₁
      rcases hgrows.pickers tab hmem p hp with ⟨tab', hmem', hp'⟩ | hnew
      · rw [if_pos (picker_lt h hw hmem' hp')]
        exact h.maker w₁ s hw tab' hmem' p hp'
      · exact if_neg (Nat.not_lt.mpr hnew)
    · rw [leave_of_ne hne] at hw₁
      rw [if_pos (picker_lt h hw₁ hmem hp)]
      exact h.maker w₁ s₁ hw₁ tab hmem p hp

theorem Handled.opens (h : sys.Handled) (hw : sys.windows w = some s) (hopens : Panes.Sound s' ∧ Opens (sys.enter s) s') :
    (sys.leave w s').Handled := by
  obtain ⟨hsound, htied⟩ := act_opens h.sound h.tied hw hopens
  refine h.leave hw hopens.2.grows hsound htied fun tab hmem p hp => ?_
  rcases hopens.2.tabs tab hmem with hold | ⟨hnone, -⟩
  · rw [hopens.2.captured]
    exact h.attached w s hw tab hold p hp
  · exact absurd hp (not_picker_of_free hnone)

theorem Handled.moves (h : sys.Handled) {i dest : Nat} (hmoves : Moves sys sys' w i dest)
    (hfree : dest ≠ w → ∀ s tab, sys.windows w = some s → s.tabs[i]? = some tab → hasPicker tab.page = false) : sys'.Handled := by
  have hold : ∀ {w₁ s₁}, sys'.windows w₁ = some s₁ → ∀ tab ∈ s₁.tabs, ∀ p, .picker p ∈ tab.page.leaves →
      ∃ s₀, sys.windows w₁ = some s₀ ∧ tab ∈ s₀.tabs := by
    intro w₁ s₁ hw₁ tab hmem p hp
    rcases hmoves.tabs w₁ s₁ hw₁ tab hmem with hold | ⟨-, hne, s, hw, htab⟩
    · exact hold
    · exact absurd hp (not_picker_of_free (hfree hne s tab hw htab))
  refine ⟨hmoves.sound, hmoves.tied h.tied, fun w₁ s₁ hw₁ tab hmem p hp => ?_, fun w₁ s₁ hw₁ tab hmem p hp => ?_⟩
  · obtain ⟨s₀, hw₀, hmem₀⟩ := hold hw₁ tab hmem p hp
    change PickerIn sys'.captured p tab.page
    rw [hmoves.captured]
    exact h.attached w₁ s₀ hw₀ tab hmem₀ p hp
  · obtain ⟨s₀, hw₀, hmem₀⟩ := hold hw₁ tab hmem p hp
    rw [hmoves.maker p (picker_lt h hw₀ hmem₀ hp)]
    exact h.maker w₁ s₀ hw₀ tab hmem₀ p hp

/-- The handlers of all pickers on screen are those of the window. -/
theorem command_eq (h : sys.Handled) (hw : sys.windows w = some s) (e : Panes.Event) : sys.command w e = sys.act w (Panes.step · e) := by
  unfold command
  rw [hw]
  simp only
  split
  next => rfl
  next picker hpicker =>
    obtain ⟨c, tab, -, htab, hp⟩ := mem_currentLeaves.mp (signals_shown hpicker)
    have hmaker := h.maker w s hw tab (List.mem_of_getElem? htab) picker hp
    simp only [signalled, hmaker, hw, Option.isNone_some, Bool.false_eq_true, if_false, if_true]

theorem Handled.step (h : sys.Handled) {e : System.Event} (hcareful : sys.Careful e) : ∃ sys', sys.step e = some sys' ∧ sys'.Handled := by
  obtain ⟨s₀, hs₀⟩ := h.sound.first
  cases e with
  | addWelcome =>
    rw [System.step, act_eq hs₀]
    exact ⟨_, rfl, h.opens hs₀ (addWelcome_opens (h.sound.windows 0 s₀ hs₀))⟩
  | restoreSession answers state =>
    rw [System.step, act_eq hs₀]
    exact ⟨_, rfl, h.opens hs₀ (restoreSession_opens answers state (h.sound.windows 0 s₀ hs₀))⟩
  | command w e =>
    rw [System.step]
    split
    next hwindow =>
      cases hw : sys.windows w with
      | none =>
        refine ⟨sys, ?_, h⟩
        rw [command, hw]
      | some s =>
        have hsound := h.sound.windows w s hw
        obtain ⟨s', hs'⟩ := step_total hsound (h.attached w s hw) e
        rw [command_eq h hw, act_eq hw, hs']
        refine ⟨_, rfl, ?_⟩
        obtain ⟨heffect, hsound', -, hsys, htied⟩ := act_step h.sound h.tied hwindow hw hs'
        have hlocal : Tied (sys.enter s).pages (sys.enter s).next (sys.enter s).captured := h.tied.mono fun page hpage => ⟨w, s, hw, hpage⟩
        exact h.leave hw (heffect.grows hsound hsound') hsys htied
          (heffect.attached hsound hsound' hlocal (h.attached w s hw) (hcareful s hw))
    next => exact ⟨sys, rfl, h⟩
  | detachTab w i =>
    rcases detachTab_moves h.sound w i with ⟨-, heq⟩ | ⟨hcount, sys', heq, hmoves⟩
    · exact ⟨sys, heq, h⟩
    · exact ⟨sys', heq, h.moves hmoves fun _ => hcareful hcount⟩
  | moveTabToPrimary w i =>
    obtain ⟨sys', heq, hmoves⟩ := transferTab_moves h.sound w i 0
    exact ⟨sys', heq, h.moves hmoves fun hne => hcareful (Ne.symm hne)⟩
  | closeWindow w =>
    refine ⟨_, rfl, ?_⟩
    split
    next => exact h
    next hne =>
      have hsub : ∀ page ∈ ({ sys with windows := Function.update sys.windows w none } : System).pages, page ∈ sys.pages := by
        rintro page ⟨w₁, s₁, hw₁, hpage⟩
        exact ⟨w₁, s₁, closeWindow_windows hw₁, hpage⟩
      exact ⟨h.sound.closeWindow hne, h.tied.mono hsub, fun w₁ s₁ hw₁ => h.attached w₁ s₁ (closeWindow_windows hw₁),
        fun w₁ s₁ hw₁ => h.maker w₁ s₁ (closeWindow_windows hw₁)⟩

theorem start_handled : System.start.Handled := by
  have hnone : ∀ {w s}, System.start.windows w = some s → ∀ tab, tab ∉ s.tabs := by
    intro w s hw tab hmem
    by_cases h : w = 0
    · subst h
      cases hw
      cases hmem
    · rw [start_windows h] at hw
      cases hw
  exact ⟨start_sound, start_tied, fun w s hw tab hmem => absurd hmem (hnone hw tab), fun w s hw tab hmem => absurd hmem (hnone hw tab)⟩

/-- In a run in which no pane is taken out that a picker needs, and no tab with a picker goes to another window, no deleted object is used,
and the handlers of every picker act on it alone. -/
theorem pickers_attached (events : List System.Event)
    (hcareful : Along System.advance (fun o e => ∀ sys, o = some sys → sys.Careful e) events (some System.start)) :
    ∃ sys, run System.advance events (some System.start) = some sys ∧ sys.PickersAttached := by
  have hall : ∃ sys, run System.advance events (some System.start) = some sys ∧ sys.Handled := by
    refine run_invariant (I := fun o => ∃ sys, o = some sys ∧ sys.Handled) (fun o e hhandled hcareful => ?_) events
      ⟨_, rfl, start_handled⟩ hcareful
    obtain ⟨sys, rfl, hhandled⟩ := hhandled
    obtain ⟨sys', heq, hhandled'⟩ := hhandled.step (hcareful sys rfl)
    exact ⟨sys', heq, hhandled'⟩
  obtain ⟨sys, heq, hhandled⟩ := hall
  exact ⟨sys, heq, hhandled.pickers⟩

/-- A command that closes and moves no pane takes nothing from a picker. -/
theorem careful_of_still {s : Window} {e : Panes.Event} (hcloses : s.closes e = none) (hmoves : ∀ source target zone, e ≠ .movePane source target zone) :
    s.Careful e := by
  rintro tab - v - (⟨picker, hpicker⟩ | ⟨u, -, hu, -⟩ | ⟨source, target, zone, -, he, -⟩)
  · cases hpicker
  · rw [hcloses] at hu
    cases hu
  · exact absurd he (hmoves source target zone)

/-- One of two tabs gets a window of its own; in the other one a pane is split, its picker cancelled, and it is split again. -/
theorem pickers_attached_split : ∃ sys, run System.advance [.command 0 .activate, .command 0 (.addTerminalTab []),
    .command 0 (.addTerminalTab []), .detachTab 0 0, .command 0 (.splitActivePane .horizontal), .command 0 (.cancel 2),
    .command 0 (.splitActivePane .vertical)] (some System.start) = some sys ∧ sys.PickersAttached := by
  refine pickers_attached [.command 0 .activate, .command 0 (.addTerminalTab []), .command 0 (.addTerminalTab []), .detachTab 0 0,
    .command 0 (.splitActivePane .horizontal), .command 0 (.cancel 2), .command 0 (.splitActivePane .vertical)] ?_
  have hstill : ∀ {o : Option System} {e : Panes.Event}, (∀ s : Window, s.closes e = none) →
      (∀ source target zone, e ≠ .movePane source target zone) → ∀ sys, o = some sys → sys.Careful (.command 0 e) :=
    fun hcloses hmoves _ _ s _ => careful_of_still (hcloses _) hmoves
  have hfirst : ∀ {o : Option System}, ∀ sys, o = some sys → sys.Careful (.command 0 .activate) :=
    hstill (fun _ => rfl) (by intro _ _ _ h; cases h)
  have hopened : ∀ {o : Option System}, ∀ sys, o = some sys → sys.Careful (.command 0 (.addTerminalTab [])) :=
    hstill (fun _ => rfl) (by intro _ _ _ h; cases h)
  have hsplit : ∀ {o : Option System} {orientation}, ∀ sys, o = some sys → sys.Careful (.command 0 (.splitActivePane orientation)) :=
    hstill (fun _ => rfl) (by intro _ _ _ h; cases h)
  have hcancelled : ∀ {o : Option System}, ∀ sys, o = some sys → sys.Careful (.command 0 (.cancel 2)) :=
    hstill (fun _ => rfl) (by intro _ _ _ h; cases h)
  refine ⟨hfirst, hopened, hopened, fun sys hsys _ s tab hw htab => ?_, hsplit, hcancelled, hsplit, trivial⟩
  cases hsys
  cases hw
  cases htab
  rfl

/-- The picker 4 is not in the splitter that its handlers have captured. -/
def strayed (sys : System) : Bool :=
  (sys.windows 0).any fun s => s.tabs.any fun tab =>
    decide (.picker 4 ∈ tab.page.leaves) && (tab.page.parentSplitter (.picker 4)).any (·.number ≠ (sys.captured 4).splitter)

/-- A pane is split, a connection chosen, the pane split again and closed. -/
theorem neighbour_closed : ¬ ∀ (events : List System.Event) (sys : System), run System.advance events (some System.start) = some sys →
    sys.PickersAttached := by
  intro h
  have hstrayed : (run System.advance [.command 0 .activate, .command 0 (.addTerminalTab []), .command 0 (.splitActivePane .horizontal),
      .command 0 (.choose 1 false), .command 0 (.focus (.view 0)), .command 0 (.splitActivePane .vertical),
      .command 0 (.confirmClosePane true 0)] (some System.start)).any strayed = true := by decide +kernel
  obtain ⟨sys, hsys, hstrayed⟩ := (Option.any_eq_true _ _).mp hstrayed
  obtain ⟨s, hw, hstrayed⟩ := (Option.any_eq_true _ _).mp hstrayed
  obtain ⟨tab, hmem, hstrayed⟩ := List.any_eq_true.mp hstrayed
  obtain ⟨hp, hstrayed⟩ := (Bool.and_eq_true _ _).mp hstrayed
  obtain ⟨q, hq, hne⟩ := (Option.any_eq_true _ _).mp hstrayed
  obtain ⟨i, htab⟩ := List.getElem?_of_mem hmem
  obtain ⟨q', hq', hnumber⟩ := (h _ sys hsys 0 s i tab 4 hw htab (of_decide_eq_true hp)).splitter
  rw [hq, Option.some.injEq] at hq'
  subst hq'
  exact of_decide_eq_true hne hnumber

end System

end LvdTerm.App.Panes
