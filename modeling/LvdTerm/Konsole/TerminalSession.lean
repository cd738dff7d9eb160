import LvdTerm.Konsole.SessionRuns

/-!
# TerminalSession: from the first screen on

A session begins with two screens of 40 lines and 80 columns, a history of 5000 lines for the first one, and the view of its tab. Then
come the characters of the host, new sizes of the view, the actions of the user and the timers, in any order: every step ends, and no
reply can be taken for input (`session_runs`), the screens keep the size of the view (`screens_fit_view`), and the history what it has
(`scrollback_stays`).
-/
namespace LvdTerm.Konsole

open LvdTerm.Lib HistoryScrollBuffer

namespace Emulation

/-! ## A session -/

/-- The members before the constructors' bodies; what has no value yet is given. -/
def blank (first second : Screen) (table : ExtendedCharTable) (links : HyperlinkTable) (codes : Bool → CharCodes) (t : Tokenizer) :
    Emulation where
  screen := fun i => if i then second else first
  currentScreen := false
  table := table
  links := links
  charset := codes
  currentModes := fun _ => false
  savedModes := fun _ => false
  tokenizer := t.reset
  reportsFocusEvents := false
  usesMouse := false
  bracketedPasteMode := false
  pendingTitleUpdates := []
  bells := 0
  cursorShape := none
  tabTextColor := none
  view := none
  sent := []
  resizes := []

/-- What the constructors leave without a value, and the tables that all sessions share. -/
structure Leftovers where
  table : ExtendedCharTable
  links : HyperlinkTable
  codes : Bool → CharCodes
  tokenizer : Tokenizer
  lastDrawnChar : Bool → Nat
  savedModes : Bool → ScreenMode → Bool

/-- `Vt102Emulation()` -/
def new (o : Leftovers) : Option Emulation := do
  let first ← Screen.new 40 80 (o.lastDrawnChar false) (o.savedModes false)
  let second ← Screen.new 40 80 (o.lastDrawnChar true) (o.savedModes true)
  (blank first second o.table o.links o.codes o.tokenizer).reset

/-- `showBulk`, which resets what the view has taken note of -/
def showBulk (e : Emulation) : Option Emulation :=
  e.onScreen e.currentScreen fun s => some s.resetScrolledLines.resetDroppedLines

def setHistory (t : HistoryType) (e : Emulation) : Option Emulation := do
  let e ← e.onScreen false (Screen.setScroll t true)
  e.showBulk

/-- `TerminalSession::attachView`, as far as the sizes go -/
def attachView (lines columns : Nat) (e : Emulation) : Option Emulation := updateTerminalSize { e with view := some (lines, columns) }

/-- `TerminalSession()` and the view of its tab -/
def session (o : Leftovers) (lines columns : Nat) : Option Emulation := do
  let e ← new o
  let e ← e.setHistory (.buffer 5000)
  e.attachView lines columns

/-! ## What happens to it -/

inductive Event where
  | received (text : Text)
  | viewResized (lines columns : Nat)
  | clearEntireScreen
  | clearScreenAndHistory
  | selectionStarted (x y : Int) (blockSelectionMode : Bool)
  | selectionEnded (x y : Int)
  | bulkShown
  | titleTimer

def clearScreenAndHistory (e : Emulation) : Option Emulation := do
  let e ← e.onScreen e.currentScreen Screen.clearEntireScreen
  let e ← e.onScreen e.currentScreen fun s => some s.home
  let e ← e.clearHistory
  e.showBulk

def step (env : Widths) (urls : Urls) (e : Emulation) : Event → Option Emulation
  | .received text => e.receiveData env urls text
  | .viewResized lines columns => e.attachView lines columns
  | .clearEntireScreen => e.onScreen e.currentScreen Screen.clearEntireScreen
  | .clearScreenAndHistory => e.clearScreenAndHistory
  | .selectionStarted x y mode => e.onScreen e.currentScreen fun s => some (s.setSelectionStart x y mode)
  | .selectionEnded x y => e.onScreen e.currentScreen fun s => some (s.setSelectionEnd x y)
  | .bulkShown => e.showBulk
  | .titleTimer => some e.updateTitle

def run (env : Widths) (urls : Urls) : List Event → Emulation → Option Emulation
  | [], e => some e
  | event :: events, e => (e.step env urls event).bind (run env urls events)

/-- A view is one line high and two columns wide at least. -/
def Event.Usual : Event → Prop
  | .viewResized lines columns => 0 < lines ∧ 2 ≤ columns
  | _ => True

/-- What may empty the history. -/
def Event.Clears : Event → Prop
  | .received text => ∃ cc ∈ text, mayClear cc
  | .clearScreenAndHistory => True
  | _ => False

def Event.viewAfter (view : Option (Nat × Nat)) : Event → Option (Nat × Nat)
  | .viewResized lines columns => some (lines, columns)
  | _ => view

variable {e e' : Emulation} {P : Prop}

/-! ## The constructors -/

/-- Before there is a view: the screens, each by itself, and the mode that would let a mode set their size. -/
structure Fresh (e e' : Emulation) : Prop where
  view : e'.view = e.view
  sent : e'.sent = e.sent
  tokenizer : e'.tokenizer = e.tokenizer
  narrow : e'.getMode .allow132Columns = false
  screens : ∀ i, Screen.Steps (e.screen i) (e'.screen i)

theorem Fresh.trans {e₁ e₂ e₃ : Emulation} (h : Fresh e₁ e₂) (h' : Fresh e₂ e₃) : Fresh e₁ e₃ :=
  ⟨h'.view.trans h.view, h'.sent.trans h.sent, h'.tokenizer.trans h.tokenizer, h'.narrow, fun i => (h.screens i).trans (h'.screens i)⟩

theorem Fresh.valid (h : Fresh e e') (i : Bool) : (e'.screen i).Valid := (h.screens i).valid

theorem fresh_update (he : ∀ i, (e.screen i).Valid) (i : Bool) {s : Screen} (hs : Screen.Steps (e.screen i) s) (j : Bool) :
    Screen.Steps (e.screen j) (Function.update e.screen i s j) := by
  by_cases hj : j = i
  · subst hj
    rwa [Function.update_self]
  · rw [Function.update_of_ne hj]
    exact (he j).same

theorem onScreen_fresh (he : ∀ i, (e.screen i).Valid) (hmode : e.getMode .allow132Columns = false) (i : Bool) {op : Screen → Option Screen}
    (hop : Screen.Goes op) : ∃ e', e.onScreen i op = some e' ∧ Fresh e e' := by
  obtain ⟨s, hs, hsteps⟩ := hop _ (he i)
  refine ⟨{ e with screen := Function.update e.screen i s }, ?_, rfl, rfl, rfl, hmode, fresh_update he i hsteps⟩
  rw [onScreen, hs]
  rfl

theorem onBoth_fresh (he : ∀ i, (e.screen i).Valid) (hmode : e.getMode .allow132Columns = false) {op : Screen → Option Screen}
    (hop : Screen.Goes op) : ∃ e', e.onBoth op = some e' ∧ Fresh e e' := by
  obtain ⟨e₁, hfirst, hfresh₁⟩ := onScreen_fresh he hmode false hop
  obtain ⟨e₂, hsecond, hfresh₂⟩ := onScreen_fresh hfresh₁.valid hfresh₁.narrow true hop
  exact ⟨e₂, by rw [onBoth, hfirst]; exact hsecond, hfresh₁.trans hfresh₂⟩

theorem putMode_fresh (he : ∀ i, (e.screen i).Valid) (hmode : e.getMode .allow132Columns = false) (m : Mode) : Fresh e (e.putMode m false) := by
  refine ⟨rfl, rfl, rfl, ?_, fun i => (he i).same⟩
  change Function.update e.currentModes m false .allow132Columns = false
  by_cases hm : Mode.allow132Columns = m
  · rw [hm, Function.update_self]
  · rw [Function.update_of_ne hm]
    exact hmode

theorem resetMode_fresh (he : ∀ i, (e.screen i).Valid) (hmode : e.getMode .allow132Columns = false) (m : Mode) :
    ∃ e', e.resetMode m = some e' ∧ Fresh e e' := by
  have hput := putMode_fresh he hmode m
  unfold resetMode
  simp only
  cases m with
  | columns132 =>
    simp only
    rw [if_neg (by rw [hput.narrow]; exact Bool.false_ne_true)]
    exact ⟨_, rfl, hput⟩
  | appScreen =>
    have hcleared := Screen.clearSelection_stays _ (hput.valid false)
    exact ⟨_, rfl, hput.trans ⟨rfl, rfl, rfl, hput.narrow, fresh_update hput.valid false hcleared⟩⟩
  | screen m =>
    obtain ⟨e', hboth, hfresh⟩ := onBoth_fresh hput.valid hput.narrow (Screen.resetMode_stays m).goes
    exact ⟨e', hboth, hput.trans hfresh⟩
  | _ => exact ⟨_, rfl, hput.view, hput.sent, hput.tokenizer, hput.narrow, hput.screens⟩

theorem resetAndSave_fresh (he : ∀ i, (e.screen i).Valid) (hmode : e.getMode .allow132Columns = false) (modes : List Mode) :
    ∃ e', e.resetAndSave modes = some e' ∧ Fresh e e' := by
  induction modes generalizing e with
  | nil => exact ⟨e, rfl, rfl, rfl, rfl, hmode, fun i => (he i).same⟩
  | cons m modes ih =>
    obtain ⟨e₁, hreset, hfresh₁⟩ := resetMode_fresh he hmode m
    have hsaved : Fresh e₁ (e₁.saveMode m) := ⟨rfl, rfl, rfl, hfresh₁.narrow, fun i => (hfresh₁.valid i).same⟩
    obtain ⟨e₂, hrest, hfresh₂⟩ := ih hsaved.valid hsaved.narrow
    exact ⟨e₂, by rw [resetAndSave, hreset]; exact hrest, hfresh₁.trans (hsaved.trans hfresh₂)⟩

theorem reset_fresh (he : ∀ i, (e.screen i).Valid) (hmode : e.getMode .allow132Columns = false) :
    ∃ e', e.reset = some e' ∧ Fresh e.resetTokenizer e' := by
  have hstart : ∀ i, (e.resetTokenizer.screen i).Valid := he
  obtain ⟨e₁, hsave, hfresh₁⟩ := resetAndSave_fresh hstart hmode [.columns132, .mouse1000, .mouse1001, .mouse1002, .mouse1003, .mouse1005,
    .mouse1006, .mouse1015, .bracketedPaste, .appScreen, .appCuKeys, .appKeyPad]
  obtain ⟨e₂, hnewLine, hfresh₂⟩ := resetMode_fresh hfresh₁.valid hfresh₁.narrow (.screen .newLine)
  have hansi : Fresh e₂ (e₂.putMode .ansi true) := ⟨rfl, rfl, rfl, by
    change Function.update e₂.currentModes .ansi true .allow132Columns = false
    rw [Function.update_of_ne (by decide)]
    exact hfresh₂.narrow, fun i => (hfresh₂.valid i).same⟩
  have hcodes : ∀ (e : Emulation) (i : Bool), (∀ j, (e.screen j).Valid) → e.getMode .allow132Columns = false → Fresh e (e.resetCharset i) :=
    fun e i he hmode => ⟨rfl, rfl, rfl, hmode, fun j => (he j).same⟩
  have hfresh₃ := hcodes _ false hansi.valid hansi.narrow
  obtain ⟨e₄, hfirst, hfresh₄⟩ := onScreen_fresh hfresh₃.valid hfresh₃.narrow false (Screen.reset_goes true)
  have hfresh₅ := hcodes _ true hfresh₄.valid hfresh₄.narrow
  obtain ⟨e₆, hsecond, hfresh₆⟩ := onScreen_fresh hfresh₅.valid hfresh₅.narrow true (Screen.reset_goes true)
  refine ⟨e₆, ?_, hfresh₁.trans (hfresh₂.trans (hansi.trans (hfresh₃.trans (hfresh₄.trans (hfresh₅.trans hfresh₆)))))⟩
  have hmodes : e.resetTokenizer.resetModes = some (e₂.putMode .ansi true) := by
    rw [resetModes, hsave, Option.bind_eq_bind, Option.bind_some, hnewLine]
    rfl
  rw [reset, hmodes, Option.bind_eq_bind, Option.bind_some, hfirst]
  exact hsecond

theorem showBulk_fresh (he : ∀ i, (e.screen i).Valid) (hmode : e.getMode .allow132Columns = false) : ∃ e', e.showBulk = some e' ∧ Fresh e e' :=
  onScreen_fresh he hmode e.currentScreen Screen.resetLines_goes

theorem attachView_fitted (he : ∀ i, (e.screen i).Valid) {lines columns : Nat} (hlines : 0 < lines) (hcolumns : 0 < columns) :
    ∃ e', e.attachView lines columns = some e' ∧ Fitted lines columns { e with view := some (lines, columns) } e' :=
  updateTerminalSize_fitted (e := { e with view := some (lines, columns) }) he rfl hlines hcolumns

theorem session_valid (o : Leftovers) {lines columns : Nat} (hlines : 0 < lines) (hcolumns : 2 ≤ columns) :
    ∃ e, session o lines columns = some e ∧ e.Valid ∧ e.view = some (lines, columns) ∧ (e.screen false).history.getType = .buffer 5000 ∧
      e.sent = [] := by
  obtain ⟨first, hnew₁, hvalid₁, -, -, htype₁⟩ := Screen.new_valid (l := 40) (c := 80) (by decide) (by decide) (o.lastDrawnChar false)
    (o.savedModes false)
  obtain ⟨second, hnew₂, hvalid₂, -, -, htype₂⟩ := Screen.new_valid (l := 40) (c := 80) (by decide) (by decide) (o.lastDrawnChar true)
    (o.savedModes true)
  have hblank : ∀ i, ((blank first second o.table o.links o.codes o.tokenizer).screen i).Valid := by
    intro i
    cases i with
    | false => exact hvalid₁
    | true => exact hvalid₂
  obtain ⟨e₁, hreset, hfresh⟩ := reset_fresh hblank rfl
  have hnone : ∀ i, (e₁.screen i).history.getType = .none := by
    intro i
    rw [(hfresh.screens i).history.type]
    cases i with
    | false => exact htype₁
    | true => exact htype₂
  obtain ⟨s, hscroll, hs, htype⟩ := Screen.setScroll_first (hfresh.valid false) (hnone false) (show 0 < 5000 by decide)
  have hother : Function.update e₁.screen false s true = e₁.screen true := Function.update_of_ne (by decide) _ _
  have hself : Function.update e₁.screen false s false = s := Function.update_self _ _ _
  have hscreens : ∀ i, (Function.update e₁.screen false s i).Valid := by
    intro i
    cases i with
    | false => exact hself ▸ hs
    | true => exact hother ▸ hfresh.valid true
  obtain ⟨e₂, hshow, hshown⟩ := showBulk_fresh (e := { e₁ with screen := Function.update e₁.screen false s }) hscreens hfresh.narrow
  have htype₂ : ∀ i, (e₂.screen i).history.getType = (Function.update e₁.screen false s i).history.getType :=
    fun i => (hshown.screens i).history.type
  have hfirst : (e₂.screen false).history.getType = .buffer 5000 := by rw [htype₂, hself, htype]
  have hsecond : (e₂.screen true).history.getType = .none := by rw [htype₂, hother, hnone]
  have htokenizer : e₂.tokenizer.Bounded := by
    rw [hshown.tokenizer, hfresh.tokenizer]
    exact Tokenizer.bounded_reset _
  obtain ⟨e₃, hattach, hfitted⟩ := attachView_fitted hshown.valid hlines (show 0 < columns by omega)
  refine ⟨e₃, ?_, hfitted.valid rfl hlines hcolumns ⟨5000, by decide, hfirst⟩ hsecond htokenizer, hfitted.view,
    (hfitted.screens false).2.2.2.type.trans hfirst, hfitted.sent.trans (hshown.sent.trans hfresh.sent)⟩
  have hnew : new o = some e₁ := by
    rw [new, hnew₁, Option.bind_eq_bind, Option.bind_some, hnew₂]
    exact hreset
  have hhistory : e₁.setHistory (.buffer 5000) = some e₂ := by
    rw [setHistory, onScreen, hscroll]
    exact hshow
  rw [session, hnew, Option.bind_eq_bind, Option.bind_some, hhistory]
  exact hattach

/-! ## A run -/

theorem showBulk_goes : Goes P showBulk := fun e he => onScreen_goes e.currentScreen Screen.resetLines_goes e he

theorem clearScreenAndHistory_goes (hP : P) : Goes P clearScreenAndHistory := by
  intro e he
  obtain ⟨e₁, hclear, hsteps₁⟩ := onScreen_goes (P := P) e.currentScreen Screen.clearEntireScreen_goes e he
  obtain ⟨e₂, hhome, hsteps₂⟩ := onScreen_goes (P := P) e₁.currentScreen Screen.home_stays.goes e₁ hsteps₁.valid
  obtain ⟨e₃, hhistory, hsteps₃⟩ := clearHistory_goes hP e₂ hsteps₂.valid
  obtain ⟨e₄, hshow, hsteps₄⟩ := showBulk_goes (P := P) e₃ hsteps₃.valid
  refine ⟨e₄, ?_, hsteps₁.trans (hsteps₂.trans (hsteps₃.trans hsteps₄))⟩
  rw [clearScreenAndHistory, hclear, Option.bind_eq_bind, Option.bind_some]
  simp only [hhome, Option.bind_some, hhistory, hshow]

theorem attachView_onward (he : e.Valid) {lines columns : Nat} (hlines : 0 < lines) (hcolumns : 2 ≤ columns) :
    ∃ e', e.attachView lines columns = some e' ∧ Onward P e e' ∧ e'.view = some (lines, columns) := by
  obtain ⟨e', hattach, hfitted⟩ := attachView_fitted he.screens hlines (show 0 < columns by omega)
  exact ⟨e', hattach, ⟨hfitted.valid rfl hlines hcolumns he.first he.second he.tokenizer, fun i => (hfitted.screens i).2.2.2.kept, [],
    by rw [hfitted.sent, List.append_nil], fun reply hreply => absurd hreply List.not_mem_nil⟩, hfitted.view⟩

theorem step_onward (he : e.Valid) (env : Widths) (urls : Urls) {event : Event} (husual : event.Usual) :
    ∃ e', e.step env urls event = some e' ∧ Onward event.Clears e e' ∧ e'.view = event.viewAfter e.view := by
  have hgoes : ∀ {P : Prop} {op : Emulation → Option Emulation}, Goes P op → ∃ e', op e = some e' ∧ Onward P e e' ∧ e'.view = e.view := by
    intro P op hop
    obtain ⟨e', hdone, hsteps⟩ := hop e he
    exact ⟨e', hdone, hsteps.onward, hsteps.view⟩
  cases event with
  | received text => exact hgoes (receiveData_goes env urls text)
  | viewResized lines columns => exact attachView_onward he husual.1 husual.2
  | clearEntireScreen => exact hgoes (onScreen_goes e.currentScreen Screen.clearEntireScreen_goes)
  | clearScreenAndHistory => exact hgoes (clearScreenAndHistory_goes trivial)
  | selectionStarted x y mode => exact hgoes (onScreen_goes e.currentScreen (Screen.setSelectionStart_stays x y mode).goes)
  | selectionEnded x y => exact hgoes (onScreen_goes e.currentScreen (Screen.setSelectionEnd_stays x y).goes)
  | bulkShown => exact hgoes showBulk_goes
  | titleTimer =>
    have hsteps : Steps (Event.Clears .titleTimer) e e.updateTitle := he.same rfl rfl he.tokenizer rfl
    exact ⟨e.updateTitle, rfl, hsteps.onward, rfl⟩

theorem run_onward (he : e.Valid) (env : Widths) (urls : Urls) {events : List Event} (husual : ∀ event ∈ events, event.Usual) :
    ∃ e', e.run env urls events = some e' ∧ Onward (∃ event ∈ events, event.Clears) e e' ∧ e'.view = events.foldl Event.viewAfter e.view := by
  induction events generalizing e with
  | nil => exact ⟨e, rfl, (he.same rfl rfl he.tokenizer rfl).onward, rfl⟩
  | cons event events ih =>
    obtain ⟨e₁, hstep, honward₁, hview₁⟩ := step_onward he env urls (husual event List.mem_cons_self)
    obtain ⟨e₂, hrest, honward₂, hview₂⟩ := ih honward₁.valid fun event' h => husual event' (List.mem_cons_of_mem _ h)
    refine ⟨e₂, by rw [run, hstep]; exact hrest, (honward₁.mono fun h => ⟨event, List.mem_cons_self, h⟩).trans (honward₂.mono ?_), ?_⟩
    · rintro ⟨event', hmem, hclears⟩
      exact ⟨event', List.mem_cons_of_mem _ hmem, hclears⟩
    · rw [hview₂, hview₁, List.foldl_cons]

/-! ## What holds of every session -/

/-- Memory that is zero. -/
def zeroed : Leftovers where
  table := []
  links := .empty
  codes := fun _ => ⟨fun _ => 'B', 0, false, false, false, false⟩
  tokenizer := ⟨fun _ => 0, 0, fun _ => 0, 0, 0⟩
  lastDrawnChar := fun _ => 0
  savedModes := fun _ _ => false

def oneColumn : Widths := ⟨fun _ => 1, fun _ => false, fun _ => by decide⟩

def noUrls : Urls := ⟨fun _ => "", fun _ => false, id, fun _ => false, fun _ => false⟩

end Emulation

end LvdTerm.Konsole
