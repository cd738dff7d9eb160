import LvdTerm.Konsole.ReceiveChar
import LvdTerm.Konsole.ScreenEdits

/-!
# Vt102Emulation: what every command keeps

Both screens are as `Screen.Valid` has it and have the size of the view after each command, whatever size the command asked for. To the
history of the first screen lines are only added, unless the command empties it; the second one has none. What is sent to the host is
one of the reports.
-/
namespace LvdTerm.Konsole

open LvdTerm.Lib HistoryScrollBuffer

/-! ## The history over several commands -/

/-- The rows are added to, after they were all dropped where that is allowed. -/
structure Kept (mayClear : Prop) (history history' : HistoryScroll) : Prop where
  type : history'.getType = history.getType
  rows : ∃ (cleared : Bool) (more : List Row), (cleared = true → mayClear) ∧
    ∀ rows, history.Holds rows → history'.Holds (history.getType.keep ((if cleared then [] else rows) ++ more))

variable {P Q : Prop}

theorem Grown.kept {h₁ h₂ : HistoryScroll} (h : Grown h₁ h₂) : Kept P h₁ h₂ := by
  obtain ⟨more, hmore⟩ := h.rows
  exact ⟨h.type, false, more, fun hcleared => absurd hcleared Bool.false_ne_true, hmore⟩

theorem Kept.refl (history : HistoryScroll) : Kept P history history := (Grown.refl history).kept

theorem Kept.trans {h₁ h₂ h₃ : HistoryScroll} (h : Kept P h₁ h₂) (h' : Kept P h₂ h₃) : Kept P h₁ h₃ := by
  obtain ⟨cleared, more, hallowed, hmore⟩ := h.rows
  obtain ⟨cleared', more', hallowed', hmore'⟩ := h'.rows
  refine ⟨h'.type.trans h.type, cleared || cleared', if cleared' then more' else more ++ more', fun hcleared => ?_, fun rows hrows => ?_⟩
  · rcases Bool.or_eq_true_iff.mp hcleared with hfirst | hsecond
    · exact hallowed hfirst
    · exact hallowed' hsecond
  · have hall := hmore' _ (hmore rows hrows)
    rw [h.type] at hall
    cases cleared' with
    | true => simpa using hall
    | false =>
      simp only [Bool.false_eq_true, if_false, Bool.or_false, HistoryType.keep_keep_append, List.append_assoc] at hall ⊢
      exact hall

theorem Kept.mono {h₁ h₂ : HistoryScroll} (h : Kept P h₁ h₂) (himp : P → Q) : Kept Q h₁ h₂ := by
  obtain ⟨cleared, more, hallowed, hmore⟩ := h.rows
  exact ⟨h.type, cleared, more, fun hcleared => himp (hallowed hcleared), hmore⟩

/-- Where nothing allows it the rows are not dropped. -/
theorem Kept.grown {h₁ h₂ : HistoryScroll} (h : Kept P h₁ h₂) (hnot : ¬ P) : Grown h₁ h₂ := by
  obtain ⟨cleared, more, hallowed, hmore⟩ := h.rows
  cases cleared with
  | true => exact absurd (hallowed rfl) hnot
  | false => exact ⟨h.type, more, hmore⟩

/-! ## Harmless replies -/

/-- A report is made of these: none of them ends a line. -/
def harmlessChar (c : Char) : Bool := c = '\x1b' ∨ c.isDigit ∨ c ∈ ['[', '/', '?', '>', ';', '$', 'c', 'n', 'R', 'x', 'y', 'Z']

def Harmless (reply : String) : Prop := ∀ c ∈ reply.toList, harmlessChar c = true

theorem harmless_append {a b : String} (ha : Harmless a) (hb : Harmless b) : Harmless (a ++ b) := by
  intro c hc
  rw [String.toList_append] at hc
  rcases List.mem_append.mp hc with h | h
  · exact ha c h
  · exact hb c h

theorem harmless_number (n : Nat) : Harmless (toString n) := by
  intro c hc
  rw [show toString n = n.repr from rfl, Nat.toList_repr] at hc
  have hdigit := Nat.isDigit_of_mem_toDigits (by decide) (by decide) hc
  simp [harmlessChar, hdigit]

theorem harmless_of {reply : String} (h : reply.toList.all harmlessChar = true) : Harmless reply := fun c hc => List.all_eq_true.mp h c hc

theorem report_harmless (e : Emulation) (r : Report) : Harmless (Emulation.Report.text e r) := by
  cases r with
  | answerBack => exact harmless_of rfl
  | terminalType =>
    simp only [Emulation.Report.text]
    split <;> exact harmless_of (by decide)
  | secondaryAttributes =>
    simp only [Emulation.Report.text]
    split <;> exact harmless_of (by decide)
  | status => exact harmless_of (show "\x1b[0n".toList.all harmlessChar = true by decide)
  | cursorPosition =>
    exact harmless_append (harmless_append (harmless_append (harmless_append (harmless_of (by decide)) (harmless_number _))
      (harmless_of (by decide))) (harmless_number _)) (harmless_of (by decide))
  | terminalParms p => exact harmless_append (harmless_append (harmless_of (by decide)) (harmless_number _)) (harmless_of (by decide))
  | ansiMode mode query =>
    exact harmless_append (harmless_append (harmless_append (harmless_append (harmless_of (by decide)) (harmless_number _))
      (harmless_of (by decide))) (harmless_number _)) (harmless_of (by decide))
  | decMode mode query =>
    exact harmless_append (harmless_append (harmless_append (harmless_append (harmless_of (by decide)) (harmless_number _))
      (harmless_of (by decide))) (harmless_number _)) (harmless_of (by decide))

/-! ## One screen -/

theorem ScreenOp.run_goes (op : ScreenOp) : Screen.Goes fun s => op.run s := by
  cases op with
  | backspace => exact Screen.backspace_goes
  | newLine => exact Screen.newLine_goes
  | toStartOfLine => exact Screen.toStartOfLine_stays.goes
  | index => exact Screen.index_goes
  | nextLine => exact Screen.nextLine_goes
  | reverseIndex => exact Screen.reverseIndex_goes
  | home => exact Screen.home_stays.goes
  | tab n => exact Screen.tab_goes n
  | backtab n => exact Screen.backtab_goes n
  | changeTabStop set => exact Screen.changeTabStop_goes set
  | clearTabStops => exact Screen.clearTabStops_goes
  | cursorUp n => exact (Screen.cursorUp_stays n).goes
  | cursorDown n => exact (Screen.cursorDown_stays n).goes
  | cursorRight n => exact (Screen.cursorRight_stays n).goes
  | cursorLeft n => exact (Screen.cursorLeft_stays n).goes
  | cursorNextLine n => exact (Screen.cursorNextLine_stays n).goes
  | cursorPreviousLine n => exact (Screen.cursorPreviousLine_stays n).goes
  | setCursorX x => exact (Screen.setCursorX_stays x).goes
  | setCursorY y => exact (Screen.setCursorY_stays y).goes
  | setCursorYX y x => exact (Screen.setCursorYX_stays y x).goes
  | saveCursor => exact Screen.saveCursor_stays.goes
  | restoreCursor => exact Screen.restoreCursor_stays.goes
  | scrollUp n => exact Screen.scrollUp_goes n
  | scrollDown n => exact Screen.scrollDown_goes n
  | insertLines n => exact Screen.insertLines_goes n
  | deleteLines n => exact Screen.deleteLines_goes n
  | insertChars n => exact Screen.insertChars_goes n
  | deleteChars n => exact Screen.deleteChars_goes n
  | eraseChars n => exact Screen.eraseChars_goes n
  | clearToEndOfLine => exact Screen.clearToEndOfLine_goes
  | clearToBeginOfLine => exact Screen.clearToBeginOfLine_goes
  | clearEntireLine => exact Screen.clearEntireLine_goes
  | clearToEndOfScreen => exact Screen.clearToEndOfScreen_goes
  | clearToBeginOfScreen => exact Screen.clearToBeginOfScreen_goes
  | clearEntireScreen => exact Screen.clearEntireScreen_goes
  | helpAlign => exact Screen.helpAlign_goes
  | setLineProperty property enable => exact Screen.setLineProperty_goes property enable
  | setMargins top bot => exact (Screen.setMargins_stays top bot).goes
  | setDefaultMargins => exact Screen.setDefaultMargins_stays.goes
  | setMode m => exact (Screen.setMode_stays m).goes
  | resetMode m => exact (Screen.resetMode_stays m).goes
  | saveMode m => exact (Screen.saveMode_stays m).goes
  | restoreMode m => exact (Screen.restoreMode_stays m).goes
  | setDefaultRendition => exact Screen.setDefaultRendition_stays.goes
  | setRendition re => exact (Screen.setRendition_stays re).goes
  | resetRendition re => exact (Screen.resetRendition_stays re).goes
  | setForeColor space color => exact (Screen.setForeColor_stays space color).goes
  | setBackColor space color => exact (Screen.setBackColor_stays space color).goes
  | clearCurrentHyperlink => exact Screen.clearCurrentHyperlink_stays.goes
  | clearSelection => exact Screen.clearSelection_stays.goes
  | reset => exact Screen.reset_goes true

/-! ## The emulation -/

namespace Tokenizer

/-- The places that are written are in the arrays. -/
structure Bounded (t : Tokenizer) : Prop where
  position : t.tokenBufferPos < MAX_TOKEN_LENGTH
  arguments : t.argc < MAXARGS

theorem bounded_reset (t : Tokenizer) : t.reset.Bounded := ⟨Nat.zero_lt_succ _, Nat.zero_lt_succ _⟩

end Tokenizer

namespace Emulation

variable {e e' : Emulation}

/-- With a view of two columns at least. -/
structure Valid (e : Emulation) : Prop where
  screens : ∀ i, (e.screen i).Valid
  size : ∃ lines columns, e.view = some (lines, columns) ∧ 0 < lines ∧ 2 ≤ columns ∧ e.hasSize lines columns
  first : ∃ n, 0 < n ∧ (e.screen false).history.getType = .buffer n
  second : (e.screen true).history.getType = .none
  tokenizer : e.tokenizer.Bounded

/-- What comes after; `P` is what may empty the history. -/
structure Onward (P : Prop) (e e' : Emulation) : Prop where
  valid : e'.Valid
  kept : ∀ i, Kept P (e.screen i).history (e'.screen i).history
  sent : ∃ more, e'.sent = e.sent ++ more ∧ ∀ reply ∈ more, Harmless reply

theorem Onward.trans {e₁ e₂ e₃ : Emulation} (h : Onward P e₁ e₂) (h' : Onward P e₂ e₃) : Onward P e₁ e₃ := by
  obtain ⟨more, hmore, hharmless⟩ := h.sent
  obtain ⟨more', hmore', hharmless'⟩ := h'.sent
  refine ⟨h'.valid, fun i => (h.kept i).trans (h'.kept i), more ++ more', ?_, fun reply hreply => ?_⟩
  · rw [hmore', hmore, List.append_assoc]
  · exact (List.mem_append.mp hreply).elim (hharmless reply) (hharmless' reply)

theorem Onward.mono (h : Onward P e e') (himp : P → Q) : Onward Q e e' := ⟨h.valid, fun i => (h.kept i).mono himp, h.sent⟩

/-- What a command does: the view stays as it is. -/
structure Steps (P : Prop) (e e' : Emulation) : Prop where
  valid : e'.Valid
  view : e'.view = e.view
  kept : ∀ i, Kept P (e.screen i).history (e'.screen i).history
  sent : ∃ more, e'.sent = e.sent ++ more ∧ ∀ reply ∈ more, Harmless reply

theorem Steps.onward (h : Steps P e e') : Onward P e e' := ⟨h.valid, h.kept, h.sent⟩

theorem Steps.trans {e₁ e₂ e₃ : Emulation} (h : Steps P e₁ e₂) (h' : Steps P e₂ e₃) : Steps P e₁ e₃ := by
  have hboth := h.onward.trans h'.onward
  exact ⟨hboth.valid, h'.view.trans h.view, hboth.kept, hboth.sent⟩

theorem Steps.mono (h : Steps P e e') (himp : P → Q) : Steps Q e e' := ⟨h.valid, h.view, fun i => (h.kept i).mono himp, h.sent⟩

def Goes (P : Prop) (op : Emulation → Option Emulation) : Prop := ∀ e, e.Valid → ∃ e', op e = some e' ∧ Steps P e e'

theorem Goes.bind {f g : Emulation → Option Emulation} (hf : Goes P f) (hg : Goes P g) : Goes P fun e => (f e).bind g := by
  intro e he
  obtain ⟨e₁, h₁, hsteps₁⟩ := hf e he
  obtain ⟨e₂, h₂, hsteps₂⟩ := hg e₁ hsteps₁.valid
  exact ⟨e₂, by simp only [h₁, Option.bind_some, h₂], hsteps₁.trans hsteps₂⟩

/-- Screens that were changed, each by itself, and nothing else that matters. -/
theorem Valid.rescreened (he : e.Valid) (hview : e'.view = e.view) (hsent : e'.sent = e.sent) (htokenizer : e'.tokenizer.Bounded)
    (hscreen : ∀ i, Screen.Steps (e.screen i) (e'.screen i)) : Steps P e e' := by
  obtain ⟨lines, columns, hsome, hlines, hcolumns, hsize⟩ := he.size
  obtain ⟨n, hn, hfirst⟩ := he.first
  refine ⟨⟨fun i => (hscreen i).valid, ⟨lines, columns, hview.trans hsome, hlines, hcolumns, fun i => ?_⟩, ⟨n, hn, ?_⟩, ?_, htokenizer⟩,
    hview, fun i => (hscreen i).history.kept, [], by rw [hsent, List.append_nil], fun reply hreply => absurd hreply List.not_mem_nil⟩
  · exact ⟨(hscreen i).lines.trans (hsize i).1, (hscreen i).columns.trans (hsize i).2⟩
  · rw [(hscreen false).history.type, hfirst]
  · rw [(hscreen true).history.type, he.second]

/-- Nothing changed that matters. -/
theorem Valid.same (he : e.Valid) (hview : e'.view = e.view) (hsent : e'.sent = e.sent) (htokenizer : e'.tokenizer.Bounded)
    (hscreen : e'.screen = e.screen) : Steps P e e' :=
  he.rescreened hview hsent htokenizer fun i => hscreen ▸ (he.screens i).same

theorem update_steps (he : e.Valid) (i : Bool) {s : Screen} (hs : Screen.Steps (e.screen i) s) (j : Bool) :
    Screen.Steps (e.screen j) (Function.update e.screen i s j) := by
  by_cases hj : j = i
  · subst hj
    rwa [Function.update_self]
  · rw [Function.update_of_ne hj]
    exact (he.screens j).same

theorem onScreen_goes (i : Bool) {op : Screen → Option Screen} (hop : Screen.Goes op) : Goes P (onScreen i op) := by
  intro e he
  obtain ⟨s, hs, hsteps⟩ := hop _ (he.screens i)
  refine ⟨{ e with screen := Function.update e.screen i s }, ?_, he.rescreened rfl rfl he.tokenizer (update_steps he i hsteps)⟩
  rw [onScreen, hs]
  rfl

theorem onBoth_goes {op : Screen → Option Screen} (hop : Screen.Goes op) : Goes P (onBoth op) :=
  (onScreen_goes false hop).bind (onScreen_goes true hop)

/-- Each screen by an operation that cannot fail. -/
theorem each_steps (he : e.Valid) {f : Screen → Screen} (hf : Screen.Stays f) : Steps P e { e with screen := fun i => f (e.screen i) } :=
  he.rescreened rfl rfl he.tokenizer fun i => hf _ (he.screens i)

theorem Valid.wide (he : e.Valid) (i : Bool) : 2 ≤ (e.screen i).columns := by
  obtain ⟨lines, columns, -, -, hcolumns, hsize⟩ := he.size
  rw [(hsize i).2]
  exact hcolumns

theorem displayCharacter_goes (env : Widths) (c : Nat) : Goes P (displayCharacter env c) := by
  intro e he
  obtain ⟨s, t, hdisplay, hsteps⟩ := Screen.displayCharacter_steps (he.screens e.currentScreen) (he.wide _) env c e.table
  refine ⟨{ e with screen := Function.update e.screen e.currentScreen s, table := t }, ?_,
    he.rescreened rfl rfl he.tokenizer (update_steps he _ hsteps)⟩
  rw [displayCharacter, hdisplay]
  rfl

theorem repeatChars_goes (env : Widths) (n : Nat) : Goes P (repeatChars env n) := by
  intro e he
  obtain ⟨s, t, hdisplay, hsteps⟩ := Screen.displayLast_steps (he.screens e.currentScreen) (he.wide _) env (Screen.orOne n) e.table
  refine ⟨{ e with screen := Function.update e.screen e.currentScreen s, table := t }, ?_,
    he.rescreened rfl rfl he.tokenizer (update_steps he _ hsteps)⟩
  rw [repeatChars, Screen.repeatChars, hdisplay]
  rfl

theorem clearHistory_goes (hP : P) : Goes P clearHistory := by
  intro e he
  obtain ⟨n, hn, hfirst⟩ := he.first
  obtain ⟨lines, columns, hsome, hlines, hcolumns, hsize⟩ := he.size
  have hnot : (e.screen false).history.getType ≠ .buffer 0 := by
    rw [hfirst]
    intro hzero
    cases hzero
    exact Nat.lt_irrefl _ hn
  obtain ⟨s, hscroll, hs, hsamelines, hsamecolumns, htype, hempty⟩ := Screen.setScroll_valid (he.screens false) hnot
  have hother : ∀ j, j ≠ false → Function.update e.screen false s j = e.screen j := fun j hj => Function.update_of_ne hj _ _
  have hself : Function.update e.screen false s false = s := Function.update_self _ _ _
  refine ⟨{ e with screen := Function.update e.screen false s }, by rw [clearHistory, onScreen, hscroll]; rfl, ⟨⟨fun j => ?_,
    ⟨lines, columns, hsome, hlines, hcolumns, fun j => ?_⟩, ⟨n, hn, ?_⟩, ?_, he.tokenizer⟩, rfl, fun j => ?_, [], (List.append_nil _).symm,
    fun reply hreply => absurd hreply List.not_mem_nil⟩⟩
  all_goals dsimp only
  · cases j with
    | false => rw [hself]; exact hs
    | true => rw [hother true (by decide)]; exact he.screens true
  · cases j with
    | false => rw [hself, hsamelines, hsamecolumns]; exact hsize false
    | true => rw [hother true (by decide)]; exact hsize true
  · rw [hself, htype, hfirst]
  · rw [hother true (by decide)]
    exact he.second
  · cases j with
    | false =>
      rw [hself]
      refine ⟨htype, true, [], fun _ => hP, fun rows _ => ?_⟩
      rw [hfirst]
      simpa [HistoryType.keep, Ring.keepLast] using hempty
    | true =>
      rw [hother true (by decide)]
      exact .refl _

/-! ## Sizes -/

/-- Both screens are given a size. -/
theorem resizeBoth (he : ∀ i, (e.screen i).Valid) {lines columns : Nat} (hlines : 0 < lines) (hcolumns : 0 < columns) :
    ∃ screen, e.onBoth (Screen.resizeImage lines columns) = some { e with screen := screen } ∧
      ∀ i, (screen i).Valid ∧ (screen i).lines = lines ∧ (screen i).columns = columns ∧ Grown (e.screen i).history (screen i).history := by
  obtain ⟨s, hs, hsvalid, hslines, hscolumns, hsgrown⟩ := Screen.resizeImage_valid (he false) hlines hcolumns
  obtain ⟨s', hs', hs'valid, hs'lines, hs'columns, hs'grown⟩ := Screen.resizeImage_valid (he true) hlines hcolumns
  have hsecond : Screen.resizeImage lines columns (Function.update e.screen false s true) = some s' := by
    rw [Function.update_of_ne (by decide)]
    exact hs'
  refine ⟨Function.update (Function.update e.screen false s) true s', ?_, fun i => ?_⟩
  · rw [onBoth, onScreen, hs]
    simp only [Option.map_some, Option.bind_some, onScreen, hsecond]
  · cases i with
    | false =>
      rw [Function.update_of_ne (by decide), Function.update_self]
      exact ⟨hsvalid, hslines, hscolumns, hsgrown⟩
    | true =>
      rw [Function.update_self]
      exact ⟨hs'valid, hs'lines, hs'columns, hs'grown⟩

theorem tellTransport_same (e : Emulation) : ∃ resizes, e.tellTransport = { e with resizes := resizes } := by
  unfold tellTransport
  split
  · exact ⟨_, rfl⟩
  · split <;> exact ⟨_, rfl⟩

/-- The screens as they are after a size was set: they have the one of the view. -/
structure Fitted (lines columns : Nat) (e e' : Emulation) : Prop where
  view : e'.view = e.view
  sent : e'.sent = e.sent
  tokenizer : e'.tokenizer = e.tokenizer
  screens : ∀ i, (e'.screen i).Valid ∧ (e'.screen i).lines = lines ∧ (e'.screen i).columns = columns ∧
    Grown (e.screen i).history (e'.screen i).history

theorem Fitted.told {lines columns : Nat} (h : Fitted lines columns e e') : Fitted lines columns e e'.tellTransport := by
  obtain ⟨resizes, htold⟩ := tellTransport_same e'
  rw [htold]
  exact ⟨h.view, h.sent, h.tokenizer, h.screens⟩

theorem setViewSize_fitted (he : ∀ i, (e.screen i).Valid) {lines columns : Nat} (hlines : 0 < lines) (hcolumns : 0 < columns) :
    ∃ e', e.setViewSize lines columns = some e' ∧ Fitted lines columns e e' := by
  unfold setViewSize
  split
  next hsize => exact ⟨e, rfl, rfl, rfl, rfl, fun i => ⟨he i, (hsize i).1, (hsize i).2, .refl _⟩⟩
  next =>
    obtain ⟨screen, hresize, hscreen⟩ := resizeBoth he hlines hcolumns
    have hfitted : Fitted lines columns e { e with screen := screen } := ⟨rfl, rfl, rfl, hscreen⟩
    exact ⟨_, by rw [hresize]; rfl, hfitted.told⟩

theorem updateTerminalSize_fitted (he : ∀ i, (e.screen i).Valid) {lines columns : Nat} (hview : e.view = some (lines, columns))
    (hlines : 0 < lines) (hcolumns : 0 < columns) : ∃ e', e.updateTerminalSize = some e' ∧ Fitted lines columns e e' := by
  obtain ⟨e', hset, hfitted⟩ := setViewSize_fitted he hlines hcolumns
  refine ⟨e'.tellTransport, ?_, hfitted.told⟩
  rw [updateTerminalSize, hview]
  simp only
  rw [if_neg (by omega), hset]
  rfl

theorem Fitted.valid {lines columns : Nat} (h : Fitted lines columns e e') (hview : e.view = some (lines, columns)) (hlines : 0 < lines)
    (hcolumns : 2 ≤ columns) (hfirst : ∃ n, 0 < n ∧ (e.screen false).history.getType = .buffer n)
    (hsecond : (e.screen true).history.getType = .none) (htokenizer : e.tokenizer.Bounded) : e'.Valid where
  screens i := (h.screens i).1
  size := ⟨lines, columns, h.view.trans hview, hlines, hcolumns, fun i => ⟨(h.screens i).2.1, (h.screens i).2.2.1⟩⟩
  first := by rwa [(h.screens false).2.2.2.type]
  second := by rwa [(h.screens true).2.2.2.type]
  tokenizer := by rwa [h.tokenizer]

theorem Valid.fitted (he : e.Valid) {lines columns : Nat} (hview : e.view = some (lines, columns)) (hlines : 0 < lines) (hcolumns : 2 ≤ columns)
    (h : Fitted lines columns e e') : Steps P e e' :=
  ⟨h.valid hview hlines hcolumns he.first he.second he.tokenizer, h.view, fun i => (h.screens i).2.2.2.kept, [],
    by rw [h.sent, List.append_nil], fun reply hreply => absurd hreply List.not_mem_nil⟩

/-- The host asks for a size, and the screens get that of the view again. -/
theorem setImageSize_goes (lines columns : Nat) : Goes P (setImageSize lines columns) := by
  intro e he
  obtain ⟨viewLines, viewColumns, hview, hlines, hcolumns, hsize⟩ := he.size
  unfold setImageSize
  split
  next => exact ⟨e, rfl, he.same rfl rfl he.tokenizer rfl⟩
  next hother =>
    obtain ⟨screen, hresize, hscreen⟩ := resizeBoth he.screens (show 0 < lines by omega) (show 0 < columns by omega)
    obtain ⟨e', hupdate, hfitted⟩ := updateTerminalSize_fitted (e := { e with screen := screen }) (fun i => (hscreen i).1) hview hlines
      (by omega)
    have hall : Fitted viewLines viewColumns e e' := ⟨hfitted.view, hfitted.sent, hfitted.tokenizer, fun i =>
      ⟨(hfitted.screens i).1, (hfitted.screens i).2.1, (hfitted.screens i).2.2.1, (hscreen i).2.2.2.trans (hfitted.screens i).2.2.2⟩⟩
    exact ⟨e', by rw [hresize]; exact hupdate, he.fitted hview hlines hcolumns hall⟩

theorem clearScreenAndSetColumns_goes (columnCount : Nat) : Goes P (clearScreenAndSetColumns columnCount) := by
  intro e he
  obtain ⟨e₁, hsize, hsteps₁⟩ := setImageSize_goes (P := P) (e.screen e.currentScreen).lines columnCount e he
  obtain ⟨e₂, hclear, hsteps₂⟩ := onScreen_goes (P := P) e₁.currentScreen Screen.clearEntireScreen_goes e₁ hsteps₁.valid
  have hsteps₃ : Steps P e₂ e₂.setDefaultMargins := each_steps hsteps₂.valid Screen.setDefaultMargins_stays
  obtain ⟨e₄, hcursor, hsteps₄⟩ := onScreen_goes (P := P) e₂.setDefaultMargins.currentScreen (Screen.setCursorYX_stays 0 0).goes _ hsteps₃.valid
  refine ⟨e₄, ?_, hsteps₁.trans (hsteps₂.trans (hsteps₃.trans hsteps₄))⟩
  rw [clearScreenAndSetColumns, hsize, Option.bind_eq_bind, Option.bind_some, hclear]
  exact hcursor

/-! ## Modes -/

theorem putMode_steps (he : e.Valid) (m : Mode) (on : Bool) : Steps P e (e.putMode m on) := he.same rfl rfl he.tokenizer rfl

theorem setMode_goes (m : Mode) : Goes P (setMode m) := by
  intro e he
  have hput : Steps P e (e.putMode m true) := putMode_steps he m true
  unfold setMode
  simp only
  cases m with
  | columns132 =>
    simp only
    split
    · obtain ⟨e', hclear, hsteps⟩ := clearScreenAndSetColumns_goes (P := P) 132 _ hput.valid
      exact ⟨e', hclear, hput.trans hsteps⟩
    · exact ⟨_, rfl, hput.trans (putMode_steps hput.valid _ _)⟩
  | appScreen =>
    exact ⟨_, rfl, hput.trans (hput.valid.rescreened rfl rfl hput.valid.tokenizer
      (update_steps hput.valid true (Screen.clearSelection_stays _ (hput.valid.screens true))))⟩
  | screen m =>
    obtain ⟨e', hboth, hsteps⟩ := onBoth_goes (P := P) (Screen.setMode_stays m).goes _ hput.valid
    exact ⟨e', hboth, hput.trans hsteps⟩
  | _ => exact ⟨_, rfl, he.same rfl rfl he.tokenizer rfl⟩

theorem resetMode_goes (m : Mode) : Goes P (resetMode m) := by
  intro e he
  have hput : Steps P e (e.putMode m false) := putMode_steps he m false
  unfold resetMode
  simp only
  cases m with
  | columns132 =>
    simp only
    split
    · obtain ⟨e', hclear, hsteps⟩ := clearScreenAndSetColumns_goes (P := P) 80 _ hput.valid
      exact ⟨e', hclear, hput.trans hsteps⟩
    · exact ⟨_, rfl, hput⟩
  | appScreen =>
    exact ⟨_, rfl, hput.trans (hput.valid.rescreened rfl rfl hput.valid.tokenizer
      (update_steps hput.valid false (Screen.clearSelection_stays _ (hput.valid.screens false))))⟩
  | screen m =>
    obtain ⟨e', hboth, hsteps⟩ := onBoth_goes (P := P) (Screen.resetMode_stays m).goes _ hput.valid
    exact ⟨e', hboth, hput.trans hsteps⟩
  | _ => exact ⟨_, rfl, he.same rfl rfl he.tokenizer rfl⟩

theorem saveMode_steps (he : e.Valid) (m : Mode) : Steps P e (e.saveMode m) := he.same rfl rfl he.tokenizer rfl

theorem restoreMode_goes (m : Mode) : Goes P (restoreMode m) := by
  intro e he
  unfold restoreMode
  split
  · exact setMode_goes m e he
  · exact resetMode_goes m e he

theorem resetAndSave_goes (modes : List Mode) : Goes P (resetAndSave modes) := by
  induction modes with
  | nil => exact fun e he => ⟨e, rfl, he.same rfl rfl he.tokenizer rfl⟩
  | cons m modes ih =>
    intro e he
    obtain ⟨e₁, hreset, hsteps₁⟩ := resetMode_goes (P := P) m e he
    have hsteps₂ : Steps P e₁ (e₁.saveMode m) := saveMode_steps hsteps₁.valid m
    obtain ⟨e₃, hrest, hsteps₃⟩ := ih _ hsteps₂.valid
    exact ⟨e₃, by rw [resetAndSave, hreset]; exact hrest, hsteps₁.trans (hsteps₂.trans hsteps₃)⟩

theorem resetModes_goes : Goes P resetModes := (resetAndSave_goes _).bind ((resetMode_goes _).bind (setMode_goes _))

theorem resetTokenizer_steps (he : e.Valid) : Steps P e e.resetTokenizer := he.same rfl rfl (Tokenizer.bounded_reset _) rfl

theorem reset_goes : Goes P reset := by
  intro e he
  have hsteps₁ : Steps P e e.resetTokenizer := resetTokenizer_steps he
  obtain ⟨e₂, hmodes, hsteps₂⟩ := resetModes_goes (P := P) _ hsteps₁.valid
  have hsteps₃ : Steps P e₂ (e₂.resetCharset false) := hsteps₂.valid.same rfl rfl hsteps₂.valid.tokenizer rfl
  obtain ⟨e₄, hfirst, hsteps₄⟩ := onScreen_goes (P := P) false (Screen.reset_goes true) _ hsteps₃.valid
  have hsteps₅ : Steps P e₄ (e₄.resetCharset true) := hsteps₄.valid.same rfl rfl hsteps₄.valid.tokenizer rfl
  obtain ⟨e₆, hsecond, hsteps₆⟩ := onScreen_goes (P := P) true (Screen.reset_goes true) _ hsteps₅.valid
  refine ⟨e₆, ?_, hsteps₁.trans (hsteps₂.trans (hsteps₃.trans (hsteps₄.trans (hsteps₅.trans hsteps₆))))⟩
  rw [reset, hmodes, Option.bind_eq_bind, Option.bind_some, hfirst]
  exact hsecond

/-! ## Commands -/

theorem saveCursor_steps (he : e.Valid) : Steps P e e.saveCursor :=
  he.rescreened rfl rfl he.tokenizer (update_steps he _ (Screen.saveCursor_stays _ (he.screens _)))

theorem restoreCursor_steps (he : e.Valid) : Steps P e e.restoreCursor :=
  he.rescreened rfl rfl he.tokenizer (update_steps he _ (Screen.restoreCursor_stays _ (he.screens _)))

theorem sendString_steps (he : e.Valid) {reply : String} (hreply : Harmless reply) : Steps P e (e.sendString reply) := by
  refine ⟨⟨he.screens, he.size, he.first, he.second, he.tokenizer⟩, rfl, fun i => .refl _, [reply], rfl, fun reply' hreply' => ?_⟩
  rwa [List.mem_singleton.mp hreply']

theorem perform_goes (env : Widths) (c : Command) : Goes (c = .clearHistory) fun e => e.perform env c := by
  cases c with
  | current op => exact fun e he => onScreen_goes e.currentScreen (ScreenOp.run_goes op) e he
  | second op => exact onScreen_goes true (ScreenOp.run_goes op)
  | displayCharacter c => exact displayCharacter_goes env c
  | repeatChars n => exact repeatChars_goes env n
  | report r => exact fun e he => ⟨_, rfl, sendString_steps he (report_harmless e r)⟩
  | reset => exact reset_goes
  | saveCursor => exact fun e he => ⟨_, rfl, saveCursor_steps he⟩
  | restoreCursor => exact fun e he => ⟨_, rfl, restoreCursor_steps he⟩
  | setMode m => exact setMode_goes m
  | resetMode m => exact resetMode_goes m
  | restoreMode m => exact restoreMode_goes m
  | setImageSize lines columns => exact setImageSize_goes lines columns
  | clearHistory => exact clearHistory_goes rfl
  | setMargins t b => exact fun e he => ⟨_, rfl, each_steps he (Screen.setMargins_stays t b)⟩
  | clearHyperlinkPens => exact fun e he => ⟨_, rfl, each_steps he Screen.clearCurrentHyperlink_stays⟩
  | _ => exact fun e he => ⟨_, rfl, he.same rfl rfl he.tokenizer rfl⟩

theorem performAll_goes (env : Widths) (commands : List Command) : Goes (Command.clearHistory ∈ commands) (performAll env commands) := by
  induction commands with
  | nil => exact fun e he => ⟨e, rfl, he.same rfl rfl he.tokenizer rfl⟩
  | cons c commands ih =>
    intro e he
    obtain ⟨e₁, hperform, hsteps₁⟩ := perform_goes env c e he
    obtain ⟨e₂, hrest, hsteps₂⟩ := ih e₁ hsteps₁.valid
    refine ⟨e₂, by simp only [performAll, hperform, Option.bind_some, hrest], (hsteps₁.mono ?_).trans (hsteps₂.mono (List.mem_cons_of_mem _))⟩
    rintro rfl
    exact List.mem_cons_self

end Emulation

end LvdTerm.Konsole
