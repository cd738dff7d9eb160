import LvdTerm.Konsole.ScreenValid

/-!
# Screen: the operations one by one

Each operation goes through, on a screen as it is kept, and keeps it so; the size stays, and to the history lines are only added.
-/
namespace LvdTerm.Konsole

open LvdTerm.Lib HistoryScrollBuffer

/-! ## The history grows -/

/-- The rows that a history of this type has room for. -/
def HistoryType.keep : HistoryType → List Row → List Row
  | .none, _ => []
  | .buffer n, rows => Ring.keepLast n rows

theorem HistoryType.keep_keep_append (t : HistoryType) (rows more : List Row) : t.keep (t.keep rows ++ more) = t.keep (rows ++ more) := by
  cases t with
  | none => rfl
  | buffer n => exact Ring.keepLast_keepLast_append n rows more

theorem HistoryScroll.Holds.keep {history : HistoryScroll} {rows : List Row} (h : history.Holds rows) :
    history.getType.keep rows = rows := by
  cases history with
  | none => exact h.symm
  | buffer b =>
    have hfits := h.lines.fits
    rw [List.length_map] at hfits
    exact Ring.keepLast_of_le hfits

/-- To the rows of the one history more are added to get the other one's. -/
structure Grown (history history' : HistoryScroll) : Prop where
  type : history'.getType = history.getType
  rows : ∃ more, ∀ rows, history.Holds rows → history'.Holds (history.getType.keep (rows ++ more))

theorem Grown.refl (history : HistoryScroll) : Grown history history :=
  ⟨rfl, [], fun rows h => by rwa [List.append_nil, h.keep]⟩

theorem Grown.trans {h₁ h₂ h₃ : HistoryScroll} (h : Grown h₁ h₂) (h' : Grown h₂ h₃) : Grown h₁ h₃ := by
  obtain ⟨more, hmore⟩ := h.rows
  obtain ⟨more', hmore'⟩ := h'.rows
  refine ⟨h'.type.trans h.type, more ++ more', fun rows hrows => ?_⟩
  have hall := hmore' _ (hmore rows hrows)
  rwa [h.type, HistoryType.keep_keep_append, List.append_assoc] at hall

theorem Grown.of_eq {h₁ h₂ : HistoryScroll} (h : h₂ = h₁) : Grown h₁ h₂ := h ▸ .refl h₁

theorem Grown.holds {history history' : HistoryScroll} (h : Grown history history') (hkept : ∃ rows, history.Holds rows) :
    ∃ rows, history'.Holds rows := by
  obtain ⟨rows, hrows⟩ := hkept
  obtain ⟨more, hmore⟩ := h.rows
  exact ⟨_, hmore rows hrows⟩

namespace HistoryScroll

/-- A line and its flag are added. -/
def addRow (row : Row) (history : HistoryScroll) : Option HistoryScroll :=
  (history.addCellsVector row.1).bind (addLine row.2)

theorem addRow_holds {history : HistoryScroll} {rows : List Row} (h : history.Holds rows) (row : Row) :
    ∃ history', history.addRow row = some history' ∧ history'.getType = history.getType ∧
      history'.Holds (history.getType.keep (rows ++ [row])) := by
  cases history with
  | none => exact ⟨.none, rfl, rfl, rfl⟩
  | buffer b =>
    have hadd := Keeps.addRow h row
    have hkeeps := Keeps.pushed h row
    refine ⟨.buffer (b.pushed row), ?_, rfl, hkeeps⟩
    rw [HistoryScrollBuffer.addRow] at hadd
    rw [addRow, addCellsVector]
    cases hcells : b.addCellsVector row.1 with
    | none =>
      rw [hcells] at hadd
      cases hadd
    | some b₁ =>
      rw [hcells] at hadd
      rw [Option.map_some, Option.bind_some, addLine, show b₁.addLine row.2 = some (b.pushed row) from hadd]
      rfl

end HistoryScroll

namespace Screen

variable {s s' : Screen} {n : Nat}

/-! ## One operation after the other -/

/-- What an operation does that neither resizes the screen nor replaces the history. -/
structure Steps (s s' : Screen) : Prop where
  valid : s'.Valid
  lines : s'.lines = s.lines
  columns : s'.columns = s.columns
  history : Grown s.history s'.history

def Goes (op : Screen → Option Screen) : Prop := ∀ s, s.Valid → ∃ s', op s = some s' ∧ Steps s s'

theorem Steps.trans {s₁ s₂ s₃ : Screen} (h : Steps s₁ s₂) (h' : Steps s₂ s₃) : Steps s₁ s₃ :=
  ⟨h'.valid, h'.lines.trans h.lines, h'.columns.trans h.columns, h.history.trans h'.history⟩

theorem Valid.same (hs : s.Valid) : Steps s s := ⟨hs, rfl, rfl, .refl _⟩

theorem Valid.steps (hs : s.Valid) (h : Redrawn s s') (hhistory : Grown s.history s'.history) : Steps s s' :=
  ⟨hs.redrawn h (hhistory.holds hs.kept), h.lines, h.columns, hhistory⟩

theorem Goes.bind {f g : Screen → Option Screen} (hf : Goes f) (hg : Goes g) : Goes fun s => (f s).bind g := by
  intro s hs
  obtain ⟨s₁, h₁, hsteps₁⟩ := hf s hs
  obtain ⟨s₂, h₂, hsteps₂⟩ := hg s₁ hsteps₁.valid
  exact ⟨s₂, by simp only [h₁, Option.bind_some, h₂], hsteps₁.trans hsteps₂⟩

theorem goes_some : Goes some := fun s hs => ⟨s, rfl, hs.same⟩

/-- An operation on the cursor that leaves it on the screen. -/
theorem Valid.cursor (hs : s.Valid) {x y : Nat} (hx : x ≤ s.columns) (hy : y < s.lines) : Steps s { s with cuX := x, cuY := y } :=
  ⟨{ hs with cursorX := hx, cursorY := hy }, rfl, rfl, .refl _⟩

/-! ## History and scrolling -/

/-- The first line of the image goes into the history. -/
theorem addHistLine_rows (hs : s.Valid) {rows : List Row} (hrows : s.history.Holds rows) :
    ∃ s' line property, s.addHistLine = some s' ∧ s'.frame = s.frame ∧ s'.screenLines = s.screenLines ∧
      s'.lineProperties = s.lineProperties ∧ s.screenLines[0]? = some line ∧ s.lineProperties[0]? = some property ∧
      s'.history.getType = s.history.getType ∧
      s'.history.Holds (s.history.getType.keep (rows ++ [(line, LineProperty.wrapped property)])) := by
  have himage := hs.image
  have hproperties := hs.properties
  have hline : s.screenLines[0]? = some s.screenLines[0] := List.getElem?_eq_getElem (by omega)
  have hproperty : s.lineProperties[0]? = some s.lineProperties[0] := List.getElem?_eq_getElem (by omega)
  unfold addHistLine hasScroll
  cases hhistory : s.history with
  | none =>
    rw [hhistory] at hrows
    exact ⟨s, _, _, rfl, rfl, rfl, rfl, hline, hproperty, by rw [hhistory], by rw [hhistory]; rfl⟩
  | buffer b =>
    rw [hhistory] at hrows
    obtain ⟨history', hadd, htype, hholds⟩ := HistoryScroll.addRow_holds hrows (s.screenLines[0], LineProperty.wrapped s.lineProperties[0])
    obtain ⟨history₁, hcells, hflag⟩ := Option.bind_eq_some_iff.mp hadd
    simp only at hcells hflag
    have hresult : (if (HistoryScroll.buffer b).hasScroll then do
        let line ← s.screenLines[0]?
        let property ← s.lineProperties[0]?
        let history ← (HistoryScroll.buffer b).addCellsVector line
        let history ← history.addLine property.wrapped
        return { s with
          history := history
          droppedLines := if history.getLines = (HistoryScroll.buffer b).getLines then s.droppedLines + 1 else s.droppedLines
          selection := addHistSelection s.columns (HistoryScroll.buffer b).getLines history.getLines s.selection }
      else some s) = some { s with
        history := history'
        droppedLines := if history'.getLines = (HistoryScroll.buffer b).getLines then s.droppedLines + 1 else s.droppedLines
        selection := addHistSelection s.columns (HistoryScroll.buffer b).getLines history'.getLines s.selection } := by
      rw [show HistoryScroll.hasScroll (.buffer b) = true from rfl, if_pos rfl, hline, hproperty]
      simp only [Option.bind_eq_bind, Option.bind_some, hcells, hflag]
      rfl
    exact ⟨_, _, _, hresult, rfl, rfl, rfl, hline, hproperty, htype, hholds⟩

theorem addHistLine_redrawn (hs : s.Valid) : ∃ s', s.addHistLine = some s' ∧ Redrawn s s' ∧ Grown s.history s'.history := by
  obtain ⟨rows, hrows⟩ := hs.kept
  obtain ⟨s', line, property, hadd, hframe, himage, hprops, hline, hproperty, htype, -⟩ := addHistLine_rows hs hrows
  refine ⟨s', hadd, ⟨hframe, by rw [himage], by rw [hprops]⟩, htype, [(line, LineProperty.wrapped property)], fun rows' hrows' => ?_⟩
  obtain ⟨s'', line', property', hadd', -, -, -, hline', hproperty', -, hholds⟩ := addHistLine_rows hs hrows'
  cases hadd.symm.trans hadd'
  cases hline.symm.trans hline'
  cases hproperty.symm.trans hproperty'
  exact hholds

theorem addHistLine_goes : Goes addHistLine := by
  intro s hs
  obtain ⟨s', hadd, hdrawn, hgrown⟩ := addHistLine_redrawn hs
  exact ⟨s', hadd, hs.steps hdrawn hgrown⟩

theorem scrollUpFrom_redrawn (hs : s.Valid) (top n : Nat) :
    ∃ s', s.scrollUpFrom top n = some s' ∧ Redrawn s s' ∧ s'.history = s.history := by
  by_cases hnothing : n = 0 ∨ top > s.bottomMargin
  · exact ⟨s, by rw [scrollUpFrom, if_pos hnothing], .refl s, rfl⟩
  · obtain ⟨hn, htop⟩ := not_or.mp hnothing
    have htop' : top ≤ s.bottomMargin := by omega
    obtain ⟨s', hscroll, hdrawn, hhistory, -⟩ := scrollUpFrom_rows hs hn htop' rfl
    exact ⟨s', hscroll, hdrawn, hhistory⟩

theorem scrollUpFrom_goes (top n : Nat) : Goes (scrollUpFrom top n) := by
  intro s hs
  obtain ⟨s', hscroll, hdrawn, hhistory⟩ := scrollUpFrom_redrawn hs top n
  exact ⟨s', hscroll, hs.steps hdrawn (.of_eq hhistory)⟩

theorem scrollDownFrom_redrawn (hs : s.Valid) (top n : Nat) :
    ∃ s', s.scrollDownFrom top n = some s' ∧ Redrawn s s' ∧ s'.history = s.history := by
  by_cases hnothing : n = 0 ∨ top > s.bottomMargin
  · refine ⟨{ s with scrolledLines := s.scrolledLines + n }, ?_, ⟨rfl, rfl, rfl⟩, rfl⟩
    rw [scrollDownFrom]
    exact if_pos hnothing
  · obtain ⟨hn, htop⟩ := not_or.mp hnothing
    have htop' : top ≤ s.bottomMargin := by omega
    obtain ⟨s', hscroll, hdrawn, hhistory, -⟩ := scrollDownFrom_rows hs hn htop' rfl
    exact ⟨s', hscroll, hdrawn, hhistory⟩

theorem scrollDownFrom_goes (top n : Nat) : Goes (scrollDownFrom top n) := by
  intro s hs
  obtain ⟨s', hscroll, hdrawn, hhistory⟩ := scrollDownFrom_redrawn hs top n
  exact ⟨s', hscroll, hs.steps hdrawn (.of_eq hhistory)⟩

/-- An operation that depends on the screen it is for. -/
theorem goes_of {op : Screen → Option Screen} (f : Screen → Screen → Option Screen) (hop : ∀ s, op s = f s s) (hf : ∀ s, Goes (f s)) :
    Goes op := by
  intro s hs
  obtain ⟨s', h, hsteps⟩ := hf s s hs
  exact ⟨s', by rw [hop, h], hsteps⟩

theorem scrollUp_goes (n : Nat) : Goes (scrollUp n) := by
  intro s hs
  rw [scrollUp]
  split
  · obtain ⟨s₁, hadd, hsteps₁⟩ := addHistLine_goes s hs
    obtain ⟨s₂, hscroll, hsteps₂⟩ := scrollUpFrom_goes s₁.topMargin (orOne n) s₁ hsteps₁.valid
    exact ⟨s₂, by rw [hadd]; exact hscroll, hsteps₁.trans hsteps₂⟩
  · exact scrollUpFrom_goes s.topMargin (orOne n) s hs

theorem scrollDown_goes (n : Nat) : Goes (scrollDown n) := goes_of (fun s => scrollDownFrom s.topMargin (orOne n)) (fun _ => rfl) fun _ => scrollDownFrom_goes _ _

theorem index_goes : Goes index := by
  intro s hs
  have hlines := hs.lines
  have hcursor := hs.cursorY
  unfold index
  split
  · exact scrollUp_goes 1 s hs
  · split
    · exact ⟨_, rfl, hs.cursor hs.cursorX (by omega)⟩
    · exact goes_some s hs

theorem reverseIndex_goes : Goes reverseIndex := by
  intro s hs
  have hcursor := hs.cursorY
  unfold reverseIndex
  split
  · exact scrollDownFrom_goes _ _ s hs
  · split
    · exact ⟨_, rfl, hs.cursor hs.cursorX (by omega)⟩
    · exact goes_some s hs

theorem toStartOfLine_steps (hs : s.Valid) : Steps s s.toStartOfLine := hs.cursor (Nat.zero_le _) hs.cursorY

theorem nextLine_goes : Goes nextLine :=
  Goes.bind (f := fun s => some s.toStartOfLine) (fun _ hs => ⟨_, rfl, toStartOfLine_steps hs⟩) index_goes

theorem newLine_goes : Goes newLine := by
  refine Goes.bind (f := fun s => some (if s.getMode .newLine then s.toStartOfLine else s)) (fun s hs => ⟨_, rfl, ?_⟩) index_goes
  split
  · exact toStartOfLine_steps hs
  · exact hs.same

theorem deleteLines_goes (n : Nat) : Goes (deleteLines n) := goes_of (fun s => scrollUpFrom s.cuY (orOne n)) (fun _ => rfl) fun _ => scrollUpFrom_goes _ _

theorem insertLines_goes (n : Nat) : Goes (insertLines n) :=
  goes_of (fun s => scrollDownFrom s.cuY (orOne n)) (fun _ => rfl) fun _ => scrollDownFrom_goes _ _

/-! ## Clearing -/

theorem place_le {x y : Nat} (hx : x ≤ s.columns) (hy : y < s.lines) : (y * s.columns + x) / s.columns ≤ s.lines := by
  apply Nat.div_le_of_le_mul
  calc y * s.columns + x ≤ (y + 1) * s.columns := by rw [Nat.succ_mul]; omega
    _ ≤ s.columns * s.lines := by rw [Nat.mul_comm]; exact Nat.mul_le_mul_left _ hy

/-- From and to a cell of the image or the place after a line. After the last line of the screen that is on the spare one. -/
theorem clearImage_redrawn (hs : s.Valid) {x y x' y' : Nat} (c : Nat) (hx : x ≤ s.columns) (hy : y < s.lines) (hx' : x' ≤ s.columns)
    (hy' : y' < s.lines) : ∃ s', s.clearImage (s.loc x y) (s.loc x' y') c = some s' ∧ Redrawn s s' ∧ s'.history = s.history := by
  have hstart := place_le hx hy
  have hstop := place_le hx' hy'
  rw [loc_natCast, loc_natCast]
  have hcount : (((y' * s.columns + x' : Nat) : Int).tdiv s.columns + 1 - ((y * s.columns + x) / s.columns : Nat)).toNat =
      (y' * s.columns + x') / s.columns + 1 - (y * s.columns + x) / s.columns := by
    rw [← Int.ofNat_tdiv]
    omega
  obtain ⟨s', hclear, hdrawn, hhistory, -⟩ := clearImage_rows hs c (Int.natCast_nonneg _) (Int.ofNat_tdiv _ _).symm hcount (by omega)
  exact ⟨s', hclear, hdrawn, hhistory⟩

theorem clearImage_steps (hs : s.Valid) {loca loce : Int} {x y x' y' : Nat} (c : Nat) (hloca : loca = s.loc x y) (hloce : loce = s.loc x' y')
    (hx : x ≤ s.columns) (hy : y < s.lines) (hx' : x' ≤ s.columns) (hy' : y' < s.lines) :
    ∃ s', s.clearImage loca loce c = some s' ∧ Steps s s' := by
  obtain ⟨s', hclear, hdrawn, hhistory⟩ := clearImage_redrawn hs c hx hy hx' hy'
  exact ⟨s', by rw [hloca, hloce, hclear], hs.steps hdrawn (.of_eq hhistory)⟩

theorem loc_last_column (hs : s.Valid) (y : Int) : s.loc (s.columns - 1) y = s.loc (s.columns - 1 : Nat) y := by
  rw [Int.natCast_sub hs.columns]
  rfl

theorem loc_last (hs : s.Valid) : s.loc (s.columns - 1) (s.lines - 1) = s.loc (s.columns - 1 : Nat) (s.lines - 1 : Nat) := by
  rw [loc_last_column hs, Int.natCast_sub hs.lines]
  rfl

theorem clearToEndOfScreen_goes : Goes clearToEndOfScreen := by
  intro s hs
  have hlines := hs.lines
  exact clearImage_steps hs 0x20 rfl (loc_last hs) hs.cursorX hs.cursorY (Nat.sub_le _ _) (by omega)

theorem clearToBeginOfScreen_goes : Goes clearToBeginOfScreen :=
  fun _ hs => clearImage_steps hs (x := 0) (y := 0) 0x20 rfl rfl (Nat.zero_le _) hs.lines hs.cursorX hs.cursorY

theorem clearToEndOfLine_goes : Goes clearToEndOfLine :=
  fun _ hs => clearImage_steps hs 0x20 rfl (loc_last_column hs _) hs.cursorX hs.cursorY (Nat.sub_le _ _) hs.cursorY

theorem clearToBeginOfLine_goes : Goes clearToBeginOfLine :=
  fun _ hs => clearImage_steps hs (x := 0) 0x20 rfl rfl (Nat.zero_le _) hs.cursorY hs.cursorX hs.cursorY

theorem clearEntireLine_goes : Goes clearEntireLine :=
  fun _ hs => clearImage_steps hs (x := 0) 0x20 rfl (loc_last_column hs _) (Nat.zero_le _) hs.cursorY (Nat.sub_le _ _) hs.cursorY

theorem helpAlign_goes : Goes helpAlign := by
  intro s hs
  have hlines := hs.lines
  exact clearImage_steps hs (x := 0) (y := 0) _ rfl (loc_last hs) (Nat.zero_le _) hs.lines (Nat.sub_le _ _) (by omega)

theorem eraseChars_goes (n : Nat) : Goes (eraseChars n) := by
  intro s hs
  have hcursor := hs.cursorX
  have hlast : max 0 (min ((s.cuX : Int) + orOne n - 1) (s.columns - 1)) = (min (s.cuX + orOne n - 1) (s.columns - 1) : Nat) := by
    have := orOne_pos n
    omega
  rw [eraseChars]
  exact clearImage_steps hs 0x20 rfl (by rw [hlast]) hcursor hs.cursorY (by omega) hs.cursorY

theorem pushLines_goes (n : Nat) : Goes (pushLines n) := by
  induction n with
  | zero => exact goes_some
  | succ n ih => exact addHistLine_goes.bind ((scrollUpFrom_goes 0 1).bind ih)

theorem clearEntireScreen_goes : Goes clearEntireScreen := by
  intro s hs
  obtain ⟨s₁, hpush, hsteps₁⟩ := pushLines_goes (s.lines - 1) s hs
  have hlines := hsteps₁.valid.lines
  obtain ⟨s₂, hclear, hsteps₂⟩ := clearImage_steps hsteps₁.valid (x := 0) (y := 0) 0x20 rfl (loc_last hsteps₁.valid) (Nat.zero_le _)
    hlines (Nat.sub_le _ _) (by omega)
  exact ⟨s₂, by rw [clearEntireScreen, hpush]; exact hclear, hsteps₁.trans hsteps₂⟩

/-! ## Cursor, margins, modes and colors -/

/-- An operation on the cursor, the margins or what new characters look like. -/
def Stays (f : Screen → Screen) : Prop := ∀ s, s.Valid → Steps s (f s)

theorem Stays.goes {f : Screen → Screen} (hf : Stays f) : Goes fun s => some (f s) := fun s hs => ⟨f s, rfl, hf s hs⟩

theorem Steps.after {f : Screen → Screen} (h : Steps s s') (hf : Stays f) : Steps s (f s') := h.trans (hf s' h.valid)

theorem Stays.comp {f g : Screen → Screen} (hf : Stays f) (hg : Stays g) : Stays fun s => g (f s) :=
  fun s hs => (hf s hs).trans (hg _ (hf s hs).valid)

/-- What `Valid` is about. -/
def stage (s : Screen) : (Nat × Nat × Nat × Nat × Nat × Nat) × List ImageLine × List LineProperty × List Bool × HistoryScroll :=
  ((s.lines, s.columns, s.cuX, s.cuY, s.topMargin, s.bottomMargin), s.screenLines, s.lineProperties, s.tabStops, s.history)

theorem Valid.dressed (hs : s.Valid) (h : s'.stage = s.stage) : Steps s s' := by
  simp only [stage, Prod.mk.injEq] at h
  obtain ⟨⟨hlines, hcolumns, hcuX, hcuY, htop, hbottom⟩, himage, hproperties, hstops, hhistory⟩ := h
  refine ⟨⟨?_, ?_, ?_, ?_, ?_, ?_, ?_, ?_, ?_, ?_⟩, hlines, hcolumns, .of_eq hhistory⟩
  · rw [hlines]; exact hs.lines
  · rw [hcolumns]; exact hs.columns
  · rw [himage, hlines]; exact hs.image
  · rw [hproperties, hlines]; exact hs.properties
  · rw [hstops, hcolumns]; exact hs.stops
  · rw [hcuX, hcolumns]; exact hs.cursorX
  · rw [hcuY, hlines]; exact hs.cursorY
  · rw [htop, hbottom]; exact hs.margins
  · rw [hbottom, hlines]; exact hs.bottom
  · rw [hhistory]; exact hs.kept

theorem cursorUp_stays (n : Nat) : Stays (cursorUp n) := by
  intro s hs
  have hcursor := hs.cursorY
  have hmargins := hs.margins
  have hbottom := hs.bottom
  refine hs.cursor (by omega) ?_
  split <;> omega

theorem cursorDown_stays (n : Nat) : Stays (cursorDown n) := by
  intro s hs
  have hlines := hs.lines
  have hbottom := hs.bottom
  refine hs.cursor (by omega) ?_
  split <;> omega

theorem cursorLeft_stays (n : Nat) : Stays (cursorLeft n) := fun _ hs => hs.cursor (by omega) hs.cursorY

theorem cursorRight_stays (n : Nat) : Stays (cursorRight n) := fun _ hs => hs.cursor (by omega) hs.cursorY

theorem cursorNextLine_stays (n : Nat) : Stays (cursorNextLine n) := by
  intro s hs
  refine hs.cursor (Nat.zero_le _) ?_
  refine Function.Iterate.rec (fun y => y < s.lines) hs.cursorY (fun y hy => ?_) _
  split <;> omega

theorem cursorPreviousLine_stays (n : Nat) : Stays (cursorPreviousLine n) := by
  intro s hs
  refine hs.cursor (Nat.zero_le _) ?_
  refine Function.Iterate.rec (fun y => y < s.lines) hs.cursorY (fun y hy => ?_) _
  split <;> omega

theorem setCursorX_stays (x : Int) : Stays (setCursorX x) := fun _ hs => hs.cursor (by have := hs.columns; omega) hs.cursorY

theorem setCursorY_stays (y : Int) : Stays (setCursorY y) := by
  intro s hs
  have hlines := hs.lines
  exact hs.cursor hs.cursorX (by omega)

theorem setCursorYX_stays (y x : Int) : Stays (setCursorYX y x) := (setCursorY_stays y).comp (setCursorX_stays x)

theorem home_stays : Stays home := fun _ hs => hs.cursor (Nat.zero_le _) hs.lines

theorem toStartOfLine_stays : Stays toStartOfLine := fun _ hs => toStartOfLine_steps hs

theorem saveCursor_stays : Stays saveCursor := fun _ hs => hs.dressed rfl

theorem restoreCursor_stays : Stays restoreCursor := by
  intro s hs
  have hlines := hs.lines
  have hmoved := hs.cursor (x := min s.savedState.cursorColumn (s.columns - 1)) (y := min s.savedState.cursorLine (s.lines - 1))
    (by omega) (by omega)
  exact hmoved.trans (hmoved.valid.dressed rfl)

theorem setMargins_stays (top bot : Nat) : Stays (setMargins top bot) := by
  intro s hs
  unfold setMargins
  simp only
  generalize orOne top - 1 = top
  generalize (if bot = 0 then s.lines else bot) - 1 = bot
  split
  next => exact hs.same
  next hrange =>
    obtain ⟨htop, hbottom⟩ := not_not.mp hrange
    refine ⟨{ hs with cursorX := Nat.zero_le _, cursorY := ?_, margins := htop.le, bottom := hbottom }, rfl, rfl, .refl _⟩
    dsimp only
    split
    · omega
    · exact hs.lines

theorem setDefaultMargins_stays : Stays setDefaultMargins := by
  intro s hs
  have hlines := hs.lines
  exact ⟨{ hs with margins := Nat.zero_le _, bottom := by dsimp only [setDefaultMargins]; omega }, rfl, rfl, .refl _⟩

theorem setMode_stays (m : ScreenMode) : Stays (setMode m) := by
  intro s hs
  have hmargins := hs.margins
  have hbottom := hs.bottom
  cases m with
  | origin =>
    have hmoved := hs.cursor (x := 0) (y := s.topMargin) (by omega) (by omega)
    exact hmoved.trans (hmoved.valid.dressed rfl)
  | _ => exact hs.dressed rfl

theorem resetMode_stays (m : ScreenMode) : Stays (resetMode m) := by
  intro s hs
  cases m with
  | origin =>
    have hmoved := hs.cursor (x := 0) (y := 0) (by omega) hs.lines
    exact hmoved.trans (hmoved.valid.dressed rfl)
  | _ => exact hs.dressed rfl

theorem saveMode_stays (m : ScreenMode) : Stays (saveMode m) := fun _ hs => hs.dressed rfl

theorem restoreMode_stays (m : ScreenMode) : Stays (restoreMode m) := fun _ hs => hs.dressed rfl

theorem setRendition_stays (re : Nat) : Stays (setRendition re) := fun _ hs => hs.dressed rfl

theorem resetRendition_stays (re : Nat) : Stays (resetRendition re) := fun _ hs => hs.dressed rfl

theorem setForeColor_stays (space color : Nat) : Stays (setForeColor space color) := by
  intro s hs
  unfold setForeColor
  simp only
  split <;> exact hs.dressed rfl

theorem setBackColor_stays (space color : Nat) : Stays (setBackColor space color) := by
  intro s hs
  unfold setBackColor
  simp only
  split <;> exact hs.dressed rfl

theorem setDefaultRendition_stays : Stays setDefaultRendition := by
  intro s hs
  have hcolored := (hs.same.after (setForeColor_stays COLOR_SPACE_DEFAULT.toNat DEFAULT_FORE_COLOR)).after
    (setBackColor_stays COLOR_SPACE_DEFAULT.toNat DEFAULT_BACK_COLOR)
  exact hcolored.trans (hcolored.valid.dressed rfl)

theorem clearCurrentHyperlink_stays : Stays clearCurrentHyperlink := fun _ hs => hs.dressed rfl

theorem clearSelection_stays : Stays clearSelection := fun _ hs => hs.dressed rfl

/-! ## Tab stops -/

theorem clearTabStops_goes : Goes clearTabStops := by
  intro s hs
  have hstops := hs.stops
  rw [clearTabStops, if_pos hstops.ge]
  refine ⟨_, rfl, { hs with stops := ?_ }, rfl, rfl, .refl _⟩
  simp only [List.length_append, List.length_replicate, List.length_drop]
  omega

theorem changeTabStop_goes (set : Bool) : Goes (changeTabStop set) := by
  intro s hs
  have hstops := hs.stops
  unfold changeTabStop
  split
  · exact goes_some s hs
  · rw [CArray.put_natCast (by omega)]
    exact ⟨_, rfl, { hs with stops := by simp only [List.length_set, hstops] }, rfl, rfl, .refl _⟩

theorem tabForward_goes : Goes tabForward := by
  intro s
  fun_induction tabForward s with
  | case1 s hcolumn ih =>
    intro hs
    obtain ⟨stop, hstop⟩ : ∃ stop, s.tabStops[s.cuX]? = some stop := ⟨_, List.getElem?_eq_getElem (by rw [hs.stops]; omega)⟩
    rw [hstop, Option.bind_eq_bind, Option.bind_some]
    split
    · exact goes_some s hs
    · have hright := cursorRight_stays 1 s hs
      obtain ⟨s', htab, hsteps⟩ := ih hright.valid
      exact ⟨s', htab, hright.trans hsteps⟩
  | case2 s hcolumn => exact goes_some s

theorem tabBackward_goes (hs : s.Valid) (hcolumn : s.cuX < s.columns) : ∃ s', s.tabBackward = some s' ∧ Steps s s' := by
  induction hx : s.cuX generalizing s with
  | zero => exact ⟨s, by rw [tabBackward, if_neg (by omega)], hs.same⟩
  | succ x ih =>
    obtain ⟨stop, hstop⟩ : ∃ stop, s.tabStops[s.cuX]? = some stop := ⟨_, List.getElem?_eq_getElem (by rw [hs.stops]; exact hcolumn)⟩
    rw [tabBackward, if_pos (by omega), hstop, Option.bind_eq_bind, Option.bind_some]
    split
    · exact goes_some s hs
    · have hleft := cursorLeft_stays 1 s hs
      obtain ⟨s', htab, hsteps⟩ := ih hleft.valid (by simp only [cursorLeft, orOne_one]; omega) (by simp only [cursorLeft, orOne_one]; omega)
      exact ⟨s', htab, hleft.trans hsteps⟩

theorem tabs_goes (n : Nat) : Goes (tabs n) := by
  induction n with
  | zero => exact goes_some
  | succ n ih =>
    intro s hs
    rw [tabs]
    split
    · exact ((cursorRight_stays 1).goes.bind (tabForward_goes.bind ih)) s hs
    · exact goes_some s hs

theorem backtabs_goes (n : Nat) : Goes (backtabs n) := by
  induction n with
  | zero => exact goes_some
  | succ n ih =>
    intro s hs
    have hcolumns := hs.columns
    rw [backtabs]
    split
    · have hleft := cursorLeft_stays 1 s hs
      obtain ⟨s₁, htab, hsteps₁⟩ := tabBackward_goes hleft.valid (by simp only [cursorLeft, orOne_one]; omega)
      obtain ⟨s₂, hrest, hsteps₂⟩ := ih s₁ hsteps₁.valid
      exact ⟨s₂, by rw [htab]; exact hrest, (hleft.trans hsteps₁).trans hsteps₂⟩
    · exact goes_some s hs

theorem tab_goes (n : Nat) : Goes (tab n) := tabs_goes _

theorem backtab_goes (n : Nat) : Goes (backtab n) := backtabs_goes _

end Screen

end LvdTerm.Konsole
