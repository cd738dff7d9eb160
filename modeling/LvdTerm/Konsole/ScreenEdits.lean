import LvdTerm.Konsole.ScreenSteps

/-!
# Screen: editing, characters and the whole screen

The operations that read and write single cells. A cell is written after its line was made long enough, and the character that a
mark joins is one that was read.
-/
namespace LvdTerm.Konsole

open LvdTerm.Lib

namespace Screen

variable {s s' : Screen} {n w x y : Nat}

/-! ## One line of the image -/

theorem changeLine_redrawn (hs : s.Valid) (hy : y < s.lines) {f : ImageLine → Option ImageLine}
    (hf : ∀ line, s.screenLines[y]? = some line → ∃ line', f line = some line') :
    ∃ s' line line', s.changeLine y f = some s' ∧ Redrawn s s' ∧ s'.history = s.history ∧ s.screenLines[y]? = some line ∧
      f line = some line' ∧ s'.screenLines[y]? = some line' := by
  have himage := hs.image
  have hline : s.screenLines[y]? = some s.screenLines[y] := List.getElem?_eq_getElem (by omega)
  obtain ⟨line', hf⟩ := hf _ hline
  refine ⟨{ s with screenLines := s.screenLines.set y line' }, _, line', ?_, ⟨rfl, List.length_set, rfl⟩, rfl, hline, hf, ?_⟩
  · rw [changeLine, hline, Option.bind_eq_bind, Option.bind_some, hf]
    rfl
  · rw [List.getElem?_set_self (by omega)]

/-- `f` makes no line fail. -/
theorem changeLine_steps (hs : s.Valid) (hy : y < s.lines) (f : ImageLine → ImageLine) :
    ∃ s' line, s.changeLine y (fun line => some (f line)) = some s' ∧ Redrawn s s' ∧ Steps s s' ∧ s'.screenLines[y]? = some (f line) := by
  obtain ⟨s', line, line', hchange, hdrawn, hhistory, -, hf, hafter⟩ := changeLine_redrawn hs hy (fun line _ => ⟨f line, rfl⟩)
  cases hf
  exact ⟨s', line, hchange, hdrawn, hs.steps hdrawn (.of_eq hhistory), hafter⟩

theorem changeProperty_steps (hs : s.Valid) (hy : y < s.lines) (f : LineProperty → LineProperty) :
    ∃ s', s.changeProperty y f = some s' ∧ Redrawn s s' ∧ Steps s s' := by
  have hproperties := hs.properties
  have hproperty : s.lineProperties[y]? = some s.lineProperties[y] := List.getElem?_eq_getElem (by omega)
  have hdrawn : Redrawn s { s with lineProperties := s.lineProperties.set y (f s.lineProperties[y]) } := ⟨rfl, rfl, List.length_set⟩
  exact ⟨_, by rw [changeProperty, hproperty]; rfl, hdrawn, hs.steps hdrawn (.refl _)⟩

theorem setLineProperty_goes (property : LineProperty) (enable : Bool) : Goes (setLineProperty property enable) := by
  intro s hs
  obtain ⟨s', hchange, -, hsteps⟩ := changeProperty_steps hs hs.cursorY fun p => if enable then p ||| property else p &&& ~~~ property
  exact ⟨s', hchange, hsteps⟩

theorem backspace_goes : Goes backspace := by
  intro s hs
  have hmoved := hs.cursor (x := min (s.columns - 1) s.cuX - 1) (by omega) hs.cursorY
  obtain ⟨s', -, hchange, -, hsteps, -⟩ := changeLine_steps hmoved.valid hmoved.valid.cursorY
    fun line => line.resizeUp (min (s.columns - 1) s.cuX - 1 + 1)
  exact ⟨s', hchange, hmoved.trans hsteps⟩

/-- The cursor's line without `n` of its cells. -/
def withoutChars (n : Nat) (s : Screen) (line : ImageLine) : ImageLine :=
  if s.cuX ≥ line.length then line
  else
    let n := if s.cuX + orOne n > line.length then line.length - s.cuX else orOne n
    line.take s.cuX ++ line.drop (s.cuX + n)

theorem deleteChars_goes (n : Nat) : Goes (deleteChars n) := by
  intro s hs
  obtain ⟨s', -, hchange, -, hsteps, -⟩ := changeLine_steps hs hs.cursorY (s.withoutChars n)
  have hsame : s.deleteChars n = s.changeLine s.cuY fun line => some (s.withoutChars n line) := by
    unfold deleteChars withoutChars
    congr 1
    funext line
    split <;> rfl
  exact ⟨s', by rw [hsame]; exact hchange, hsteps⟩

/-- The cursor's line has its cell, and `w - 1` more, afterwards. -/
theorem insertChars_room (hs : s.Valid) (n : Nat) (hroom : s.cuX + w ≤ s.columns) (hw : w ≤ orOne n) :
    ∃ s' line, s.insertChars n = some s' ∧ Redrawn s s' ∧ Steps s s' ∧ s'.screenLines[s.cuY]? = some line ∧ s.cuX + w ≤ line.length := by
  let f : ImageLine → ImageLine := fun line =>
    let line := line.resizeUp s.cuX
    let line := line.take s.cuX ++ List.replicate (orOne n) defaultChar ++ line.drop s.cuX
    if line.length > s.columns then ImageLine.resize s.columns line else line
  obtain ⟨s', line, hchange, hdrawn, hsteps, hafter⟩ := changeLine_steps hs hs.cursorY f
  refine ⟨s', _, hchange, hdrawn, hsteps, hafter, ?_⟩
  simp only [f]
  split
  · rwa [ImageLine.length_resize]
  · simp only [List.length_append, List.length_take, List.length_replicate, List.length_drop, ImageLine.length_resizeUp]
    omega

theorem insertChars_goes (n : Nat) : Goes (insertChars n) := by
  intro s hs
  obtain ⟨s', -, hinsert, -, hsteps, -⟩ := insertChars_room hs n (w := 0) hs.cursorX (Nat.zero_le _)
  exact ⟨s', hinsert, hsteps⟩

/-! ## A character at the cursor -/

theorem index_cuX (hs : s.Valid) : ∃ s', s.index = some s' ∧ Steps s s' ∧ s'.cuX = s.cuX := by
  have hlines := hs.lines
  have hcursor := hs.cursorY
  unfold index
  split
  · rw [scrollUp]
    split
    · obtain ⟨s₁, hadd, hdrawn₁, hgrown⟩ := addHistLine_redrawn hs
      have hsteps₁ := hs.steps hdrawn₁ hgrown
      obtain ⟨s₂, hscroll, hdrawn₂, hhistory⟩ := scrollUpFrom_redrawn hsteps₁.valid s₁.topMargin (orOne 1)
      exact ⟨s₂, by rw [hadd]; exact hscroll, hsteps₁.trans (hsteps₁.valid.steps hdrawn₂ (.of_eq hhistory)), (hdrawn₁.trans hdrawn₂).cuX⟩
    · obtain ⟨s₂, hscroll, hdrawn₂, hhistory⟩ := scrollUpFrom_redrawn hs s.topMargin (orOne 1)
      exact ⟨s₂, hscroll, hs.steps hdrawn₂ (.of_eq hhistory), hdrawn₂.cuX⟩
  · split
    · exact ⟨_, rfl, hs.cursor hs.cursorX (by omega), rfl⟩
    · exact ⟨s, rfl, hs.same, rfl⟩

/-- The next line is marked as going on, and begun. -/
theorem wrap_steps (hs : s.Valid) :
    ∃ s', (s.changeProperty s.cuY (· ||| LINE_WRAPPED)).bind nextLine = some s' ∧ Steps s s' ∧ s'.cuX = 0 := by
  obtain ⟨s₁, hproperty, -, hsteps₁⟩ := changeProperty_steps hs hs.cursorY (· ||| LINE_WRAPPED)
  have hstart := toStartOfLine_steps hsteps₁.valid
  obtain ⟨s₂, hindex, hsteps₂, hcuX⟩ := index_cuX hstart.valid
  exact ⟨s₂, by rw [hproperty]; exact hindex, hsteps₁.trans (hstart.trans hsteps₂), hcuX⟩

theorem wrapFor_steps (hs : s.Valid) (hw : w ≤ s.columns) : ∃ s', s.wrapFor w = some s' ∧ Steps s s' ∧ s'.cuX + w ≤ s'.columns := by
  unfold wrapFor
  split
  next hfull =>
    split
    · obtain ⟨s', hwrap, hsteps, hcuX⟩ := wrap_steps hs
      exact ⟨s', hwrap, hsteps, by rw [hcuX, hsteps.columns]; omega⟩
    · rw [if_neg (by omega)]
      exact ⟨_, rfl, hs.cursor (by omega) hs.cursorY, by dsimp only; omega⟩
  next hfits => exact ⟨s, rfl, hs.same, by omega⟩

theorem setCell_steps (hs : s.Valid) (hy : y < s.lines) {line : ImageLine} (hline : s.screenLines[y]? = some line) (hx : x < line.length)
    (ch : Character) :
    ∃ s', s.setCell x y ch = some s' ∧ Redrawn s s' ∧ Steps s s' ∧ s'.screenLines[y]? = some (line.set x ch) := by
  obtain ⟨s', line₁, line', hchange, hdrawn, hhistory, hline₁, hset, hafter⟩ := changeLine_redrawn hs hy
    (f := fun line => if x < line.length then some (line.set x ch) else none) (by
      intro line' hline'
      cases hline.symm.trans hline'
      exact ⟨_, if_pos hx⟩)
  cases hline.symm.trans hline₁
  rw [if_pos hx] at hset
  cases hset
  exact ⟨s', hchange, hdrawn, hs.steps hdrawn (.of_eq hhistory), hafter⟩

theorem touch_redrawn (s : Screen) : Redrawn s s.touch ∧ s.touch.stage = s.stage ∧ s.touch.screenLines = s.screenLines := by
  unfold touch checkSelection
  simp only
  split <;> exact ⟨⟨rfl, rfl, rfl⟩, rfl, rfl⟩

theorem fillWide_steps (hs : s.Valid) {i : Nat} (w : Nat) : ∃ s', s.fillWide w i = some s' ∧ Redrawn s s' ∧ Steps s s' := by
  induction w generalizing s i with
  | zero => exact ⟨s, rfl, .refl s, hs.same⟩
  | succ w ih =>
    obtain ⟨s₁, line, hresize, hdrawn₁, hsteps₁, hline⟩ := changeLine_steps hs hs.cursorY fun line => line.resizeUp (s.cuX + i + 1)
    rw [← hdrawn₁.cuY] at hline
    obtain ⟨s₂, hset, hdrawn₂, hsteps₂, -⟩ := setCell_steps hsteps₁.valid (x := s₁.cuX + i) hsteps₁.valid.cursorY hline
      (by rw [ImageLine.length_resizeUp, hdrawn₁.cuX]; omega) (s₁.penned 0)
    obtain ⟨s₃, hrest, hdrawn₃, hsteps₃⟩ := ih hsteps₂.valid (i := i + 1)
    refine ⟨s₃, ?_, hdrawn₁.trans (hdrawn₂.trans hdrawn₃), hsteps₁.trans (hsteps₂.trans hsteps₃)⟩
    rw [fillWide, hresize, Option.bind_eq_bind, Option.bind_some, hset]
    exact hrest

/-- The cursor's line has room for the character, also after cells were inserted. -/
theorem makeRoom_room (hs : s.Valid) (n : Nat) {line : ImageLine} (hline : s.screenLines[s.cuY]? = some line) (hlength : s.cuX + n ≤ line.length)
    (hroom : s.cuX + n ≤ s.columns) (hn : 0 < n) :
    ∃ s' line', s.makeRoom n = some s' ∧ Redrawn s s' ∧ Steps s s' ∧
      s'.screenLines[s.cuY]? = some line' ∧ s.cuX + n ≤ line'.length := by
  unfold makeRoom
  split
  · exact insertChars_room hs n hroom (by rw [orOne, if_neg (by omega)])
  · exact ⟨s, line, rfl, .refl s, hs.same, hline, hlength⟩

theorem putCharacter_steps (hs : s.Valid) (c : Nat) (hpos : 0 < w) (hw : w ≤ s.columns) : ∃ s', s.putCharacter c w = some s' ∧ Steps s s' := by
  obtain ⟨s₁, hwrap, hsteps₁, hroom⟩ := wrapFor_steps hs hw
  obtain ⟨s₂, line₁, hresize, hdrawn₂, hsteps₂, hline₂⟩ := changeLine_steps hsteps₁.valid hsteps₁.valid.cursorY
    fun line => line.resizeUp (s₁.cuX + w)
  obtain ⟨s₃, line₃, hinsert, hdrawn₃, hsteps₃, hline₃, hlength₃⟩ := makeRoom_room hsteps₂.valid w (by rw [hdrawn₂.cuY]; exact hline₂)
    (by rw [ImageLine.length_resizeUp, hdrawn₂.cuX]; omega) (by rw [hdrawn₂.cuX, hdrawn₂.columns]; exact hroom) hpos
  obtain ⟨hdrawn₄, hstage₄, hlines₄⟩ := touch_redrawn s₃
  have hsteps₄ := hsteps₃.valid.dressed hstage₄
  have hdrawn₃₄ := hdrawn₃.trans hdrawn₄
  obtain ⟨s₅, hset, hdrawn₅, hsteps₅, -⟩ := setCell_steps hsteps₄.valid (x := s₃.touch.cuX) hsteps₄.valid.cursorY
    (by rw [hlines₄, hdrawn₃₄.cuY]; exact hline₃) (by rw [hdrawn₃₄.cuX]; omega) (s₃.touch.penned c)
  have hsteps₆ : Steps s₅ { s₅ with lastDrawnChar := c % 2 ^ 16 } := hsteps₅.valid.dressed rfl
  obtain ⟨s₇, hfill, hdrawn₇, hsteps₇⟩ := fillWide_steps hsteps₆.valid (i := 1) (w - 1)
  have hcuX₇ : s₇.cuX = s₁.cuX := hdrawn₇.cuX.trans (hdrawn₅.cuX.trans (hdrawn₃₄.cuX.trans hdrawn₂.cuX))
  have hcolumns₇ : s₇.columns = s₁.columns := hdrawn₇.columns.trans (hdrawn₅.columns.trans (hdrawn₃₄.columns.trans hdrawn₂.columns))
  have hsteps₈ := hsteps₇.valid.cursor (x := s₇.cuX + w) (by rw [hcuX₇, hcolumns₇]; exact hroom) hsteps₇.valid.cursorY
  refine ⟨_, ?_, hsteps₁.trans (hsteps₂.trans (hsteps₃.trans (hsteps₄.trans (hsteps₅.trans (hsteps₆.trans (hsteps₇.trans hsteps₈))))))⟩
  rw [putCharacter, hwrap]
  simp only [Option.bind_eq_bind, Option.bind_some, hresize, hinsert, hset, hfill]
  rfl

theorem putSecondHalf_goes (key : Nat) : Goes (putSecondHalf key) := by
  intro s hs
  obtain ⟨s₁, hwrap, hsteps₁, hroom⟩ := wrapFor_steps hs (w := 1) hs.columns
  obtain ⟨s₂, line₁, hresize, hdrawn₂, hsteps₂, hline₂⟩ := changeLine_steps hsteps₁.valid hsteps₁.valid.cursorY
    fun line => line.resizeUp (s₁.cuX + 1)
  rw [← hdrawn₂.cuY] at hline₂
  obtain ⟨s₃, hset, hdrawn₃, hsteps₃, hline₃⟩ := setCell_steps hsteps₂.valid (x := s₂.cuX) hsteps₂.valid.cursorY hline₂
    (by rw [ImageLine.length_resizeUp, hdrawn₂.cuX]; omega) (s₂.penned 0)
  rw [← hdrawn₃.cuY] at hline₃
  have hdrawn₂₃ := hdrawn₂.trans hdrawn₃
  obtain ⟨s₄, line₄, hinsert, hdrawn₄, hsteps₄, -⟩ := makeRoom_room hsteps₃.valid 1 hline₃
    (by rw [List.length_set, ImageLine.length_resizeUp, hdrawn₂₃.cuX]; omega)
    (by rw [hdrawn₂₃.cuX, hdrawn₂₃.columns]; exact hroom) Nat.one_pos
  obtain ⟨hdrawn₅, hstage₅, -⟩ := touch_redrawn s₄
  have hsteps₅ := hsteps₄.valid.dressed hstage₅
  have hall := hdrawn₂₃.trans hdrawn₄
  have hsteps₆ := hsteps₅.valid.cursor (x := s₄.cuX + 1) (by rw [hdrawn₅.columns, hall.cuX, hall.columns]; exact hroom) hsteps₅.valid.cursorY
  have hsteps₇ : Steps { s₄.touch with cuX := s₄.cuX + 1, cuY := s₄.touch.cuY } { s₄.touch with lastDrawnChar := key % 2 ^ 16, cuX := s₄.cuX + 1 } :=
    hsteps₆.valid.dressed rfl
  refine ⟨_, ?_, hsteps₁.trans (hsteps₂.trans (hsteps₃.trans (hsteps₄.trans (hsteps₅.trans (hsteps₆.trans hsteps₇)))))⟩
  rw [putSecondHalf, hwrap]
  simp only [Option.bind_eq_bind, Option.bind_some, hresize, hset, hinsert]
  rfl

/-! ## A mark on the character before -/

/-- The search reads cells only, and what it finds is one. -/
theorem previousChar_total (hs : s.Valid) (mark : Int) (hy : y < s.lines) {line : ImageLine} (hline : s.screenLines[y]? = some line)
    (hx : x ≤ line.length) :
    ∃ found, s.previousChar mark y x = some found ∧
      ∀ p, found = some p → p.1 < s.lines ∧ ∃ line', s.screenLines[p.1]? = some line' ∧ p.2 < line'.length := by
  have himage := hs.image
  have hproperties := hs.properties
  fun_induction previousChar mark s y x generalizing line with
  | case1 y x ih =>
    have hcell := List.getElem?_eq_getElem hx
    simp only [hline, Option.bind_eq_bind, Option.bind_some, hcell]
    split
    · exact ih hy hline (by omega)
    · exact ⟨_, rfl, fun p hp => by cases hp; exact ⟨hy, line, hline, hx⟩⟩
  | case2 => exact ⟨none, rfl, fun p hp => by cases hp⟩
  | case3 y ih =>
    have hproperty : s.lineProperties[y]? = some s.lineProperties[y] := List.getElem?_eq_getElem (by omega)
    have hbefore : s.screenLines[y]? = some s.screenLines[y] := List.getElem?_eq_getElem (by omega)
    simp only [hproperty, Option.bind_eq_bind, Option.bind_some, hbefore]
    split
    · split
      · exact ⟨none, rfl, fun p hp => by cases hp⟩
      next hne =>
        have hpos := List.length_pos_iff.mpr hne
        have hlast : s.screenLines[y].length - 1 < s.screenLines[y].length := by omega
        have hcell := List.getElem?_eq_getElem hlast
        simp only [hcell, Option.bind_some]
        split
        · exact ih _ (by omega) hbefore (by omega)
        · exact ⟨_, rfl, fun p hp => by cases hp; exact ⟨by omega, _, hbefore, by omega⟩⟩
    · exact ⟨none, rfl, fun p hp => by cases hp⟩

theorem charToCombineWith_total (hs : s.Valid) (mark : Int) :
    ∃ found, s.charToCombineWith mark = some found ∧
      ∀ p, found = some p → p.1 < s.lines ∧ ∃ line, s.screenLines[p.1]? = some line ∧ p.2 < line.length := by
  have himage := hs.image
  have hcursor := hs.cursorY
  have hline : s.screenLines[s.cuY]? = some s.screenLines[s.cuY] := List.getElem?_eq_getElem (by omega)
  obtain ⟨found, hprevious, hcell⟩ := previousChar_total hs mark hcursor hline (x := min s.cuX s.screenLines[s.cuY].length) (by omega)
  exact ⟨found, by rw [charToCombineWith, hline]; exact hprevious, hcell⟩

theorem combine_steps (hs : s.Valid) (c : Nat) (mark : Int) (hy : y < s.lines) {line : ImageLine} (hline : s.screenLines[y]? = some line)
    (hx : x < line.length) (currentChar : Character) (t : ExtendedCharTable) :
    ∃ s' t', s.combine c mark y x currentChar t = some (s', t') ∧ Steps s s' := by
  unfold combine
  split
  · cases t.lookupExtendedChar currentChar.character with
    | none => exact ⟨s, t, rfl, hs.same⟩
    | some oldChars =>
      simp only
      split
      · obtain ⟨key, t', hcreate⟩ := ExtendedCharTable.createExtendedChar_total (oldChars ++ [c]) t
        obtain ⟨s', hset, -, hsteps, -⟩ := setCell_steps hs hy hline hx { currentChar with character := key }
        exact ⟨s', t', by rw [hcreate, Option.bind_eq_bind, Option.bind_some, hset]; rfl, hsteps⟩
      · exact ⟨s, t, rfl, hs.same⟩
  · obtain ⟨key, t', hcreate⟩ := ExtendedCharTable.createExtendedChar_total [currentChar.character, c] t
    obtain ⟨s₁, hset, -, hsteps₁, -⟩ := setCell_steps hs hy hline hx
      { currentChar with rendition := currentChar.rendition.set RE_EXTENDED_CHAR, character := key }
    simp only [hcreate, Option.bind_eq_bind, Option.bind_some, hset]
    split
    · obtain ⟨s₂, hsecond, hsteps₂⟩ := putSecondHalf_goes key s₁ hsteps₁.valid
      exact ⟨s₂, t', by rw [hsecond]; rfl, hsteps₁.trans hsteps₂⟩
    · exact ⟨s₁, t', rfl, hsteps₁⟩

theorem displayCharacter_steps (hs : s.Valid) (hcolumns : 2 ≤ s.columns) (env : Widths) (c : Nat) (t : ExtendedCharTable) :
    ∃ s' t', s.displayCharacter env c t = some (s', t') ∧ Steps s s' := by
  have hwidth := env.atMostTwo c
  have hput : ∀ w : Int, 0 < w → w ≤ 2 → ∃ s' t', (s.putCharacter c w.toNat).map (fun s => (s, t)) = some (s', t') ∧ Steps s s' := by
    intro w hpos hw
    obtain ⟨s', hput, hsteps⟩ := putCharacter_steps hs c (w := w.toNat) (by omega) (by omega)
    exact ⟨s', t, by rw [hput]; rfl, hsteps⟩
  unfold displayCharacter
  simp only
  split
  · exact ⟨s, t, rfl, hs.same⟩
  next hwide =>
    split
    next hmark =>
      split
      · exact ⟨s, t, rfl, hs.same⟩
      · obtain ⟨found, hfound, hcell⟩ := charToCombineWith_total hs (env.width c)
        rw [hfound, Option.bind_eq_bind, Option.bind_some]
        cases found with
        | none =>
          apply hput <;> split <;> omega
        | some p =>
          obtain ⟨hy, line, hline, hx⟩ := hcell p rfl
          simp only [hline, Option.bind_eq_bind, Option.bind_some, List.getElem?_eq_getElem hx]
          split
          · exact hput _ (by omega) hwidth
          · exact combine_steps hs c _ hy hline hx _ t
    next hordinary => exact hput _ (by omega) hwidth

theorem displayLast_steps (hs : s.Valid) (hcolumns : 2 ≤ s.columns) (env : Widths) (n : Nat) (t : ExtendedCharTable) :
    ∃ s' t', s.displayLast env n t = some (s', t') ∧ Steps s s' := by
  induction n generalizing s t with
  | zero => exact ⟨s, t, rfl, hs.same⟩
  | succ n ih =>
    obtain ⟨s₁, t₁, hdisplay, hsteps₁⟩ := displayCharacter_steps hs hcolumns env s.lastDrawnChar t
    obtain ⟨s₂, t₂, hrest, hsteps₂⟩ := ih hsteps₁.valid (by rw [hsteps₁.columns]; exact hcolumns) t₁
    exact ⟨s₂, t₂, by rw [displayLast, hdisplay]; exact hrest, hsteps₁.trans hsteps₂⟩

/-! ## The whole screen -/

theorem setSelectionStart_stays (x y : Int) (mode : Bool) : Stays (setSelectionStart x y mode) := fun _ hs => hs.dressed rfl

theorem setSelectionEnd_stays (x y : Int) : Stays (setSelectionEnd x y) := by
  intro s hs
  unfold setSelectionEnd normalizeSelection
  simp only
  repeat' split
  all_goals exact hs.dressed rfl

theorem resetLines_goes : Goes fun s => some s.resetScrolledLines.resetDroppedLines := fun _ hs => ⟨_, rfl, hs.dressed rfl⟩

theorem clear_goes : Goes clear := clearEntireScreen_goes.bind home_stays.goes

theorem resetModes_stays : Stays resetModes := by
  intro s hs
  have hwrap := (hs.same.after (setMode_stays .wrap)).after (saveMode_stays .wrap)
  have horigin := (hwrap.after (resetMode_stays .origin)).after (saveMode_stays .origin)
  have hinsert := (horigin.after (resetMode_stays .insert)).after (saveMode_stays .insert)
  unfold resetModes
  exact ((hinsert.after (setMode_stays .cursor)).after (resetMode_stays .screen)).after (resetMode_stays .newLine)

theorem reset_goes (clearScreen : Bool) : Goes (reset clearScreen) := by
  intro s hs
  have hmodes := hs.same.after resetModes_stays
  unfold reset
  generalize s.resetModes = s₁ at hmodes
  have hdefault := (hmodes.after setDefaultMargins_stays).after setDefaultRendition_stays
  have hall := (hdefault.after clearCurrentHyperlink_stays).after saveCursor_stays
  simp only
  generalize s₁.setDefaultMargins.setDefaultRendition.clearCurrentHyperlink.saveCursor = s₂ at hall
  cases clearScreen with
  | false => exact ⟨_, rfl, hall⟩
  | true =>
    obtain ⟨s', hclear, hsteps⟩ := clear_goes _ hall.valid
    exact ⟨s', hclear, hall.trans hsteps⟩

theorem length_resized {α : Type} {lines newLines : Nat} {a : α} {xs : List α} (h : lines ≤ xs.length) :
    (resized lines newLines a xs).length = newLines + 1 := by
  rw [resized, List.length_append, List.length_take, List.length_replicate]
  omega

/-- The lines above the cursor's that the new screen has no room for go into the history. -/
theorem resizeImage_valid (hs : s.Valid) {newLines newColumns : Nat} (hlines : 0 < newLines) (hcolumns : 0 < newColumns) :
    ∃ s', s.resizeImage newLines newColumns = some s' ∧ s'.Valid ∧ s'.lines = newLines ∧ s'.columns = newColumns ∧
      Grown s.history s'.history := by
  by_cases hsame : newLines = s.lines ∧ newColumns = s.columns
  · exact ⟨s, if_pos hsame, hs, hsame.1.symm, hsame.2.symm, .refl _⟩
  have hdone : ∀ s₁ : Screen, s₁.Valid → (s₁.resizedTo newLines newColumns).Valid := by
    intro s₁ hs₁
    have himage := hs₁.image
    have hproperties := hs₁.properties
    exact {
      lines := hlines
      columns := hcolumns
      image := length_resized (by omega)
      properties := length_resized (by omega)
      stops := by simp [resizedTo, initTabStops, clearSelection]
      cursorX := by simp only [resizedTo, initTabStops, clearSelection]; omega
      cursorY := by simp only [resizedTo, initTabStops, clearSelection]; omega
      margins := Nat.zero_le _
      bottom := by simp only [resizedTo, initTabStops, clearSelection]; omega
      kept := hs₁.kept }
  unfold resizeImage
  rw [if_neg hsame]
  split
  · have hpositive := hs.lines
    have hmargins := hs.margins
    have hbottom := hs.bottom
    have hfirst : Steps s { s with bottomMargin := s.lines - 1 } :=
      ⟨{ hs with margins := by dsimp only; omega, bottom := by dsimp only; omega }, rfl, rfl, .refl _⟩
    obtain ⟨s₁, hpush, hsteps⟩ := pushLines_goes (s.cuY + 1 - newLines) _ hfirst.valid
    have hall := hfirst.trans hsteps
    refine ⟨s₁.resizedTo newLines newColumns, by rw [hpush]; rfl, hdone s₁ hall.valid, rfl, rfl, hall.history⟩
  · exact ⟨s.resizedTo newLines newColumns, rfl, hdone s hs, rfl, rfl, .refl _⟩

theorem new_valid {l c : Nat} (hl : 0 < l) (hc : 0 < c) (lastDrawnChar : Nat) (savedModes : ScreenMode → Bool) :
    ∃ s, new l c lastDrawnChar savedModes = some s ∧ s.Valid ∧ s.lines = l ∧ s.columns = c ∧ s.history.getType = .none := by
  have hblank : (blank l c lastDrawnChar savedModes).initTabStops.clearSelection.Valid := {
    lines := hl
    columns := hc
    image := List.length_replicate
    properties := List.length_replicate
    stops := by simp only [clearSelection, initTabStops, List.length_map, List.length_range]
    cursorX := Nat.zero_le _
    cursorY := hl
    margins := Nat.le_refl _
    bottom := hl
    kept := ⟨[], rfl⟩ }
  obtain ⟨s, hreset, hsteps⟩ := reset_goes true _ hblank
  exact ⟨s, hreset, hsteps.valid, hsteps.lines, hsteps.columns, hsteps.history.type⟩

theorem setScroll_valid (hs : s.Valid) {t : HistoryType} (ht : t ≠ .buffer 0) :
    ∃ s', s.setScroll t false = some s' ∧ s'.Valid ∧ s'.lines = s.lines ∧ s'.columns = s.columns ∧ s'.history.getType = t ∧
      s'.history.Holds [] := by
  cases t with
  | none => exact ⟨_, rfl, { hs with kept := ⟨[], rfl⟩ }, rfl, rfl, rfl, rfl⟩
  | buffer n =>
    have hpos : 0 < n := Nat.pos_of_ne_zero fun hzero => ht (by rw [hzero])
    obtain ⟨b, hnew, hmax, hkeeps⟩ := HistoryScrollBuffer.new_keeps hpos
    refine ⟨{ s.clearSelection with history := .buffer b }, ?_, { hs with kept := ⟨[], hkeeps⟩ }, rfl, rfl, ?_, hkeeps⟩
    · rw [setScroll, if_neg Bool.false_ne_true, HistoryType.scroll, hnew]
      rfl
      rintro _ ⟨⟩
    · rw [HistoryScroll.getType, hmax]

/-- The history a screen has is taken over; at first there is none. -/
theorem setScroll_first (hs : s.Valid) (hnone : s.history.getType = .none) (hn : 0 < n) :
    ∃ s', s.setScroll (.buffer n) true = some s' ∧ s'.Valid ∧ s'.history.getType = .buffer n := by
  have hempty : s.history = .none := by
    cases hhistory : s.history with
    | none => rfl
    | buffer b =>
      rw [hhistory] at hnone
      cases hnone
  obtain ⟨b, hnew, hmax, hkeeps⟩ := HistoryScrollBuffer.new_keeps hn
  refine ⟨{ s.clearSelection with history := .buffer b }, ?_, { hs with kept := ⟨[], hkeeps⟩ }, congrArg HistoryType.buffer hmax⟩
  change ((HistoryType.buffer n).scroll (some s.history)).map _ = _
  rw [hempty]
  change ((HistoryScrollBuffer.new n).map HistoryScroll.buffer).map _ = _
  rw [hnew]
  rfl

end Screen

end LvdTerm.Konsole
