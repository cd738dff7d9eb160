import Mathlib.Tactic.Ring
import LvdTerm.Konsole.DisplayCharacter

/-!
# Screen: what every operation keeps

The image has a line for each line of the screen and one to spare, and the cursor and the margins are on it. From such a screen no
operation reads or writes outside of an array, and it leaves such a screen. Only a character needs two columns: with one, a wide
character has no place.
-/
namespace LvdTerm.Konsole

open LvdTerm.Lib

/-- The history has these rows, from the oldest. -/
def HistoryScroll.Holds : HistoryScroll → List HistoryScrollBuffer.Row → Prop
  | .none, rows => rows = []
  | .buffer b, rows => b.Keeps rows

theorem HistoryScroll.Holds.getLines {history : HistoryScroll} {rows : List HistoryScrollBuffer.Row} (h : history.Holds rows) :
    history.getLines = rows.length := by
  cases history with
  | none => exact (List.length_eq_zero_iff.mpr h).symm
  | buffer b => exact h.used

namespace Screen

structure Valid (s : Screen) : Prop where
  lines : 0 < s.lines
  columns : 0 < s.columns
  image : s.screenLines.length = s.lines + 1
  properties : s.lineProperties.length = s.lines + 1
  stops : s.tabStops.length = s.columns
  cursorX : s.cuX ≤ s.columns
  cursorY : s.cuY < s.lines
  margins : s.topMargin ≤ s.bottomMargin
  bottom : s.bottomMargin < s.lines
  kept : ∃ rows, s.history.Holds rows

/-- The screen without the image, the history and what is counted along with them. -/
def frame (s : Screen) : Screen :=
  { s with
    screenLines := [], lineProperties := [], history := .none, selection := ⟨0, 0, 0, false⟩, lastPos := 0
    scrolledLines := 0, lastScrolledRegion := ⟨0, 0, 0, 0⟩, droppedLines := 0 }

variable {s s' : Screen} {n top : Nat}

/-- An image of the same size in the same frame. -/
structure Redrawn (s s' : Screen) : Prop where
  frame : s'.frame = s.frame
  image : s'.screenLines.length = s.screenLines.length
  properties : s'.lineProperties.length = s.lineProperties.length

theorem Redrawn.refl (s : Screen) : Redrawn s s := ⟨rfl, rfl, rfl⟩

theorem Redrawn.trans {s₁ s₂ s₃ : Screen} (h : Redrawn s₁ s₂) (h' : Redrawn s₂ s₃) : Redrawn s₁ s₃ :=
  ⟨h'.frame.trans h.frame, h'.image.trans h.image, h'.properties.trans h.properties⟩

theorem Redrawn.lines (h : Redrawn s s') : s'.lines = s.lines := (congrArg Screen.lines h.frame :)
theorem Redrawn.columns (h : Redrawn s s') : s'.columns = s.columns := (congrArg Screen.columns h.frame :)
theorem Redrawn.cuX (h : Redrawn s s') : s'.cuX = s.cuX := (congrArg Screen.cuX h.frame :)
theorem Redrawn.cuY (h : Redrawn s s') : s'.cuY = s.cuY := (congrArg Screen.cuY h.frame :)
theorem Redrawn.topMargin (h : Redrawn s s') : s'.topMargin = s.topMargin := (congrArg Screen.topMargin h.frame :)
theorem Redrawn.bottomMargin (h : Redrawn s s') : s'.bottomMargin = s.bottomMargin := (congrArg Screen.bottomMargin h.frame :)
theorem Redrawn.tabStops (h : Redrawn s s') : s'.tabStops = s.tabStops := (congrArg Screen.tabStops h.frame :)

theorem Valid.redrawn (hs : s.Valid) (h : Redrawn s s') (hkept : ∃ rows, s'.history.Holds rows) : s'.Valid where
  lines := by rw [h.lines]; exact hs.lines
  columns := by rw [h.columns]; exact hs.columns
  image := by rw [h.lines, h.image]; exact hs.image
  properties := by rw [h.lines, h.properties]; exact hs.properties
  stops := by rw [h.columns, h.tabStops]; exact hs.stops
  cursorX := by rw [h.cuX, h.columns]; exact hs.cursorX
  cursorY := by rw [h.cuY, h.lines]; exact hs.cursorY
  margins := by rw [h.topMargin, h.bottomMargin]; exact hs.margins
  bottom := by rw [h.bottomMargin, h.lines]; exact hs.bottom
  kept := hkept

/-! ## Positions -/

theorem loc_natCast (x y : Nat) (s : Screen) : s.loc x y = (y * s.columns + x : Nat) := by
  rw [loc, Int.natCast_add, Int.natCast_mul]

theorem loc_tdiv {x y : Nat} (hx : x < s.columns) : (s.loc x y).tdiv s.columns = y := by
  rw [loc_natCast, ← Int.ofNat_tdiv, Nat.mul_comm, Nat.mul_add_div (by omega), Nat.div_eq_of_lt hx, Nat.add_zero]

theorem loc_zero_tdiv (hs : 0 < s.columns) (y : Nat) : (s.loc 0 y).tdiv s.columns = y := loc_tdiv hs

theorem loc_tmod {x y : Nat} (hx : x < s.columns) : (s.loc x y).tmod s.columns = x := by
  rw [loc_natCast, ← Int.ofNat_tmod, Nat.mul_comm, Nat.mul_add_mod, Nat.mod_eq_of_lt hx]

/-! ## Moving -/

/-- Whole lines are moved, `n` from line `source` on, to line `dest` and those after it. -/
theorem moveImage_rows (hs : s.Valid) {dest source n : Nat} {sourceEnd : Int}
    (hn : (sourceEnd - s.loc 0 source).tdiv s.columns + 1 = n) (hdest : dest + n ≤ s.lines + 1) (hsource : source + n ≤ s.lines + 1) :
    ∃ s', s.moveImage (s.loc 0 dest) (s.loc 0 source) sourceEnd = some s' ∧ Redrawn s s' ∧ s'.history = s.history ∧
      s'.screenLines = CArray.moved n dest source s.screenLines ∧ s'.lineProperties = CArray.moved n dest source s.lineProperties := by
  have himage := hs.image
  have hproperties := hs.properties
  have hlines : CArray.move n dest source s.screenLines = some (CArray.moved n dest source s.screenLines) :=
    CArray.move_eq (by omega) (by omega)
  have hprops : CArray.move n dest source s.lineProperties = some (CArray.moved n dest source s.lineProperties) :=
    CArray.move_eq (by omega) (by omega)
  have hcolumns := hs.columns
  rw [moveImage]
  simp only [hn, loc_zero_tdiv hcolumns, Int.toNat_natCast, hlines, hprops, Option.bind_eq_bind, Option.bind_some]
  exact ⟨_, rfl, ⟨rfl, CArray.length_moved (by omega) (by omega), CArray.length_moved (by omega) (by omega)⟩, rfl, rfl, rfl⟩

/-! ## Clearing -/

/-- `f` changes line `y` and the `n - 1` after it, whose properties are reset. -/
theorem clearLines_rows {f : Int → ImageLine → Option ImageLine} {g : Nat → ImageLine → ImageLine} {y : Nat}
    (hf : ∀ k line, y ≤ k → k < y + n → f (k : Nat) line = some (g k line)) (himage : y + n ≤ s.screenLines.length)
    (hproperties : y + n ≤ s.lineProperties.length) :
    clearLines f n y s = some { s with
      screenLines := CArray.changed n y g s.screenLines
      lineProperties := CArray.changed n y (fun _ _ => 0) s.lineProperties } := by
  induction n generalizing y s with
  | zero =>
    rw [CArray.changed_zero, CArray.changed_zero]
    rfl
  | succ n ih =>
    have hline : s.screenLines[y]? = some s.screenLines[y] := List.getElem?_eq_getElem (by omega)
    have hproperty : s.lineProperties[y]? = some s.lineProperties[y] := List.getElem?_eq_getElem (by omega)
    rw [clearLines, CArray.put_natCast (by omega), Option.bind_eq_bind, Option.bind_some, CArray.get_natCast, hline,
      Option.bind_eq_bind, Option.bind_some, hf y _ (by omega) (by omega), Option.bind_eq_bind, Option.bind_some,
      CArray.put_natCast (by omega), Option.bind_some]
    have hrest := ih (y := y + 1)
      (s := { s with screenLines := s.screenLines.set y (g y s.screenLines[y]), lineProperties := s.lineProperties.set y 0 })
      (fun k line hy hk => hf k line (by omega) (by omega)) (by rw [List.length_set]; omega) (by rw [List.length_set]; omega)
    rw [← Int.natCast_succ, hrest]
    simp only [CArray.changed_succ hline, CArray.changed_succ (g := fun _ _ => 0) hproperty]

theorem clearCells_total {startCol : Int} (h : 0 ≤ startCol) (isDefaultCh : Bool) (ch : Character) (endCol columns : Int)
    (line : ImageLine) : ∃ line', clearCells isDefaultCh ch startCol endCol columns line = some line' := by
  rw [clearCells, if_neg (Int.not_lt.mpr h)]
  split <;> exact ⟨_, rfl⟩

theorem clearLine_total {loca : Int} (h : 0 ≤ loca) (loce : Int) (c : Nat) (s : Screen) (y : Int) (line : ImageLine) :
    ∃ line', s.clearLine loca loce c y line = some line' := by
  apply clearCells_total
  split
  · exact Int.tmod_nonneg _ h
  · exact Int.le_refl 0

/-- Line `y` as it is afterwards. -/
def clearedLine (loca loce : Int) (c : Nat) (s : Screen) (y : Nat) (line : ImageLine) : ImageLine :=
  (s.clearLine loca loce c y line).getD line

/-- The lines from `loca` to `loce` are cleared, in a part of them the first and the last one. -/
theorem clearImage_rows (hs : s.Valid) {loca loce : Int} (c : Nat) {y : Nat} (hloca : 0 ≤ loca) (hy : loca.tdiv s.columns = y)
    (hn : (loce.tdiv s.columns + 1 - y).toNat = n) (hlines : y + n ≤ s.lines + 1) :
    ∃ s', s.clearImage loca loce c = some s' ∧ Redrawn s s' ∧ s'.history = s.history ∧
      s'.screenLines = CArray.changed n y (s.clearedLine loca loce c) s.screenLines ∧
      s'.lineProperties = CArray.changed n y (fun _ _ => 0) s.lineProperties := by
  have himage := hs.image
  have hproperties := hs.properties
  -- clearing the selection changes nothing that is read afterwards
  have hclear : ∀ s₁ : Screen, s₁ = s ∨ s₁ = s.clearSelection →
      clearLines (s₁.clearLine loca loce c) (loce.tdiv s₁.columns + 1 - loca.tdiv s₁.columns).toNat (loca.tdiv s₁.columns) s₁ =
        some { s₁ with
          screenLines := CArray.changed n y (s.clearedLine loca loce c) s.screenLines
          lineProperties := CArray.changed n y (fun _ _ => 0) s.lineProperties } := by
    intro s₁ hs₁
    have hline : ∀ k line, s₁.clearLine loca loce c (k : Nat) line = some (s.clearedLine loca loce c k line) := by
      intro k line
      obtain ⟨line', hline'⟩ := clearLine_total hloca loce c s k line
      have hsame : s₁.clearLine loca loce c k line = s.clearLine loca loce c k line := by
        rcases hs₁ with rfl | rfl <;> rfl
      rw [hsame, clearedLine, hline']
      rfl
    have hcolumns : s₁.columns = s.columns := by rcases hs₁ with rfl | rfl <;> rfl
    have hlength : s₁.screenLines = s.screenLines ∧ s₁.lineProperties = s.lineProperties := by
      rcases hs₁ with rfl | rfl <;> exact ⟨rfl, rfl⟩
    have hrows : y + n ≤ s₁.screenLines.length := by rw [hlength.1, himage]; exact hlines
    have hprops : y + n ≤ s₁.lineProperties.length := by rw [hlength.2, hproperties]; exact hlines
    have hcleared := clearLines_rows (fun k line _ _ => hline k line) hrows hprops
    rw [hlength.1, hlength.2] at hcleared
    rw [show loca.tdiv s₁.columns = y by rw [hcolumns]; exact hy, show (loce.tdiv s₁.columns + 1 - y).toNat = n by rw [hcolumns]; exact hn]
    exact hcleared
  unfold clearImage
  simp only
  split
  · exact ⟨_, hclear _ (.inr rfl), ⟨rfl, CArray.length_changed .., CArray.length_changed ..⟩, rfl, rfl, rfl⟩
  · exact ⟨_, hclear _ (.inl rfl), ⟨rfl, CArray.length_changed .., CArray.length_changed ..⟩, rfl, rfl, rfl⟩

/-- A line all of whose columns are cleared. -/
def blanked (c : Nat) (s : Screen) (line : ImageLine) : ImageLine :=
  let clearCh : Character := ⟨c, UInt8.ofNat DEFAULT_RENDITION, s.currentForeground, s.currentBackground, 0⟩
  if clearCh = defaultChar then [] else List.replicate s.columns clearCh ++ line.drop s.columns

theorem blanked_frame (h : s'.frame = s.frame) (c : Nat) : s'.blanked c = s.blanked c := by
  have hcolumns : s'.columns = s.columns := (congrArg Screen.columns h :)
  have hforeground : s'.currentForeground = s.currentForeground := (congrArg Screen.currentForeground h :)
  have hbackground : s'.currentBackground = s.currentBackground := (congrArg Screen.currentBackground h :)
  funext line
  rw [blanked, blanked, hcolumns, hforeground, hbackground]

theorem clearedLine_whole (hs : 0 < s.columns) {first last : Nat} (c y : Nat) (line : ImageLine) :
    s.clearedLine (s.loc 0 first) (s.loc (s.columns - 1) last) c y line = s.blanked c line := by
  have hlast : s.loc (s.columns - 1) last = s.loc (s.columns - 1 : Nat) last := by rw [Int.natCast_sub hs]; rfl
  have hstart : (if (y : Int) = (s.loc 0 first).tdiv s.columns then (s.loc 0 first).tmod s.columns else 0) = 0 := by
    rw [show (s.loc 0 first).tmod s.columns = 0 from loc_tmod hs, ite_self]
  have hstop : (if (y : Int) = (s.loc (s.columns - 1) last).tdiv s.columns then (s.loc (s.columns - 1) last).tmod s.columns
      else (s.columns : Int) - 1) = s.columns - 1 := by
    rw [hlast, loc_tmod (by omega), Int.natCast_sub hs]
    exact ite_self _
  unfold clearedLine clearLine clearCells blanked
  simp only [hstart, hstop, Int.lt_irrefl, if_false, and_true, decide_eq_true_eq, Int.toNat_zero, Int.sub_add_cancel,
    Int.toNat_natCast, Int.sub_zero]
  split
  · rw [Option.getD_some, ImageLine.resize, List.take_zero, List.nil_append, Nat.zero_sub, List.replicate_zero]
  · have hdrop : (line.resizeUp s.columns).drop s.columns = line.drop s.columns := by
      unfold ImageLine.resizeUp
      split
      · rw [List.drop_eq_nil_of_le (by simp), List.drop_eq_nil_of_le (by omega)]
      · rfl
    rw [if_pos (by omega), Option.getD_some, List.take_zero, List.nil_append, hdrop]

/-- Whole lines `first .. last` are cleared. -/
theorem clearImage_whole (hs : s.Valid) (first c : Nat) (hn : n ≠ 0) (hlast : first + n ≤ s.lines) :
    ∃ s', s.clearImage (s.loc 0 first) (s.loc (s.columns - 1) ((first : Int) + n - 1)) c = some s' ∧ Redrawn s s' ∧
      s'.history = s.history ∧ s'.screenLines = CArray.changed n first (fun _ => s.blanked c) s.screenLines ∧
      s'.lineProperties = CArray.changed n first (fun _ _ => 0) s.lineProperties := by
  have hcolumns := hs.columns
  have hend : s.loc (s.columns - 1) ((first : Int) + n - 1) = s.loc (s.columns - 1 : Nat) (first + n - 1 : Nat) := by
    rw [Int.natCast_sub hcolumns, Int.natCast_sub (by omega), Int.natCast_add]
    rfl
  have hcount : ((s.loc (s.columns - 1) ((first : Int) + n - 1)).tdiv s.columns + 1 - first).toNat = n := by
    rw [hend, loc_tdiv (by omega)]
    omega
  have hlines : s.clearedLine (s.loc 0 first) (s.loc (s.columns - 1) ((first : Int) + n - 1)) c = fun _ => s.blanked c := by
    funext y line
    rw [show ((first : Int) + n - 1) = (first + n - 1 : Nat) by omega]
    exact clearedLine_whole hcolumns c y line
  have hloca : 0 ≤ s.loc 0 first := by rw [← Int.ofNat_zero, loc_natCast]; exact Int.natCast_nonneg _
  have hcleared := clearImage_rows hs c hloca (loc_zero_tdiv hcolumns first) hcount (by omega)
  rwa [hlines] at hcleared

/-! ## Scrolling -/

/-- The lines `top .. bottomMargin` move up by `m`, and the last `m` of them are blank. -/
theorem scrollUpFrom_rows (hs : s.Valid) {m : Nat} (hn : n ≠ 0) (htop : top ≤ s.bottomMargin)
    (hm : (if top + n > s.bottomMargin then s.bottomMargin + 1 - top else n) = m) :
    ∃ s', s.scrollUpFrom top n = some s' ∧ Redrawn s s' ∧ s'.history = s.history ∧
      s'.screenLines = CArray.changed m (s.bottomMargin + 1 - m) (fun _ => s.blanked 0x20)
        (CArray.moved (s.bottomMargin + 2 - top - m) top (top + m) s.screenLines) ∧
      s'.lineProperties = CArray.changed m (s.bottomMargin + 1 - m) (fun _ _ => 0)
        (CArray.moved (s.bottomMargin + 2 - top - m) top (top + m) s.lineProperties) := by
  have hcolumns := hs.columns
  have hbottom := hs.bottom
  have hpos : 0 < m ∧ top + m ≤ s.bottomMargin + 1 := by split at hm <;> omega
  rw [scrollUpFrom, if_neg (by omega)]
  simp only [hm]
  generalize hcounted : ({ s with
    scrolledLines := s.scrolledLines - m
    lastScrolledRegion := ⟨0, s.topMargin, s.columns - 1, s.bottomMargin - s.topMargin⟩ } : Screen) = s₁
  have hframe : Redrawn s s₁ := by subst hcounted; exact ⟨rfl, rfl, rfl⟩
  have hhistory : s₁.history = s.history := by subst hcounted; rfl
  have hs₁ : s₁.Valid := hs.redrawn hframe (by rw [hhistory]; exact hs.kept)
  have hcount : (s₁.loc s.columns s.bottomMargin - s₁.loc 0 (top + m : Nat)).tdiv s₁.columns + 1 = (s.bottomMargin + 2 - top - m : Nat) := by
    have hdiff : s₁.loc s.columns s.bottomMargin - s₁.loc 0 (top + m : Nat) = (s.bottomMargin + 1 - (top + m) : Nat) * s₁.columns := by
      rw [loc, loc, hframe.columns, Int.natCast_sub (by omega)]
      push_cast
      ring
    rw [hdiff, Int.mul_tdiv_cancel _ (by rw [hframe.columns]; omega)]
    omega
  obtain ⟨s₂, hmove, hdrawn, hsame, himage, hprops⟩ := moveImage_rows hs₁ hcount (by rw [hframe.lines]; omega : top + _ ≤ _) (by rw [hframe.lines]; omega)
  have hs₂ := hs₁.redrawn hdrawn (by rw [hsame]; exact hs₁.kept)
  have hall := hframe.trans hdrawn
  have hbottom₂ := hall.bottomMargin
  obtain ⟨s₃, hclear, hredrawn, hkept, himage₃, hprops₃⟩ := clearImage_whole hs₂ (s.bottomMargin + 1 - m) 0x20 hpos.1.ne'
    (by rw [hall.lines]; omega)
  have hfirst : (s₂.bottomMargin : Int) - m + 1 = (s.bottomMargin + 1 - m : Nat) := by omega
  have hlast : (s₂.bottomMargin : Int) = (s.bottomMargin + 1 - m : Nat) + (m : Int) - 1 := by omega
  have hlines : s₁.screenLines = s.screenLines ∧ s₁.lineProperties = s.lineProperties := by subst hcounted; exact ⟨rfl, rfl⟩
  refine ⟨s₃, ?_, hall.trans hredrawn, hkept.trans (hsame.trans hhistory), ?_, ?_⟩
  · rw [← Int.natCast_add, hmove, Option.bind_eq_bind, Option.bind_some, hfirst, hlast]
    exact hclear
  · rw [himage₃, himage, hlines.1, blanked_frame hall.frame]
  · rw [hprops₃, hprops, hlines.2]

/-- The end -1 is line 0, column -1, for a division that rounds towards zero; nothing of the line is cleared. -/
theorem clearedLine_minusOne (hs : 1 < s.columns) (c : Nat) (line : ImageLine) : s.clearedLine (s.loc 0 0) (-1) c 0 line = line := by
  have hone : (1 : Int).tmod s.columns = 1 := by
    rw [Int.tmod_eq_emod_of_nonneg (by decide)]
    exact Int.emod_eq_of_lt (by decide) (by omega)
  have hstop : (-1 : Int).tdiv s.columns = 0 ∧ (-1 : Int).tmod s.columns = -1 := by
    rw [Int.neg_tdiv, Int.neg_tmod, hone, Int.tdiv_eq_zero_of_lt (by decide) (by omega)]
    decide
  have hstart : (s.loc 0 0).tmod s.columns = 0 := loc_tmod (x := 0) (y := 0) (by omega)
  unfold clearedLine clearLine clearCells
  simp only [hstop.1, hstop.2, hstart, ite_self, Int.ofNat_zero, if_true, Int.lt_irrefl, if_false]
  rw [if_neg (by omega), if_neg (by decide)]
  exact ImageLine.resizeUp_of_le (Nat.zero_le _)

/-- Clearing up to the line before the first one leaves the lines as they are. -/
theorem clearImage_nothing (hs : s.Valid) (htop : top < s.lines) (c : Nat) :
    ∃ s', s.clearImage (s.loc 0 top) (s.loc (s.columns - 1) ((top : Int) + (0 : Nat) - 1)) c = some s' ∧ Redrawn s s' ∧
      s'.history = s.history ∧ s'.screenLines = s.screenLines := by
  have hcolumns := hs.columns
  have hloca : 0 ≤ s.loc 0 top := by rw [← Int.ofNat_zero, loc_natCast]; exact Int.natCast_nonneg _
  have hy := loc_zero_tdiv hcolumns top
  by_cases hfirst : top = 0
  · subst hfirst
    have hend : s.loc (s.columns - 1) (((0 : Nat) : Int) + (0 : Nat) - 1) = -1 := by
      rw [loc]
      push_cast
      ring
    rw [hend]
    by_cases hone : s.columns = 1
    · obtain ⟨s', hclear, hdrawn, hsame, himage, -⟩ := clearImage_rows hs c hloca hy
        (show ((-1 : Int).tdiv s.columns + 1 - (0 : Nat)).toNat = 0 by rw [hone]; decide) (by omega)
      exact ⟨s', hclear, hdrawn, hsame, by rw [himage, CArray.changed_zero]⟩
    · have hcount : ((-1 : Int).tdiv s.columns + 1 - (0 : Nat)).toNat = 1 := by
        rw [Int.neg_tdiv, Int.tdiv_eq_zero_of_lt (by decide) (by omega)]
        decide
      obtain ⟨s', hclear, hdrawn, hsame, himage, -⟩ := clearImage_rows hs c hloca hy hcount (by omega)
      refine ⟨s', hclear, hdrawn, hsame, himage.trans (List.ext_getElem? fun k => ?_)⟩
      rw [CArray.getElem?_changed]
      split
      next hk =>
        obtain rfl : k = 0 := by omega
        rw [show s.clearedLine (s.loc 0 (0 : Nat)) (-1) c 0 = id from funext (clearedLine_minusOne (by omega) c), Option.map_id]
        rfl
      next => rfl
  · have hend : s.loc (s.columns - 1) ((top : Int) + (0 : Nat) - 1) = s.loc (s.columns - 1 : Nat) (top - 1 : Nat) := by
      rw [Int.natCast_sub hcolumns, Int.natCast_sub (by omega)]
      simp
    have hcount : ((s.loc (s.columns - 1) ((top : Int) + (0 : Nat) - 1)).tdiv s.columns + 1 - top).toNat = 0 := by
      rw [hend, loc_tdiv (by omega)]
      omega
    obtain ⟨s', hclear, hdrawn, hsame, himage, -⟩ := clearImage_rows hs c hloca hy hcount (by omega)
    exact ⟨s', hclear, hdrawn, hsame, by rw [himage, CArray.changed_zero]⟩

/-- The lines `top .. bottomMargin` move down by `m`, and the first `m` of them are blank. -/
theorem scrollDownFrom_rows (hs : s.Valid) {m : Nat} (hn : n ≠ 0) (htop : top ≤ s.bottomMargin)
    (hm : (if top + n > s.bottomMargin then s.bottomMargin - top else n) = m) :
    ∃ s', s.scrollDownFrom top n = some s' ∧ Redrawn s s' ∧ s'.history = s.history ∧
      s'.screenLines = CArray.changed m top (fun _ => s.blanked 0x20)
        (CArray.moved (s.bottomMargin + 1 - top - m) (top + m) top s.screenLines) := by
  have hcolumns := hs.columns
  have hbottom := hs.bottom
  have hle : top + m ≤ s.bottomMargin := by split at hm <;> omega
  rw [scrollDownFrom]
  generalize hcounted : ({ s with scrolledLines := s.scrolledLines + n } : Screen) = s₁
  have hframe : Redrawn s s₁ := by subst hcounted; exact ⟨rfl, rfl, rfl⟩
  have hhistory : s₁.history = s.history := by subst hcounted; rfl
  have hlines : s₁.screenLines = s.screenLines := by subst hcounted; rfl
  have hs₁ : s₁.Valid := hs.redrawn hframe (by rw [hhistory]; exact hs.kept)
  have hcolumns₁ := hframe.columns
  have hbottom₁ := hframe.bottomMargin
  rw [if_neg (by omega)]
  simp only [hbottom₁, hm]
  have hcount : (s₁.loc (s₁.columns - 1) (s.bottomMargin - m) - s₁.loc 0 top).tdiv s₁.columns + 1 = (s.bottomMargin + 1 - top - m : Nat) := by
    have hdiff : s₁.loc (s₁.columns - 1) (s.bottomMargin - m) - s₁.loc 0 top =
        s₁.loc (s₁.columns - 1 : Nat) (s.bottomMargin - m - top : Nat) := by
      rw [loc, loc, loc, Int.natCast_sub (by omega), Int.natCast_sub (by omega), Int.natCast_sub (by omega)]
      push_cast
      ring
    rw [hdiff, loc_tdiv (by omega)]
    omega
  obtain ⟨s₂, hmove, hdrawn, hsame, himage, -⟩ := moveImage_rows hs₁ hcount (by rw [hframe.lines]; omega : top + m + _ ≤ _)
    (by rw [hframe.lines]; omega)
  have hs₂ := hs₁.redrawn hdrawn (by rw [hsame]; exact hs₁.kept)
  have hall := hframe.trans hdrawn
  rw [← Int.natCast_add, hmove, Option.bind_eq_bind, Option.bind_some]
  by_cases hzero : m = 0
  · obtain ⟨s₃, hclear, hredrawn, hkept, himage₃⟩ := clearImage_nothing hs₂ (show top < s₂.lines by rw [hall.lines]; omega) 0x20
    subst hzero
    refine ⟨s₃, hclear, hall.trans hredrawn, hkept.trans (hsame.trans hhistory), ?_⟩
    rw [himage₃, himage, hlines, CArray.changed_zero]
  · obtain ⟨s₃, hclear, hredrawn, hkept, himage₃, -⟩ := clearImage_whole hs₂ top 0x20 hzero (by rw [hall.lines]; omega)
    refine ⟨s₃, hclear, hall.trans hredrawn, hkept.trans (hsame.trans hhistory), ?_⟩
    rw [himage₃, himage, hlines, blanked_frame hall.frame]

end Screen

end LvdTerm.Konsole
