import LvdTerm.Konsole.TerminalSession

/-!
# What the host prints is what the screen shows

Characters of one column that fit into the cursor's line are in its cells afterwards, in the colors of the pen, and nothing else on
the screen has changed (`text_appears`).
-/
namespace LvdTerm.Konsole

open LvdTerm.Lib

/-- The cells from column `x` on are written into the line, which is as long as they need then; no other one has changed. -/
structure Written (x : Nat) (cells : List Character) (row row' : ImageLine) : Prop where
  grows : row.length ≤ row'.length
  inside : ∀ i (h : i < cells.length), row'[x + i]? = some cells[i]
  others : ∀ j, j < row.length → j < x ∨ x + cells.length ≤ j → row'[j]? = row[j]?

variable {x : Nat} {row row' row₁ row₂ : ImageLine} {cells : List Character} {a : Character}

theorem Written.nil (x : Nat) (row : ImageLine) : Written x [] row row :=
  ⟨Nat.le_refl _, fun i h => absurd h (Nat.not_lt_zero i), fun _ _ _ => rfl⟩

theorem Written.lt_length (h : Written x [a] row row') : x < row'.length := by
  have hcell := h.inside 0 (Nat.zero_lt_one)
  exact (List.getElem?_eq_some_iff.mp hcell).1

theorem Written.cons (h : Written x [a] row row₁) (h' : Written (x + 1) cells row₁ row₂) : Written x (a :: cells) row row₂ where
  grows := Nat.le_trans h.grows h'.grows
  inside i hi := by
    cases i with
    | zero =>
      rw [Nat.add_zero, h'.others x h.lt_length (.inl (Nat.lt_succ_self x))]
      exact h.inside 0 Nat.zero_lt_one
    | succ i =>
      have hcell := h'.inside i (Nat.lt_of_succ_lt_succ hi)
      rw [Nat.add_right_comm] at hcell
      exact hcell
  others j hj hout := by
    have hlength : (a :: cells).length = cells.length + 1 := List.length_cons
    rw [h'.others j (Nat.lt_of_lt_of_le hj h.grows) (by omega)]
    exact h.others j hj (by rw [List.length_singleton]; omega)

theorem getElem?_resizeUp {n j : Nat} (hj : j < row.length) : (row.resizeUp n)[j]? = row[j]? := by
  unfold ImageLine.resizeUp
  split
  · rw [ImageLine.resize, List.take_of_length_le (by omega), List.getElem?_append_left hj]
  · rfl

/-- The line is made long enough, and the cell set. -/
theorem written_single (x : Nat) (a : Character) (row : ImageLine) : Written x [a] row ((row.resizeUp (x + 1)).set x a) where
  grows := by
    rw [List.length_set, ImageLine.length_resizeUp]
    omega
  inside i hi := by
    obtain rfl : i = 0 := Nat.lt_one_iff.mp hi
    exact List.getElem?_set_self (by rw [ImageLine.length_resizeUp]; omega)
  others j hj hout := by
    rw [List.length_singleton] at hout
    rw [List.getElem?_set_ne (by omega), getElem?_resizeUp hj]

namespace Screen

variable {s s' s₁ s₂ : Screen} {c : Nat}

/-- The cells are in the cursor's line, and the cursor is behind them. -/
structure Printed (cells : List Character) (s s' : Screen) : Prop where
  count : s'.screenLines.length = s.screenLines.length
  cursor : s'.cuX = s.cuX + cells.length ∧ s'.cuY = s.cuY
  columns : s'.columns = s.columns
  pen : s'.penned = fun c => s.penned c
  insert : s'.getMode .insert = s.getMode .insert
  row : ∃ line line', s.screenLines[s.cuY]? = some line ∧ s'.screenLines[s.cuY]? = some line' ∧ Written s.cuX cells line line'
  rows : ∀ y, y ≠ s.cuY → s'.screenLines[y]? = s.screenLines[y]?
  properties : s'.lineProperties = s.lineProperties
  history : s'.history = s.history

theorem Printed.nil (hcursor : s.cuY < s.screenLines.length) : Printed [] s s := by
  have hline : s.screenLines[s.cuY]? = some s.screenLines[s.cuY] := List.getElem?_eq_getElem hcursor
  exact ⟨rfl, ⟨rfl, rfl⟩, rfl, rfl, rfl, ⟨_, _, hline, hline, .nil _ _⟩, fun _ _ => rfl, rfl, rfl⟩

theorem Printed.cons {cells : List Character} {a : Character} (h : Printed [a] s s₁) (h' : Printed cells s₁ s₂) : Printed (a :: cells) s s₂ := by
  obtain ⟨line, line₁, hline, hline₁, hwritten⟩ := h.row
  obtain ⟨line₁', line₂, hline₁', hline₂, hwritten'⟩ := h'.row
  obtain ⟨hcuX, hcuY⟩ := h.cursor
  obtain ⟨hcuX', hcuY'⟩ := h'.cursor
  rw [hcuY] at hline₁' hline₂
  obtain rfl : line₁ = line₁' := Option.some.inj (hline₁.symm.trans hline₁')
  rw [hcuX, List.length_singleton] at hwritten'
  refine ⟨h'.count.trans h.count, ⟨?_, hcuY'.trans hcuY⟩, h'.columns.trans h.columns, h'.pen.trans h.pen, h'.insert.trans h.insert,
    ⟨line, line₂, hline, hline₂, hwritten.cons hwritten'⟩, fun y hy => ?_,
    h'.properties.trans h.properties, h'.history.trans h.history⟩
  · rw [hcuX', hcuX, List.length_singleton, List.length_cons]
    omega
  · rw [h'.rows y (by rw [hcuY]; exact hy), h.rows y hy]

theorem touch_same (s : Screen) : ∃ lastPos selection, s.touch = { s with lastPos := lastPos, selection := selection } := by
  unfold touch checkSelection
  simp only
  split
  · exact ⟨_, _, rfl⟩
  · exact ⟨_, _, rfl⟩

theorem changeLine_some {y : Nat} {line line' : ImageLine} {f : ImageLine → Option ImageLine} (hline : s.screenLines[y]? = some line)
    (hf : f line = some line') : s.changeLine y f = some { s with screenLines := s.screenLines.set y line' } := by
  rw [changeLine, hline, Option.bind_eq_bind, Option.bind_some, hf]
  rfl

/-- In the middle of a line, and without inserting. -/
theorem putCharacter_eq {line : ImageLine} (hline : s.screenLines[s.cuY]? = some line) (hinsert : s.getMode .insert = false)
    (hroom : s.cuX < s.columns) (c : Nat) :
    ∃ lastPos selection, s.putCharacter c 1 = some { s with
      screenLines := s.screenLines.set s.cuY ((line.resizeUp (s.cuX + 1)).set s.cuX (s.penned c))
      lastPos := lastPos, selection := selection, lastDrawnChar := c % 2 ^ 16, cuX := s.cuX + 1 } := by
  have hwrap : s.wrapFor 1 = some s := if_neg (by omega)
  have hresize := changeLine_some hline (f := fun line => some (line.resizeUp (s.cuX + 1))) rfl
  have hcursor : s.cuY < s.screenLines.length := (List.getElem?_eq_some_iff.mp hline).1
  have hlonger : (s.screenLines.set s.cuY (line.resizeUp (s.cuX + 1)))[s.cuY]? = some (line.resizeUp (s.cuX + 1)) :=
    List.getElem?_set_self hcursor
  have hfits : s.cuX < (line.resizeUp (s.cuX + 1)).length := by
    rw [ImageLine.length_resizeUp]
    omega
  generalize line.resizeUp (s.cuX + 1) = long at hresize hlonger hfits
  obtain ⟨s₂, hs₂⟩ : ∃ s₂, s₂ = { s with screenLines := s.screenLines.set s.cuY long } := ⟨_, rfl⟩
  rw [← hs₂] at hresize
  have hroomy : s₂.makeRoom 1 = some s₂ := by
    have hsame : s₂.getMode .insert = false := by rw [hs₂]; exact hinsert
    rw [makeRoom, hsame]
    rfl
  obtain ⟨lastPos, selection, htouch⟩ := touch_same s₂
  have hset : s₂.touch.setCell s₂.touch.cuX s₂.touch.cuY (s₂.touch.penned c) =
      some { s₂.touch with screenLines := s.screenLines.set s.cuY (long.set s.cuX (s.penned c)) } := by
    rw [htouch, hs₂, setCell]
    have hcell := changeLine_some (s := { s with screenLines := s.screenLines.set s.cuY long, lastPos := lastPos, selection := selection })
      (y := s.cuY) (f := fun line => if s.cuX < line.length then some (line.set s.cuX (s.penned c)) else none) hlonger (if_pos hfits)
    rw [List.set_set] at hcell
    exact hcell
  refine ⟨lastPos, selection, ?_⟩
  rw [putCharacter, hwrap]
  simp only [Option.bind_eq_bind, Option.bind_some, hresize, hroomy, hset]
  rw [htouch, hs₂]
  rfl

theorem putCharacter_prints (hcursor : s.cuY < s.screenLines.length) (hinsert : s.getMode .insert = false) (hroom : s.cuX < s.columns)
    (c : Nat) : ∃ s', s.putCharacter c 1 = some s' ∧ Printed [s.penned c] s s' := by
  have hline : s.screenLines[s.cuY]? = some s.screenLines[s.cuY] := List.getElem?_eq_getElem hcursor
  obtain ⟨lastPos, selection, hput⟩ := putCharacter_eq hline hinsert hroom c
  exact ⟨_, hput, List.length_set, ⟨rfl, rfl⟩, rfl, rfl, rfl, ⟨_, _, hline, List.getElem?_set_self hcursor, written_single _ _ _⟩,
    fun y hy => List.getElem?_set_ne (Ne.symm hy), rfl, rfl⟩

theorem displayCharacter_prints (hcursor : s.cuY < s.screenLines.length) (hinsert : s.getMode .insert = false) (hroom : s.cuX < s.columns)
    {env : Widths} (hwidth : env.width c = 1) (hletter : isRegionalIndicator c = false) (t : ExtendedCharTable) :
    ∃ s', s.displayCharacter env c t = some (s', t) ∧ Printed [s.penned c] s s' := by
  obtain ⟨s', hput, hprinted⟩ := putCharacter_prints hcursor hinsert hroom c
  refine ⟨s', ?_, hprinted⟩
  unfold displayCharacter
  simp only [hwidth, hletter]
  rw [if_neg (by decide), if_neg (by decide)]
  change (s.putCharacter c 1).map _ = _
  rw [hput]
  rfl

end Screen
namespace Emulation

variable {e : Emulation} {cc n : Nat} {env : Widths}

/-- Between two tokens, with the plain character set and room for `n` characters in the cursor's line. -/
structure Ready (n : Nat) (e : Emulation) : Prop where
  ansi : e.getMode .ansi = true
  start : e.tokenizer.tokenBufferPos = 0
  graphic : (e.charset e.currentScreen).graphic = false
  pound : (e.charset e.currentScreen).pound = false
  insert : (e.screen e.currentScreen).getMode .insert = false
  row : (e.screen e.currentScreen).cuY < (e.screen e.currentScreen).screenLines.length
  room : (e.screen e.currentScreen).cuX + n ≤ (e.screen e.currentScreen).columns

/-- What takes one column, and is not a control character. -/
structure Plain (env : Widths) (cc : Nat) : Prop where
  printable : 32 ≤ cc ∧ cc ≠ DEL ∧ cc ≠ ESC + 128
  width : env.width cc = 1
  letter : isRegionalIndicator cc = false

theorem applyCharset_plain (hgraphic : (e.charset e.currentScreen).graphic = false) (hpound : (e.charset e.currentScreen).pound = false)
    (cc : Nat) : e.applyCharset cc = cc := by
  simp only [applyCharset, hgraphic, hpound, Bool.false_eq_true, false_and, if_false]

theorem scanAnsi_plain (env : Widths) (urls : Urls) (again : Nat → Emulation → Option Emulation) (hpos : e.tokenizer.tokenBufferPos = 1)
    (hfirst : e.tokenizer.tokenBuffer 0 = cc) (hcc : 32 ≤ cc ∧ cc ≠ DEL ∧ cc ≠ ESC + 128) :
    e.scanAnsi env urls again cc = e.finish env .chr (e.applyCharset cc) 0 := by
  obtain ⟨hprintable, -, hcsi⟩ := hcc
  have hescape : e.tokenizer.lec 1 0 ESC = false := decide_eq_false fun h => absurd (hfirst.symm.trans h.2) (by rw [ESC]; omega)
  have hone : e.tokenizer.lec 1 0 (ESC + 128) = false := decide_eq_false fun h => hcsi (hfirst.symm.trans h.2)
  have hgroup : e.tokenizer.les 2 1 GRP = false := decide_eq_false fun h => absurd h.1 (by omega)
  have hinside : e.tokenizer.cse = false := decide_eq_false fun h => absurd h.1 (by omega)
  have hend : e.tokenizer.cte cc = false := decide_eq_false fun h => absurd (hinside.symm.trans h.1) Bool.false_ne_true
  have hmark : e.tokenizer.les 3 2 (oneOf "?>!<=") = false := decide_eq_false fun h => absurd h.1 (by omega)
  unfold scanAnsi
  simp only [hescape, hone, hgroup, hinside, hend, hmark, Bool.false_eq_true, if_false]
  rw [if_pos ⟨hpos, hprintable⟩]

theorem receiveChar_prints (h : Ready (n + 1) e) (urls : Urls) (hcc : Plain env cc) :
    ∃ s t, e.receiveChar env urls cc = some { e with screen := Function.update e.screen e.currentScreen s, tokenizer := t } ∧
      t.tokenBufferPos = 0 ∧ Screen.Printed [(e.screen e.currentScreen).penned cc] (e.screen e.currentScreen) s := by
  have hroom := h.room
  obtain ⟨hprintable, hdel, hcsi⟩ := hcc.printable
  obtain ⟨s, hdisplay, hprinted⟩ := Screen.displayCharacter_prints h.row h.insert (by omega) hcc.width hcc.letter e.table
  refine ⟨s, (e.tokenizer.addToCurrentToken cc).reset, ?_, rfl, hprinted⟩
  have houtside : e.tokenizer.cse = false := decide_eq_false fun hinside => absurd hinside.1 (by rw [h.start]; omega)
  have hfirst : (e.tokenizer.addToCurrentToken cc).tokenBuffer 0 = cc := by
    change Function.update e.tokenizer.tokenBuffer e.tokenizer.tokenBufferPos cc 0 = cc
    rw [h.start, Function.update_self]
  have hpos : (e.tokenizer.addToCurrentToken cc).tokenBufferPos = 1 := by
    rw [Tokenizer.addToCurrentToken, h.start]
    rfl
  unfold receiveChar receiveCharWith
  rw [if_neg hdel, if_neg fun hctl => absurd (of_decide_eq_true hctl.1) (by omega), if_neg fun hreset => absurd (houtside.symm.trans hreset.1)
    Bool.false_ne_true, scan]
  have hansi : (e.onTokenizer (Tokenizer.addToCurrentToken cc)).getMode .ansi = true := h.ansi
  have hplain : (e.onTokenizer (Tokenizer.addToCurrentToken cc)).applyCharset cc = cc := applyCharset_plain h.graphic h.pound cc
  simp only
  rw [if_pos hansi, scanAnsi_plain (e := e.onTokenizer (Tokenizer.addToCurrentToken cc)) env urls _ hpos hfirst hcc.printable, hplain, finish,
    processToken]
  change ((displayCharacter env cc (e.onTokenizer (Tokenizer.addToCurrentToken cc))).bind (performAll env [])).map resetTokenizer = _
  have hshown : displayCharacter env cc (e.onTokenizer (Tokenizer.addToCurrentToken cc)) =
      some { e.onTokenizer (Tokenizer.addToCurrentToken cc) with screen := Function.update e.screen e.currentScreen s } := by
    rw [displayCharacter]
    change (Screen.displayCharacter env cc (e.screen e.currentScreen) e.table).bind _ = _
    rw [hdisplay]
    rfl
  rw [hshown]
  rfl

/-- At the beginning of the screen, in ANSI mode. -/
def atHome : Emulation :=
  { blank (.blank 24 80 0 fun _ => false) (.blank 24 80 0 fun _ => false) zeroed.table zeroed.links zeroed.codes zeroed.tokenizer with
    currentModes := fun m => m = .ansi }

end Emulation

end LvdTerm.Konsole
