import LvdTerm.Ui.SyntaxHighlighter

/-!
# SyntaxHighlighter: the scanners end and mark in order

Each branch of `scanCode` reads inside the line, marks between the position it starts from and the one it goes on to, and goes on
further right; only a line that was entered inside a comment or string may first leave that where it stands. The measure is therefore
twice what is left of the line, and one more while something is open.
-/
namespace LvdTerm.Ui.SyntaxHighlighter

open Lib.Scanning

variable {chars : QCharClasses} {config : SyntaxConfig} {text : QString}

/-! ## scanCode -/

/-- What is left: twice the rest of the line, and one more in a comment or string. -/
def left (text : QString) (s : Cursor) : Nat := 2 * (text.length - s.i) + if s.state = kNormal then 0 else 1

abbrev Goes (text : QString) (s : Cursor) (step : Step) : Prop := step.Goes text.length Cursor.i (left text) s

theorem left_lt {s s' : Cursor} (h : s.i < s'.i) (hn : s'.i ≤ text.length) : left text s' < left text s := by
  unfold left
  split <;> split <;> omega

theorem goes_mark {s s' : Cursor} {count : Int} {format : Format} (h : s.i < s'.i) (hn : s'.i ≤ text.length) (hcount : 0 ≤ count)
    (hend : s.i + count ≤ s'.i) : Goes text s (.next (setFormat s.i count format) s') :=
  ⟨between_single (Int.le_refl _) hcount hend, hn, left_lt h hn⟩

theorem goes_quiet {s s' : Cursor} (h : s.i < s'.i) (hn : s'.i ≤ text.length) : Goes text s (.next [] s') :=
  ⟨between_nil (by omega), hn, left_lt h hn⟩

/-- To the end of the line. -/
theorem goes_stop {s : Cursor} {format : Format} {state : Int} (h : s.i ≤ text.length) :
    Goes text s (.stop (setFormat s.i (text.length - s.i) format) state) :=
  between_single (Int.le_refl _) (by omega) (by omega)

theorem carried_goes {s : Cursor} (h : s.i ≤ text.length) (hopen : s.state ≠ kNormal) : Goes text s (carried config text s) := by
  unfold carried
  dsimp only
  split
  · exact goes_stop h
  · next e he =>
    obtain ⟨hle, hlast⟩ := indexOf_bounds he
    refine ⟨between_single (Int.le_refl _) (by omega) (by dsimp only; omega), hlast, ?_⟩
    dsimp only [left]
    rw [if_pos rfl, if_neg hopen]
    omega

/-- A branch reads inside the line, and where it is taken it goes on. -/
def Fits (text : QString) (s : Cursor) (branch : Branch) : Prop := ∃ taken, branch = some taken ∧ ∀ step ∈ taken, Goes text s step

theorem fits_not_taken {s : Cursor} : Fits text s (some none) := ⟨none, rfl, nofun⟩

theorem fits_taken {s : Cursor} {step : Step} (h : Goes text s step) : Fits text s (some (some step)) :=
  ⟨some step, rfl, fun _ heq => Option.some.inj heq ▸ h⟩

theorem firstOf_fits {s : Cursor} {branches : List Branch} (h : ∀ branch ∈ branches, Fits text s branch) :
    Fits text s (firstOf branches) := by
  induction branches with
  | nil => exact fits_not_taken
  | cons branch rest ih =>
    obtain ⟨taken, rfl, htaken⟩ := h branch List.mem_cons_self
    cases taken with
    | none => exact ih fun other hother => h other (List.mem_cons_of_mem _ hother)
    | some step => exact fits_taken (htaken step rfl)

theorem startsWith_total {i : Nat} (h : i ≤ text.length) (needle : QString) :
    ∃ b, startsWith text i needle = some b ∧ (b = true → 0 < needle.length ∧ i + needle.length ≤ text.length) := by
  unfold startsWith
  split
  · exact ⟨false, rfl, nofun⟩
  · next hne =>
    obtain ⟨b, hb, hlast⟩ := continues_total h needle
    exact ⟨b, hb, fun htrue => ⟨List.length_pos_iff.mpr hne, hlast htrue⟩⟩

section Branches

variable {s : Cursor} {ch : QChar}

theorem opensComment_total (chars : QCharClasses) (config : SyntaxConfig) {i : Nat} (h : i < text.length) (markers : List QString) :
    ∃ b, opensComment chars config text i markers = some b := by
  induction markers with
  | nil => exact ⟨false, rfl⟩
  | cons marker rest ih =>
    obtain ⟨found, hfound, -⟩ := startsWith_total (Nat.le_of_lt h) marker
    unfold opensComment
    rw [hfound, Option.bind_eq_bind, Option.bind_some]
    split
    · split
      · obtain ⟨before, hbefore⟩ := getElem?_total (show i - 1 < text.length by omega)
        rw [hbefore, Option.bind_eq_bind, Option.bind_some]
        split
        · exact ⟨true, rfl⟩
        · exact ih
      · exact ⟨true, rfl⟩
    · exact ih

theorem lineComment_fits (h : s.i < text.length) : Fits text s (lineComment chars config text s) := by
  obtain ⟨opens, hopens⟩ := opensComment_total chars config h config.lineComments
  unfold lineComment
  rw [hopens, Option.bind_eq_bind, Option.bind_some]
  split
  · exact fits_taken (goes_stop (Nat.le_of_lt h))
  · exact fits_not_taken

theorem blockComment_fits (h : s.i < text.length) : Fits text s (blockComment config text s) := by
  obtain ⟨opens, hopens, hlast⟩ := startsWith_total (Nat.le_of_lt h) config.blockStart
  unfold blockComment
  rw [hopens, Option.bind_eq_bind, Option.bind_some]
  split
  · next htrue =>
    obtain ⟨hpos, hle⟩ := hlast htrue
    exact fits_taken (goes_mark (by dsimp only; omega) hle (by omega) (by dsimp only; omega))
  · exact fits_not_taken

theorem tripleString_fits (h : s.i < text.length) : Fits text s (tripleString config text s ch) := by
  obtain ⟨double, hdouble, hdlast⟩ := startsWith_total (Nat.le_of_lt h) (literal "\"\"\"")
  obtain ⟨single, hsingle, hslast⟩ := startsWith_total (Nat.le_of_lt h) (literal "'''")
  have hthree : (literal "\"\"\"").length = 3 ∧ (literal "'''").length = 3 := by decide
  unfold tripleString
  split
  · rw [hdouble, Option.bind_eq_bind, Option.bind_some, hsingle, Option.bind_some]
    split
    · next hor =>
      have hle : s.i + 3 ≤ text.length := by
        rcases Bool.or_eq_true_iff.mp hor with htrue | htrue
        · rw [← hthree.1]
          exact (hdlast htrue).2
        · rw [← hthree.2]
          exact (hslast htrue).2
      exact fits_taken (goes_mark (by dsimp only; omega) hle (by omega) (by dsimp only; omega))
    · exact fits_not_taken
  · exact fits_not_taken

theorem backtickString_fits (h : s.i < text.length) : Fits text s (backtickString config s ch) := by
  unfold backtickString
  split
  · exact fits_taken (goes_mark (Nat.lt_succ_self _) h (by omega) (Int.le_refl _))
  · exact fits_not_taken

theorem opensString_total (chars : QCharClasses) (config : SyntaxConfig) (ch : QChar) (h : s.i < text.length) :
    ∃ b, opensString chars config text s.i ch = some b := by
  unfold opensString
  split
  · split
    · exact ⟨true, rfl⟩
    · obtain ⟨before, hbefore⟩ := getElem?_total (show s.i - 1 < text.length by omega)
      rw [hbefore]
      exact ⟨_, rfl⟩
  · exact ⟨false, rfl⟩

/-- An escape at the end of the line leads one position behind it. -/
theorem closingQuote_total (ch : QChar) {j : Nat} (h : j ≤ text.length + 1) :
    ∃ k, closingQuote text ch j = some k ∧ j ≤ k ∧ k ≤ text.length + 1 := by
  induction hm : text.length + 1 - j using Nat.strong_induction_on generalizing j with
  | _ m ih =>
    rw [closingQuote]
    split
    · next hj =>
      obtain ⟨c, hc⟩ := getElem?_total hj
      rw [hc, Option.bind_eq_bind, Option.bind_some]
      split
      · exact ⟨j, rfl, Nat.le_refl j, h⟩
      · split
        · obtain ⟨k, hk, hle, hlast⟩ := ih (text.length + 1 - (j + 2)) (by omega) (by omega) rfl
          exact ⟨k, hk, by omega, hlast⟩
        · obtain ⟨k, hk, hle, hlast⟩ := ih (text.length + 1 - (j + 1)) (by omega) (by omega) rfl
          exact ⟨k, hk, by omega, hlast⟩
    · exact ⟨j, rfl, Nat.le_refl j, h⟩

theorem isKey_total (chars : QCharClasses) (config : SyntaxConfig) (j : Nat) {stop : Nat} (h : stop ≤ text.length) :
    ∃ b, isKey chars config text j stop = some b := by
  unfold isKey
  split
  · obtain ⟨k, hk, -, -⟩ := skipWhile_total chars.isSpace h
    obtain ⟨b, hb, -⟩ := holdsAt_total (· = latin1 ':') text k
    rw [hk]
    exact ⟨b, hb⟩
  · exact ⟨false, rfl⟩

theorem quotedString_fits (h : s.i < text.length) : Fits text s (quotedString chars config text s ch) := by
  obtain ⟨opens, hopens⟩ := opensString_total chars config ch h
  obtain ⟨j, hj, hle, -⟩ := closingQuote_total ch (show s.i + 1 ≤ text.length + 1 by omega)
  have hstop : s.i < min (j + 1) text.length := by omega
  have hlast : min (j + 1) text.length ≤ text.length := Nat.min_le_right _ _
  obtain ⟨key, hkey⟩ := isKey_total chars config j hlast
  unfold quotedString
  rw [hopens, Option.bind_eq_bind, Option.bind_some]
  split
  · rw [hj, Option.bind_eq_bind, Option.bind_some]
    dsimp only
    rw [hkey]
    exact fits_taken (goes_mark hstop hlast (by omega) (by dsimp only; omega))
  · exact fits_not_taken

theorem atWordStart_total (chars : QCharClasses) (h : s.i < text.length) : ∃ b, atWordStart chars text s.i = some b := by
  unfold atWordStart
  split
  · exact ⟨true, rfl⟩
  · obtain ⟨before, hbefore⟩ := getElem?_total (show s.i - 1 < text.length by omega)
    rw [hbefore]
    exact ⟨_, rfl⟩

theorem number_fits (h : s.i < text.length) : Fits text s (number chars text s ch) := by
  obtain ⟨start, hstart⟩ := atWordStart_total chars h
  obtain ⟨j, hj, hle, hlast⟩ := skipWhile_total (fun c => chars.isLetterOrNumber c || c = latin1 '.' || c = latin1 '_')
    (show s.i + 1 ≤ text.length from h)
  unfold number
  split
  · rw [hstart, Option.bind_eq_bind, Option.bind_some]
    split
    · rw [hj]
      exact fits_taken (goes_mark hle hlast (by omega) (by dsimp only; omega))
    · exact fits_not_taken
  · exact fits_not_taken

theorem word_fits (h : s.i < text.length) : Fits text s (word chars config text s ch) := by
  obtain ⟨j, hj, hle, hlast⟩ := skipWhile_total (fun c => isIdentChar chars c || (c = latin1 '$' && !config.shellVars))
    (show s.i + 1 ≤ text.length from h)
  obtain ⟨next, hnext, -, -⟩ := skipWhile_total chars.isSpace hlast
  obtain ⟨call, hcall, -⟩ := holdsAt_total (· = latin1 '(') text next
  obtain ⟨bang, hbang, -⟩ := holdsAt_total (· = latin1 '!') text j
  obtain ⟨equals, hequals, -⟩ := holdsAt_total (· = latin1 '=') text (j + 1)
  unfold word
  split
  · simp only [hj, hnext, hcall, hbang, hequals, Option.bind_eq_bind, Option.bind_some]
    split
    · exact fits_taken (goes_mark hle hlast (by omega) (by dsimp only; omega))
    · exact fits_taken (goes_quiet hle hlast)
  · exact fits_not_taken

theorem decorator_fits (h : s.i < text.length) : Fits text s (decorator chars config text s ch) := by
  obtain ⟨letter, hletter, -⟩ := holdsAt_total chars.isLetter text (s.i + 1)
  obtain ⟨j, hj, hle, hlast⟩ := skipWhile_total (fun c => isIdentChar chars c || c = latin1 '.') (show s.i + 1 ≤ text.length from h)
  unfold decorator
  split
  · rw [hletter, Option.bind_eq_bind, Option.bind_some]
    split
    · rw [hj]
      exact fits_taken (goes_mark hle hlast (by omega) (by dsimp only; omega))
    · exact fits_not_taken
  · exact fits_not_taken

theorem behind_bounds (ch : QChar) {j : Nat} (h : j ≤ text.length) : j ≤ behind text ch j ∧ behind text ch j ≤ text.length := by
  unfold behind
  split
  · exact ⟨h, Nat.le_refl _⟩
  · next close hclose =>
    obtain ⟨hle, hlast⟩ := indexOf_bounds hclose
    exact ⟨Nat.le_succ_of_le hle, hlast⟩

theorem variableEnd_total (chars : QCharClasses) {j : Nat} (h : j < text.length) :
    ∃ k, variableEnd chars text j = some k ∧ k ≤ text.length := by
  obtain ⟨next, hnext⟩ := getElem?_total h
  unfold variableEnd
  rw [hnext, Option.bind_eq_bind, Option.bind_some]
  split
  · exact ⟨_, rfl, (behind_bounds _ (Nat.le_of_lt h)).2⟩
  split
  · obtain ⟨k, hk, -, hlast⟩ := skipWhile_total (isIdentChar chars) (Nat.le_of_lt h)
    exact ⟨k, hk, hlast⟩
  split
  · exact ⟨j + 1, rfl, h⟩
  · exact ⟨j, rfl, Nat.le_of_lt h⟩

/-- A dollar sign with no variable behind it is left to the end of the loop, which goes on by one. -/
theorem shellVariable_fits : Fits text s (shellVariable chars config text s ch) := by
  unfold shellVariable
  split
  · next h =>
    obtain ⟨j, hj, hlast⟩ := variableEnd_total chars h.2.2
    rw [hj, Option.bind_eq_bind, Option.bind_some]
    split
    · next hlt => exact fits_taken (goes_mark (Nat.lt_of_succ_lt hlt) hlast (by omega) (by dsimp only; omega))
    · exact fits_not_taken
  · exact fits_not_taken

theorem normal_goes (h : s.i < text.length) : ∃ step, normal chars config text s = some step ∧ Goes text s step := by
  obtain ⟨ch, hch⟩ := getElem?_total h
  have hfits : ∀ branch ∈ [lineComment chars config text s, blockComment config text s, tripleString config text s ch,
      backtickString config s ch, quotedString chars config text s ch, number chars text s ch, word chars config text s ch,
      decorator chars config text s ch, shellVariable chars config text s ch], Fits text s branch := by
    simp only [List.forall_mem_cons]
    exact ⟨lineComment_fits h, blockComment_fits h, tripleString_fits h, backtickString_fits h, quotedString_fits h, number_fits h,
      word_fits h, decorator_fits h, shellVariable_fits, nofun⟩
  obtain ⟨taken, htaken, hgoes⟩ := firstOf_fits hfits
  unfold normal
  rw [hch, Option.bind_eq_bind, Option.bind_some, htaken]
  refine ⟨_, rfl, ?_⟩
  cases taken with
  | none => exact goes_quiet (Nat.lt_succ_self _) h
  | some step => exact hgoes step rfl

end Branches

theorem turn_goes (chars : QCharClasses) (config : SyntaxConfig) (s : Cursor) (h : s.i ≤ text.length) :
    ∃ step, turn chars config text s = some step ∧ Goes text s step := by
  unfold turn
  split
  · next hlt =>
    split
    · next hopen => exact ⟨_, rfl, carried_goes h hopen⟩
    · exact normal_goes hlt
  · exact ⟨_, rfl, between_nil (φ := Format) (Int.ofNat_le.mpr h)⟩

/-! ## highlightXml -/

def xmlLeft (text : QString) (s : XmlCursor) : Nat := text.length - s.i

abbrev XmlGoes (text : QString) (s : XmlCursor) (step : XmlStep) : Prop := step.Goes text.length XmlCursor.i (xmlLeft text) s

theorem xmlLeft_lt {s s' : XmlCursor} (h : s.i < s'.i) (hn : s'.i ≤ text.length) : xmlLeft text s' < xmlLeft text s := by
  unfold xmlLeft
  omega

theorem xml_mark {s s' : XmlCursor} {start : Nat} {count : Int} {format : Format} (hstart : s.i ≤ start) (h : s.i < s'.i)
    (hn : s'.i ≤ text.length) (hcount : 0 ≤ count) (hend : start + count ≤ s'.i) :
    XmlGoes text s (.next (setFormat start count format) s') :=
  ⟨between_single (Int.ofNat_le.mpr hstart) hcount hend, hn, xmlLeft_lt h hn⟩

section XmlStates

variable {s : XmlCursor}

theorem xmlComment_goes (h : s.i ≤ text.length) : XmlGoes text s (xmlComment text s) := by
  have hthree : (literal "-->").length = 3 := by decide
  unfold xmlComment
  split
  · exact between_single (Int.le_refl _) (by omega) (by omega)
  · next e he =>
    obtain ⟨hle, hlast⟩ := indexOf_bounds he
    rw [hthree] at hlast
    exact xml_mark (Nat.le_refl _) (by dsimp only; omega) hlast (by omega) (by dsimp only; omega)

theorem xmlText_goes (h : s.i ≤ text.length) : ∃ step, xmlText chars text s = some step ∧ XmlGoes text s step := by
  have hfour : (literal "<!--").length = 4 := by decide
  unfold xmlText
  split
  · exact ⟨_, rfl, between_nil (φ := Format) (Int.ofNat_le.mpr h)⟩
  · next lt hlt =>
    obtain ⟨hle, hlast⟩ := indexOf_bounds hlt
    rw [List.length_singleton] at hlast
    obtain ⟨comment, hcomment, hclast⟩ := continues_total (Nat.le_of_lt hlast) (literal "<!--")
    rw [hfour] at hclast
    obtain ⟨mark, hmark, hmlast⟩ := holdsAt_total (fun c => c = latin1 '/' || c = latin1 '?' || c = latin1 '!') text (lt + 1)
    have hname : (if mark then lt + 2 else lt + 1) ≤ text.length := by
      split
      · next htrue => exact hmlast htrue
      · exact hlast
    obtain ⟨k, hk, hkle, hklast⟩ := skipWhile_total (isNameChar chars) hname
    have hless : lt < k := by
      split at hkle <;> omega
    rw [hcomment, Option.bind_eq_bind, Option.bind_some]
    split
    · next htrue =>
      have hend := hclast htrue
      exact ⟨_, rfl, xml_mark hle (by dsimp only; omega) hend (by omega) (by dsimp only; omega)⟩
    · rw [hmark, Option.bind_eq_bind, Option.bind_some, hk]
      exact ⟨_, rfl, xml_mark hle (by dsimp only; omega) hklast (by omega) (by dsimp only; omega)⟩

theorem closesTag_total (text : QString) (i : Nat) (ch : QChar) :
    ∃ b, closesTag text i ch = some b ∧ (b = true → i + 1 < text.length) := by
  unfold closesTag
  split
  · exact holdsAt_total _ text (i + 1)
  · exact ⟨false, rfl, nofun⟩

theorem xmlTag_goes (h : s.i < text.length) : ∃ step, xmlTag chars text s = some step ∧ XmlGoes text s step := by
  obtain ⟨ch, hch⟩ := getElem?_total h
  obtain ⟨closes, hcloses, hclast⟩ := closesTag_total text s.i ch
  obtain ⟨j, hj, hle, hlast⟩ := skipWhile_total (isNameChar chars) (show s.i + 1 ≤ text.length from h)
  unfold xmlTag
  rw [hch, Option.bind_eq_bind, Option.bind_some, hcloses, Option.bind_eq_bind, Option.bind_some]
  split
  · next htrue =>
    have hend := hclast htrue
    exact ⟨_, rfl, xml_mark (Nat.le_refl _) (by dsimp only; omega) hend (by omega) (by dsimp only; omega)⟩
  split
  · exact ⟨_, rfl, xml_mark (Nat.le_refl _) (Nat.lt_succ_self _) h (by omega) (Int.le_refl _)⟩
  split
  · obtain ⟨hbehind, hend⟩ := behind_bounds ch (show s.i + 1 ≤ text.length from h)
    exact ⟨_, rfl, xml_mark (Nat.le_refl _) hbehind hend (by omega) (by dsimp only; omega)⟩
  split
  · rw [hj]
    exact ⟨_, rfl, xml_mark (Nat.le_refl _) hle hlast (by omega) (by dsimp only; omega)⟩
  · exact ⟨_, rfl, between_nil (φ := Format) (by dsimp only; omega), h, xmlLeft_lt (Nat.lt_succ_self _) h⟩

end XmlStates

theorem xmlTurn_goes (chars : QCharClasses) (s : XmlCursor) (h : s.i ≤ text.length) :
    ∃ step, xmlTurn chars text s = some step ∧ XmlGoes text s step := by
  unfold xmlTurn
  split
  · next hlt =>
    split
    · exact ⟨_, rfl, xmlComment_goes h⟩
    · split
      · exact xmlText_goes h
      · exact xmlTag_goes hlt
  · exact ⟨_, rfl, between_nil (φ := Format) (Int.ofNat_le.mpr h)⟩

/-! ## A whole line -/

/-- Fuel that is enough for a line. -/
def enough (text : QString) : Nat := 2 * text.length + 2

theorem scanCode_between (chars : QCharClasses) (config : SyntaxConfig) (state : Int) {start : Nat} (h : start ≤ text.length) :
    ∃ ranges next, (∀ fuel, enough text ≤ fuel → scanCode chars config text fuel start state = some (ranges, next)) ∧
      Between start text.length ranges := by
  obtain ⟨ranges, next, hscan, hbetween⟩ :=
    scan_total (turn_goes chars config) (s := ⟨start, state, []⟩) h
  have hleft : left text ⟨start, state, []⟩ < enough text := by
    unfold left enough
    split <;> omega
  exact ⟨ranges, next, fun fuel hfuel => hscan fuel (Nat.lt_of_lt_of_le hleft hfuel), hbetween⟩

/-- A scan that starts behind the line marks nothing. -/
theorem scanCode_behind {start fuel : Nat} {state : Int} (h : text.length < start) (hfuel : enough text ≤ fuel) :
    scanCode chars config text fuel start state = some ([], state) := by
  obtain ⟨fuel, rfl⟩ := Nat.exists_eq_add_of_le' hfuel
  show scan _ (fuel + 2 * text.length + 1 + 1) _ = _
  rw [scan, turn, if_neg (Nat.not_lt.mpr (Nat.le_of_lt h))]

theorem highlightXml_between (chars : QCharClasses) (text : QString) (state : Int) :
    ∃ ranges next, (∀ fuel, enough text ≤ fuel → highlightXml chars text fuel state = some (ranges, next)) ∧
      Between 0 text.length ranges := by
  obtain ⟨ranges, next, hscan, hbetween⟩ := scan_total (xmlTurn_goes chars) (s := ⟨0, state⟩) (Nat.zero_le text.length)
  have hleft : xmlLeft text ⟨0, state⟩ < enough text := by
    unfold xmlLeft enough
    omega
  exact ⟨ranges, next, fun fuel hfuel => hscan fuel (Nat.lt_of_lt_of_le hleft hfuel), hbetween⟩

/-- Both scanners end on every line, whatever is carried into it, read inside it and mark ranges in it, in order. -/
theorem scanners_total (chars : QCharClasses) (config : SyntaxConfig) (text : QString) (start : Nat) (state : Int) :
    (∃ ranges next, (∀ fuel, enough text ≤ fuel → scanCode chars config text fuel start state = some (ranges, next)) ∧
      Ordered text.length ranges) ∧
    (∃ ranges next, (∀ fuel, enough text ≤ fuel → highlightXml chars text fuel state = some (ranges, next)) ∧
      Ordered text.length ranges) := by
  constructor
  · by_cases h : start ≤ text.length
    · obtain ⟨ranges, next, hscan, hbetween⟩ := scanCode_between chars config state h
      exact ⟨ranges, next, hscan, hbetween.ordered (Int.natCast_nonneg start)⟩
    · have hnone : Between 0 text.length ([] : Ranges) := between_nil (Int.natCast_nonneg _)
      exact ⟨[], state, fun fuel hfuel => scanCode_behind (Nat.not_le.mp h) hfuel, hnone.ordered (Int.le_refl 0)⟩
  · obtain ⟨ranges, next, hscan, hbetween⟩ := highlightXml_between chars text state
    exact ⟨ranges, next, hscan, hbetween.ordered (Int.le_refl 0)⟩

/-! ## A block of the document -/

variable {found : Matches} {configFor : Language → SyntaxConfig}

/-- A key is marked in front of what is scanned behind it. -/
theorem key_before {start stop from_ : Nat} {ranges : Ranges} (hle : start ≤ stop) (hfrom : stop ≤ from_)
    (h : Between from_ text.length ranges) : Between 0 text.length (setFormat start (stop - start) .variable ++ ranges) := by
  have hkey : Between 0 (from_ : Int) (setFormat start (stop - start) .variable) :=
    between_single (Int.natCast_nonneg _) (by omega) (by omega)
  exact hkey.append h

theorem whole_line {format : Format} {count : Nat} (h : count ≤ text.length) : Between 0 text.length (setFormat 0 count format) :=
  between_single (Int.le_refl _) (Int.natCast_nonneg _) (by omega)

theorem highlightIni_between (chars : QCharClasses) (found : Matches) (configFor : Language → SyntaxConfig) (text : QString) :
    ∃ ranges, (∀ fuel, enough text ≤ fuel → highlightIni chars text found configFor fuel = some ranges) ∧
      Between 0 text.length ranges := by
  unfold highlightIni
  split
  · exact ⟨_, fun _ _ => rfl, whole_line (Nat.le_refl _)⟩
  · split
    · next hsection => exact ⟨_, fun _ _ => rfl, whole_line (found.section_le hsection)⟩
    · split
      · next start stop hkey =>
        obtain ⟨hle, hstop⟩ := found.key_le hkey
        obtain ⟨ranges, next, hscan, hbetween⟩ := scanCode_between chars (configFor .ini) kNormal hstop
        refine ⟨_, fun fuel hfuel => ?_, key_before hle (Nat.le_refl _) hbetween⟩
        rw [hscan fuel hfuel]
        rfl
      · obtain ⟨ranges, next, hscan, hbetween⟩ := scanCode_between chars (configFor .ini) kNormal (Nat.zero_le text.length)
        refine ⟨ranges, fun fuel hfuel => ?_, hbetween⟩
        rw [hscan fuel hfuel]
        rfl

theorem highlightYaml_between (chars : QCharClasses) (found : Matches) (configFor : Language → SyntaxConfig) (text : QString)
    (state : Int) :
    ∃ ranges next, (∀ fuel, enough text ≤ fuel → highlightYaml chars text found configFor fuel state = some (ranges, next)) ∧
      Between 0 text.length ranges := by
  unfold highlightYaml
  split
  · next start stop colon hkey =>
    have hfound : found.yamlKeyRe text = some (start, stop, colon) := by
      split at hkey
      · exact hkey
      · cases hkey
    obtain ⟨hle, hcolon, hlast⟩ := found.yamlKey_le hfound
    obtain ⟨ranges, next, hscan, hbetween⟩ := scanCode_between chars (configFor .yaml) state hlast
    refine ⟨_, next, fun fuel hfuel => ?_, key_before hle hcolon hbetween⟩
    rw [hscan fuel hfuel]
    rfl
  · exact scanCode_between chars (configFor .yaml) state (Nat.zero_le text.length)

theorem highlightCode_between (chars : QCharClasses) (config : SyntaxConfig) (text : QString) (previous : Int) :
    ∃ ranges next, (∀ fuel, enough text ≤ fuel → highlightCode chars config text fuel previous = some (ranges, next)) ∧
      Between 0 text.length ranges := by
  unfold highlightCode
  split
  · exact ⟨_, kNormal, fun _ _ => rfl, whole_line (Nat.le_refl _)⟩
  · exact scanCode_between chars config previous (Nat.zero_le text.length)

theorem highlightBlock_between (chars : QCharClasses) (found : Matches) (configFor : Language → SyntaxConfig) (language : Language)
    (text : QString) (previousBlockState : Int) :
    ∃ ranges next, (∀ fuel, enough text ≤ fuel →
        highlightBlock chars text found configFor fuel language previousBlockState = some (ranges, next)) ∧
      Between 0 text.length ranges := by
  unfold highlightBlock
  dsimp only
  split
  · exact ⟨[], kNormal, fun _ _ => rfl, between_nil (Int.natCast_nonneg _)⟩
  · exact highlightXml_between chars text _
  · obtain ⟨ranges, hini, hbetween⟩ := highlightIni_between chars found configFor text
    refine ⟨ranges, kNormal, fun fuel hfuel => ?_, hbetween⟩
    rw [hini fuel hfuel]
    rfl
  · exact highlightYaml_between chars found configFor text _
  · exact highlightCode_between chars _ text _

end LvdTerm.Ui.SyntaxHighlighter
