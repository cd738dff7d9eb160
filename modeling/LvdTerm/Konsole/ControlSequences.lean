import Mathlib.Data.Nat.Digits.Defs
import LvdTerm.Konsole.PrintedText

/-!
# Control strings and control sequences

What a control string holds is neither drawn nor performed (`controlString_swallows`). A control sequence with two numbers in decimal is
performed with these numbers, whatever they are up to 40959 (`controlSequence_read`).
-/
namespace LvdTerm.Konsole

namespace Emulation

/-! ## Control strings -/

section Strings

variable {e : Emulation} {cc n : Nat}

/-- In a control string, and not after an escape, with room for `n` characters. -/
structure Swallows (n : Nat) (e : Emulation) : Prop where
  ansi : e.getMode .ansi = true
  inside : e.tokenizer.cse = true
  prevCC : e.tokenizer.prevCC ≠ ESC
  room : e.tokenizer.tokenBufferPos + n < MAX_TOKEN_LENGTH - 1

/-- What neither ends a control string nor begins something else. -/
def Payload (cc : Nat) : Prop := cc ≠ 7 ∧ cc ≠ CAN ∧ cc ≠ SUB ∧ cc ≠ ESC

theorem not_cte {t : Tokenizer} (hprev : t.prevCC ≠ ESC) (hcc : cc ≠ 7) : t.cte cc = false := by
  rw [Tokenizer.cte, decide_eq_false_iff_not]
  rintro ⟨-, ⟨-, hbell⟩ | ⟨hescape, -⟩⟩
  · exact hcc hbell
  · exact hprev hescape

theorem cse_addToCurrentToken (cc : Nat) {t : Tokenizer} (h : t.cse = true) (hroom : t.tokenBufferPos + 1 < MAX_TOKEN_LENGTH - 1) :
    (t.addToCurrentToken cc).cse = true ∧ (t.addToCurrentToken cc).tokenBufferPos = t.tokenBufferPos + 1 ∧ 2 ≤ t.tokenBufferPos := by
  simp only [Tokenizer.cse, decide_eq_true_eq] at h
  obtain ⟨hpos, hopened⟩ := h
  have hnext : (t.addToCurrentToken cc).tokenBufferPos = t.tokenBufferPos + 1 := min_eq_left (by omega)
  have hsame : (t.addToCurrentToken cc).tokenBuffer 1 = t.tokenBuffer 1 := Function.update_of_ne (by omega) _ _
  refine ⟨?_, hnext, hpos⟩
  rw [Tokenizer.cse, decide_eq_true_eq, hnext, hsame]
  exact ⟨by omega, hopened⟩

theorem scanAnsi_swallows (env : Widths) (urls : Urls) (again : Nat → Emulation → Option Emulation) (hpos : 3 ≤ e.tokenizer.tokenBufferPos)
    (hinside : e.tokenizer.cse = true) (hcte : e.tokenizer.cte cc = false) (hroom : e.tokenizer.tokenBufferPos < MAX_TOKEN_LENGTH - 1) :
    e.scanAnsi env urls again cc = some (e.onTokenizer fun t => { t with prevCC := cc }) := by
  have hlec : ∀ c, e.tokenizer.lec 1 0 c = false := fun c => decide_eq_false fun h => absurd h.1 (by omega)
  have hles : e.tokenizer.les 2 1 GRP = false := decide_eq_false fun h => absurd h.1 (by omega)
  unfold scanAnsi
  simp only [hlec, hles, hcte, hinside, Bool.false_eq_true, if_false, if_true]
  rw [if_neg (by omega)]

theorem receiveChar_swallows (env : Widths) (urls : Urls) (h : Swallows (n + 1) e) (hcc : Payload cc) :
    ∃ t, e.receiveChar env urls cc = some { e with tokenizer := t } ∧ Swallows n { e with tokenizer := t } := by
  obtain ⟨hbell, hcan, hsub, hescape⟩ := hcc
  have hroom := h.room
  have hcte := not_cte h.prevCC hbell
  unfold receiveChar receiveCharWith
  by_cases hdel : cc = DEL
  · rw [if_pos hdel]
    exact ⟨e.tokenizer, rfl, h.ansi, h.inside, h.prevCC, by dsimp only; omega⟩
  rw [if_neg hdel]
  by_cases hctl : CTL cc ∧ ¬ e.tokenizer.cte cc
  · rw [if_pos hctl, if_pos h.inside, if_neg (by rintro (hc | hc); exacts [hcan hc, hsub hc])]
    exact ⟨{ e.tokenizer with prevCC := cc }, rfl, h.ansi, h.inside, hescape, by dsimp only; omega⟩
  rw [if_neg hctl, if_neg fun hreset => h.prevCC hreset.2.1, scan]
  obtain ⟨hinside, hpos, htwo⟩ := cse_addToCurrentToken cc h.inside (by omega)
  have hansi : (e.onTokenizer (Tokenizer.addToCurrentToken cc)).getMode .ansi = true := h.ansi
  simp only
  have hthree : 3 ≤ (e.tokenizer.addToCurrentToken cc).tokenBufferPos := by omega
  have hfits : (e.tokenizer.addToCurrentToken cc).tokenBufferPos + n < MAX_TOKEN_LENGTH - 1 := by omega
  rw [if_pos hansi, scanAnsi_swallows (e := e.onTokenizer (Tokenizer.addToCurrentToken cc)) env urls _ hthree hinside (not_cte h.prevCC hbell)
    (Nat.lt_of_le_of_lt (Nat.le_add_right _ n) hfits)]
  exact ⟨{ e.tokenizer.addToCurrentToken cc with prevCC := cc }, rfl, h.ansi, hinside, hescape, hfits⟩

/-- What a control string holds is neither drawn nor performed: until it ends nothing but the scan itself has changed. -/
theorem controlString_swallows (env : Widths) (urls : Urls) {text : Text} (h : Swallows text.length e) (htext : ∀ cc ∈ text, Payload cc) :
    ∃ t, e.receiveData env urls text = some { e with tokenizer := t } ∧ t.cse = true := by
  induction text generalizing e with
  | nil => exact ⟨e.tokenizer, rfl, h.inside⟩
  | cons cc text ih =>
    obtain ⟨t, hreceive, hswallows⟩ := receiveChar_swallows env urls h (htext cc List.mem_cons_self)
    obtain ⟨t', hrest, hinside⟩ := ih hswallows fun c hc => htext c (List.mem_cons_of_mem _ hc)
    exact ⟨t', by rw [receiveData, hreceive]; exact hrest, hinside⟩

/-- After `ESC ]` and `0;`. -/
def inTitle : Emulation :=
  { blank (.blank 24 80 0 fun _ => false) (.blank 24 80 0 fun _ => false) zeroed.table zeroed.links zeroed.codes zeroed.tokenizer with
    currentModes := fun m => m = .ansi
    tokenizer := ⟨fun i => [27, 93, 48, 59].getD i 0, 4, fun _ => 0, 0, 59⟩ }

theorem controlString_swallows_title : ∃ t, inTitle.receiveData oneColumn noUrls [116, 9, 65] = some { inTitle with tokenizer := t } ∧
    t.cse = true :=
  controlString_swallows oneColumn noUrls ⟨by decide, by decide, by decide, by decide⟩ (by simp [Payload, CAN, SUB, ESC])

end Strings

/-! ## Control sequences -/

variable {e : Emulation} {t : Tokenizer} {cc n : Nat} (env : Widths) (urls : Urls)

/-- What may stand in a sequence after its first two characters: neither a mark of private use nor anything below the digits. -/
def Inner (cc : Nat) : Prop := 48 ≤ cc ∧ (cc < 60 ∨ 64 ≤ cc) ∧ cc < 127

/-- After the bracket, and characters that are none of private use. -/
structure InCsi (t : Tokenizer) : Prop where
  pos : 2 ≤ t.tokenBufferPos
  bracket : t.tokenBuffer 1 = '['.toNat
  inner : ∀ i, 2 ≤ i → i < t.tokenBufferPos → Inner (t.tokenBuffer i)

theorem InCsi.cse (h : InCsi t) : t.cse = false := by
  rw [Tokenizer.cse, decide_eq_false_iff_not, h.bracket]
  exact fun hinside => absurd hinside.2 (by decide)

theorem InCsi.cte (h : InCsi t) (cc : Nat) : t.cte cc = false := decide_eq_false fun hend => absurd (h.cse.symm.trans hend.1) Bool.false_ne_true

theorem InCsi.added (h : InCsi t) (hcc : Inner cc) : InCsi (t.addToCurrentToken cc) ∧ 3 ≤ (t.addToCurrentToken cc).tokenBufferPos := by
  have hpos := h.pos
  have hnext : (t.addToCurrentToken cc).tokenBufferPos = min (t.tokenBufferPos + 1) 4095 := rfl
  refine ⟨⟨by omega, ?_, fun i htwo hi => ?_⟩, by omega⟩
  · exact (Function.update_of_ne (by omega) _ _).trans h.bracket
  · change Inner (Function.update t.tokenBuffer t.tokenBufferPos cc i)
    by_cases hlast : i = t.tokenBufferPos
    · rw [hlast, Function.update_self]
      exact hcc
    · rw [Function.update_of_ne hlast]
      exact h.inner i htwo (by omega)

theorem not_mark (hcc : Inner cc) : oneOf "?!<=>" cc = false ∧ oneOf "?>!<=" cc = false := by
  obtain ⟨hlow, hgap, -⟩ := hcc
  have hmarks : codes "?!<=>" = [63, 33, 60, 61, 62] := by decide
  have hmarks' : codes "?>!<=" = [63, 62, 33, 60, 61] := by decide
  rw [oneOf, oneOf, hmarks, hmarks', decide_eq_false_iff_not, decide_eq_false_iff_not]
  simp only [List.mem_cons, List.not_mem_nil, or_false]
  omega

/-- Nothing else is left for such a sequence than `controlSequence`. -/
theorem receiveChar_inner (h : InCsi e.tokenizer) (hansi : e.getMode .ansi = true) (hcc : Inner cc) :
    e.receiveChar env urls cc = (e.onTokenizer (Tokenizer.addToCurrentToken cc)).controlSequence env cc := by
  obtain ⟨hadded, hthree⟩ := h.added hcc
  obtain ⟨hlow, -, hhigh⟩ := hcc
  have htwo := hadded.inner 2 (Nat.le_refl 2) hthree
  have hbracket : (e.onTokenizer (Tokenizer.addToCurrentToken cc)).tokenizer.tokenBuffer 1 = '['.toNat := hadded.bracket
  have hpos : 3 ≤ (e.onTokenizer (Tokenizer.addToCurrentToken cc)).tokenizer.tokenBufferPos := hthree
  have hinside : (e.onTokenizer (Tokenizer.addToCurrentToken cc)).tokenizer.cse = false := hadded.cse
  have hend : (e.onTokenizer (Tokenizer.addToCurrentToken cc)).tokenizer.cte cc = false := hadded.cte cc
  have hmark : (e.onTokenizer (Tokenizer.addToCurrentToken cc)).tokenizer.les 3 2 (oneOf "?>!<=") = false :=
    decide_eq_false fun hles => absurd ((not_mark htwo).2.symm.trans hles.2) Bool.false_ne_true
  unfold receiveChar receiveCharWith
  rw [if_neg (by rw [DEL]; omega), if_neg fun hctl => absurd (of_decide_eq_true hctl.1) (by omega),
    if_neg fun hreset => absurd (h.cse.symm.trans hreset.1) Bool.false_ne_true, scan]
  simp only
  rw [if_pos (show (e.onTokenizer (Tokenizer.addToCurrentToken cc)).getMode .ansi = true from hansi)]
  generalize e.onTokenizer (Tokenizer.addToCurrentToken cc) = e₁ at hbracket hpos hinside hend hmark
  have hlec : ∀ p l c, p < 3 → e₁.tokenizer.lec p l c = false := fun p l c hp => decide_eq_false fun h => absurd h.1 (by omega)
  have hgroup : e₁.tokenizer.les 2 1 GRP = false := decide_eq_false fun h => absurd h.1 (by omega)
  have hcharset : e₁.tokenizer.les 3 1 SCS = false := by
    rw [Tokenizer.les, decide_eq_false_iff_not, hbracket]
    exact fun hscs => absurd hscs.2 (by decide)
  have hdouble : e₁.tokenizer.lec 3 1 '#'.toNat = false := by
    rw [Tokenizer.lec, decide_eq_false_iff_not, hbracket]
    exact fun hlec => absurd hlec.2 (by decide)
  unfold scanAnsi
  simp only [hlec 1 0 _ (by decide), hlec 2 0 _ (by decide), hgroup, hend, hinside, hmark, hcharset, hdouble, Bool.false_eq_true, if_false]
  rw [if_neg fun hone => absurd hone.1 (by omega)]

/-- The first checks of `controlSequence`, none of which such a sequence meets before its end. -/
theorem controlSequence_inner (h : InCsi e.tokenizer) (hpos : 3 ≤ e.tokenizer.tokenBufferPos) (hcc : Inner cc) (hpn : CPN cc = false)
    (hps : CPS cc = false) : e.controlSequence env cc =
      if DIG cc then some (e.onTokenizer (Tokenizer.addDigit (cc - '0'.toNat)))
      else if addsArgument cc then some (e.onTokenizer Tokenizer.addArgument)
      else if 4 ≤ e.tokenizer.tokenBufferPos ∧ 0x3C ≤ cc ∧ cc ≤ 0x3F then some e
      else (e.dispatch env cc MAXARGS 0).map resetTokenizer := by
  obtain ⟨hlow, hgap, -⟩ := h.inner 2 (Nat.le_refl 2) hpos
  have hcclow := hcc.1
  have hblank : 4 ≤ e.tokenizer.tokenBufferPos → e.tokenizer.tokenBuffer 3 ≠ ' '.toNat := fun hfour hblank => by
    have hthird := (h.inner 3 (by decide) hfour).1
    rw [hblank] at hthird
    exact absurd hthird (by decide)
  have hmarked : ∀ mark : Char, (mark.toNat < 48 ∨ 60 ≤ mark.toNat ∧ mark.toNat < 64) → e.tokenizer.marked mark = false := by
    intro mark hmark
    exact decide_eq_false fun hm => by omega
  have heps : ∀ cls : Nat → Bool, cls cc = false → e.tokenizer.eps cc cls = false :=
    fun cls hcls => decide_eq_false fun hm => absurd (hcls.symm.trans hm.2.2) Bool.false_ne_true
  have hdollar : ¬ (3 ≤ e.tokenizer.tokenBufferPos ∧ cc = '$'.toNat) := fun hm => absurd (hm.2 ▸ hcclow) (by decide)
  have hspace : ¬ (e.tokenizer.tokenBufferPos = 4 ∧ e.tokenizer.tokenBuffer 3 = ' '.toNat) := fun hm => hblank (by omega) hm.2
  have hshape : ¬ (e.tokenizer.lec 5 4 'q'.toNat ∧ e.tokenizer.tokenBuffer 3 = ' '.toNat) :=
    fun hm => hblank (by have := (of_decide_eq_true hm.1).1; omega) hm.2
  unfold controlSequence
  simp only [heps CPN hpn, heps CPS hps, hmarked '<' (by decide), hmarked '=' (by decide), hmarked '!' (by decide), Bool.false_eq_true, if_false]
  rw [if_neg hspace, if_neg hdollar, if_neg hshape]
  simp only [hpos, true_and]

theorem digit_inner : ∀ d < 10, Inner (48 + d) ∧ CPN (48 + d) = false ∧ CPS (48 + d) = false ∧ DIG (48 + d) = true := by
  intro d hd
  refine ⟨⟨by omega, by omega, by omega⟩, ?_⟩
  revert d
  decide

theorem receiveChar_digit (h : InCsi e.tokenizer) (hansi : e.getMode .ansi = true) {d : Nat} (hd : d < 10)
    (hsmall : e.tokenizer.argv e.tokenizer.argc < MAX_ARGUMENT) :
    ∃ t, e.receiveChar env urls (48 + d) = some { e with tokenizer := t } ∧ InCsi t ∧ t.argc = e.tokenizer.argc ∧
      t.argv = Function.update e.tokenizer.argv t.argc (10 * e.tokenizer.argv t.argc + d) := by
  obtain ⟨hinner, hpn, hps, hdigit⟩ := digit_inner d hd
  obtain ⟨hadded, hthree⟩ := h.added hinner
  have hvalue : 48 + d - '0'.toNat = d := Nat.add_sub_cancel_left 48 d
  rw [receiveChar_inner env urls h hansi hinner, controlSequence_inner env hadded hthree hinner hpn hps, if_pos hdigit, hvalue]
  refine ⟨(e.tokenizer.addToCurrentToken (48 + d)).addDigit d, rfl, ?_⟩
  have hroom : (e.tokenizer.addToCurrentToken (48 + d)).argv (e.tokenizer.addToCurrentToken (48 + d)).argc < MAX_ARGUMENT := hsmall
  rw [Tokenizer.addDigit, if_pos hroom]
  exact ⟨⟨hadded.pos, hadded.bracket, hadded.inner⟩, rfl, rfl⟩

theorem receiveChar_separator (h : InCsi e.tokenizer) (hansi : e.getMode .ansi = true) :
    ∃ t, e.receiveChar env urls ';'.toNat = some { e with tokenizer := t } ∧ InCsi t ∧
      t.argc = min (e.tokenizer.argc + 1) (MAXARGS - 1) ∧ t.argv = Function.update e.tokenizer.argv t.argc 0 := by
  have hinner : Inner ';'.toNat := by unfold Inner; decide
  obtain ⟨hadded, hthree⟩ := h.added hinner
  rw [receiveChar_inner env urls h hansi hinner, controlSequence_inner env hadded hthree hinner (by decide) (by decide), if_neg (by decide),
    if_pos (by decide)]
  exact ⟨(e.tokenizer.addToCurrentToken ';'.toNat).addArgument, rfl, ⟨hadded.pos, hadded.bracket, hadded.inner⟩, rfl, rfl⟩

theorem receiveChar_final (h : InCsi e.tokenizer) (hansi : e.getMode .ansi = true) (hcc : CPN cc = true) :
    ∃ t, e.receiveChar env urls cc = ({ e with tokenizer := t }.processToken env (.ofCsiPn cc) (e.tokenizer.argv 0) (e.tokenizer.argv 1)).map
      resetTokenizer := by
  have hfinals : ∀ c ∈ codes "@ABCDEFGHILMPSTXZbcdfry", 64 ≤ c ∧ c < 127 := by decide
  obtain ⟨hlow, hhigh⟩ := hfinals cc (of_decide_eq_true hcc)
  have hinner : Inner cc := ⟨by omega, .inr hlow, hhigh⟩
  obtain ⟨hadded, hthree⟩ := h.added hinner
  have heps : (e.tokenizer.addToCurrentToken cc).eps cc CPN = true := by
    refine decide_eq_true ⟨hthree, ?_, hcc⟩
    rw [(not_mark (hadded.inner 2 (Nat.le_refl 2) hthree)).1]
    exact Bool.false_ne_true
  refine ⟨e.tokenizer.addToCurrentToken cc, ?_⟩
  rw [receiveChar_inner env urls h hansi hinner, controlSequence]
  exact if_pos heps

/-- The digits of a number in decimal, the highest first; none for 0. -/
def decimal (n : Nat) : Text := (Nat.digits 10 n).reverse.map (48 + ·)

theorem receiveData_digits {digits : List Nat} (hdigits : ∀ d ∈ digits, d < 10) (h : InCsi e.tokenizer)
    (hansi : e.getMode .ansi = true) (hsmall : digits.foldl (fun n d => 10 * n + d) (e.tokenizer.argv e.tokenizer.argc) < 40960) :
    ∃ t, e.receiveData env urls (digits.map (48 + ·)) = some { e with tokenizer := t } ∧ InCsi t ∧ t.argc = e.tokenizer.argc ∧
      t.argv = Function.update e.tokenizer.argv t.argc (digits.foldl (fun n d => 10 * n + d) (e.tokenizer.argv t.argc)) := by
  have hgrows : ∀ (digits : List Nat) (n : Nat), n ≤ digits.foldl (fun n d => 10 * n + d) n := by
    intro digits
    induction digits with
    | nil => exact fun n => Nat.le_refl n
    | cons d digits ih => exact fun n => Nat.le_trans (by omega) (ih (10 * n + d))
  induction digits generalizing e with
  | nil => exact ⟨e.tokenizer, rfl, h, rfl, (Function.update_eq_self _ _).symm⟩
  | cons d digits ih =>
    rw [List.foldl_cons] at hsmall
    have hfirst := hgrows digits (10 * e.tokenizer.argv e.tokenizer.argc + d)
    obtain ⟨t₁, hreceive, hcsi, hargc, hargv⟩ := receiveChar_digit env urls h hansi (hdigits d List.mem_cons_self)
      (by rw [MAX_ARGUMENT]; omega)
    have hvalue : t₁.argv t₁.argc = 10 * e.tokenizer.argv e.tokenizer.argc + d := by rw [hargv, Function.update_self, hargc]
    obtain ⟨t, hrest, hcsi', hargc', hargv'⟩ := ih (e := { e with tokenizer := t₁ }) (fun d hd => hdigits d (List.mem_cons_of_mem _ hd)) hcsi hansi
      (by dsimp only; rw [hvalue]; exact hsmall)
    refine ⟨t, by rw [List.map_cons, receiveData, hreceive]; exact hrest, hcsi', hargc'.trans hargc, ?_⟩
    dsimp only at hargc' hargv'
    rw [hargv', List.foldl_cons, hargc', hvalue, hargv, hargc, Function.update_idem]

theorem decimal_digits (n : Nat) : (∀ d ∈ (Nat.digits 10 n).reverse, d < 10) ∧ (Nat.digits 10 n).reverse.foldl (fun n d => 10 * n + d) 0 = n := by
  refine ⟨fun d hd => Nat.digits_lt_base (by decide) (List.mem_reverse.mp hd), ?_⟩
  rw [List.foldl_reverse]
  have hvalue := Nat.ofDigits_digits 10 n
  rw [Nat.ofDigits_eq_foldr] at hvalue
  have hsame : (fun (d n : Nat) => 10 * n + d) = fun d n => ((d : Nat) : Nat) + 10 * n := by
    funext d n
    exact Nat.add_comm _ _
  rw [hsame]
  exact hvalue

/-- Before a sequence, whatever the tokenizer has kept of the one before. -/
structure Outside (e : Emulation) : Prop where
  ansi : e.getMode .ansi = true
  start : e.tokenizer.tokenBufferPos = 0

theorem receiveData_append (first second : Text) (e : Emulation) :
    e.receiveData env urls (first ++ second) = (e.receiveData env urls first).bind (receiveData env urls second) := by
  induction first generalizing e with
  | nil => rfl
  | cons cc first ih =>
    rw [List.cons_append, receiveData, receiveData, Option.bind_assoc]
    exact congrArg _ (funext ih)

theorem receiveChar_escape (h : Outside e) : e.receiveChar env urls ESC = some { e with tokenizer := e.tokenizer.reset.addToCurrentToken ESC } := by
  have houtside : e.tokenizer.cse = false := decide_eq_false fun hinside => absurd hinside.1 (by rw [h.start]; omega)
  have hend : e.tokenizer.cte ESC = false := decide_eq_false fun hend => absurd (houtside.symm.trans hend.1) Bool.false_ne_true
  unfold receiveChar receiveCharWith
  rw [if_neg (by decide), if_pos ⟨by decide, by rw [hend]; exact Bool.false_ne_true⟩, if_neg (by rw [houtside]; exact Bool.false_ne_true)]
  change e.resetTokenizer.scan env urls _ ESC = _
  rw [scan]
  simp only
  rw [if_pos (show (e.resetTokenizer.onTokenizer (Tokenizer.addToCurrentToken ESC)).getMode .ansi = true from h.ansi), scanAnsi]
  exact if_pos (decide_eq_true ⟨rfl, rfl⟩)

theorem receiveData_opened (h : Outside e) :
    ∃ t, e.receiveData env urls [ESC, '['.toNat] = some { e with tokenizer := t } ∧ InCsi t ∧ t.argc = 0 ∧ t.argv 0 = 0 ∧ t.argv 1 = 0 := by
  obtain ⟨t₁, ht₁⟩ : ∃ t₁, t₁ = e.tokenizer.reset.addToCurrentToken ESC := ⟨_, rfl⟩
  have hpos : t₁.tokenBufferPos = 1 := by rw [ht₁]; rfl
  have houtside : t₁.cse = false := decide_eq_false fun hinside => absurd hinside.1 (by rw [hpos]; omega)
  have hbracket : (t₁.addToCurrentToken '['.toNat).tokenBuffer 1 = '['.toNat := by
    change Function.update t₁.tokenBuffer t₁.tokenBufferPos _ 1 = _
    rw [hpos, Function.update_self]
  have htwo : (t₁.addToCurrentToken '['.toNat).tokenBufferPos = 2 := by
    change min (t₁.tokenBufferPos + 1) _ = 2
    rw [hpos]
    rfl
  have hsecond : { e with tokenizer := t₁ }.receiveChar env urls '['.toNat = some { e with tokenizer := t₁.addToCurrentToken '['.toNat } := by
    have hlec : ∀ c, (t₁.addToCurrentToken '['.toNat).lec 1 0 c = false := fun c => decide_eq_false fun hone => by omega
    have hgroup : (t₁.addToCurrentToken '['.toNat).les 2 1 GRP = true := decide_eq_true ⟨htwo, by rw [hbracket]; decide⟩
    have hansi : getMode .ansi (onTokenizer (Tokenizer.addToCurrentToken '['.toNat) { e with tokenizer := t₁ }) = true := h.ansi
    unfold receiveChar receiveCharWith
    rw [if_neg (by decide), if_neg fun hctl => absurd hctl.1 (by decide),
      if_neg fun hreset => absurd (houtside.symm.trans hreset.1) Bool.false_ne_true, scan]
    simp only
    rw [if_pos hansi, scanAnsi]
    simp only [onTokenizer, hlec, hgroup, Bool.false_eq_true, if_false, if_true]
  refine ⟨t₁.addToCurrentToken '['.toNat, ?_, ⟨by omega, hbracket, fun i _ _ => by omega⟩, by rw [ht₁]; rfl, by rw [ht₁]; rfl, by rw [ht₁]; rfl⟩
  rw [receiveData, receiveChar_escape env urls h, Option.bind_some, ← ht₁, receiveData, hsecond]
  rfl

/-- Two numbers in decimal, and the character that ends the sequence: it is performed with these numbers. -/
theorem controlSequence_read (h : Outside e) {p q : Nat} (hp : p < 40960) (hq : q < 40960) (hcc : CPN cc = true) :
    ∃ t, e.receiveData env urls ([ESC, '['.toNat] ++ (decimal p ++ (';'.toNat :: (decimal q ++ [cc])))) =
      ({ e with tokenizer := t }.processToken env (.ofCsiPn cc) p q).map resetTokenizer := by
  obtain ⟨hpdigits, hpvalue⟩ := decimal_digits p
  obtain ⟨hqdigits, hqvalue⟩ := decimal_digits q
  obtain ⟨t₁, hopened, hcsi₁, hargc₁, hfirst, hsecond⟩ := receiveData_opened env urls h
  obtain ⟨t₂, hrest₂, hcsi₂, hargc₂, hargv₂⟩ := receiveData_digits (e := { e with tokenizer := t₁ }) env urls hpdigits hcsi₁ h.ansi
    (by dsimp only; rw [hargc₁, hfirst, hpvalue]; exact hp)
  dsimp only at hargc₂ hargv₂
  rw [hargc₂, hargc₁, hfirst, hpvalue] at hargv₂
  obtain ⟨t₃, hseparated, hcsi₃, hargc₃, hargv₃⟩ := receiveChar_separator (e := { e with tokenizer := t₂ }) env urls hcsi₂ h.ansi
  have hone : t₃.argc = 1 := by
    rw [hargc₃]
    dsimp only
    rw [hargc₂, hargc₁]
    rfl
  rw [hone] at hargv₃
  obtain ⟨t₄, hrest₄, hcsi₄, hargc₄, hargv₄⟩ := receiveData_digits (e := { e with tokenizer := t₃ }) env urls hqdigits hcsi₃ h.ansi
    (by dsimp only; rw [hone, hargv₃, Function.update_self, hqvalue]; exact hq)
  dsimp only at hargc₄ hargv₄ hargv₃
  rw [hargc₄, hone, hargv₃, Function.update_self, hqvalue, hargv₂] at hargv₄
  have hp₄ : t₄.argv 0 = p := by rw [hargv₄]; rfl
  have hq₄ : t₄.argv 1 = q := by rw [hargv₄]; rfl
  obtain ⟨t, hfinal⟩ := receiveChar_final (e := { e with tokenizer := t₄ }) env urls hcsi₄ h.ansi hcc
  dsimp only at hfinal
  rw [hp₄, hq₄] at hfinal
  refine ⟨t, ?_⟩
  rw [receiveData_append, hopened, Option.bind_some, receiveData_append, decimal, hrest₂, Option.bind_some, receiveData, hseparated,
    Option.bind_some, receiveData_append, decimal, hrest₄, Option.bind_some, receiveData, hfinal]
  generalize ({ e with tokenizer := t }.processToken env (.ofCsiPn cc) p q).map resetTokenizer = done
  cases done <;> rfl

/-- The cursor to line 12 and column 40. -/
theorem controlSequence_read_cursor : ∃ t, atHome.receiveData oneColumn noUrls
    ([ESC, '['.toNat] ++ (decimal 12 ++ (';'.toNat :: (decimal 40 ++ ['H'.toNat])))) =
    ({ atHome with tokenizer := t }.processToken oneColumn (.ofCsiPn 'H'.toNat) 12 40).map resetTokenizer :=
  controlSequence_read oneColumn noUrls ⟨by decide, rfl⟩ (by decide) (by decide) (by decide)

end Emulation

end LvdTerm.Konsole
