import LvdTerm.Konsole.EmulationValid

/-!
# TerminalSession: whatever the host sends

Every character the host sends, in whatever order, is taken without an access outside of an array. A run mixes them with new sizes of
the view, the actions of the user and the timers.
-/
namespace LvdTerm.Konsole

open LvdTerm.Lib HistoryScrollBuffer

/-! ## The command that empties the history -/

theorem decodeRendition_keeps (n p q : Nat) : Command.clearHistory ∉ decodeRendition n p q := by
  unfold decodeRendition
  split <;> try simp
  repeat' split
  all_goals simp

theorem decodeCsiPs_clears {a : Char} {n p q : Nat} (h : Command.clearHistory ∈ decodeCsiPs a n p q) : a = 'J' := by
  unfold decodeCsiPs at h
  split at h
  case h_9 => rfl
  case h_19 => exact absurd h (decodeRendition_keeps _ _ _)
  all_goals simp at h

theorem decodeCsiPr_keeps (a : Char) (n : Nat) : Command.clearHistory ∉ decodeCsiPr a n := by
  unfold decodeCsiPr
  split
  · unfold decodeSet
    split <;> try simp
    split <;> simp
  · unfold decodeReset
    split <;> try simp
    split <;> simp
  · unfold decodeSave
    split <;> try simp
    split <;> simp
  · unfold decodeRestore
    split <;> try simp
    split <;> simp
  · unfold decodeRequestMode
    split <;> simp
  · simp

theorem decode_clears {token : Token} {p q : Nat} (h : Command.clearHistory ∈ decode token p q) : ∃ n, token = .csiPs 'J' n := by
  cases token with
  | csiPs a n =>
    obtain rfl := decodeCsiPs_clears h
    exact ⟨n, rfl⟩
  | csiPr a n => exact absurd h (decodeCsiPr_keeps a n)
  | chr => simp [decode] at h
  | ctl a =>
    simp only [decode, decodeCtl] at h
    split at h <;> simp at h
  | esc a =>
    simp only [decode, decodeEsc] at h
    split at h <;> simp at h
  | escCs a b =>
    simp only [decode, decodeEscCs] at h
    split at h <;> split at h <;> simp at h
  | escDe a =>
    simp only [decode, decodeEscDe] at h
    split at h <;> simp [lineSize] at h
  | csiPn a =>
    simp only [decode, decodeCsiPn] at h
    split at h <;> simp at h
  | vt52 a =>
    simp only [decode, decodeVt52] at h
    split at h <;> simp at h
  | csiPg a =>
    simp only [decode] at h
    split at h <;> simp at h
  | csiPe a =>
    simp only [decode] at h
    split at h <;> simp at h
  | csiPsSp a n =>
    simp only [decode, decodeCsiPsSp] at h
    split at h <;> simp at h
  | csiPq a => simp [decode] at h
  | csiPl a => simp [decode] at h

namespace Emulation

variable {e e' : Emulation} {P : Prop}

/-- A character whose low byte is `J`: the last one of the sequence that empties the history. -/
def mayClear (cc : Nat) : Prop := lowByte cc = 'J'

theorem processToken_goes (env : Widths) (token : Token) (p q : Nat) : Goes (∃ n, token = .csiPs 'J' n) (processToken env token p q) := by
  intro e he
  obtain ⟨e', hperform, hsteps⟩ := performAll_goes env (decode token p q) e he
  exact ⟨e', hperform, hsteps.mono decode_clears⟩

theorem finish_goes (env : Widths) {token : Token} (p q : Nat) (hP : ∀ n, token = .csiPs 'J' n → P) : Goes P (finish env token p q) := by
  intro e he
  obtain ⟨e', hprocess, hsteps⟩ := processToken_goes env token p q e he
  refine ⟨e'.resetTokenizer, by rw [finish, hprocess]; rfl, (hsteps.mono ?_).trans (resetTokenizer_steps hsteps.valid)⟩
  rintro ⟨n, hn⟩
  exact hP n hn

/-! ## One character -/

theorem addDigit_bounded {t : Tokenizer} (h : t.Bounded) (digit : Nat) : (t.addDigit digit).Bounded := by
  unfold Tokenizer.addDigit
  split
  · exact ⟨h.position, h.arguments⟩
  · exact h

theorem addArgument_bounded {t : Tokenizer} (h : t.Bounded) : t.addArgument.Bounded := by
  refine ⟨h.position, ?_⟩
  have hmax : MAXARGS = 15 := rfl
  change min (t.argc + 1) (MAXARGS - 1) < MAXARGS
  omega

theorem addToCurrentToken_bounded {t : Tokenizer} (h : t.Bounded) (cc : Nat) : (t.addToCurrentToken cc).Bounded := by
  refine ⟨?_, h.arguments⟩
  have hmax : MAX_TOKEN_LENGTH = 4096 := rfl
  change min (t.tokenBufferPos + 1) (MAX_TOKEN_LENGTH - 1) < MAX_TOKEN_LENGTH
  omega

theorem onTokenizer_steps (he : e.Valid) {f : Tokenizer → Tokenizer} (hf : (f e.tokenizer).Bounded) : Steps P e (e.onTokenizer f) :=
  he.same rfl rfl hf rfl

theorem clearHyperlinkPens_steps (he : e.Valid) : Steps P e e.clearHyperlinkPens := each_steps he Screen.clearCurrentHyperlink_stays

theorem abortControlString_steps (he : e.Valid) : Steps P e e.abortControlString :=
  (clearHyperlinkPens_steps he).trans (resetTokenizer_steps (clearHyperlinkPens_steps (P := P) he).valid)

theorem setHyperlink_steps (he : e.Valid) (urls : Urls) (params uri : Text) : Steps P e (e.setHyperlink urls params uri) := by
  have hscreen : Screen.Steps (e.screen e.currentScreen) ((e.screen e.currentScreen).setHyperlinkFromOsc urls params uri e.links).1 := by
    unfold Screen.setHyperlinkFromOsc
    repeat' split
    all_goals exact (he.screens _).dressed rfl
  exact he.rescreened rfl rfl he.tokenizer (update_steps he _ hscreen)

theorem processWindowAttributeChange_steps (he : e.Valid) (urls : Urls) : Steps P e (e.processWindowAttributeChange urls) := by
  unfold processWindowAttributeChange
  simp only
  split
  · split
    · exact clearHyperlinkPens_steps he
    · exact he.same rfl rfl he.tokenizer rfl
  · split
    · split
      · exact setHyperlink_steps he urls _ _
      · exact setHyperlink_steps he urls _ _
    · split
      · exact (clearHyperlinkPens_steps he).trans ((clearHyperlinkPens_steps (P := P) he).valid.same rfl rfl he.tokenizer rfl)
      · exact he.same rfl rfl he.tokenizer rfl

theorem dispatch_goes (env : Widths) (cc n i : Nat) : Goes (mayClear cc) (dispatch env cc n i) := by
  induction n generalizing i with
  | zero => exact fun e he => ⟨e, rfl, he.same rfl rfl he.tokenizer rfl⟩
  | succ n ih =>
    intro e he
    have hnext : ∀ (token : Token) (p q j : Nat), (∀ m, token = .csiPs 'J' m → mayClear cc) →
        ∃ e', (e.processToken env token p q).bind (dispatch env cc n j) = some e' ∧ Steps (mayClear cc) e e' := by
      intro token p q j htoken
      obtain ⟨e₁, hprocess, hsteps₁⟩ := processToken_goes env token p q e he
      obtain ⟨e₂, hrest, hsteps₂⟩ := ih j e₁ hsteps₁.valid
      refine ⟨e₂, by rw [hprocess]; exact hrest, (hsteps₁.mono ?_).trans hsteps₂⟩
      rintro ⟨m, hm⟩
      exact htoken m hm
    have hps : ∀ k m, Token.ofCsiPs cc k = .csiPs 'J' m → mayClear cc := by
      intro k m hm
      exact congrArg (fun token => match token with | Token.csiPs a _ => a | _ => 'J') hm
    rw [dispatch]
    simp only
    split
    · exact ⟨e, rfl, he.same rfl rfl he.tokenizer rfl⟩
    · split
      · exact hnext _ _ _ _ fun m hm => by cases hm
      · split
        · exact hnext _ _ _ _ fun m hm => by cases hm
        · split
          · exact hnext _ _ _ _ (hps _)
          · split
            · exact hnext _ _ _ _ (hps _)
            · exact hnext _ _ _ _ (hps _)

/-- A choice both sides of which go through. -/
theorem ite_steps {c : Prop} [Decidable c] {a b : Option Emulation} (ha : c → ∃ e', a = some e' ∧ Steps P e e')
    (hb : ¬ c → ∃ e', b = some e' ∧ Steps P e e') : ∃ e', (if c then a else b) = some e' ∧ Steps P e e' := by
  split
  · exact ha ‹c›
  · exact hb ‹¬ c›

theorem privateSequence_goes (env : Widths) {token : Token} (htoken : ∀ n, token = .csiPs 'J' n → P) (cc : Nat) :
    Goes P (privateSequence env token cc) := by
  intro e he
  unfold privateSequence
  split
  · exact finish_goes env 0 0 htoken e he
  · split
    · exact ⟨_, rfl, onTokenizer_steps he (addDigit_bounded he.tokenizer _)⟩
    · split
      · exact ⟨_, rfl, onTokenizer_steps he (addArgument_bounded he.tokenizer)⟩
      · exact ⟨e, rfl, he.same rfl rfl he.tokenizer rfl⟩

theorem controlSequence_goes (env : Widths) (cc : Nat) : Goes (mayClear cc) (controlSequence env cc) := by
  intro e he
  have hsame : Steps (mayClear cc) e e := he.same rfl rfl he.tokenizer rfl
  have hother : ∀ {token : Token} (p q : Nat), (∀ n, token ≠ .csiPs 'J' n) → ∃ e', e.finish env token p q = some e' ∧ Steps (mayClear cc) e e' :=
    fun p q htoken => finish_goes env p q (fun n hn => absurd hn (htoken n)) e he
  rw [controlSequence]
  refine ite_steps (fun _ => hother _ _ fun n hn => by cases hn) fun _ => ?_
  refine ite_steps (fun _ => ⟨e, rfl, hsame⟩) fun _ => ?_
  refine ite_steps (fun _ => ⟨e, rfl, hsame⟩) fun _ => ?_
  refine ite_steps (fun _ => privateSequence_goes env (fun n hn => by cases hn) cc e he) fun _ => ?_
  refine ite_steps (fun _ => privateSequence_goes env (fun n hn => by cases hn) cc e he) fun _ => ?_
  refine ite_steps (fun _ => hother _ _ fun n hn => by cases hn) fun _ => ?_
  refine ite_steps (fun _ => finish_goes env _ _ (fun n hn => ?_) e he) fun _ => ?_
  · exact congrArg (fun token => match token with | Token.csiPs a _ => a | _ => 'J') hn
  refine ite_steps (fun _ => hother _ _ fun n hn => by cases hn) fun _ => ?_
  refine ite_steps (fun _ => ⟨_, rfl, onTokenizer_steps he (addDigit_bounded he.tokenizer _)⟩) fun _ => ?_
  refine ite_steps (fun _ => ⟨_, rfl, onTokenizer_steps he (addArgument_bounded he.tokenizer)⟩) fun _ => ?_
  refine ite_steps (fun _ => ⟨e, rfl, hsame⟩) fun _ => ?_
  obtain ⟨e', hdispatch, hsteps⟩ := dispatch_goes env cc MAXARGS 0 e he
  exact ⟨e'.resetTokenizer, by rw [hdispatch]; rfl, hsteps.trans (resetTokenizer_steps hsteps.valid)⟩

/-- What the second half of a CSI in one byte needs. -/
def Opens (P : Prop) (again : Nat → Emulation → Option Emulation) : Prop :=
  ∀ e, e.Valid → e.tokenizer.tokenBufferPos = 1 → e.tokenizer.tokenBuffer 0 = ESC → e.getMode .ansi → ∃ e', again '['.toNat e = some e' ∧ Steps P e e'

theorem scanAnsi_goes (env : Widths) (urls : Urls) {again : Nat → Emulation → Option Emulation} {cc : Nat} (hagain : Opens (mayClear cc) again)
    (he : e.Valid) (hmode : e.getMode .ansi) : ∃ e', e.scanAnsi env urls again cc = some e' ∧ Steps (mayClear cc) e e' := by
  have hsame : Steps (mayClear cc) e e := he.same rfl rfl he.tokenizer rfl
  have hother : ∀ {token : Token} (p q : Nat), (∀ n, token ≠ .csiPs 'J' n) → ∃ e', e.finish env token p q = some e' ∧ Steps (mayClear cc) e e' :=
    fun p q htoken => finish_goes env p q (fun n hn => absurd hn (htoken n)) e he
  unfold scanAnsi
  simp only
  split
  · exact ⟨e, rfl, hsame⟩
  split
  next hcsi =>
    simp only [Tokenizer.lec, Bool.decide_and, Bool.and_eq_true, decide_eq_true_eq] at hcsi
    have hopened : Steps (mayClear cc) e (e.onTokenizer fun t => { t with tokenBuffer := Function.update t.tokenBuffer 0 ESC }) :=
      onTokenizer_steps he ⟨he.tokenizer.position, he.tokenizer.arguments⟩
    obtain ⟨e', hbracket, hsteps⟩ := hagain _ hopened.valid hcsi.1 (show Function.update e.tokenizer.tokenBuffer 0 ESC 0 = ESC from Function.update_self _ _ _) hmode
    exact ⟨e', hbracket, hopened.trans hsteps⟩
  split
  · exact ⟨e, rfl, hsame⟩
  split
  · split
    · exact ⟨_, rfl, (processWindowAttributeChange_steps he urls).trans
        (resetTokenizer_steps (processWindowAttributeChange_steps (P := mayClear cc) he urls).valid)⟩
    · exact ⟨_, rfl, resetTokenizer_steps he⟩
  split
  · split
    · exact ⟨_, rfl, abortControlString_steps he⟩
    · exact ⟨_, rfl, onTokenizer_steps he ⟨he.tokenizer.position, he.tokenizer.arguments⟩⟩
  split
  · exact ⟨e, rfl, hsame⟩
  split
  · exact hother _ _ fun n hn => by cases hn
  split
  · exact hother _ _ fun n hn => by cases hn
  split
  · exact hother _ _ fun n hn => by cases hn
  split
  · exact hother _ _ fun n hn => by cases hn
  · exact controlSequence_goes env cc e he

theorem scanVt52_goes (env : Widths) : Goes P (scanVt52 env) := by
  intro e he
  have hsame : Steps P e e := he.same rfl rfl he.tokenizer rfl
  unfold scanVt52
  simp only
  split
  · exact ⟨e, rfl, hsame⟩
  split
  · exact finish_goes env _ _ (fun n hn => by cases hn) e he
  split
  · exact ⟨e, rfl, hsame⟩
  split
  · exact ⟨e, rfl, hsame⟩
  split
  · exact finish_goes env _ _ (fun n hn => by cases hn) e he
  · exact finish_goes env _ _ (fun n hn => by cases hn) e he

theorem scan_goes (env : Widths) (urls : Urls) {again : Nat → Emulation → Option Emulation} {cc : Nat} (hagain : Opens (mayClear cc) again) :
    Goes (mayClear cc) (scan env urls again cc) := by
  intro e he
  have hadded : Steps (mayClear cc) e (e.onTokenizer (Tokenizer.addToCurrentToken cc)) :=
    onTokenizer_steps he (addToCurrentToken_bounded he.tokenizer cc)
  unfold scan
  simp only
  split
  next hmode =>
    obtain ⟨e', hscan, hsteps⟩ := scanAnsi_goes env urls hagain hadded.valid hmode
    exact ⟨e', hscan, hadded.trans hsteps⟩
  next =>
    obtain ⟨e', hscan, hsteps⟩ := scanVt52_goes (P := mayClear cc) env _ hadded.valid
    exact ⟨e', hscan, hadded.trans hsteps⟩

theorem receiveCharWith_goes (env : Widths) (urls : Urls) {again : Nat → Emulation → Option Emulation} {cc : Nat}
    (hagain : Opens (mayClear cc) again) : Goes (mayClear cc) (receiveCharWith env urls again cc) := by
  intro e he
  unfold receiveCharWith
  split
  · exact ⟨e, rfl, he.same rfl rfl he.tokenizer rfl⟩
  split
  · split
    · split
      · exact ⟨_, rfl, abortControlString_steps he⟩
      · exact ⟨_, rfl, onTokenizer_steps he ⟨he.tokenizer.position, he.tokenizer.arguments⟩⟩
    · have hreset : Steps (mayClear cc) e (if cc = CAN ∨ cc = SUB ∨ cc = ESC then e.resetTokenizer else e) := by
        split
        · exact resetTokenizer_steps he
        · exact he.same rfl rfl he.tokenizer rfl
      generalize (if cc = CAN ∨ cc = SUB ∨ cc = ESC then e.resetTokenizer else e) = e₁ at hreset
      have hpens : Steps (mayClear cc) e₁ (if cc = CAN ∨ cc = SUB then e₁.clearHyperlinkPens else e₁) := by
        split
        · exact clearHyperlinkPens_steps hreset.valid
        · exact hreset.valid.same rfl rfl hreset.valid.tokenizer rfl
      simp only
      generalize (if cc = CAN ∨ cc = SUB then e₁.clearHyperlinkPens else e₁) = e₂ at hpens
      have hboth := hreset.trans hpens
      split
      · obtain ⟨e', hprocess, hsteps⟩ := processToken_goes env (.ofCtl (cc + '@'.toNat)) 0 0 e₂ hpens.valid
        refine ⟨e', hprocess, hboth.trans (hsteps.mono ?_)⟩
        rintro ⟨n, hn⟩
        cases hn
      · obtain ⟨e', hscan, hsteps⟩ := scan_goes env urls hagain e₂ hpens.valid
        exact ⟨e', hscan, hboth.trans hsteps⟩
  split
  · exact reset_goes e he
  · exact scan_goes env urls hagain e he

/-- The bracket after an escape is only added to the token. -/
theorem receiveCharWith_bracket (env : Widths) (urls : Urls) (again : Nat → Emulation → Option Emulation)
    (hposition : e.tokenizer.tokenBufferPos = 1) (hmode : e.getMode .ansi) :
    e.receiveCharWith env urls again '['.toNat = some (e.onTokenizer (Tokenizer.addToCurrentToken '['.toNat)) := by
  have hcse : e.tokenizer.cse = false := by simp [Tokenizer.cse, hposition]
  have hadded : (e.tokenizer.addToCurrentToken '['.toNat).tokenBufferPos = 2 := by
    change min (e.tokenizer.tokenBufferPos + 1) (MAX_TOKEN_LENGTH - 1) = 2
    rw [hposition]
    rfl
  have hbracket : (e.tokenizer.addToCurrentToken '['.toNat).tokenBuffer 1 = '['.toNat := by
    change Function.update e.tokenizer.tokenBuffer e.tokenizer.tokenBufferPos '['.toNat 1 = _
    rw [hposition, Function.update_self]
  have hlec : ∀ c, (e.tokenizer.addToCurrentToken '['.toNat).lec 1 0 c = false := fun c => by rw [Tokenizer.lec, hadded]; simp
  have hles : (e.tokenizer.addToCurrentToken '['.toNat).les 2 1 GRP = true := by
    rw [Tokenizer.les, hadded, hbracket]
    decide
  rw [receiveCharWith, if_neg (by decide), if_neg (by rw [show CTL '['.toNat = false from rfl]; simp), if_neg (by simp [hcse]), scan]
  simp only [onTokenizer, scanAnsi, hlec, hles, Bool.false_eq_true, if_false, if_true]
  exact if_pos hmode

theorem receiveChar_goes (env : Widths) (urls : Urls) (cc : Nat) : Goes (mayClear cc) (receiveChar env urls cc) := by
  refine receiveCharWith_goes env urls fun e he hposition _ hmode => ?_
  exact ⟨_, receiveCharWith_bracket env urls _ hposition hmode, onTokenizer_steps he (addToCurrentToken_bounded he.tokenizer _)⟩

theorem receiveData_goes (env : Widths) (urls : Urls) (text : Text) : Goes (∃ cc ∈ text, mayClear cc) (receiveData env urls text) := by
  induction text with
  | nil => exact fun e he => ⟨e, rfl, he.same rfl rfl he.tokenizer rfl⟩
  | cons cc text ih =>
    intro e he
    obtain ⟨e₁, hreceive, hsteps₁⟩ := receiveChar_goes env urls cc e he
    obtain ⟨e₂, hrest, hsteps₂⟩ := ih e₁ hsteps₁.valid
    refine ⟨e₂, by rw [receiveData, hreceive]; exact hrest, (hsteps₁.mono fun h => ⟨cc, List.mem_cons_self, h⟩).trans (hsteps₂.mono ?_)⟩
    rintro ⟨c, hc, hclear⟩
    exact ⟨c, List.mem_cons_of_mem _ hc, hclear⟩

end Emulation

end LvdTerm.Konsole
