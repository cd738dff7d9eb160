import LvdTerm.Vnc.Eats
import LvdTerm.Vnc.Moves

/-!
# VNC client: the drain loop ends

A step that returns `true` has used up data. For a rectangle that was left in the middle this rests
on an invariant: it still wants at least one byte (`Hungry`). The loops inside a step are shown to
end one by one.
-/
namespace LvdTerm.Vnc

open Lib Lib.Action Lib.Frame

variable {E : Env} {c c' : VncClient E}

/-! ## Rectangles that were left in the middle -/

/-- A rectangle that has been entered and is not complete wants at least one more byte. -/
def Hungry (c : VncClient E) : Prop :=
  c.encoding = encRaw ∧ 0 < c.rect.w * c.rect.h * 4 ∨ c.encoding = encCopyRect ∨ c.encoding = encHextile ∧ c.tileY < c.rect.h ∨
    c.encoding = encTight ∨ c.encoding = encZrle

/-- The invariant of the loop. -/
structure Feeding (c : VncClient E) : Prop where
  inv : Inv c
  hungry : c.stage = .running → c.inRect = true → Hungry c

theorem thenDirty_eats {decode : ClientM E Bool} (hd : ∀ c', decode c = .ok (true, c') → c'.buf.length < c.buf.length)
    (h : thenDirty decode c = .ok (true, c')) : c'.buf.length < c.buf.length := by
  obtain ⟨done, c₁, h₁, h₂⟩ := bind_eq_ok h
  cases done with
  | false => cases h₂
  | true =>
    cases h₂
    exact hd c₁ h₁

theorem decodeRect_eats (hc : Hungry c) (h : decodeRect c.encoding c = .ok (true, c')) : c'.buf.length < c.buf.length := by
  rcases hc with ⟨he, harea⟩ | he | ⟨he, hrow⟩ | he | he <;> rw [he] at h
  · exact decodeRaw_eats harea h
  · exact decodeCopyRect_eats.lt h
  · exact thenDirty_eats (fun _ => decodeHextile_eats hrow) h
  · exact thenDirty_eats (fun _ => stepTight_eats.lt) h
  · exact stepZrle_eats.lt h

theorem decodeRaw_waits (h : decodeRaw c = .ok (false, c')) : c' = c ∧ 0 < c.rect.w * c.rect.h * 4 := by
  unfold decodeRaw need avail at h
  rw [bind_of_ok (gets_apply _ _), bind_of_ok (gets_apply _ _)] at h
  split at h
  · cases h
    exact ⟨rfl, by omega⟩
  · obtain ⟨_, c₁, -, h⟩ := bind_eq_ok h
    obtain ⟨_, c₂, -, h⟩ := bind_eq_ok h
    obtain ⟨_, c₃, -, h⟩ := bind_eq_ok h
    cases h

theorem decodeHextile_waits_row (h : decodeHextile c = .ok (false, c')) (hh : (inbox E).halted c' = false) : c'.tileY < c'.rect.h :=
  of_decide_eq_true (Inbox.loopWhile_waits stepHextileTile_atomic _ h hh)

/-- A decoder that waits, and has not failed, waits for something. -/
theorem decodeRect_hungry (hl : Live c) (h : decodeRect c.encoding c = .ok (false, c')) (hs : c'.stage = .running) : Hungry c' := by
  have hidle : c'.stage ≠ .idle := by
    rw [hs]
    decide
  by_cases hdesk : c.encoding = encDesktopSize
  · rw [hdesk] at h
    rcases decodeDesktopSize_ok hl.failed h with ⟨-, message, rfl⟩ | ⟨hdone, -⟩
    · cases hs
    · cases hdone
  have hdec := decodeRect_decodes (r := c.rect) hdesk _ _ _ h rfl
  have hf : c'.failedAlready = false := by
    cases hdec.ended with
    | goesOn _ _ hf _ => exact hf.trans hl.failed
    | failed _ _ hs' => exact absurd hs' hidle
  have hh : (inbox E).halted c' = false := by simp [inbox, hs, hf]
  unfold Hungry
  rw [hdec.encoding]
  unfold decodeRect at h
  split at h
  next he =>
    obtain ⟨rfl, harea⟩ := decodeRaw_waits h
    exact .inl ⟨he, harea⟩
  split at h
  next he => exact .inr (.inl he)
  split at h
  next he =>
    obtain ⟨done, c₁, h₁, h₂⟩ := bind_eq_ok h
    cases done with
    | true => cases h₂
    | false =>
      cases h₂
      exact .inr (.inr (.inl ⟨he, decodeHextile_waits_row h₁ hh⟩))
  split at h
  next he => exact .inr (.inr (.inr (.inl he)))
  split at h
  next he => exact .inr (.inr (.inr (.inr he)))
  split at h
  next => cases h
  rw [failStep, bind_of_ok (fail_apply _ hl.failed)] at h
  cases h
  exact absurd rfl hidle

theorem rectFinished_buf (c : VncClient E) : (rectFinished c).buf = c.buf ∧ (rectFinished c).inRect = false := by
  obtain ⟨mode, left, heq⟩ := counted_eq c
  rw [rectFinished, heq]
  split <;> exact ⟨rfl, rfl⟩

theorem HandshakeStep.inRect {done : Bool} (h : HandshakeStep c done c') : c'.inRect = c.inRect := by
  cases h <;> rfl

theorem not_inRect (hdue : rectDue c = false) : c.inRect = false := by
  simp only [rectDue, decide_eq_false_iff_not, not_or] at hdue
  simpa using hdue.1

/-- A step of a running client leaves no rectangle that wants nothing. -/
theorem RunningStep.hungry {done : Bool} (h : RunningStep c done c') (hc : Feeding c) (hs : c.stage = .running)
    (hs' : c'.stage = .running) (hin' : c'.inRect = true) : Hungry c' := by
  have hl := Live.of_inv hc.inv hs
  have hbetween (hdue : rectDue c = false) (hin : c.inRect = true) : Hungry c' := by
    rw [not_inRect hdue] at hin
    cases hin
  cases h with
  | message _ _ _ hother _ => exact hbetween hother.due hin'
  | refused => cases hs'
  | update _ hheader _ => exact hbetween hheader.due hin'
  | emptyUpdate hheader _ => exact hbetween hheader.due hin'
  | noHeader => exact hc.hungry hs hin'
  | outside => cases hs'
  | partly _ hrect hwait _ =>
    rcases pendingRect_cases hrect with ⟨-, rfl⟩ | ⟨-, rfl⟩
    · exact decodeRect_hungry hl hwait hs'
    · have hl' : Live (entered c) := hl.of_eq rfl rfl rfl rfl rfl
      exact decodeRect_hungry hl' hwait hs'
  | complete => exact absurd (rectFinished_buf _).2 (by rw [hin']; decide)
  | resize => exact absurd (rectFinished_buf _).2 (by rw [hin']; decide)

/-- A rectangle that was left in the middle is not completed without more of its data. -/
theorem RunningStep.eats (h : RunningStep c true c') (hin : c.inRect = true) (hc : Hungry c) : c'.buf.length < c.buf.length := by
  have hbetween (hdue : rectDue c = false) : c'.buf.length < c.buf.length := by
    rw [not_inRect hdue] at hin
    cases hin
  have hsame {c₁ : VncClient E} (hrect : pendingRect c = some c₁) : c₁ = c := by
    rcases pendingRect_cases hrect with ⟨-, rfl⟩ | ⟨hno, -⟩
    · rfl
    · rw [hin] at hno
      cases hno
  cases h with
  | message _ _ _ hother _ => exact hbetween hother.due
  | update _ hheader _ => exact hbetween hheader.due
  | emptyUpdate hheader _ => exact hbetween hheader.due
  | complete _ hrect _ hdone _ _ _ =>
    obtain rfl := hsame hrect
    rw [(rectFinished_buf _).1]
    exact decodeRect_eats hc hdone
  | resize _ hrect _ _ _ hdone _ =>
    obtain rfl := hsame hrect
    rw [(rectFinished_buf _).1]
    exact decodeRect_eats hc hdone

/-- The step lemma: a step that returns `true` has used up data or ended the connection. -/
theorem Feeding.step {done : Bool} (h : Feeding c) (hstep : Vnc.step c = .ok (done, c')) :
    Feeding c' ∧ (done = true → c'.buf.length < c.buf.length) := by
  obtain ⟨hinv, hle, hprogress⟩ :=
    wp_ok (step_next (F := AnyFault) h.inv (.inr trivial) trivial trivial fun _ => trivial) hstep
  -- outside a rectangle the measure of the loop is twice the data
  have hfree (hin : c.inRect = false) (hdone : done = true) : c'.buf.length < c.buf.length := by
    have hlt := hprogress hdone
    unfold stepsLeft at hlt
    rw [hin] at hlt
    simp only [Bool.false_eq_true, if_false] at hlt
    omega
  by_cases hrun : c.stage = .running
  · have hcases := stepRunning_cases h.inv hrun hstep
    refine ⟨⟨hinv, fun hs' hin' => hcases.hungry h hrun hs' hin'⟩, fun hdone => ?_⟩
    cases hin : c.inRect with
    | false => exact hfree hin hdone
    | true =>
      subst hdone
      exact hcases.eats hin (h.hungry hrun hin)
  · by_cases hidle : c.stage = .idle
    · have hwait : Vnc.step c = .ok (false, c) := by
        unfold Vnc.step
        rw [bind_of_ok (gets_apply _ _), hidle]
        rfl
      rw [hwait] at hstep
      cases hstep
      exact ⟨h, fun hdone => by cases hdone⟩
    · have hcases := step_handshake_cases h.inv hidle hrun hstep
      have hin := h.inv.early hrun hidle
      refine ⟨⟨hinv, fun _ hin' => ?_⟩, hfree hin⟩
      rw [hcases.inRect, hin] at hin'
      cases hin'

/-! ## The states of a run -/

theorem Feeding.idle {c' : VncClient E} (hinv : Inv c') (hs : c'.stage ≠ .running) : Feeding c' := ⟨hinv, fun h => absurd h hs⟩

/-- The invariant does not look at the data. -/
theorem Feeding.data (h : Feeding c) (data : List UInt8) : Feeding { c with buf := data } where
  inv := {
    idle := h.inv.idle
    live := h.inv.live
    early := h.inv.early
    screen := fun hs =>
      have hsc := h.inv.screen hs
      ⟨hsc.width_pos, hsc.height_pos, hsc.width_lt, hsc.height_lt, hsc.fb_width, hsc.fb_height⟩
    rect := fun hs hr =>
      have hok := h.inv.rect hs hr
      ⟨hok.width_lt, hok.height_lt, hok.inside, hok.tile⟩ }
  hungry := h.hungry

theorem SocketStep.feeding (h : SocketStep c c') (hc : Feeding c) (hinv : Inv c') : Feeding c' := by
  cases h with
  | ignored => exact hc
  | ended => exact .idle hinv (by simp)
  | failed => exact .idle hinv (by simp [VncClient.failed])
  | retried => exact .idle hinv (by simp)

theorem Move.feeding {marks : List Mark} (hm : Move c marks c') (h : Feeding c) : Feeding c' := by
  have hinv := hm.inv h.inv
  cases hm with
  | arrive chunk _ => exact h.data _
  | step _ _ hs => exact (h.step hs).1
  | closed _ hc => exact (onSocketClosed_cases h.inv hc).feeding h hinv
  | error _ _ _ he => exact (onSocketError_cases h.inv he).feeding h hinv

theorem Moves.feeding {c₀ : VncClient E} {marks : List Mark} (hm : Moves c₀ marks c) (h : Feeding c₀) : Feeding c := by
  induction hm with
  | refl => exact h
  | tail _ hm ih => exact hm.feeding ih

/-- What the loop does with the data of a client. -/
structure DrainEnds (c : VncClient E) : Prop where
  eats : ∀ c', step c = .ok (true, c') → c'.buf.length < c.buf.length ∨ c'.stage = .idle
  rounds : ∀ fuel, (stepped fuel c).length ≤ c.buf.length + 1

theorem Feeding.drainEnds (h : Feeding c) : DrainEnds c where
  eats _ hs := .inl ((h.step hs).2 rfl)
  rounds fuel := by
    induction fuel generalizing c with
    | zero => exact Nat.zero_le _
    | succ fuel ih =>
      rw [stepped]
      split
      · exact Nat.zero_le _
      · rw [List.length_cons]
        split
        next c' hs =>
          obtain ⟨hc', hlt⟩ := h.step hs
          have hrest := ih hc'
          have hlt := hlt rfl
          omega
        next => exact Nat.le_add_left _ _

/-! ## Inner loops -/

/-- One round of `while (done < total && ok)`. -/
def RleRound (t : Tile) (palette : List QRgb) (paletteSize : Nat) (s s' : Rle) : Prop :=
  s.done < t.total ∧ rleStep t palette paletteSize s = .more s'

theorem readRun_shorter {run n : Int} {d rest : List UInt8} (h : readRun run d = .ok n rest) : rest.length < d.length := by
  induction d generalizing run with
  | nil => cases h
  | cons b d ih =>
    rw [readRun] at h
    split at h
    · cases h
    · split at h
      · cases h
        exact Nat.lt_succ_self _
      · exact Nat.lt_succ_of_lt (ih h)

theorem rleRun_shorter {t : Tile} {c : Option QRgb} {s s' : Rle} (h : rleRun t c s = .more s') : s'.d.length < s.d.length := by
  unfold rleRun at h
  split at h
  · cases h
  · cases h
  next run d hrun =>
    split at h
    · cases h
    · split at h
      · cases h
      · cases h
        simpa using readRun_shorter hrun

theorem RleRound.shorter {t : Tile} {palette : List QRgb} {ps : Nat} {s s' : Rle} (h : RleRound t palette ps s s') :
    s'.d.length < s.d.length := by
  have hstep := h.2
  unfold rleStep at hstep
  split at hstep
  · split at hstep
    · cases hstep
    next hc =>
      have hlt := rleRun_shorter hstep
      have hlen := cpixel_length hc
      simp only at hlt
      omega
  · split at hstep
    · cases hstep
    next hd =>
      rw [hd, List.length_cons]
      dsimp only at hstep
      split at hstep
      · cases hstep
        exact Nat.lt_succ_self _
      · exact Nat.lt_succ_of_lt (rleRun_shorter hstep)

/-- One round of the output loop of `inflateChunk`. -/
def InflateRound {S : Type} (inflate : S → List UInt8 → Nat → Inflated S) (p p' : S × List UInt8) : Prop :=
  let r := inflate p.1 p.2 65536
  r.goesOn 65536 ∧ p' = (r.stream, r.availIn)

/-- What zlib's manual says of `inflate` with room for output: it uses up input or writes output,
or reports `Z_BUF_ERROR` because the input has run out. Output is at most so many times the input
(1032 for deflate) and what a stream still holds. -/
structure MakesProgress {S : Type} (inflate : S → List UInt8 → Nat → Inflated S) : Prop where
  suffix : ∀ s input n, (inflate s input n).availIn <:+ input
  ok : ∀ s input n, 0 < n → (inflate s input n).rc = .ok →
    (inflate s input n).availIn.length < input.length ∨ (inflate s input n).output ≠ []
  bufError : ∀ s input n, 0 < n → (inflate s input n).rc = .bufError →
    (inflate s input n).availIn = [] ∧ (inflate s input n).output = []
  expands : ∃ (ratio : Nat) (held : S → Nat), ∀ s input n,
    (inflate s input n).output.length + held (inflate s input n).stream + ratio * (inflate s input n).availIn.length ≤
      held s + ratio * input.length

theorem MakesProgress.ends {S : Type} {inflate : S → List UInt8 → Nat → Inflated S} (h : MakesProgress inflate) :
    WellFounded fun p' p => InflateRound inflate p p' := by
  obtain ⟨ratio, held, hexpands⟩ := h.expands
  -- what may still come out, and what is still to go in
  refine Subrelation.wf (fun {p' p} hround => ?_)
    (InvImage.wf (fun p : S × List UInt8 => held p.1 + ratio * p.2.length + p.2.length) Nat.lt_wfRel.wf)
  obtain ⟨⟨hrc, hend, hin⟩, rfl⟩ := hround
  have hpaid := hexpands p.1 p.2 65536
  have hle := (h.suffix p.1 p.2 65536).length_le
  have hmoved : (inflate p.1 p.2 65536).availIn.length < p.2.length ∨ 0 < (inflate p.1 p.2 65536).output.length := by
    cases hcase : (inflate p.1 p.2 65536).rc with
    | ok => exact (h.ok _ _ _ (by decide) hcase).imp_right List.length_pos_of_ne_nil
    | streamEnd => exact absurd hcase hend
    | error => exact absurd hcase hrc
    | bufError =>
      obtain ⟨hnone, hout⟩ := h.bufError _ _ _ (by decide) hcase
      exact absurd ⟨hnone, by simp [hout]⟩ hin
  have hlt : held (inflate p.1 p.2 65536).stream + ratio * (inflate p.1 p.2 65536).availIn.length +
      (inflate p.1 p.2 65536).availIn.length < held p.1 + ratio * p.2.length + p.2.length := by
    rcases hmoved with hmoved | hmoved <;> omega
  exact hlt

/-- The loops inside a step go round finitely often, wherever they start. -/
structure InnerLoopsEnd (E : Env) : Prop where
  hextile : WellFounded fun c' c : VncClient E =>
    Inbox.Round (fun c => c.tileY < c.rect.h) stepHextileTile nextHextile c c'
  zrle : ∀ t palette paletteSize, WellFounded fun s' s => RleRound t palette paletteSize s s'
  inflate : WellFounded fun p' p => InflateRound E.zlib.inflate p p'

theorem bare_makesProgress : MakesProgress Zlib.bare.inflate where
  suffix _ input _ := List.suffix_refl input
  ok _ input _ _ hrc := by
    simp only [Zlib.bare] at hrc
    split at hrc <;> cases hrc
  bufError _ input _ _ hrc := by
    simp only [Zlib.bare] at hrc ⊢
    split at hrc
    · exact ⟨‹_›, trivial⟩
    · cases hrc
  expands := ⟨0, fun _ => 0, fun _ _ _ => by simp [Zlib.bare]⟩

end LvdTerm.Vnc
