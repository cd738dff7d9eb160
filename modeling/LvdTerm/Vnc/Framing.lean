import LvdTerm.Vnc.FlowControl

/-!
# VNC client: where an update ends

An update announces how many rectangles follow, and a LastRect pseudo-rectangle ends it early. The
client looks for the LastRect only if 65535 are announced, and then does not count: `Framed` is
where an update should end, `WellCounted` says when it does.
-/
namespace LvdTerm.Vnc

open Lib Lib.Action

variable {E : Env} {c c' c₀ : VncClient E} {n : Nat} {es : List Int}

/-- An update of `n` rectangles, announced to `c₀`, of which those with the encodings `es` are complete. -/
inductive Update (n : Nat) (c₀ : VncClient E) : List Int → VncClient E → Prop where
  | header {done : Bool} {c : VncClient E} (hheader : Header n c₀) (hs : c₀.stage = .running) (hbuf : c₀.buf.length < 2 ^ 31)
      (hstep : step c₀ = .ok (done, c)) : Update n c₀ [] c
  | arrive {es : List Int} {c : VncClient E} (h : Update n c₀ es c) (chunk : List UInt8) : Update n c₀ es (appendChunk chunk c)
  | waits {es : List Int} {c c' : VncClient E} (h : Update n c₀ es c) (hs : c.stage = .running) (hbuf : c.buf.length < 2 ^ 31)
      (hdue : rectDue c = true) (hstep : step c = .ok (false, c')) : Update n c₀ es c'
  | rect {es : List Int} {c c' : VncClient E} (h : Update n c₀ es c) (hs : c.stage = .running) (hbuf : c.buf.length < 2 ^ 31)
      (hdue : rectDue c = true) (hstep : step c = .ok (true, c')) : Update n c₀ (es ++ [c'.encoding]) c'

/-- All the announced rectangles have come, or a LastRect has. -/
def AtEnd (n : Nat) (es : List Int) : Prop := n ≤ es.length ∨ encLastRect ∈ es

/-- The update goes on until its end is reached, and there it is finished and the next byte is a message type. -/
structure Framed (n : Nat) (es : List Int) (c₀ c : VncClient E) : Prop where
  going : rectDue c = true → ¬ AtEnd n es ∧ c.updates = c₀.updates
  reached : rectDue c = false → AtEnd n es ∧ (∀ before, before <+: es → before ≠ es → ¬ AtEnd n before) ∧
    c.updates = c₀.updates + 1 ∧ stepRunning c = serverMessage c

/-- All the updates of a client that starts as `c₀`. -/
def AllFramed (c₀ : VncClient E) : Prop :=
  ∀ marks c₁ n es c, Moves c₀ marks c₁ → Update n c₁ es c → c.stage = .running → Framed n es c₁ c

/-- No LastRect in front of the last rectangle that was counted; and if they are not counted, one among the first 65535. -/
def WellCounted (n : Nat) (es : List Int) : Prop :=
  if n = 0xFFFF then es.length < n ∨ encLastRect ∈ es.take n else encLastRect ∉ es.take (n - 1)

/-! ## The client's count -/

/-- How the client keeps count of the rectangles. -/
inductive Counts (n : Nat) (es : List Int) (c₀ c : VncClient E) : Prop where
  | counted (hn : n ≠ 0xFFFF) (mode : c.lastRectMode = false) (left : c.rectsLeft = n - es.length) (le : es.length ≤ n)
      (inRect : c.inRect = true → es.length < n) (updates : c.updates = c₀.updates + if es.length = n then 1 else 0)
  | unbounded (hn : n = 0xFFFF) (mode : c.lastRectMode = true) (left : c.rectsLeft = 1) (none : encLastRect ∉ es)
      (updates : c.updates = c₀.updates)
  | closed (hn : n = 0xFFFF) (left : c.rectsLeft = 0) (inRect : c.inRect = false)
      (last : ∃ before, es = before ++ [encLastRect] ∧ encLastRect ∉ before) (updates : c.updates = c₀.updates + 1)

/-- The count is as before, and no rectangle is entered but one that is due. -/
theorem Counts.of_eq (h : Counts n es c₀ c) (hmode : c'.lastRectMode = c.lastRectMode) (hleft : c'.rectsLeft = c.rectsLeft)
    (hin : c'.inRect = true → rectDue c = true) (hsame : rectDue c = false → c'.inRect = c.inRect) (hup : c'.updates = c.updates) :
    Counts n es c₀ c' := by
  cases h with
  | counted hn mode left le inRect updates =>
    refine .counted hn (hmode.trans mode) (hleft.trans left) le (fun hin' => ?_) (hup.trans updates)
    rcases of_decide_eq_true (hin hin') with hin | hpos
    · exact inRect hin
    · omega
  | unbounded hn mode left hnone updates => exact .unbounded hn (hmode.trans mode) (hleft.trans left) hnone (hup.trans updates)
  | closed hn left inRect last updates =>
    have hdue : rectDue c = false := by
      refine decide_eq_false ?_
      rw [inRect, left]
      decide
    exact .closed hn (hleft.trans left) ((hsame hdue).trans inRect) last (hup.trans updates)

theorem counts_header {done : Bool} (hheader : Header n c₀) (hstep : RunningStep c₀ done c) : Counts n [] c₀ c := by
  have hin := hheader.inRect
  cases hstep with
  | message _ _ _ hother => exact absurd ⟨hheader.type, hheader.length⟩ hother.other
  | refused _ hother => exact absurd ⟨hheader.type, hheader.length⟩ hother.other
  | update count hheader' hcount =>
    obtain rfl : n = count := hheader.count.trans hheader'.count.symm
    by_cases hn : n = 0xFFFF
    · exact .unbounded hn (decide_eq_true hn) (if_pos (decide_eq_true hn)) (List.not_mem_nil) rfl
    · refine .counted hn (decide_eq_false hn) ?_ (Nat.zero_le _) (fun h => ?_) ?_
      · simp [announced, hn]
      · rw [show (announced n c₀).inRect = c₀.inRect from rfl, hin] at h
        cases h
      · rw [List.length_nil, if_neg (Ne.symm hcount)]
        rfl
  | emptyUpdate hheader' =>
    obtain rfl : n = 0 := hheader.count.trans hheader'.count.symm
    refine .counted (by decide) rfl rfl (Nat.le_refl _) (fun h => ?_) rfl
    rw [show (finished (announced 0 c₀)).inRect = c₀.inRect from rfl, hin] at h
    cases h
  | noHeader hdue => rw [hheader.due] at hdue; cases hdue
  | outside _ hdue => rw [hheader.due] at hdue; cases hdue
  | partly hdue => rw [hheader.due] at hdue; cases hdue
  | complete hdue => rw [hheader.due] at hdue; cases hdue
  | resize hdue => rw [hheader.due] at hdue; cases hdue

/-- A rectangle is complete. -/
theorem Counts.rectFinished (h : Counts n es c₀ c) (hin : c.inRect = true) :
    Counts n (es ++ [c.encoding]) c₀ (rectFinished c) := by
  have hlength : (es ++ [c.encoding]).length = es.length + 1 := by
    rw [List.length_append]
    rfl
  cases h with
  | counted hn mode left le inRect updates =>
    have hlt := inRect hin
    rw [if_neg (Nat.ne_of_lt hlt), Nat.add_zero] at updates
    have hnot : ¬ c.lastRectMode = true := by
      rw [mode]
      decide
    unfold Vnc.rectFinished lastOfUpdate Vnc.counted
    simp only [if_neg hnot, decide_eq_true_eq]
    split
    · rename_i hzero
      refine .counted hn mode ?_ (by omega) (fun h => by cases h) ?_
      · simp only [finished]
        omega
      · rw [if_pos (by omega)]
        exact congrArg (· + 1) updates
    · rename_i hmore
      refine .counted hn mode ?_ (by omega) (fun h => by cases h) ?_
      · simp only
        omega
      · rw [if_neg (by omega)]
        exact updates
  | unbounded hn mode left hnone updates =>
    unfold Vnc.rectFinished lastOfUpdate Vnc.counted
    simp only [if_pos mode, decide_eq_true_eq]
    split
    · rename_i hlast
      refine .closed hn rfl rfl ⟨es, ?_, hnone⟩ (congrArg (· + 1) updates)
      rw [hlast]
    · rename_i hother
      refine .unbounded hn mode left (fun hmem => ?_) updates
      rcases List.mem_append.mp hmem with hmem | hmem
      · exact hnone hmem
      · exact hother (List.mem_singleton.mp hmem).symm
  | closed hn left inRect =>
    rw [inRect] at hin
    cases hin

/-- The rectangle the client enters counts like the client. -/
theorem Counts.pending {c₁ : VncClient E} (h : Counts n es c₀ c) (hdue : rectDue c = true) (hrect : pendingRect c = some c₁) :
    Counts n es c₀ c₁ ∧ c₁.inRect = true := by
  rcases pendingRect_cases hrect with ⟨hin, rfl⟩ | ⟨hin, rfl⟩
  · exact ⟨h, hin⟩
  · exact ⟨h.of_eq rfl rfl (fun _ => hdue) (fun hno => by rw [hdue] at hno; cases hno) rfl, rfl⟩

theorem Counts.decoded {r : Rect} (h : Counts n es c₀ c) (hin : c.inRect = true) (hd : Decoded r c c') : Counts n es c₀ c' :=
  h.of_eq hd.lastRectMode hd.rectsLeft (fun _ => decide_eq_true (.inl hin)) (fun _ => hd.inRect) hd.updates

theorem Counts.waits (h : Counts n es c₀ c) (hdue : rectDue c = true) (hs' : c'.stage = .running)
    (hstep : RunningStep c false c') : Counts n es c₀ c' := by
  cases hstep with
  | message _ _ _ hother => rw [hother.due] at hdue; cases hdue
  | refused => cases hs'
  | noHeader => exact h
  | outside => cases hs'
  | partly _ hrect _ hdec =>
    obtain ⟨h₁, hin⟩ := h.pending hdue hrect
    exact h₁.decoded hin hdec

theorem Counts.rect (h : Counts n es c₀ c) (hdue : rectDue c = true) (hstep : RunningStep c true c') :
    Counts n (es ++ [c'.encoding]) c₀ c' := by
  cases hstep with
  | message _ _ _ hother => rw [hother.due] at hdue; cases hdue
  | update _ hheader => rw [hheader.due] at hdue; cases hdue
  | emptyUpdate hheader => rw [hheader.due] at hdue; cases hdue
  | complete _ hrect hno hdone hdec =>
    obtain ⟨h₁, hin⟩ := h.pending hdue hrect
    rw [rectFinished_encoding]
    exact (h₁.decoded hin hdec).rectFinished (hdec.inRect.trans hin)
  | resize _ hrect =>
    obtain ⟨h₁, hin⟩ := h.pending hdue hrect
    rw [rectFinished_encoding]
    exact Counts.rectFinished (h₁.of_eq rfl rfl (fun _ => decide_eq_true (.inl hin)) (fun _ => rfl) rfl) hin

theorem Update.counts (hinv : Inv c₀) (h : Update n c₀ es c) : Inv c ∧ (c.stage = .running → Counts n es c₀ c) := by
  induction h with
  | header hheader hs hbuf hstep =>
    exact ⟨(step_keeps hinv hbuf hstep).1, fun _ => counts_header hheader (stepRunning_cases hinv hs hstep)⟩
  | arrive _ chunk ih => exact ⟨inv_append ih.1 chunk, fun hs => (ih.2 hs).of_eq rfl rfl (fun hin => decide_eq_true (.inl hin)) (fun _ => rfl) rfl⟩
  | waits _ hs hbuf hdue hstep ih =>
    exact ⟨(step_keeps ih.1 hbuf hstep).1, fun hs' => (ih.2 hs).waits hdue hs' (stepRunning_cases ih.1 hs hstep)⟩
  | rect _ hs hbuf hdue hstep ih =>
    exact ⟨(step_keeps ih.1 hbuf hstep).1, fun _ => (ih.2 hs).rect hdue (stepRunning_cases ih.1 hs hstep)⟩

/-! ## Where the update ends -/

theorem AtEnd.mono {before : List Int} (h : before <+: es) (hend : AtEnd n before) : AtEnd n es := by
  rcases hend with hlen | hlast
  · exact .inl (Nat.le_trans hlen h.length_le)
  · exact .inr (h.subset hlast)

/-- No shorter list of rectangles reaches the end if the one without the last does not. -/
theorem not_atEnd_before {last : Int} (h : ¬ AtEnd n es) :
    ∀ before, before <+: es ++ [last] → before ≠ es ++ [last] → ¬ AtEnd n before := by
  intro before hprefix hne hend
  rcases List.prefix_concat_iff.mp hprefix with heq | hshort
  · exact hne heq
  · exact h (hend.mono hshort)

/-- A client that is not due a rectangle reads a message next. -/
theorem stepRunning_message (hdue : rectDue c = false) : stepRunning c = serverMessage c := by
  unfold stepRunning
  rw [bind_of_ok (gets_apply _ _), bind_of_ok (gets_apply _ _), if_neg (of_decide_eq_false hdue)]

theorem framed_due (hdue : rectDue c = true) (hup : c.updates = c₀.updates) : Framed n es c₀ c ↔ ¬ AtEnd n es := by
  refine ⟨fun h => (h.going hdue).1, fun h => ⟨fun _ => ⟨h, hup⟩, fun hno => ?_⟩⟩
  rw [hdue] at hno
  cases hno

theorem framed_over (hdue : rectDue c = false) (hend : AtEnd n es) (hup : c.updates = c₀.updates + 1) :
    Framed n es c₀ c ↔ ∀ before, before <+: es → before ≠ es → ¬ AtEnd n before := by
  refine ⟨fun h => (h.reached hdue).2.1, fun h => ⟨fun hyes => ?_, fun _ => ⟨hend, h, hup, stepRunning_message hdue⟩⟩⟩
  rw [hdue] at hyes
  cases hyes

/-- A counted update is over at its last rectangle. -/
theorem framed_counted (hdue : rectDue c = false) (hlen : es.length = n) (hup : c.updates = c₀.updates + 1) :
    Framed n es c₀ c ↔ encLastRect ∉ es.take (n - 1) := by
  rw [framed_over hdue (.inl (Nat.le_of_eq hlen.symm)) hup]
  rcases List.eq_nil_or_concat es with rfl | ⟨before, last, rfl⟩
  · simp
  · rw [List.concat_eq_append] at hlen ⊢
    rw [List.length_append, List.length_singleton] at hlen
    rw [List.take_append_of_le_length (by omega), List.take_of_length_le (by omega)]
    constructor
    · intro h hlast
      exact h before (List.prefix_append _ _) (by simp) (.inr hlast)
    · intro h
      refine not_atEnd_before fun hend => ?_
      rcases hend with hle | hlast
      · omega
      · exact h hlast

/-- An update that is not counted is over at its LastRect. -/
theorem framed_unbounded {before : List Int} (hdue : rectDue c = false) (hnone : encLastRect ∉ before)
    (hup : c.updates = c₀.updates + 1) :
    Framed n (before ++ [encLastRect]) c₀ c ↔ before.length < n := by
  rw [framed_over hdue (.inr (by simp)) hup]
  constructor
  · intro h
    by_contra hle
    exact h before (List.prefix_append _ _) (by simp) (.inl (by omega))
  · intro h
    refine not_atEnd_before fun hend => ?_
    rcases hend with hle | hlast
    · omega
    · exact hnone hlast

theorem Counts.framed_iff (h : Counts n es c₀ c) : Framed n es c₀ c ↔ WellCounted n es := by
  unfold WellCounted
  cases h with
  | counted hn mode left le inRect updates =>
    rw [if_neg hn]
    rcases Nat.lt_or_ge es.length n with hlt | hge
    · have hdue : rectDue c = true := decide_eq_true (.inr (by omega))
      rw [if_neg (Nat.ne_of_lt hlt)] at updates
      rw [framed_due hdue updates, List.take_of_length_le (by omega)]
      unfold AtEnd
      exact ⟨fun h hlast => h (.inr hlast), fun h hend => hend.elim (fun hle => by omega) h⟩
    · have hlen : es.length = n := Nat.le_antisymm le hge
      have hdue : rectDue c = false := by
        refine decide_eq_false fun hd => hd.elim (fun hin => ?_) (fun hpos => by omega)
        exact Nat.lt_irrefl _ (hlen ▸ inRect hin)
      rw [if_pos hlen] at updates
      exact framed_counted hdue hlen updates
  | unbounded hn mode left hnone updates =>
    have hdue : rectDue c = true := decide_eq_true (.inr (by omega))
    have htake : encLastRect ∉ es.take n := fun hlast => hnone (List.mem_of_mem_take hlast)
    rw [if_pos hn, framed_due hdue updates]
    unfold AtEnd
    rw [or_iff_left hnone, or_iff_left htake, Nat.not_le]
  | closed hn left inRect last updates =>
    obtain ⟨before, rfl, hnone⟩ := last
    have hdue : rectDue c = false := by
      refine decide_eq_false ?_
      rw [inRect, left]
      decide
    rw [if_pos hn, framed_unbounded hdue hnone updates]
    constructor
    · intro hlt
      right
      rw [List.take_of_length_le (by simp; omega)]
      simp
    · rintro (hlt | hlast)
      · rw [List.length_append] at hlt
        omega
      · by_contra hle
        rw [List.take_append_of_le_length (by omega)] at hlast
        exact hnone (List.mem_of_mem_take hlast)

/-- An update ends where it should exactly if it is well counted. -/
theorem update_framed_iff (E : Env) (provider : Option (Option String)) (encodings : List Int) (password : String)
    {marks : List Mark} {c₀ c : VncClient E} {n : Nat} {es : List Int} (hmoves : Moves (.connecting E provider encodings password) marks c₀)
    (hupdate : Update n c₀ es c) (hs : c.stage = .running) : Framed n es c₀ c ↔ WellCounted n es :=
  ((hupdate.counts (hmoves.inv (inv_connecting E provider encodings password))).2 hs).framed_iff

/-! ## A LastRect as the first rectangle -/

/-- The session with the white pixel, sent an update of `count` rectangles that starts with a LastRect. -/
def lastRectSent (count : UInt8) : VncClient .bare :=
  appendChunk ([0, 0, 0, count] ++ [0, 0, 0, 0, 0, 0, 0, 0, 255, 255, 255, 32])
    (left (.connecting .bare none [] "") (run [.readyRead whitePixel] (.connecting .bare none [] "")))

def lastRectAnnounced (count : UInt8) : VncClient .bare := left (lastRectSent count) (step (lastRectSent count))

def lastRectRead (count : UInt8) : VncClient .bare := left (lastRectAnnounced count) (step (lastRectAnnounced count))

theorem lastRectSent_moves (count : UInt8) : ∃ marks, Moves (.connecting .bare none [] "") marks (lastRectSent count) := by
  obtain ⟨marks, hmoves⟩ := run_moves [.readyRead whitePixel] (inv_connecting .bare none [] "")
    (eq_ok_of_value (.connecting .bare none [] "") (by decide +kernel))
  exact ⟨_, hmoves.tail (.arrive _ (by decide +kernel))⟩

/-- The header is read in one step, the LastRect in the next. -/
theorem lastRect_update (count : UInt8) (hheader : Header count.toNat (lastRectSent count))
    (hsent : (lastRectSent count).stage = .running ∧ (lastRectSent count).buf.length < 2 ^ 31 ∧ value (step (lastRectSent count)) = some true)
    (hannounced : (lastRectAnnounced count).stage = .running ∧ (lastRectAnnounced count).buf.length < 2 ^ 31 ∧
      rectDue (lastRectAnnounced count) = true ∧ value (step (lastRectAnnounced count)) = some true)
    (hlast : (lastRectRead count).encoding = encLastRect) :
    Update count.toNat (lastRectSent count) [encLastRect] (lastRectRead count) := by
  have hread := (Update.header hheader hsent.1 hsent.2.1 (eq_ok_of_value _ hsent.2.2)).rect hannounced.1 hannounced.2.1 hannounced.2.2.1
    (eq_ok_of_value (lastRectAnnounced count) hannounced.2.2.2)
  rw [← hlast]
  exact hread

theorem lastRect_update_one : Update 1 (lastRectSent 1) [encLastRect] (lastRectRead 1) :=
  lastRect_update 1 ⟨by decide +kernel, by decide +kernel, by decide +kernel, by decide +kernel⟩ (by decide +kernel)
    (by decide +kernel) (by decide +kernel)

theorem update_framed_iff_one : Framed 1 [encLastRect] (lastRectSent 1) (lastRectRead 1) ↔ WellCounted 1 [encLastRect] := by
  obtain ⟨marks, hmoves⟩ := lastRectSent_moves 1
  exact update_framed_iff .bare none [] "" hmoves lastRect_update_one (by decide +kernel)

/-- Of two announced rectangles the first is a LastRect, and the client waits for the second. -/
theorem early_lastRect_missed : ¬ AllFramed (.connecting .bare none [] "") := by
  intro h
  obtain ⟨marks, hmoves⟩ := lastRectSent_moves 2
  have hupdate : Update 2 (lastRectSent 2) [encLastRect] (lastRectRead 2) := by
    refine lastRect_update 2 ⟨?_, ?_, ?_, ?_⟩ ?_ ?_ ?_
    all_goals decide +kernel
  have hframed := h marks (lastRectSent 2) 2 [encLastRect] (lastRectRead 2) hmoves hupdate (by decide +kernel)
  exact (hframed.going (by decide +kernel)).1 (.inr List.mem_cons_self)

end LvdTerm.Vnc
