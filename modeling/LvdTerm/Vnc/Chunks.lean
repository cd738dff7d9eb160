import LvdTerm.Vnc.StepResumable
import LvdTerm.Vnc.Sizes

/-!
# VNC client: chunk invariance

How the server's byte stream is cut into `readyRead` chunks makes no difference: the loop
of `onReadyRead` is the draining of the inbox by `step`, and `step` can be resumed. What a
client that went `Idle` leaves unread does depend on the chunks, because it stops reading.
-/
namespace LvdTerm.Vnc

open Lib Lib.Inbox

variable {E : Env} {c c' : VncClient E}

/-! ## The loop of `onReadyRead` as a drain -/

theorem halted_iff_idle (h : Inv c) : (inbox E).halted c = true ↔ c.stage = .idle := by
  simp only [inbox, Bool.or_eq_true, decide_eq_true_eq]
  constructor
  · rintro (hs | hf)
    · exact hs
    · by_contra hs
      rw [(h.live hs).2] at hf
      cases hf
  · exact .inl

theorem halted_iff_no_socket (h : Inv c) : (inbox E).halted c = true ↔ ¬ c.socket = true := by
  rw [halted_iff_idle h]
  constructor
  · intro hs hsocket
    rw [h.idle hs] at hsocket
    cases hsocket
  · intro hno
    by_contra hs
    exact hno (h.live hs).1

/-- A step on less than 2^31 bytes keeps the invariant, uses up data and does not read ahead. -/
theorem step_sound : (inbox E).Sound ReadAhead step stepsLeft Inv (2 ^ 31) where
  resumes := step_resumes
  keeps c h hbuf _ := by
    have hstep := step_next (F := fun f => ¬ ReadAhead f) h (.inl hbuf) (fun hr => by cases hr)
      (fun hr => by cases hr) (fun _ hr => by cases hr)
    exact Action.wp_mono hstep fun done c' hn => ⟨hn.inv, hn.buf_le, hn.progress⟩
  append x c h := inv_append h x

theorem step_inv (h : Inv c) {done : Bool} (hs : step c = .ok (done, c')) : Inv c' ∧ c'.buf.length ≤ c.buf.length := by
  have hn := Action.wp_ok (step_next (F := fun _ => True) h (.inr trivial) trivial trivial fun _ => trivial) hs
  exact ⟨hn.inv, hn.buf_le⟩

theorem step_keeps (h : Inv c) (hbuf : c.buf.length < 2 ^ 31) {done : Bool} (hs : step c = .ok (done, c')) :
    Inv c' ∧ c'.buf.length < 2 ^ 31 :=
  ⟨(step_inv h hs).1, Nat.lt_of_le_of_lt (step_inv h hs).2 hbuf⟩

theorem stepWhile_eq_drain (n : Nat) (h : Inv c) (hbuf : c.buf.length < 2 ^ 31) :
    stepWhile n c = (inbox E).drain step n c := by
  induction n generalizing c with
  | zero => rfl
  | succ n ih =>
    unfold stepWhile
    rw [Action.bind_of_ok (Action.gets_apply _ _)]
    by_cases hidle : c.stage = .idle
    · rw [if_pos hidle, drain_halted ((halted_iff_idle h).mpr hidle)]
      rfl
    · have hlive : (inbox E).halted c = false := by
        rw [← Bool.not_eq_true, halted_iff_idle h]
        exact hidle
      rw [if_neg hidle, drain_succ hlive]
      cases hs : step c with
      | error f => rw [Action.bind_of_error hs]
      | ok r =>
        obtain ⟨more, c'⟩ := r
        obtain ⟨h', hbuf'⟩ := step_keeps h hbuf hs
        rw [Action.bind_of_ok hs]
        cases more with
        | false => rfl
        | true => exact ih h' hbuf'

theorem deliver_eq_receive (chunk : List UInt8) (h : Inv c) (hlt : c.buf.length + chunk.length < 2 ^ 31) :
    deliver (.readyRead chunk) c = (inbox E).receive step stepsLeft chunk c := by
  have hbuf : (appendChunk chunk c).buf.length < 2 ^ 31 := by
    simp only [appendChunk, List.length_append]
    exact hlt
  unfold deliver receive
  rw [Action.bind_of_ok (Action.gets_apply _ _)]
  by_cases hsocket : c.socket = true
  · have hlive : ¬ (inbox E).halted c = true := fun hh => (halted_iff_no_socket h).mp hh hsocket
    rw [if_pos hsocket, if_neg hlive, handle, onReadyRead]
    simp only [if_pos hbuf]
    exact stepWhile_eq_drain _ (inv_append h chunk) hbuf
  · rw [if_neg hsocket, if_pos ((halted_iff_no_socket h).mpr hsocket)]
    rfl

theorem run_eq_receiveAll (chunks : List (List UInt8)) (h : Inv c)
    (hlt : c.buf.length + chunks.flatten.length < 2 ^ 31) :
    run (chunks.map .readyRead) c = (inbox E).receiveAll step stepsLeft chunks c := by
  induction chunks generalizing c with
  | nil => rfl
  | cons x xs ih =>
    rw [List.flatten_cons, List.length_append] at hlt
    rw [List.map_cons, run, receiveAll, Action.bind_apply, Action.bind_apply,
      deliver_eq_receive x h (by omega)]
    cases hr : (inbox E).receive step stepsLeft x c with
    | error f => rfl
    | ok r =>
      obtain ⟨⟨⟩, c'⟩ := r
      obtain ⟨h', hle⟩ := step_sound.receive_keeps h (by simp only [inbox]; omega) hr
      simp only [inbox] at hle
      exact ih h' (by omega)

/-! ## Comparing two runs -/

/-- A client that is idle will not look at its buffer again: `connectToHost` clears it. -/
def dropUnread (c : VncClient E) : VncClient E := { c with buf := [] }

/-- How a run ends, without what an idle client has left unread. -/
def ending (r : Except Fault (Unit × VncClient E)) : Except Fault (VncClient E) :=
  r.map fun p => if p.2.stage = .idle then dropUnread p.2 else p.2

theorem readyRead_keeps (chunks : List (List UInt8)) (h : Inv c)
    (hlt : c.buf.length + chunks.flatten.length < 2 ^ 31)
    (hr : (inbox E).receiveAll step stepsLeft chunks c = .ok ((), c')) : Inv c' := by
  induction chunks generalizing c with
  | nil => cases hr; exact h
  | cons x xs ih =>
    rw [List.flatten_cons, List.length_append] at hlt
    obtain ⟨⟨⟩, c₁, h₁, h₂⟩ := Action.bind_eq_ok hr
    obtain ⟨h', hle⟩ := step_sound.receive_keeps h (by simp only [inbox]; omega) h₁
    simp only [inbox] at hle
    exact ih h' (by omega) h₂

theorem ending_eq_outcome {r : Except Fault (Unit × VncClient E)} (h : ∀ c', r = .ok ((), c') → Inv c') :
    ending r = (inbox E).outcome dropUnread r := by
  cases r with
  | error f => rfl
  | ok p =>
    obtain ⟨⟨⟩, c'⟩ := p
    have hiff := halted_iff_idle (h c' rfl)
    unfold ending outcome
    by_cases hidle : c'.stage = .idle
    · simp only [Except.map, if_pos hidle, if_pos (hiff.mpr hidle)]
    · simp only [Except.map, if_neg hidle, if_neg fun hh => hidle (hiff.mp hh)]

/-- Any chunks end as the whole stream in one chunk does. -/
theorem ending_flatten (E : Env) (provider : Option (Option String)) (encodings : List Int) (password : String)
    (chunks : List (List UInt8)) (hlt : chunks.flatten.length < 2 ^ 31) :
    ending (run (chunks.map .readyRead) (.connecting E provider encodings password)) =
      (inbox E).outcome dropUnread
        ((inbox E).receive step stepsLeft chunks.flatten (.connecting E provider encodings password)) := by
  have h := inv_connecting E provider encodings password
  have hlt' : (VncClient.connecting E provider encodings password).buf.length + chunks.flatten.length < 2 ^ 31 := by
    simpa only [VncClient.connecting, VncClient.new, List.length_nil, Nat.zero_add] using hlt
  rw [run_eq_receiveAll chunks h hlt', ending_eq_outcome fun c' => readyRead_keeps chunks h hlt']
  exact step_sound.receiveAll_flatten (fun _ _ => rfl) chunks h rfl hlt'

/-- Twelve bytes that are no version, and one more. -/
def badVersion : List UInt8 := List.replicate 12 88

/-- What an idle client has left unread. -/
def unread (r : Except Fault (Unit × VncClient E)) : Option (List UInt8) :=
  match r with
  | .error _ => none
  | .ok (_, c) => some c.buf

end LvdTerm.Vnc
