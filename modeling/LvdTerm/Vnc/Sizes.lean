import LvdTerm.Vnc.StepInvariant

/-!
# VNC client: sizes and reads in whole runs

A run is a list of socket events on a client that has just called `connectToHost`. As long
as the buffer and the Tight rectangles stay within `int` (`Fits`), no size the decoder
computes overflows and nothing is read or written outside its buffer. `ServerInit` does not
limit the desktop the way a DesktopSize rectangle does, so a server can break the condition.
-/
namespace LvdTerm.Vnc

open Lib Action

variable {E : Env} {c c' : VncClient E}

/-- Faults that are not about a size or an index. -/
def Benign (f : Fault) : Prop := f = .runOverflow ∨ f = .uninitialised

/-- The states in which the loop of `onReadyRead` calls `step`. -/
def stepped : Nat → VncClient E → List (VncClient E)
  | 0, _ => []
  | fuel + 1, c =>
    if c.stage = .idle then []
    else c :: match step c with
      | .ok (true, c') => stepped fuel c'
      | _ => []

/-- The buffer fits an `int`, and so do the sizes of every step made on it. -/
def ChunkFits (chunk : List UInt8) (c : VncClient E) : Prop :=
  (appendChunk chunk c).buf.length < 2 ^ 31 ∧
    ∀ c' ∈ stepped (stepsLeft (appendChunk chunk c) + 1) (appendChunk chunk c), SizesFit c'

/-- Every step of the run meets the condition. -/
def Fits : List SocketEvent → VncClient E → Prop
  | [], _ => True
  | event :: events, c =>
    (∀ chunk, event = .readyRead chunk → c.socket = true → ChunkFits chunk c) ∧
      ∀ c', deliver event c = .ok ((), c') → Fits events c'

theorem inv_connecting (E : Env) (provider : Option (Option String)) (encodings : List Int)
    (password : String) : Inv (.connecting E provider encodings password) :=
  inv_handshake .version rfl (by decide) (by decide) rfl rfl rfl

theorem inv_append (h : Inv c) (chunk : List UInt8) : Inv (appendChunk chunk c) where
  idle := h.idle
  live := h.live
  early := h.early
  screen hs :=
    have hsc := h.screen hs
    ⟨hsc.width_pos, hsc.height_pos, hsc.width_lt, hsc.height_lt, hsc.fb_width, hsc.fb_height⟩
  rect hs hr :=
    have hok := h.rect hs hr
    ⟨hok.width_lt, hok.height_lt, hok.inside, hok.tile⟩

/-- What a step keeps, the loop keeps. -/
theorem stepWhile_inv (fuel : Nat) (h : Inv c) (hbuf : c.buf.length < 2 ^ 31)
    (hfits : ∀ c' ∈ stepped fuel c, SizesFit c') :
    wp Benign (stepWhile fuel) (fun _ => Inv) c := by
  induction fuel generalizing c with
  | zero => exact h
  | succ fuel ih =>
    unfold stepWhile
    simp only [wp_bind, wp_gets]
    refine wp_ite (fun _ => h) (fun hidle => ?_)
    simp only [stepped, if_neg hidle] at hfits
    have hstep := step_next (F := Benign) h (.inl hbuf) (.inl rfl) (.inr rfl)
      (fun hno => absurd (hfits c (List.mem_cons_self ..)) hno)
    rw [wp_bind]
    unfold wp at hstep ⊢
    cases hs : step c with
    | error f => rw [hs] at hstep; exact hstep
    | ok r =>
      obtain ⟨more, c₁⟩ := r
      rw [hs] at hstep hfits
      cases more with
      | false => exact hstep.inv
      | true =>
        refine ih hstep.inv (Nat.lt_of_le_of_lt hstep.buf_le hbuf) fun c' hc' => ?_
        exact hfits c' (List.mem_cons_of_mem _ hc')

theorem onReadyRead_inv {chunk : List UInt8} (h : Inv c) (hfits : ChunkFits chunk c) :
    wp Benign (onReadyRead chunk) (fun _ => Inv) c := by
  have hloop := stepWhile_inv _ (inv_append h chunk) hfits.1 hfits.2
  unfold wp onReadyRead at *
  simp only [if_pos hfits.1]
  exact hloop

theorem wp_retryOlderProtocol {F : Fault → Prop} {Q : Bool → VncClient E → Prop} (h : Inv c) (hno : Q false c)
    (hyes : ∀ c', Inv c' → Q true c') : wp F retryOlderProtocol Q c := by
  unfold retryOlderProtocol startConnection close
  simp only [wp_bind, wp_gets]
  refine wp_ite (fun _ => hno) (fun hretry => ?_)
  have hs : c.stage = .securityTypes := Decidable.of_not_not fun hne => hretry (.inl hne)
  simp only [wp_bind, wp_modify, wp_pure]
  refine hyes _ (inv_handshake .version rfl (by decide) (by decide) rfl rfl ?_)
  exact h.early (by rw [hs]; decide) (by rw [hs]; decide)

theorem onSocketClosed_inv {F : Fault → Prop} (h : Inv c) : wp F onSocketClosed (fun _ => Inv) c := by
  unfold onSocketClosed
  simp only [wp_bind, wp_gets]
  refine wp_ite (fun _ => h) (fun hidle => wp_ite (fun _ => ?_) (fun _ => ?_))
  · exact inv_idle rfl rfl
  · simp only [wp_bind]
    refine wp_retryOlderProtocol h ?_ fun c' hc' => hc'
    exact wp_fail (h.live hidle).2 (inv_failed _ c)

theorem onSocketError_inv {F : Fault → Prop} {remoteHostClosed : Bool} {message : String} (h : Inv c) :
    wp F (onSocketError remoteHostClosed message) (fun _ => Inv) c := by
  unfold onSocketError
  simp only [wp_bind, wp_gets]
  refine wp_ite (fun _ => h) (fun hidle => ?_)
  have hfail : wp F (fail message) (fun _ => Inv) c := wp_fail (h.live hidle).2 (inv_failed _ c)
  refine wp_ite (fun _ => hfail) (fun _ => wp_ite (fun _ => h) (fun _ => ?_))
  simp only [wp_bind]
  exact wp_retryOlderProtocol h hfail fun c' hc' => hc'

theorem deliver_inv {event : SocketEvent} (h : Inv c)
    (hfits : ∀ chunk, event = .readyRead chunk → c.socket = true → ChunkFits chunk c) :
    wp Benign (deliver event) (fun _ => Inv) c := by
  unfold deliver
  simp only [wp_bind, wp_gets]
  refine wp_ite (fun hsocket => ?_) (fun _ => h)
  cases event with
  | readyRead chunk => exact onReadyRead_inv h (hfits chunk rfl hsocket)
  | disconnected => exact onSocketClosed_inv h
  | errorOccurred remoteHostClosed message => exact onSocketError_inv h

theorem run_inv (events : List SocketEvent) (h : Inv c) (hfits : Fits events c) :
    wp Benign (run events) (fun _ => Inv) c := by
  induction events generalizing c with
  | nil => exact h
  | cons event events ih =>
    have hd := deliver_inv h hfits.1
    unfold run
    rw [wp_bind]
    unfold wp at hd ⊢
    cases hr : deliver event c with
    | error f => rw [hr] at hd; exact hd
    | ok r =>
      obtain ⟨⟨⟩, c'⟩ := r
      rw [hr] at hd
      exact ih hd (hfits.2 c' hr)

/-- No size of the run overflows and nothing is read or written outside its buffer. -/
def SizesSafe (events : List SocketEvent) (c : VncClient E) : Prop :=
  ∀ f, run events c = .error f → Benign f

/-- In every run whose steps all fit, sizes are exact and accesses are in bounds. -/
theorem run_sizes_safe (E : Env) (provider : Option (Option String)) (encodings : List Int)
    (password : String) (events : List SocketEvent)
    (hfits : Fits events (.connecting E provider encodings password)) :
    SizesSafe events (.connecting E provider encodings password) := fun _ hf =>
  wp_error (run_inv events (inv_connecting E provider encodings password) hfits) hf

/-- `"RFB 003.008\n"` -/
def version38 : List UInt8 := [82, 70, 66, 32, 48, 48, 51, 46, 48, 48, 56, 10]

theorem run_sizes_safe_version :
    SizesSafe [.readyRead version38] (.connecting .bare none [] "") := by
  refine run_sizes_safe .bare none [] "" [.readyRead version38] ⟨?_, fun _ _ => trivial⟩
  rintro chunk hc -
  cases hc
  refine ⟨by decide, fun c' hc' hs => ?_⟩
  have hnone : (stepped 25 (appendChunk version38 (.connecting .bare none [] ""))).all
      (fun c => c.stage ≠ .running) = true := by decide +kernel
  exact absurd hs (of_decide_eq_true (List.all_eq_true.mp hnone c' hc'))

/-- A handshake without authentication, a desktop of 30000x30000, and the header of a basic
Tight rectangle that covers it. -/
def hugeTight : List UInt8 :=
  version38 ++ [1, 1] ++ [0, 0, 0, 0] ++
    [0x75, 0x30, 0x75, 0x30] ++ List.replicate 16 0 ++ [0, 0, 0, 0] ++
    [0, 0, 0, 1] ++ [0, 0, 0, 0, 0x75, 0x30, 0x75, 0x30, 0, 0, 0, 7] ++ [0]

/-- The fault a run ends in. -/
def faultOf (r : Except Fault (Unit × VncClient E)) : Option Fault :=
  match r with
  | .error f => some f
  | .ok _ => none

theorem eq_error_of_faultOf {r : Except Fault (Unit × VncClient E)} {f : Fault} (h : faultOf r = some f) :
    r = .error f := by
  cases r with
  | error f' => rw [Option.some.inj h]
  | ok _ => cases h

theorem huge_tight_overflows :
    ¬ SizesSafe [.readyRead hugeTight] (.connecting .bare none [] "") := by
  intro h
  have hover : faultOf (run [.readyRead hugeTight] (.connecting .bare none [] "")) = some .intOverflow := by
    decide +kernel
  rcases h .intOverflow (eq_error_of_faultOf hover) with h | h <;> cases h

end LvdTerm.Vnc
