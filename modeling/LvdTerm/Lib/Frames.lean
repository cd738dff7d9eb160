import LvdTerm.Lib.Resume

/-!
# What an action keeps

`Frame.Keeps` relates the state after an action to the state before, and composes because a frame
is reflexive and transitive.
-/
namespace LvdTerm.Lib

open LvdTerm.Lib.Action

/-- What a state may have become. -/
structure Frame (σ : Type) where
  rel : σ → σ → Prop
  refl : ∀ s, rel s s
  trans : ∀ {s t u}, rel s t → rel t u → rel s u

namespace Frame

variable {ε σ α β : Type} {R : Frame σ}

/-- Whatever the action leaves, the state may have become. -/
def Keeps (R : Frame σ) (m : Action ε σ α) : Prop := ∀ s a s', m s = .ok (a, s') → R.rel s s'

theorem keeps_of_readOnly {m : Action ε σ α} (h : Inbox.ReadOnly m) : R.Keeps m := by
  intro s a s' hm
  rw [h hm]
  exact R.refl s

theorem keeps_pure (a : α) : R.Keeps (pure a : Action ε σ α) := keeps_of_readOnly (Inbox.readOnly_pure a)

theorem keeps_throw (e : ε) : R.Keeps (throw e : Action ε σ α) := by
  intro s a s' h
  cases h

theorem keeps_gets (f : σ → α) : R.Keeps (gets f : Action ε σ α) := keeps_of_readOnly (Inbox.readOnly_gets f)

theorem keeps_modify {f : σ → σ} (h : ∀ s, R.rel s (f s)) : R.Keeps (modify f : Action ε σ Unit) := by
  intro s a s' hm
  cases hm
  exact h s

theorem Keeps.bind {m : Action ε σ α} {f : α → Action ε σ β} (hm : R.Keeps m) (hf : ∀ a, R.Keeps (f a)) :
    R.Keeps (m >>= f) := by
  intro s b s' h
  obtain ⟨a, t, h1, h2⟩ := bind_eq_ok h
  exact R.trans (hm s a t h1) (hf a t b s' h2)

theorem keeps_ite {c : Prop} [Decidable c] {m n : Action ε σ α} (hm : c → R.Keeps m) (hn : ¬ c → R.Keeps n) :
    R.Keeps (if c then m else n) := by
  by_cases h : c
  · rw [if_pos h]
    exact hm h
  · rw [if_neg h]
    exact hn h

/-- An operation with a check in front. -/
theorem keeps_check {p : σ → Prop} [DecidablePred p] {f : σ → α × σ} {e : ε} (h : ∀ s, p s → R.rel s (f s).2) :
    R.Keeps (fun s => if p s then .ok (f s) else .error e : Action ε σ α) := by
  intro s a s' hm
  by_cases hs : p s
  · simp only [if_pos hs, Except.ok.injEq] at hm
    have hrel := h s hs
    rw [hm] at hrel
    exact hrel
  · simp only [if_neg hs] at hm
    cases hm

theorem keeps_foldRange {body : Nat → α → Action ε σ α} {n : Nat} (h : ∀ i < n, ∀ a, R.Keeps (body i a)) (a : α) :
    R.Keeps (foldRange body n a) := by
  induction n with
  | zero => exact keeps_pure a
  | succ n ih =>
    have hfirst := ih fun i hi => h i (Nat.lt_succ_of_lt hi)
    exact hfirst.bind fun a => h n (Nat.lt_succ_self n) a

theorem keeps_forRange {body : Nat → Action ε σ Unit} {n : Nat} (h : ∀ i < n, R.Keeps (body i)) :
    R.Keeps (forRange n body) :=
  keeps_foldRange (fun i hi _ => h i hi) ()

theorem keeps_loopWhile {cond : σ → Bool} {unit : Action ε σ Bool} {next : Action ε σ Unit} (hunit : R.Keeps unit)
    (hnext : R.Keeps next) (n : Nat) : R.Keeps (loopWhile cond unit next n) := by
  induction n with
  | zero => exact keeps_pure true
  | succ n ih =>
    refine (keeps_gets _).bind fun more => keeps_ite (fun _ => ?_) (fun _ => keeps_pure true)
    refine hunit.bind fun done => keeps_ite (fun _ => ?_) (fun _ => keeps_pure false)
    exact hnext.bind fun _ => ih

end Frame

end LvdTerm.Lib
