import Mathlib.Data.List.Basic

/-!
# Fallible state actions

Event-driven code runs to completion on one state and either returns a value or
performs an operation the language leaves undefined. `Action ε σ α` is that shape:
a state transformer that may stop with a fault in `ε`. `Action.wp` is its weakest
precondition, parameterised by the faults a caller is willing to accept, so that
"never faults" and "faults only in this way" are the same kind of statement.
-/
namespace LvdTerm.Lib

def Action (ε σ α : Type) : Type := σ → Except ε (α × σ)

namespace Action

variable {ε σ α β : Type}

instance : Monad (Action ε σ) where
  pure a := fun s => .ok (a, s)
  bind m f := fun s =>
    match m s with
    | .ok (a, s') => f a s'
    | .error e => .error e

def throw (e : ε) : Action ε σ α := fun _ => .error e

def gets (f : σ → α) : Action ε σ α := fun s => .ok (f s, s)

def modify (f : σ → σ) : Action ε σ Unit := fun s => .ok ((), f s)

/-- The counted loop `for (int i = 0; i < n; ++i)` with an accumulator. -/
def foldRange (body : Nat → α → Action ε σ α) : Nat → α → Action ε σ α
  | 0, a => pure a
  | n + 1, a => do
    let a ← foldRange body n a
    body n a

def forRange (n : Nat) (body : Nat → Action ε σ Unit) : Action ε σ Unit :=
  foldRange (fun i _ => body i) n ()

/-- `while (cond) { if (!unit()) return false; next(); } return true;`, with a bound on
its rounds. -/
def loopWhile (cond : σ → Bool) (unit : Action ε σ Bool) (next : Action ε σ Unit) :
    Nat → Action ε σ Bool
  | 0 => pure true
  | n + 1 => do
    let more ← gets cond
    if more then
      let done ← unit
      if done then
        next
        loopWhile cond unit next n
      else pure false
    else pure true

@[simp] theorem pure_apply (a : α) (s : σ) : (pure a : Action ε σ α) s = .ok (a, s) := rfl

theorem bind_apply (m : Action ε σ α) (f : α → Action ε σ β) (s : σ) :
    (m >>= f) s = match m s with
      | .ok (a, s') => f a s'
      | .error e => .error e := rfl

theorem bind_of_ok {m : Action ε σ α} {f : α → Action ε σ β} {s s' : σ} {a : α}
    (h : m s = .ok (a, s')) : (m >>= f) s = f a s' := by
  rw [bind_apply, h]

theorem bind_of_error {m : Action ε σ α} {f : α → Action ε σ β} {s : σ} {e : ε}
    (h : m s = .error e) : (m >>= f) s = .error e := by
  rw [bind_apply, h]

theorem bind_eq_ok {m : Action ε σ α} {f : α → Action ε σ β} {s t : σ} {b : β}
    (h : (m >>= f) s = .ok (b, t)) : ∃ a s', m s = .ok (a, s') ∧ f a s' = .ok (b, t) := by
  rw [bind_apply] at h
  cases hm : m s with
  | error e => rw [hm] at h; cases h
  | ok r =>
    obtain ⟨a, s'⟩ := r
    rw [hm] at h
    exact ⟨a, s', rfl, h⟩

theorem bind_eq_error {m : Action ε σ α} {f : α → Action ε σ β} {s : σ} {e : ε}
    (h : (m >>= f) s = .error e) :
    m s = .error e ∨ ∃ a s', m s = .ok (a, s') ∧ f a s' = .error e := by
  rw [bind_apply] at h
  cases hm : m s with
  | error e' =>
    rw [hm] at h
    cases h
    exact .inl rfl
  | ok r =>
    obtain ⟨a, s'⟩ := r
    rw [hm] at h
    exact .inr ⟨a, s', rfl, h⟩

@[simp] theorem throw_apply (e : ε) (s : σ) : (throw e : Action ε σ α) s = .error e := rfl

@[simp] theorem gets_apply (f : σ → α) (s : σ) : (gets f : Action ε σ α) s = .ok (f s, s) := rfl

@[simp] theorem modify_apply (f : σ → σ) (s : σ) :
    (modify f : Action ε σ Unit) s = .ok ((), f s) := rfl

/-- What an action returned, if it did. -/
def value (r : Except ε (α × σ)) : Option α :=
  match r with
  | .ok p => some p.1
  | .error _ => none

/-- The state it left, `s` if it stopped. -/
def left (s : σ) (r : Except ε (α × σ)) : σ :=
  match r with
  | .ok p => p.2
  | .error _ => s

theorem eq_ok_of_value {r : Except ε (α × σ)} {a : α} (s : σ) (h : value r = some a) : r = .ok (a, left s r) := by
  cases r with
  | error e => cases h
  | ok p =>
    cases h
    rfl

/-- Weakest precondition: every result satisfies `Q`, every fault is one of `E`. -/
def wp (E : ε → Prop) (m : Action ε σ α) (Q : α → σ → Prop) (s : σ) : Prop :=
  match m s with
  | .ok (a, s') => Q a s'
  | .error e => E e

section Rules

variable {E : ε → Prop}

@[simp] theorem wp_pure (a : α) (Q : α → σ → Prop) :
    wp E (pure a : Action ε σ α) Q = Q a := rfl

@[simp] theorem wp_bind (m : Action ε σ α) (f : α → Action ε σ β) (Q : β → σ → Prop) :
    wp E (m >>= f) Q = wp E m (fun a => wp E (f a) Q) := by
  funext s
  unfold wp
  rw [bind_apply]
  cases m s <;> rfl

@[simp] theorem wp_throw (e : ε) (Q : α → σ → Prop) :
    wp E (throw e : Action ε σ α) Q = fun _ => E e := rfl

@[simp] theorem wp_gets (f : σ → α) (Q : α → σ → Prop) :
    wp E (gets f : Action ε σ α) Q = fun s => Q (f s) s := rfl

@[simp] theorem wp_modify (f : σ → σ) (Q : Unit → σ → Prop) :
    wp E (modify f : Action ε σ Unit) Q = fun s => Q () (f s) := rfl

theorem wp_ite {c : Prop} [Decidable c] {m n : Action ε σ α} {Q : α → σ → Prop} {s : σ}
    (hm : c → wp E m Q s) (hn : ¬ c → wp E n Q s) : wp E (if c then m else n) Q s := by
  split
  · exact hm ‹_›
  · exact hn ‹_›

theorem wp_mono {m : Action ε σ α} {Q R : α → σ → Prop} {s : σ}
    (h : wp E m Q s) (hQR : ∀ a s', Q a s' → R a s') : wp E m R s := by
  unfold wp at *
  cases hm : m s with
  | error e => rw [hm] at h; exact h
  | ok r => rw [hm] at h; exact hQR _ _ h

theorem wp_ok {m : Action ε σ α} {Q : α → σ → Prop} {s s' : σ} {a : α}
    (h : wp E m Q s) (hm : m s = .ok (a, s')) : Q a s' := by
  unfold wp at h
  rwa [hm] at h

theorem wp_error {m : Action ε σ α} {Q : α → σ → Prop} {s : σ} {e : ε}
    (h : wp E m Q s) (hm : m s = .error e) : E e := by
  unfold wp at h
  rwa [hm] at h

/-- Where every fault is accepted, a postcondition that always holds is met. -/
theorem wp_any {m : Action ε σ α} {Q : α → σ → Prop} {s : σ} (h : ∀ a s', Q a s') :
    wp (fun _ => True) m Q s := by
  unfold wp
  cases m s with
  | error e => trivial
  | ok r => exact h r.1 r.2

/-- The loop rule: `I i a` holds after `i` rounds with accumulator `a`. -/
theorem wp_foldRange {body : Nat → α → Action ε σ α} {I : Nat → α → σ → Prop} {n : Nat}
    (hbody : ∀ i a s, i < n → I i a s → wp E (body i a) (I (i + 1)) s) {a : α} {s : σ}
    (h0 : I 0 a s) : wp E (foldRange body n a) (I n) s := by
  induction n with
  | zero => exact h0
  | succ n ih =>
    rw [foldRange, wp_bind]
    have hn := ih (fun i a s hi => hbody i a s (Nat.lt_succ_of_lt hi))
    exact wp_mono hn (fun a s h => hbody n a s (Nat.lt_succ_self n) h)

theorem wp_forRange {body : Nat → Action ε σ Unit} {I : Nat → σ → Prop} {n : Nat}
    (hbody : ∀ i s, i < n → I i s → wp E (body i) (fun _ => I (i + 1)) s) {s : σ}
    (h0 : I 0 s) : wp E (forRange n body) (fun _ => I n) s :=
  wp_foldRange (I := fun i _ => I i) (fun i _ s hi h => hbody i s hi h) h0

end Rules

end Action

end LvdTerm.Lib
