import LvdTerm.Lib.Action

/-!
# Resumable decoders

A decoder that is driven by "some more data has arrived" runs one unit of work at a
time on what it holds. A unit either completes, or halts the decoder for good, or
returns `false` to be tried again when more has arrived. The result must not depend
on where the stream was cut. `Resumes` is the condition on a unit that makes it so,
`Atomic` the common case of a unit that changes nothing before it knows that it has
everything, and `receiveAll_flatten` the conclusion: receiving a list of chunks is
receiving their concatenation, up to the data a halted decoder never looks at.
-/
namespace LvdTerm.Lib

/-- How a state holds data that has arrived and is not yet consumed. -/
structure Inbox (σ β : Type) where
  append : List β → σ → σ
  avail : σ → Nat
  halted : σ → Bool
  append_nil : ∀ s, append [] s = s
  append_append : ∀ x y s, append y (append x s) = append (x ++ y) s
  avail_append : ∀ x s, avail (append x s) = avail s + x.length
  halted_append : ∀ x s, halted (append x s) = halted s

namespace Inbox

variable {ε σ β α γ : Type} (I : Inbox σ β) (starved : ε → Prop)

/-- The outcome does not depend on data that arrives later; `starved` faults, which
mean that data was read before it arrived, are the exception. -/
structure Stable (m : Action ε σ α) : Prop where
  ok : ∀ {s a s'}, m s = .ok (a, s') → ∀ x, m (I.append x s) = .ok (a, I.append x s')
  fault : ∀ {s e}, m s = .error e → ¬ starved e → ∀ x, m (I.append x s) = .error e

def ReadOnly (m : Action ε σ α) : Prop := ∀ {s a s'}, m s = .ok (a, s') → s' = s

/-- A unit of work that can be tried again when it returns `false` without halting. -/
structure Resumes (m : Action ε σ Bool) : Prop where
  done : ∀ {s s'}, m s = .ok (true, s') → ∀ x, m (I.append x s) = .ok (true, I.append x s')
  halt : ∀ {s s'}, I.halted s = false → m s = .ok (false, s') → I.halted s' = true →
    ∀ x, m (I.append x s) = .ok (false, I.append x s')
  wait : ∀ {s s'}, m s = .ok (false, s') → I.halted s' = false →
    ∀ x, m (I.append x s') = m (I.append x s)
  fault : ∀ {s e}, m s = .error e → ¬ starved e → ∀ x, m (I.append x s) = .error e

/-- A unit that waits without having changed anything. -/
structure Atomic (m : Action ε σ Bool) : Prop where
  resumes : I.Resumes starved m
  unchanged : ∀ {s s'}, m s = .ok (false, s') → I.halted s' = false → s' = s

/-! ## Stable actions -/

variable {I starved}

theorem stable_pure (a : α) : I.Stable starved (pure a : Action ε σ α) where
  ok h x := by cases h; rfl
  fault h := by cases h

theorem stable_throw (e : ε) : I.Stable starved (Action.throw e : Action ε σ α) where
  ok h := by cases h
  fault h _ x := by cases h; rfl

theorem stable_gets {f : σ → α} (hf : ∀ x s, f (I.append x s) = f s) :
    I.Stable starved (Action.gets f : Action ε σ α) where
  ok h x := by cases h; simp [hf]
  fault h := by cases h

theorem stable_modify {f : σ → σ} (hf : ∀ x s, f (I.append x s) = I.append x (f s)) :
    I.Stable starved (Action.modify f : Action ε σ Unit) where
  ok h x := by cases h; simp [hf]
  fault h := by cases h

theorem Stable.bind {m : Action ε σ α} {f : α → Action ε σ γ} (hm : I.Stable starved m)
    (hf : ∀ a, I.Stable starved (f a)) : I.Stable starved (m >>= f) where
  ok h x := by
    obtain ⟨a, s', h1, h2⟩ := Action.bind_eq_ok h
    rw [Action.bind_of_ok (hm.ok h1 x)]
    exact (hf a).ok h2 x
  fault h hs x := by
    rcases Action.bind_eq_error h with h1 | ⟨a, s', h1, h2⟩
    · exact Action.bind_of_error (hm.fault h1 hs x)
    · rw [Action.bind_of_ok (hm.ok h1 x)]
      exact (hf a).fault h2 hs x

/-- An operation with a check that does not look at the data. -/
theorem stable_check {p : σ → Prop} [DecidablePred p] {f : σ → α × σ} {e : ε}
    (hp : ∀ x s, p (I.append x s) ↔ p s) (hf : ∀ x s, f (I.append x s) = ((f s).1, I.append x (f s).2)) :
    I.Stable starved (fun s => if p s then .ok (f s) else .error e : Action ε σ α) where
  ok {s a s'} h x := by
    by_cases hs : p s
    · simp only [if_pos hs, Except.ok.injEq] at h
      simp only [if_pos ((hp x s).mpr hs), hf, h]
    · simp only [if_neg hs] at h
      cases h
  fault {s e'} h _ x := by
    by_cases hs : p s
    · simp only [if_pos hs] at h
      cases h
    · simp only [if_neg hs] at h
      simp only [if_neg fun hx => hs ((hp x s).mp hx), h]

theorem stable_ite {c : Prop} [Decidable c] {m n : Action ε σ α} (hm : I.Stable starved m)
    (hn : I.Stable starved n) : I.Stable starved (if c then m else n) := by
  split
  · exact hm
  · exact hn

theorem stable_foldRange {body : Nat → α → Action ε σ α}
    (hbody : ∀ i a, I.Stable starved (body i a)) (n : Nat) (a : α) :
    I.Stable starved (Action.foldRange body n a) := by
  induction n with
  | zero => exact stable_pure a
  | succ n ih => exact ih.bind (fun a => hbody n a)

theorem stable_forRange {body : Nat → Action ε σ Unit}
    (hbody : ∀ i, I.Stable starved (body i)) (n : Nat) :
    I.Stable starved (Action.forRange n body) :=
  stable_foldRange (fun i _ => hbody i) n ()

theorem readOnly_pure (a : α) : ReadOnly (pure a : Action ε σ α) := by
  intro s b s' h
  cases h
  rfl

theorem readOnly_gets (f : σ → α) : ReadOnly (Action.gets f : Action ε σ α) := by
  intro s b s' h
  cases h
  rfl

theorem ReadOnly.bind {m : Action ε σ α} {f : α → Action ε σ γ} (hm : ReadOnly m)
    (hf : ∀ a, ReadOnly (f a)) : ReadOnly (m >>= f) := by
  intro s b s' h
  obtain ⟨a, s1, h1, h2⟩ := Action.bind_eq_ok h
  rw [hf a h2, hm h1]

theorem readOnly_foldRange {body : Nat → α → Action ε σ α} (hbody : ∀ i a, ReadOnly (body i a)) (n : Nat)
    (a : α) : ReadOnly (Action.foldRange body n a) := by
  induction n with
  | zero => exact readOnly_pure a
  | succ n ih => exact ih.bind fun a => hbody n a

/-- Where every fault is accepted, an action that only looks leaves the state as it is. -/
theorem ReadOnly.wp {m : Action ε σ α} (hr : ReadOnly m) {Q : α → σ → Prop} {s : σ} (h : ∀ a, Q a s) :
    Action.wp (fun _ => True) m Q s := by
  unfold Action.wp
  cases hm : m s with
  | error e => trivial
  | ok r =>
    obtain ⟨a, s'⟩ := r
    cases hr hm
    exact h a

/-! ## Units -/

/-- A unit that knows it has everything: it completes, or halts the decoder. -/
structure Decides (I : Inbox σ β) (starved : ε → Prop) (m : Action ε σ Bool) : Prop where
  stable : I.Stable starved m
  final : ∀ {s s'}, m s = .ok (false, s') → I.halted s' = true

theorem decides_true : I.Decides starved (pure true : Action ε σ Bool) where
  stable := stable_pure true
  final h := by cases h

theorem Stable.decides {m : Action ε σ α} {f : α → Action ε σ Bool} (hm : I.Stable starved m)
    (hf : ∀ a, I.Decides starved (f a)) : I.Decides starved (m >>= f) where
  stable := hm.bind fun a => (hf a).stable
  final h := by
    obtain ⟨a, s', _, h2⟩ := Action.bind_eq_ok h
    exact (hf a).final h2

theorem decides_ite {c : Prop} [Decidable c] {m n : Action ε σ Bool}
    (hm : I.Decides starved m) (hn : I.Decides starved n) : I.Decides starved (if c then m else n) := by
  split
  · exact hm
  · exact hn

/-- One that does something, and another behind it unless it has halted. -/
theorem Decides.unless {m n : Action ε σ Bool} (hm : I.Decides starved m) (hn : I.Decides starved n) :
    I.Decides starved (m >>= fun ok => if !ok then pure false else n) where
  stable := hm.stable.bind fun ok => stable_ite (stable_pure false) hn.stable
  final h := by
    obtain ⟨ok, s1, h1, h2⟩ := Action.bind_eq_ok h
    cases ok with
    | false => cases h2; exact hm.final h1
    | true => exact hn.final h2

theorem Decides.atomic {m : Action ε σ Bool} (hm : I.Decides starved m) : I.Atomic starved m where
  resumes :=
    { done := fun h x => hm.stable.ok h x
      halt := fun _ h _ x => hm.stable.ok h x
      wait := fun h hn => by rw [hm.final h] at hn; cases hn
      fault := fun h hs x => hm.stable.fault h hs x }
  unchanged h hn := by rw [hm.final h] at hn; cases hn

theorem atomic_wait : I.Atomic starved (pure false : Action ε σ Bool) where
  resumes :=
    { done := fun h => by cases h
      halt := fun _ h _ x => by cases h; rfl
      wait := fun h _ x => by cases h; rfl
      fault := fun h => by cases h }
  unchanged h _ := by cases h; rfl

theorem atomic_ite {c : Prop} [Decidable c] {m n : Action ε σ Bool}
    (hm : I.Atomic starved m) (hn : I.Atomic starved n) : I.Atomic starved (if c then m else n) := by
  split
  · exact hm
  · exact hn

/-- `if (avail() < n) return false;` in front of a unit that uses up nothing when it waits. -/
theorem Resumes.guard {m : Action ε σ Bool} {n : Nat} (hm : I.Resumes starved m)
    (hkeep : ∀ {s s'}, m s = .ok (false, s') → I.halted s' = false → I.avail s' = I.avail s) :
    I.Resumes starved (Action.gets I.avail >>= fun a => if a < n then pure false else m) := by
  have short : ∀ s, I.avail s < n →
      (Action.gets I.avail >>= fun a => if a < n then pure false else m) s = .ok (false, s) := by
    intro s h
    rw [Action.bind_of_ok (Action.gets_apply _ _), if_pos h]
    rfl
  have enough : ∀ s, ¬ I.avail s < n →
      (Action.gets I.avail >>= fun a => if a < n then pure false else m) s = m s := by
    intro s h
    rw [Action.bind_of_ok (Action.gets_apply _ _), if_neg h]
  have more : ∀ {s}, ¬ I.avail s < n → ∀ x, ¬ I.avail (I.append x s) < n := by
    intro s h x
    rw [I.avail_append]
    omega
  refine ⟨?_, ?_, ?_, ?_⟩
  · intro s s' h x
    by_cases hn : I.avail s < n
    · rw [short s hn] at h; cases h
    · rw [enough s hn] at h
      rw [enough _ (more hn x)]
      exact hm.done h x
  · intro s s' hs h hh x
    by_cases hn : I.avail s < n
    · rw [short s hn] at h
      cases h
      rw [hs] at hh
      cases hh
    · rw [enough s hn] at h
      rw [enough _ (more hn x)]
      exact hm.halt hs h hh x
  · intro s s' h hh x
    by_cases hn : I.avail s < n
    · rw [short s hn] at h
      cases h
      rfl
    · rw [enough s hn] at h
      have hn' : ¬ I.avail s' < n := by rw [hkeep h hh]; exact hn
      rw [enough _ (more hn x), enough _ (more hn' x)]
      exact hm.wait h hh x
  · intro s e h hs x
    by_cases hn : I.avail s < n
    · rw [short s hn] at h; cases h
    · rw [enough s hn] at h
      rw [enough _ (more hn x)]
      exact hm.fault h hs x

theorem Atomic.guard {m : Action ε σ Bool} {n : Nat} (hm : I.Atomic starved m) :
    I.Atomic starved (Action.gets I.avail >>= fun a => if a < n then pure false else m) where
  resumes := hm.resumes.guard fun h hh => by rw [hm.unchanged h hh]
  unchanged {s s'} h hh := by
    rw [Action.bind_of_ok (Action.gets_apply _ _)] at h
    split at h
    · cases h; rfl
    · exact hm.unchanged h hh

/-- Looking at what is there before a unit. -/
theorem Atomic.after {m : Action ε σ α} {f : α → Action ε σ Bool} (hm : I.Stable starved m)
    (hr : ReadOnly m) (hf : ∀ a, I.Atomic starved (f a)) : I.Atomic starved (m >>= f) := by
  refine ⟨⟨?_, ?_, ?_, ?_⟩, ?_⟩
  · intro s s' h x
    obtain ⟨a, s1, h1, h2⟩ := Action.bind_eq_ok h
    rw [Action.bind_of_ok (hm.ok h1 x)]
    exact (hf a).resumes.done h2 x
  · intro s s' hs h hh x
    obtain ⟨a, s1, h1, h2⟩ := Action.bind_eq_ok h
    rw [Action.bind_of_ok (hm.ok h1 x)]
    cases hr h1
    exact (hf a).resumes.halt hs h2 hh x
  · intro s s' h hh x
    obtain ⟨a, s1, h1, h2⟩ := Action.bind_eq_ok h
    cases hr h1
    rw [(hf a).unchanged h2 hh]
  · intro s e h hs x
    rcases Action.bind_eq_error h with h1 | ⟨a, s1, h1, h2⟩
    · exact Action.bind_of_error (hm.fault h1 hs x)
    · rw [Action.bind_of_ok (hm.ok h1 x)]
      exact (hf a).resumes.fault h2 hs x
  · intro s s' h hh
    obtain ⟨a, s1, h1, h2⟩ := Action.bind_eq_ok h
    cases hr h1
    exact (hf a).unchanged h2 hh

/-- Looking ahead for something that may not have arrived in full: `none` may become
`some` later, `some` stays. -/
structure Peek (I : Inbox σ β) (starved : ε → Prop) (m : Action ε σ (Option α)) : Prop where
  readOnly : ReadOnly m
  found : ∀ {s a s'}, m s = .ok (some a, s') → ∀ x, m (I.append x s) = .ok (some a, I.append x s')
  fault : ∀ {s e}, m s = .error e → ¬ starved e → ∀ x, m (I.append x s) = .error e

theorem Stable.peek {m : Action ε σ (Option α)} (hm : I.Stable starved m) (hr : ReadOnly m) :
    I.Peek starved m :=
  ⟨hr, hm.ok, hm.fault⟩

theorem peek_ite {c : Prop} [Decidable c] {m n : Action ε σ (Option α)} (hm : I.Peek starved m)
    (hn : I.Peek starved n) : I.Peek starved (if c then m else n) := by
  split
  · exact hm
  · exact hn

theorem Stable.peek_bind {m : Action ε σ γ} {f : γ → Action ε σ (Option α)} (hm : I.Stable starved m)
    (hr : ReadOnly m) (hf : ∀ a, I.Peek starved (f a)) : I.Peek starved (m >>= f) where
  readOnly := hr.bind fun a => (hf a).readOnly
  found h x := by
    obtain ⟨a, s', h1, h2⟩ := Action.bind_eq_ok h
    rw [Action.bind_of_ok (hm.ok h1 x)]
    exact (hf a).found h2 x
  fault h hs x := by
    rcases Action.bind_eq_error h with h1 | ⟨a, s', h1, h2⟩
    · exact Action.bind_of_error (hm.fault h1 hs x)
    · rw [Action.bind_of_ok (hm.ok h1 x)]
      exact (hf a).fault h2 hs x

/-- `if (avail() < n)` in front of looking further. -/
theorem Peek.guard {m : Action ε σ (Option α)} {n : Nat} (hm : I.Peek starved m) :
    I.Peek starved (Action.gets I.avail >>= fun a => if a < n then pure none else m) := by
  have enough : ∀ s, ¬ I.avail s < n →
      (Action.gets I.avail >>= fun a => if a < n then pure none else m) s = m s := by
    intro s h
    rw [Action.bind_of_ok (Action.gets_apply _ _), if_neg h]
  have short : ∀ s, I.avail s < n →
      (Action.gets I.avail >>= fun a => if a < n then pure none else m) s = .ok (none, s) := by
    intro s h
    rw [Action.bind_of_ok (Action.gets_apply _ _), if_pos h]
    rfl
  have more : ∀ {s}, ¬ I.avail s < n → ∀ x, ¬ I.avail (I.append x s) < n := by
    intro s h x
    rw [I.avail_append]
    omega
  refine ⟨?_, ?_, ?_⟩
  · intro s a s' h
    by_cases hn : I.avail s < n
    · rw [short s hn] at h; cases h; rfl
    · rw [enough s hn] at h
      exact hm.readOnly h
  · intro s a s' h x
    by_cases hn : I.avail s < n
    · rw [short s hn] at h; cases h
    · rw [enough s hn] at h
      rw [enough _ (more hn x)]
      exact hm.found h x
  · intro s e h hs x
    by_cases hn : I.avail s < n
    · rw [short s hn] at h; cases h
    · rw [enough s hn] at h
      rw [enough _ (more hn x)]
      exact hm.fault h hs x

/-- A unit behind something that may not have arrived. -/
theorem Peek.atomic {m : Action ε σ (Option α)} {f : Option α → Action ε σ Bool} (hm : I.Peek starved m)
    (hnone : f none = pure false) (hf : ∀ a, I.Atomic starved (f (some a))) : I.Atomic starved (m >>= f) := by
  refine ⟨⟨?_, ?_, ?_, ?_⟩, ?_⟩
  · intro s s' h x
    obtain ⟨o, s1, h1, h2⟩ := Action.bind_eq_ok h
    cases o with
    | none => rw [hnone] at h2; cases h2
    | some a =>
      rw [Action.bind_of_ok (hm.found h1 x)]
      exact (hf a).resumes.done h2 x
  · intro s s' hs h hh x
    obtain ⟨o, s1, h1, h2⟩ := Action.bind_eq_ok h
    cases hm.readOnly h1
    cases o with
    | none =>
      rw [hnone] at h2
      cases h2
      rw [hs] at hh
      cases hh
    | some a =>
      rw [Action.bind_of_ok (hm.found h1 x)]
      exact (hf a).resumes.halt hs h2 hh x
  · intro s s' h hh x
    obtain ⟨o, s1, h1, h2⟩ := Action.bind_eq_ok h
    cases hm.readOnly h1
    cases o with
    | none => rw [hnone] at h2; cases h2; rfl
    | some a => rw [(hf a).unchanged h2 hh]
  · intro s e h hs x
    rcases Action.bind_eq_error h with h1 | ⟨o, s1, h1, h2⟩
    · exact Action.bind_of_error (hm.fault h1 hs x)
    · cases o with
      | none => rw [hnone] at h2; cases h2
      | some a =>
        rw [Action.bind_of_ok (hm.found h1 x)]
        exact (hf a).resumes.fault h2 hs x
  · intro s s' h hh
    obtain ⟨o, s1, h1, h2⟩ := Action.bind_eq_ok h
    cases hm.readOnly h1
    cases o with
    | none => rw [hnone] at h2; cases h2; rfl
    | some a => exact (hf a).unchanged h2 hh

/-! ## Units that leave something behind when they wait -/

theorem resumes_ite {c : Prop} [Decidable c] {m n : Action ε σ Bool} (hm : I.Resumes starved m)
    (hn : I.Resumes starved n) : I.Resumes starved (if c then m else n) := by
  split
  · exact hm
  · exact hn

/-- Looking at something that is still the same when the unit has waited. -/
theorem Resumes.after {m : Action ε σ α} {f : α → Action ε σ Bool} (hm : I.Stable starved m)
    (hr : ReadOnly m) (hf : ∀ a, I.Resumes starved (f a))
    (hsame : ∀ {s a s'}, m s = .ok (a, s) → f a s = .ok (false, s') → I.halted s' = false → m s' = .ok (a, s')) :
    I.Resumes starved (m >>= f) where
  done h x := by
    obtain ⟨a, s1, h1, h2⟩ := Action.bind_eq_ok h
    rw [Action.bind_of_ok (hm.ok h1 x)]
    exact (hf a).done h2 x
  halt hs h hh x := by
    obtain ⟨a, s1, h1, h2⟩ := Action.bind_eq_ok h
    cases hr h1
    rw [Action.bind_of_ok (hm.ok h1 x)]
    exact (hf a).halt hs h2 hh x
  wait h hh x := by
    obtain ⟨a, s1, h1, h2⟩ := Action.bind_eq_ok h
    cases hr h1
    rw [Action.bind_of_ok (hm.ok h1 x), Action.bind_of_ok (hm.ok (hsame h1 h2 hh) x)]
    exact (hf a).wait h2 hh x
  fault h hs x := by
    rcases Action.bind_eq_error h with h1 | ⟨a, s1, h1, h2⟩
    · exact Action.bind_of_error (hm.fault h1 hs x)
    · rw [Action.bind_of_ok (hm.ok h1 x)]
      exact (hf a).fault h2 hs x

/-- A unit, and what follows it once it has completed. -/
theorem Resumes.andThen {m f : Action ε σ Bool} (hm : I.Resumes starved m) (hf : I.Stable starved f)
    (htrue : ∀ {s b s'}, f s = .ok (b, s') → b = true) :
    I.Resumes starved (m >>= fun done => if done then f else pure false) where
  done h x := by
    obtain ⟨b, s', h1, h2⟩ := Action.bind_eq_ok h
    cases b with
    | false => cases h2
    | true =>
      rw [Action.bind_of_ok (hm.done h1 x)]
      exact hf.ok h2 x
  halt hs h hh x := by
    obtain ⟨b, s', h1, h2⟩ := Action.bind_eq_ok h
    cases b with
    | false =>
      cases h2
      rw [Action.bind_of_ok (hm.halt hs h1 hh x)]
      rfl
    | true => cases htrue h2
  wait h hh x := by
    obtain ⟨b, s', h1, h2⟩ := Action.bind_eq_ok h
    cases b with
    | false =>
      cases h2
      rw [Action.bind_apply, Action.bind_apply, hm.wait h1 hh x]
    | true => cases htrue h2
  fault h hs x := by
    rcases Action.bind_eq_error h with h1 | ⟨b, s', h1, h2⟩
    · exact Action.bind_of_error (hm.fault h1 hs x)
    · cases b with
      | false => cases h2
      | true =>
        rw [Action.bind_of_ok (hm.done h1 x)]
        exact hf.fault h2 hs x

/-- A prefix that may be repeated: the second time it changes nothing. -/
theorem Resumes.again {p m : Action ε σ Bool} (hp : I.Decides starved p)
    (hlive : ∀ {s s'}, p s = .ok (true, s') → I.halted s' = I.halted s)
    (hagain : ∀ {s s'}, p s = .ok (true, s') → p s' = .ok (true, s')) (hm : I.Atomic starved m) :
    I.Resumes starved (p >>= fun ok => if ok then m else pure false) where
  done h x := by
    obtain ⟨ok, s1, h1, h2⟩ := Action.bind_eq_ok h
    rw [Action.bind_of_ok (hp.stable.ok h1 x)]
    cases ok with
    | false => cases h2
    | true => exact hm.resumes.done h2 x
  halt hs h hh x := by
    obtain ⟨ok, s1, h1, h2⟩ := Action.bind_eq_ok h
    rw [Action.bind_of_ok (hp.stable.ok h1 x)]
    cases ok with
    | false => cases h2; rfl
    | true => exact hm.resumes.halt (by rw [hlive h1, hs]) h2 hh x
  wait {s s'} h hh x := by
    obtain ⟨ok, s1, h1, h2⟩ := Action.bind_eq_ok h
    cases ok with
    | false =>
      cases h2
      rw [hp.final h1] at hh
      cases hh
    | true =>
      cases hm.unchanged h2 hh
      rw [Action.bind_of_ok (hp.stable.ok h1 x), Action.bind_of_ok (hp.stable.ok (hagain h1) x)]
  fault h hs x := by
    rcases Action.bind_eq_error h with h1 | ⟨ok, s1, h1, h2⟩
    · exact Action.bind_of_error (hp.stable.fault h1 hs x)
    · rw [Action.bind_of_ok (hp.stable.ok h1 x)]
      cases ok with
      | false => cases h2
      | true => exact hm.resumes.fault h2 hs x

/-- A unit with a header that is read once: `inside` says that it has been. -/
theorem Resumes.enter {inside : σ → Bool} {enter body : Action ε σ Bool} {n : Nat}
    (hinside : ∀ x s, inside (I.append x s) = inside s) (henter : I.Decides starved enter)
    (hin : ∀ {s s'}, enter s = .ok (true, s') → inside s' = true ∧ I.halted s' = I.halted s)
    (hbody : I.Resumes starved body)
    (hstay : ∀ {s s'}, inside s = true → body s = .ok (false, s') → I.halted s' = false →
      inside s' = true) :
    I.Resumes starved (Action.gets inside >>= fun b => if b then body
      else Action.gets I.avail >>= fun a => if a < n then pure false
        else enter >>= fun ok => if ok then body else pure false) := by
  have inner : ∀ s, inside s = true →
      (Action.gets inside >>= fun b => if b then body
        else Action.gets I.avail >>= fun a => if a < n then pure false
          else enter >>= fun ok => if ok then body else pure false) s = body s := by
    intro s h
    rw [Action.bind_of_ok (Action.gets_apply _ _), if_pos h]
  have short : ∀ s, inside s = false → I.avail s < n →
      (Action.gets inside >>= fun b => if b then body
        else Action.gets I.avail >>= fun a => if a < n then pure false
          else enter >>= fun ok => if ok then body else pure false) s = .ok (false, s) := by
    intro s h hn
    rw [Action.bind_of_ok (Action.gets_apply _ _), h, if_neg (by decide),
      Action.bind_of_ok (Action.gets_apply _ _), if_pos hn]
    rfl
  have outer : ∀ s, inside s = false → ¬ I.avail s < n →
      (Action.gets inside >>= fun b => if b then body
        else Action.gets I.avail >>= fun a => if a < n then pure false
          else enter >>= fun ok => if ok then body else pure false) s =
        (enter >>= fun ok => if ok then body else pure false) s := by
    intro s h hn
    rw [Action.bind_of_ok (Action.gets_apply _ _), h, if_neg (by decide),
      Action.bind_of_ok (Action.gets_apply _ _), if_neg hn]
  have more : ∀ {s}, ¬ I.avail s < n → ∀ x, ¬ I.avail (I.append x s) < n := by
    intro s h x
    rw [I.avail_append]
    omega
  have app : ∀ {s b}, inside s = b → ∀ x, inside (I.append x s) = b := by
    intro s b h x
    rw [hinside, h]
  refine ⟨?_, ?_, ?_, ?_⟩
  · intro s s' h x
    cases hi : inside s with
    | true =>
      rw [inner s hi] at h
      rw [inner _ (app hi x)]
      exact hbody.done h x
    | false =>
      by_cases hn : I.avail s < n
      · rw [short s hi hn] at h; cases h
      · rw [outer s hi hn] at h
        rw [outer _ (app hi x) (more hn x)]
        obtain ⟨ok, s1, h1, h2⟩ := Action.bind_eq_ok h
        rw [Action.bind_of_ok (henter.stable.ok h1 x)]
        cases ok with
        | false => cases h2
        | true => exact hbody.done h2 x
  · intro s s' hs h hh x
    cases hi : inside s with
    | true =>
      rw [inner s hi] at h
      rw [inner _ (app hi x)]
      exact hbody.halt hs h hh x
    | false =>
      by_cases hn : I.avail s < n
      · rw [short s hi hn] at h
        cases h
        rw [hs] at hh
        cases hh
      · rw [outer s hi hn] at h
        rw [outer _ (app hi x) (more hn x)]
        obtain ⟨ok, s1, h1, h2⟩ := Action.bind_eq_ok h
        rw [Action.bind_of_ok (henter.stable.ok h1 x)]
        cases ok with
        | false => cases h2; rfl
        | true =>
          have hs1 : I.halted s1 = false := by rw [(hin h1).2, hs]
          exact hbody.halt hs1 h2 hh x
  · intro s s' h hh x
    cases hi : inside s with
    | true =>
      rw [inner s hi] at h
      rw [inner _ (app hi x), inner _ (app (hstay hi h hh) x)]
      exact hbody.wait h hh x
    | false =>
      by_cases hn : I.avail s < n
      · rw [short s hi hn] at h
        cases h
        rfl
      · rw [outer s hi hn] at h
        obtain ⟨ok, s1, h1, h2⟩ := Action.bind_eq_ok h
        cases ok with
        | false =>
          cases h2
          rw [henter.final h1] at hh
          cases hh
        | true =>
          rw [outer _ (app hi x) (more hn x), Action.bind_of_ok (henter.stable.ok h1 x),
            inner _ (app (hstay (hin h1).1 h2 hh) x)]
          exact hbody.wait h2 hh x
  · intro s e h hs x
    cases hi : inside s with
    | true =>
      rw [inner s hi] at h
      rw [inner _ (app hi x)]
      exact hbody.fault h hs x
    | false =>
      by_cases hn : I.avail s < n
      · rw [short s hi hn] at h; cases h
      · rw [outer s hi hn] at h
        rw [outer _ (app hi x) (more hn x)]
        rcases Action.bind_eq_error h with h1 | ⟨ok, s1, h1, h2⟩
        · exact Action.bind_of_error (henter.stable.fault h1 hs x)
        · rw [Action.bind_of_ok (henter.stable.ok h1 x)]
          cases ok with
          | false => cases h2
          | true => exact hbody.fault h2 hs x

end Inbox
end LvdTerm.Lib
