import LvdTerm.Lib.Action

/-!
# Two runs of one action

The same action run from two states that differ in what it does not look at. `Paired` is the
weakest precondition of such a pair of runs: they return the same value and leave related states,
or stop with the same fault, which is one that is accepted. `InStep` keeps one relation throughout,
so that a whole program goes in step as soon as its primitive operations do.
-/
namespace LvdTerm.Lib

open LvdTerm.Lib.Action

/-- How two runs end that go in step. -/
inductive Outcomes {ε σ α : Type} (F : ε → Prop) (T : α → σ → σ → Prop) :
    Except ε (α × σ) → Except ε (α × σ) → Prop where
  | ok (a : α) {t t' : σ} (h : T a t t') : Outcomes F T (.ok (a, t)) (.ok (a, t'))
  | error (e : ε) (h : F e) : Outcomes F T (.error e) (.error e)

def Paired {ε σ α : Type} (F : ε → Prop) (m : Action ε σ α) (T : α → σ → σ → Prop) (s s' : σ) : Prop :=
  Outcomes F T (m s) (m s')

/-- `S` holds before and after. -/
def InStep {ε σ α : Type} (F : ε → Prop) (S : σ → σ → Prop) (m : Action ε σ α) : Prop :=
  ∀ s s', S s s' → Paired F m (fun _ => S) s s'

section Rules

variable {ε σ α β : Type} {F : ε → Prop} {S : σ → σ → Prop} {T : α → σ → σ → Prop} {s s' : σ}

theorem paired_pure {a : α} (h : T a s s') : Paired F (pure a) T s s' := .ok a h

theorem paired_throw {e : ε} (h : F e) : Paired F (throw e : Action ε σ α) T s s' := .error e h

theorem paired_gets {f : σ → α} (h : f s = f s') (hT : T (f s) s s') : Paired F (gets f) T s s' := by
  have hok : Outcomes F T (.ok (f s, s)) (.ok (f s, s')) := .ok _ hT
  unfold Paired
  rw [gets_apply, gets_apply, ← h]
  exact hok

theorem paired_modify {f : σ → σ} {T : Unit → σ → σ → Prop} (h : T () (f s) (f s')) :
    Paired F (modify f : Action ε σ Unit) T s s' := .ok () h

theorem paired_bind {m : Action ε σ α} {f : α → Action ε σ β} {T : β → σ → σ → Prop}
    (h : Paired F m (fun a => Paired F (f a) T) s s') : Paired F (m >>= f) T s s' := by
  unfold Paired at h ⊢
  rw [bind_apply, bind_apply]
  generalize m s = r at h
  generalize m s' = r' at h
  cases h with
  | ok a h => exact h
  | error e h => exact .error e h

theorem paired_ite {c : Prop} [Decidable c] {m n : Action ε σ α} (hm : c → Paired F m T s s') (hn : ¬ c → Paired F n T s s') :
    Paired F (if c then m else n) T s s' := by
  by_cases h : c
  · rw [if_pos h]
    exact hm h
  · rw [if_neg h]
    exact hn h

theorem Paired.mono {m : Action ε σ α} {U : α → σ → σ → Prop} (h : Paired F m T s s') (hTU : ∀ a t t', T a t t' → U a t t') :
    Paired F m U s s' := by
  unfold Paired at h ⊢
  generalize m s = r at h ⊢
  generalize m s' = r' at h ⊢
  cases h with
  | ok a h => exact .ok a (hTU _ _ _ h)
  | error e h => exact .error e h

/-- An operation with a check in front. -/
theorem paired_check {p : σ → Prop} [DecidablePred p] {f : σ → α × σ} {e : ε} (hp : p s ↔ p s') (he : F e)
    (hf : p s → (f s).1 = (f s').1 ∧ T (f s).1 (f s).2 (f s').2) :
    Paired F (fun s => if p s then .ok (f s) else .error e : Action ε σ α) T s s' := by
  unfold Paired
  by_cases h : p s
  · obtain ⟨hvalue, hrel⟩ := hf h
    have hpair : f s' = ((f s).1, (f s').2) := Prod.ext hvalue.symm rfl
    simp only [if_pos h, if_pos (hp.mp h)]
    rw [hpair]
    exact .ok _ hrel
  · simp only [if_neg h, if_neg fun h' => h (hp.mpr h')]
    exact .error e he

theorem Outcomes.related {a b : α} {t t' : σ} (h : Outcomes F T (.ok (a, t)) (.ok (b, t'))) : T a t t' := by
  cases h with
  | ok _ h => exact h

theorem InStep.bind {m : Action ε σ α} {f : α → Action ε σ β} (hm : InStep F S m) (hf : ∀ a, InStep F S (f a)) :
    InStep F S (m >>= f) :=
  fun s s' h => paired_bind ((hm s s' h).mono fun a t t' ht => hf a t t' ht)

theorem inStep_pure (a : α) : InStep F S (pure a : Action ε σ α) := fun _ _ h => paired_pure h

theorem inStep_throw {e : ε} (h : F e) : InStep F S (throw e : Action ε σ α) := fun _ _ _ => paired_throw h

theorem inStep_gets {f : σ → α} (h : ∀ s s', S s s' → f s = f s') : InStep F S (gets f : Action ε σ α) :=
  fun s s' hs => paired_gets (h s s' hs) hs

theorem inStep_modify {f : σ → σ} (h : ∀ s s', S s s' → S (f s) (f s')) : InStep F S (modify f : Action ε σ Unit) :=
  fun s s' hs => paired_modify (h s s' hs)

theorem inStep_ite {c : Prop} [Decidable c] {m n : Action ε σ α} (hm : InStep F S m) (hn : InStep F S n) :
    InStep F S (if c then m else n) :=
  fun s s' h => paired_ite (fun _ => hm s s' h) (fun _ => hn s s' h)

/-- What is looked up is the same for both, and either may be named. -/
theorem inStep_look {f : σ → β} {k : β → Action ε σ α} (h : ∀ s s', S s s' → f s = f s') (hk : ∀ s, InStep F S (k (f s))) :
    InStep F S (gets f >>= k) :=
  fun s s' hs => paired_bind (paired_gets (h s s' hs) (hk s s s' hs))

theorem inStep_foldRange {body : Nat → α → Action ε σ α} (h : ∀ i a, InStep F S (body i a)) (n : Nat) (a : α) :
    InStep F S (foldRange body n a) := by
  induction n with
  | zero => exact inStep_pure a
  | succ n ih => exact ih.bind fun a => h n a

theorem inStep_forRange {body : Nat → Action ε σ Unit} (h : ∀ i, InStep F S (body i)) (n : Nat) :
    InStep F S (forRange n body) :=
  inStep_foldRange (fun i _ => h i) n ()

theorem inStep_loopWhile {cond : σ → Bool} {unit : Action ε σ Bool} {next : Action ε σ Unit}
    (hcond : ∀ s s', S s s' → cond s = cond s') (hunit : InStep F S unit) (hnext : InStep F S next) (n : Nat) :
    InStep F S (loopWhile cond unit next n) := by
  induction n with
  | zero => exact inStep_pure true
  | succ n ih =>
    refine (inStep_gets hcond).bind fun more => inStep_ite ?_ (inStep_pure true)
    refine hunit.bind fun done => inStep_ite ?_ (inStep_pure false)
    exact hnext.bind fun _ => ih

/-- A run beside itself: an invariant, and the faults that are accepted. -/
theorem InStep.wp {I : σ → Prop} {m : Action ε σ α} (h : InStep F (fun s s' => s = s' ∧ I s) m) (hs : I s) :
    Action.wp F m (fun _ => I) s := by
  have hpair := h s s ⟨rfl, hs⟩
  unfold Paired at hpair
  unfold Action.wp
  generalize m s = r at hpair
  cases hpair with
  | ok a h => exact h.2
  | error e h => exact h

end Rules

end LvdTerm.Lib
