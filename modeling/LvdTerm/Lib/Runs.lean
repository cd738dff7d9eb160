import Mathlib.Data.List.Basic

/-!
# Runs of an event-driven state

A state that answers one event after the other. `run` is the state after a list of
events, `Along` a condition on every step of the run, and `run_invariant` the induction
behind every statement about runs: what each step keeps, where the condition is met, the
run keeps.
-/
namespace LvdTerm.Lib.Runs

variable {σ ι : Type} {step : σ → ι → σ}

def run (step : σ → ι → σ) : List ι → σ → σ
  | [], s => s
  | i :: is, s => run step is (step s i)

/-- Every step of the run meets `P`. -/
def Along (step : σ → ι → σ) (P : σ → ι → Prop) : List ι → σ → Prop
  | [], _ => True
  | i :: is, s => P s i ∧ Along step P is (step s i)

theorem run_append (is js : List ι) (s : σ) : run step (is ++ js) s = run step js (run step is s) := by
  induction is generalizing s with
  | nil => rfl
  | cons i is ih => exact ih (step s i)

theorem along_append {P : σ → ι → Prop} (is js : List ι) (s : σ) :
    Along step P (is ++ js) s ↔ Along step P is s ∧ Along step P js (run step is s) := by
  induction is generalizing s with
  | nil => exact ⟨fun h => ⟨trivial, h⟩, fun h => h.2⟩
  | cons i is ih =>
    constructor
    · rintro ⟨hi, his⟩
      obtain ⟨h1, h2⟩ := (ih (step s i)).mp his
      exact ⟨⟨hi, h1⟩, h2⟩
    · rintro ⟨⟨hi, h1⟩, h2⟩
      exact ⟨hi, (ih (step s i)).mpr ⟨h1, h2⟩⟩

theorem run_invariant {I : σ → Prop} {P : σ → ι → Prop} (hstep : ∀ s i, I s → P s i → I (step s i))
    (is : List ι) {s : σ} (h : I s) (hp : Along step P is s) : I (run step is s) := by
  induction is generalizing s with
  | nil => exact h
  | cons i is ih => exact ih (hstep s i h hp.1) hp.2

/-- What every step keeps, every run keeps. -/
theorem run_keeps {I : σ → Prop} (hstep : ∀ s i, I s → I (step s i)) (is : List ι) {s : σ} (h : I s) :
    I (run step is s) := by
  induction is generalizing s with
  | nil => exact h
  | cons i is ih => exact ih (hstep s i h)

/-- What every step keeps whose event meets `P`, runs of such events keep. -/
theorem run_keeps_of {I : σ → Prop} {P : ι → Prop} (hstep : ∀ s i, I s → P i → I (step s i)) {is : List ι}
    (hp : ∀ i ∈ is, P i) {s : σ} (h : I s) : I (run step is s) := by
  induction is generalizing s with
  | nil => exact h
  | cons i is ih => exact ih (fun j hj => hp j (.tail _ hj)) (hstep s i h (hp i (.head _)))

/-- Two systems answer the same events; what every step keeps related stays related. -/
theorem run_related {τ : Type} {step' : τ → ι → τ} {R : σ → τ → Prop} {P : σ → ι → Prop}
    (hstep : ∀ s t i, R s t → P s i → R (step s i) (step' t i)) (is : List ι) {s : σ} {t : τ} (h : R s t)
    (hp : Along step P is s) : R (run step is s) (run step' is t) := by
  induction is generalizing s t with
  | nil => exact h
  | cons i is ih => exact ih (hstep s t i h hp.1) hp.2

/-- Under an invariant one condition on the steps may be replaced by another. -/
theorem Along.imp {I : σ → Prop} {P Q : σ → ι → Prop} (hstep : ∀ s i, I s → P s i → I (step s i))
    (hpq : ∀ s i, I s → P s i → Q s i) {is : List ι} {s : σ} (h : I s) (hp : Along step P is s) :
    Along step Q is s := by
  induction is generalizing s with
  | nil => trivial
  | cons i is ih => exact ⟨hpq s i h hp.1, ih (hstep s i h hp.1) hp.2⟩

/-- Two conditions that agree under an invariant of the second agree on whole runs. -/
theorem along_congr {I : σ → Prop} {P Q : σ → ι → Prop} (hstep : ∀ s i, I s → Q s i → I (step s i))
    (hpq : ∀ s i, I s → (P s i ↔ Q s i)) {is : List ι} {s : σ} (h : I s) :
    Along step P is s ↔ Along step Q is s := by
  induction is generalizing s with
  | nil => exact Iff.rfl
  | cons i is ih =>
    constructor
    · rintro ⟨hi, his⟩
      have hq := (hpq s i h).mp hi
      exact ⟨hq, (ih (hstep s i h hq)).mp his⟩
    · rintro ⟨hq, his⟩
      exact ⟨(hpq s i h).mpr hq, (ih (hstep s i h hq)).mpr his⟩

/-- Where a condition on a step is just what the step needs to keep `I`, it holds along a run if and only if `I` does. -/
theorem along_iff_always {I : σ → Prop} {P : σ → ι → Prop} (hstep : ∀ s i, I s → (I (step s i) ↔ P s i)) (is : List ι)
    {s : σ} (h : I s) : Along step P is s ↔ ∀ done, done <+: is → I (run step done s) := by
  induction is generalizing s with
  | nil => simp [Along, run, h]
  | cons i is ih =>
    constructor
    · rintro ⟨hi, his⟩ done hdone
      cases done with
      | nil => exact h
      | cons j done =>
        obtain ⟨rfl, hrest⟩ := List.cons_prefix_cons.mp hdone
        exact (ih ((hstep s j h).mpr hi)).mp his done hrest
    · intro hall
      have hnext : I (step s i) := hall [i] (by simp)
      have hrest := (ih hnext).mpr fun done hdone => hall (i :: done) (List.cons_prefix_cons.mpr ⟨rfl, hdone⟩)
      exact ⟨(hstep s i h).mp hnext, hrest⟩

end LvdTerm.Lib.Runs
