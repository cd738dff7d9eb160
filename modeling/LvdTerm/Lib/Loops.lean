import LvdTerm.Lib.Resume

/-!
# Loops over resumable units

A unit of work may itself be a loop over smaller units that is left in the middle when
data runs out, and entered again where it was left. If every round is atomic and brings
the end of the loop closer, the loop as a whole can be resumed (`Resumes.loop`).
-/
namespace LvdTerm.Lib.Inbox

open LvdTerm.Lib.Action

variable {ε σ β : Type} {I : Inbox σ β} {starved : ε → Prop}

variable {cond : σ → Bool} {unit : Action ε σ Bool} {next : Action ε σ Unit} {left : σ → Nat}

theorem loopWhile_stop {s : σ} (h : cond s = false) (n : Nat) :
    loopWhile cond unit next n s = .ok (true, s) := by
  cases n with
  | zero => rfl
  | succ n =>
    rw [loopWhile, bind_of_ok (gets_apply _ _), h]
    rfl

theorem loopWhile_succ {s : σ} (h : cond s = true) (n : Nat) :
    loopWhile cond unit next (n + 1) s =
      (unit >>= fun done => if done then next >>= fun _ => loopWhile cond unit next n else pure false) s := by
  rw [loopWhile, bind_of_ok (gets_apply _ _), h]
  rfl

theorem loopWhile_next {s s1 s2 : σ} (h : cond s = true) (hu : unit s = .ok (true, s1))
    (hn : next s1 = .ok ((), s2)) (n : Nat) :
    loopWhile cond unit next (n + 1) s = loopWhile cond unit next n s2 := by
  rw [loopWhile_succ h, bind_of_ok hu, if_pos rfl, bind_of_ok hn]

/-- Every round brings the end closer and leaves the decoder as alive as it was. -/
def Rounds (I : Inbox σ β) (cond : σ → Bool) (unit : Action ε σ Bool) (next : Action ε σ Unit)
    (left : σ → Nat) : Prop :=
  ∀ s s1 s2, cond s = true → unit s = .ok (true, s1) → next s1 = .ok ((), s2) →
    left s2 < left s ∧ I.halted s2 = I.halted s

theorem Rounds.fuel (hr : I.Rounds cond unit next left) {n m : Nat} {s : σ} (hn : left s < n)
    (hm : left s < m) : loopWhile cond unit next n s = loopWhile cond unit next m s := by
  induction n generalizing m s with
  | zero => omega
  | succ n ih =>
    cases m with
    | zero => omega
    | succ m =>
      cases hc : cond s with
      | false => rw [loopWhile_stop hc, loopWhile_stop hc]
      | true =>
        rw [loopWhile_succ hc, loopWhile_succ hc]
        cases hu : unit s with
        | error e => rw [bind_of_error hu, bind_of_error hu]
        | ok r =>
          obtain ⟨done, s1⟩ := r
          rw [bind_of_ok hu, bind_of_ok hu]
          cases done with
          | false => rfl
          | true =>
            simp only [if_true]
            cases hx : next s1 with
            | error e => rw [bind_of_error hx, bind_of_error hx]
            | ok r =>
              obtain ⟨⟨⟩, s2⟩ := r
              have hlt := (hr s s1 s2 hc hu hx).1
              rw [bind_of_ok hx, bind_of_ok hx]
              exact ih (by omega) (by omega)

/-- One round of the loop, to where the next one starts. -/
def Round (cond : σ → Bool) (unit : Action ε σ Bool) (next : Action ε σ Unit) (s t : σ) : Prop :=
  cond s = true ∧ ∃ s₁, unit s = .ok (true, s₁) ∧ next s₁ = .ok ((), t)

/-- Such a loop goes round finitely often, wherever it starts. -/
theorem Rounds.ends (hr : I.Rounds cond unit next left) : WellFounded fun t s => Round cond unit next s t := by
  refine Subrelation.wf (fun {t s} h => ?_) (InvImage.wf left Nat.lt_wfRel.wf)
  obtain ⟨hcond, s₁, hunit, hnext⟩ := h
  exact (hr s s₁ t hcond hunit hnext).1

/-- The ways a loop can go from a state in which it is not over. -/
theorem loopWhile_cases {s : σ} {n : Nat} {r : Except ε (Bool × σ)} (hc : cond s = true)
    (h : loopWhile cond unit next (n + 1) s = r) :
    (∃ e, unit s = .error e ∧ r = .error e) ∨
    (∃ s1, unit s = .ok (false, s1) ∧ r = .ok (false, s1)) ∨
    (∃ s1 e, unit s = .ok (true, s1) ∧ next s1 = .error e ∧ r = .error e) ∨
    (∃ s1 s2, unit s = .ok (true, s1) ∧ next s1 = .ok ((), s2) ∧ loopWhile cond unit next n s2 = r) := by
  rw [loopWhile_succ hc] at h
  cases hu : unit s with
  | error e =>
    rw [bind_of_error hu] at h
    exact .inl ⟨e, rfl, h.symm⟩
  | ok p =>
    obtain ⟨done, s1⟩ := p
    rw [bind_of_ok hu] at h
    cases done with
    | false => exact .inr (.inl ⟨s1, rfl, h.symm⟩)
    | true =>
      simp only [if_true] at h
      cases hx : next s1 with
      | error e =>
        rw [bind_of_error hx] at h
        exact .inr (.inr (.inl ⟨s1, e, rfl, hx, h.symm⟩))
      | ok p =>
        obtain ⟨⟨⟩, s2⟩ := p
        rw [bind_of_ok hx] at h
        exact .inr (.inr (.inr ⟨s1, s2, rfl, hx, h⟩))

/-- What every round keeps, a loop that waits has kept. -/
theorem loopWhile_keeps {R : σ → σ → Prop} (hrefl : ∀ s, R s s) (htrans : ∀ {a b c}, R a b → R b c → R a c)
    (hunit : I.Atomic starved unit) (hdone : ∀ {s s'}, unit s = .ok (true, s') → R s s')
    (hnext : ∀ {s s'}, next s = .ok ((), s') → R s s') (n : Nat) {s s' : σ}
    (h : loopWhile cond unit next n s = .ok (false, s')) (hh : I.halted s' = false) : R s s' := by
  induction n generalizing s with
  | zero => cases h
  | succ n ih =>
    cases hc : cond s with
    | false => rw [loopWhile_stop hc] at h; cases h
    | true =>
      rcases loopWhile_cases hc h with ⟨e, _, h⟩ | ⟨s1, hu, h⟩ | ⟨s1, e, _, _, h⟩ | ⟨s1, s2, hu, hx, h⟩
      · cases h
      · cases h
        cases hunit.unchanged hu hh
        exact hrefl _
      · cases h
      · exact htrans (htrans (hdone hu) (hnext hx)) (ih h)

/-- A loop that waits is not over. -/
theorem loopWhile_waits (hunit : I.Atomic starved unit) (n : Nat) {s s' : σ} (h : loopWhile cond unit next n s = .ok (false, s'))
    (hh : I.halted s' = false) : cond s' = true := by
  induction n generalizing s with
  | zero => cases h
  | succ n ih =>
    cases hc : cond s with
    | false => rw [loopWhile_stop hc] at h; cases h
    | true =>
      rcases loopWhile_cases hc h with ⟨e, _, h⟩ | ⟨s1, hu, h⟩ | ⟨s1, e, _, _, h⟩ | ⟨s1, s2, _, _, h⟩
      · cases h
      · cases h
        rwa [hunit.unchanged hu hh]
      · cases h
      · exact ih h

section Resume

variable (hcond : ∀ x s, cond (I.append x s) = cond s) (hunit : I.Atomic starved unit)
  (hnext : I.Stable starved next) (hr : I.Rounds cond unit next left)

include hcond hunit hnext

theorem loopWhile_done (x : List β) (n : Nat) {s s' : σ} (h : loopWhile cond unit next n s = .ok (true, s')) :
    loopWhile cond unit next n (I.append x s) = .ok (true, I.append x s') := by
  induction n generalizing s with
  | zero => cases h; rfl
  | succ n ih =>
    cases hc : cond s with
    | false =>
      rw [loopWhile_stop hc] at h
      cases h
      exact loopWhile_stop (by rw [hcond, hc]) _
    | true =>
      have hcx : cond (I.append x s) = true := by rw [hcond, hc]
      rcases loopWhile_cases hc h with ⟨e, _, h⟩ | ⟨s1, _, h⟩ | ⟨s1, e, _, _, h⟩ | ⟨s1, s2, hu, hx, h⟩
      · cases h
      · cases h
      · cases h
      · rw [loopWhile_next hcx (hunit.resumes.done hu x) (hnext.ok hx x)]
        exact ih h

theorem loopWhile_fault (x : List β) (n : Nat) {s : σ} {e : ε} (h : loopWhile cond unit next n s = .error e)
    (he : ¬ starved e) : loopWhile cond unit next n (I.append x s) = .error e := by
  induction n generalizing s with
  | zero => cases h
  | succ n ih =>
    cases hc : cond s with
    | false => rw [loopWhile_stop hc] at h; cases h
    | true =>
      have hcx : cond (I.append x s) = true := by rw [hcond, hc]
      rcases loopWhile_cases hc h with ⟨e', hu, h⟩ | ⟨s1, _, h⟩ | ⟨s1, e', hu, hx, h⟩ | ⟨s1, s2, hu, hx, h⟩
      · cases h
        rw [loopWhile_succ hcx, bind_of_error (hunit.resumes.fault hu he x)]
      · cases h
      · cases h
        rw [loopWhile_succ hcx, bind_of_ok (hunit.resumes.done hu x), if_pos rfl,
          bind_of_error (hnext.fault hx he x)]
      · rw [loopWhile_next hcx (hunit.resumes.done hu x) (hnext.ok hx x)]
        exact ih h

include hr

theorem loopWhile_halt (x : List β) (n : Nat) {s s' : σ} (hs : I.halted s = false)
    (h : loopWhile cond unit next n s = .ok (false, s')) (hh : I.halted s' = true) :
    loopWhile cond unit next n (I.append x s) = .ok (false, I.append x s') := by
  induction n generalizing s with
  | zero => cases h
  | succ n ih =>
    cases hc : cond s with
    | false => rw [loopWhile_stop hc] at h; cases h
    | true =>
      have hcx : cond (I.append x s) = true := by rw [hcond, hc]
      rcases loopWhile_cases hc h with ⟨e, _, h⟩ | ⟨s1, hu, h⟩ | ⟨s1, e, _, _, h⟩ | ⟨s1, s2, hu, hx, h⟩
      · cases h
      · cases h
        rw [loopWhile_succ hcx, bind_of_ok (hunit.resumes.halt hs hu hh x)]
        rfl
      · cases h
      · rw [loopWhile_next hcx (hunit.resumes.done hu x) (hnext.ok hx x)]
        exact ih (by rw [(hr s s1 s2 hc hu hx).2, hs]) h

/-- A loop that waits goes on where it was left. -/
theorem loopWhile_wait (x : List β) (n : Nat) {s s' : σ} (hn : left (I.append x s) < n)
    (h : loopWhile cond unit next n s = .ok (false, s')) (hh : I.halted s' = false) {m : Nat}
    (hm : left (I.append x s') < m) :
    loopWhile cond unit next m (I.append x s') = loopWhile cond unit next n (I.append x s) := by
  induction n generalizing s with
  | zero => omega
  | succ n ih =>
    cases hc : cond s with
    | false => rw [loopWhile_stop hc] at h; cases h
    | true =>
      have hcx : cond (I.append x s) = true := by rw [hcond, hc]
      rcases loopWhile_cases hc h with ⟨e, _, h⟩ | ⟨s1, hu, h⟩ | ⟨s1, e, _, _, h⟩ | ⟨s1, s2, hu, hx, h⟩
      · cases h
      · cases h
        cases hunit.unchanged hu hh
        exact hr.fuel hm hn
      · cases h
      · have hux := hunit.resumes.done hu x
        have hxx := hnext.ok hx x
        have hlt := (hr _ _ _ hcx hux hxx).1
        rw [loopWhile_next hcx hux hxx]
        exact ih (by omega) h

theorem Resumes.loop (hleft : ∀ x s, left (I.append x s) = left s) :
    I.Resumes starved (fun s => loopWhile cond unit next (left s + 1) s) where
  done h x := by
    simp only [hleft]
    exact loopWhile_done hcond hunit hnext x _ h
  halt hs h hh x := by
    simp only [hleft]
    exact loopWhile_halt hcond hunit hnext hr x _ hs h hh
  wait h hh x := by
    simp only [hleft]
    exact loopWhile_wait hcond hunit hnext hr x _ (by rw [hleft]; omega) h hh (by rw [hleft]; omega)
  fault h he x := by
    simp only [hleft]
    exact loopWhile_fault hcond hunit hnext x _ h he

end Resume

end LvdTerm.Lib.Inbox
