import LvdTerm.Lib.Resume

/-!
# Data in pieces

A unit of work is entered before each piece of its data until it completes; pieces that come later
stay in the inbox. A unit that can be resumed ends as if everything had been there from the start
(`Resumes.arriving`).
-/
namespace LvdTerm.Lib.Inbox

open LvdTerm.Lib.Action

variable {ε σ β : Type} {I : Inbox σ β} {starved : ε → Prop} {unit : Action ε σ Bool}

def arriving (I : Inbox σ β) (unit : Action ε σ Bool) : List (List β) → Action ε σ Bool
  | [] => unit
  | x :: xs => do
    let done ← unit
    if done then
      Action.modify (I.append (x ++ xs.flatten))
      pure true
    else
      Action.modify (I.append x)
      I.arriving unit xs

/-- What holds of a unit of work while its data arrives: it can be entered, and it does not fault. -/
structure Pending (I : Inbox σ β) (unit : Action ε σ Bool) (P : σ → Prop) : Prop where
  live : ∀ {s}, P s → I.halted s = false
  append : ∀ {s}, P s → ∀ x, P (I.append x s)
  safe : ∀ {s e}, P s → unit s ≠ .error e
  wait : ∀ {s s'}, P s → unit s = .ok (false, s') → I.halted s' = false → P s'

theorem Resumes.arriving (hr : I.Resumes starved unit) {P : σ → Prop} (hP : I.Pending unit P) (xs : List (List β)) {s s' : σ} (h : P s)
    (hwhole : unit (I.append xs.flatten s) = .ok (true, s')) : I.arriving unit xs s = .ok (true, s') := by
  induction xs generalizing s with
  | nil => rwa [List.flatten_nil, I.append_nil] at hwhole
  | cons x xs ih =>
    rw [List.flatten_cons] at hwhole
    rw [Inbox.arriving]
    cases hu : unit s with
    | error e => exact absurd hu (hP.safe h)
    | ok r =>
      obtain ⟨done, s₁⟩ := r
      rw [bind_of_ok hu]
      cases done with
      | true =>
        have hsame := (hr.done hu (x ++ xs.flatten)).symm.trans hwhole
        rw [if_pos rfl, bind_of_ok (modify_apply _ _)]
        exact hsame
      | false =>
        cases hh : I.halted s₁ with
        | true =>
          -- a unit that has given up does so on the whole data too
          have hsame := (hr.halt (hP.live h) hu hh (x ++ xs.flatten)).symm.trans hwhole
          cases hsame
        | false =>
          rw [if_neg (by decide), bind_of_ok (modify_apply _ _)]
          refine ih (hP.append (hP.wait h hu hh) x) ?_
          rw [I.append_append, hr.wait hu hh, hwhole]

end LvdTerm.Lib.Inbox
