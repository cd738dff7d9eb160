import Mathlib.Data.Fintype.Card
import Mathlib.Data.Fintype.EquivFin
import Mathlib.Logic.Relation

/-!
# Descending in a graph

`step a b` leads from `a` down to `b`. Every way down from a node ends if and only if, in a finite graph, no node that can
be reached is below itself.
-/
namespace LvdTerm.Lib.Descent

open Relation

variable {α : Type} (step : α → α → Prop)

/-- Every way down ends. -/
def Ends (a : α) : Prop := Acc (fun b a => step a b) a

/-- Some node that can be reached is below itself. -/
def Cyclic (a : α) : Prop := ∃ b, ReflTransGen step a b ∧ TransGen step b b

variable {step}

theorem acc_irrefl {r : α → α → Prop} {a : α} (h : Acc r a) : ¬ r a a := by
  induction h with
  | intro a _ ih => exact fun ha => ih a ha ha

theorem Ends.below {a b : α} (h : Ends step a) (hab : ReflTransGen step a b) : Ends step b := by
  induction hab with
  | refl => exact h
  | tail _ hstep ih => exact ih.inv hstep

theorem Ends.acyclic {a : α} (h : Ends step a) : ¬ Cyclic step a := by
  rintro ⟨b, hab, hb⟩
  have hacc : Acc (TransGen fun b a => step a b) b := Acc.transGen (h.below hab)
  exact acc_irrefl hacc (transGen_swap.mpr hb)

/-- In a finite graph a way down that does not end comes back. -/
theorem ends_of_acyclic [Finite α] {a : α} (h : ¬ Cyclic step a) : Ends step a := by
  let below (b c : {b // ReflTransGen step a b}) : Prop := TransGen step c.1 b.1
  have : IsTrans _ below := ⟨fun _ _ _ hbc hcd => TransGen.trans hcd hbc⟩
  have : Std.Irrefl below := ⟨fun b hb => h ⟨b.1, b.2, hb⟩⟩
  have hwf : WellFounded below := Finite.wellFounded_of_trans_of_irrefl below
  have hall : ∀ b : {b // ReflTransGen step a b}, Ends step b.1 := by
    intro b
    induction b using hwf.induction with
    | h b ih =>
      refine Acc.intro _ fun c hc => ?_
      exact ih ⟨c, b.2.tail hc⟩ (TransGen.single hc)
  exact hall ⟨a, ReflTransGen.refl⟩

theorem ends_iff [Finite α] {a : α} : Ends step a ↔ ¬ Cyclic step a := ⟨Ends.acyclic, ends_of_acyclic⟩

end LvdTerm.Lib.Descent
