import Mathlib.Data.List.Basic

/-!
# First in, first out

A queue that grows at the back while what is accepted leaves at the front, as the three lists of
what was ever put in, what was accepted, and what is pending.
-/
namespace LvdTerm.Lib

variable {β : Type} {enqueued accepted pending : List β}

/-- What was accepted is the beginning of what was put in, and what is pending is the rest. -/
structure Fifo (enqueued accepted pending : List β) : Prop where
  inOrder : accepted <+: enqueued
  rest : pending = enqueued.drop accepted.length

theorem fifo_iff : Fifo enqueued accepted pending ↔ accepted ++ pending = enqueued := by
  constructor
  · rintro ⟨⟨tail, rfl⟩, rfl⟩
    rw [List.drop_left]
  · rintro rfl
    exact ⟨List.prefix_append _ _, List.drop_left.symm⟩

theorem Fifo.nil : Fifo ([] : List β) [] [] := fifo_iff.mpr rfl

theorem Fifo.enqueue (h : Fifo enqueued accepted pending) (data : List β) :
    Fifo (enqueued ++ data) accepted (pending ++ data) := by
  rw [fifo_iff] at h ⊢
  rw [← List.append_assoc, h]

theorem Fifo.accept (h : Fifo enqueued accepted pending) (n : Nat) :
    Fifo enqueued (accepted ++ pending.take n) (pending.drop n) := by
  rw [fifo_iff] at h ⊢
  rw [List.append_assoc, List.take_append_drop, h]

theorem Fifo.length (h : Fifo enqueued accepted pending) : accepted.length + pending.length = enqueued.length := by
  rw [← fifo_iff.mp h, List.length_append]

end LvdTerm.Lib
