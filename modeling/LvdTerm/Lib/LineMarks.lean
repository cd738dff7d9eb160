import Mathlib.Data.List.Basic

/-!
# A mark before each line

A stream with a mark inserted before the first element of each line: after its start, and after
each line end that something follows. `Place` is where one is in the stream, so that the stream
can come in pieces: `marked_append`. A piece that lies in one line is `marked_line`.
-/
namespace LvdTerm.Lib.LineMarks

/-- The number of marks made so far, and whether the next element begins a line. -/
structure Place where
  marks : Nat
  atLineStart : Bool
  deriving DecidableEq, Repr

variable {α : Type} (isEnd : α → Bool) (mark : Nat → List α)

def Place.next (p : Place) (a : α) : Place := ⟨if p.atLineStart then p.marks + 1 else p.marks, isEnd a⟩

/-- The place behind a piece of the stream. -/
def Place.after (p : Place) (piece : List α) : Place := piece.foldl (Place.next isEnd) p

def marked : Place → List α → List α
  | _, [] => []
  | p, a :: rest => (if p.atLineStart then mark p.marks else []) ++ a :: marked (p.next isEnd a) rest

variable {isEnd mark}

@[simp] theorem Place.after_nil (p : Place) : p.after isEnd ([] : List α) = p := rfl

@[simp] theorem Place.after_cons (p : Place) (a : α) (rest : List α) :
    p.after isEnd (a :: rest) = (p.next isEnd a).after isEnd rest := rfl

theorem Place.after_append (p : Place) (piece rest : List α) :
    p.after isEnd (piece ++ rest) = (p.after isEnd piece).after isEnd rest := List.foldl_append

theorem marked_append (p : Place) (piece rest : List α) :
    marked isEnd mark p (piece ++ rest) =
      marked isEnd mark p piece ++ marked isEnd mark (p.after isEnd piece) rest := by
  induction piece generalizing p with
  | nil => rfl
  | cons a piece ih => simp [marked, ih]

/-- The place behind the mark, when one is due. -/
def Place.begun (p : Place) : Place := ⟨if p.atLineStart then p.marks + 1 else p.marks, false⟩

theorem marked_begun (p : Place) {piece : List α} (hne : piece ≠ []) :
    marked isEnd mark p piece = (if p.atLineStart then mark p.marks else []) ++ marked isEnd mark p.begun piece := by
  cases piece with
  | nil => exact absurd rfl hne
  | cons a rest => cases h : p.atLineStart <;> simp [marked, Place.next, Place.begun, h]

theorem Place.after_begun (p : Place) {piece : List α} (hne : piece ≠ []) :
    p.begun.after isEnd piece = p.after isEnd piece := by
  cases piece with
  | nil => exact absurd rfl hne
  | cons a rest => cases h : p.atLineStart <;> simp [Place.next, Place.begun, h]

variable {line : List α} (hline : ∀ a ∈ line, isEnd a = false)
include hline

/-- What is left of a line gets no mark. -/
theorem marked_rest_of_line (n : Nat) : marked isEnd mark ⟨n, false⟩ line = line := by
  induction line with
  | nil => rfl
  | cons a line ih =>
    have ha : isEnd a = false := hline a (.head _)
    simp [marked, Place.next, ha, ih fun b hb => hline b (.tail _ hb)]

theorem after_rest_of_line (n : Nat) : (⟨n, false⟩ : Place).after isEnd line = ⟨n, false⟩ := by
  induction line with
  | nil => rfl
  | cons a line ih =>
    have ha : isEnd a = false := hline a (.head _)
    simp [Place.next, ha, ih fun b hb => hline b (.tail _ hb)]

theorem marked_to_line_end (n : Nat) (a : α) : marked isEnd mark ⟨n, false⟩ (line ++ [a]) = line ++ [a] := by
  rw [marked_append, marked_rest_of_line hline, after_rest_of_line hline]
  rfl

theorem after_line_end (n : Nat) {a : α} (ha : isEnd a = true) :
    (⟨n, false⟩ : Place).after isEnd (line ++ [a]) = ⟨n, true⟩ := by
  rw [Place.after_append, after_rest_of_line hline]
  simp [Place.next, ha]

end LvdTerm.Lib.LineMarks
