import Mathlib.Data.List.Basic
import Mathlib.Data.List.Rotate

/-!
# Rings

A buffer of fixed size in which a new element takes the place of the oldest one when it is full. The place last written is the
head; as long as the buffer is not full, the elements stand in order from the start. A ring so used holds the last elements that
were put into it.
-/
namespace LvdTerm.Lib.Ring

variable {α : Type}

/-- The place of the `i`-th element of `used`, from the oldest. -/
def slot (n used : Nat) (head i : Int) : Int := if used = n then (head + i + 1) % n else i

def advance (n : Nat) (head : Int) : Int := if head + 1 ≥ n then 0 else head + 1

def keepLast (n : Nat) (xs : List α) : List α := xs.drop (xs.length - n)

/-- In `slots`, of which `used` are used, are the elements `xs`. -/
structure Holds (n used : Nat) (head : Int) (slots xs : List α) : Prop where
  size : slots.length = n
  positive : 0 < n
  count : used = xs.length
  fits : xs.length ≤ n
  partly : xs.length < n → head = xs.length - 1
  full : xs.length = n → 0 ≤ head ∧ head < n
  reads : ∀ i < xs.length, slots[(slot n used head i).toNat]? = xs[i]?

variable {n used : Nat} {head : Int} {slots xs : List α}

theorem length_keepLast (n : Nat) (xs : List α) : (keepLast n xs).length = min xs.length n := by
  rw [keepLast, List.length_drop]
  omega

theorem keepLast_of_le (h : xs.length ≤ n) : keepLast n xs = xs := by
  rw [keepLast, Nat.sub_eq_zero_of_le h, List.drop_zero]

theorem getElem?_keepLast (n : Nat) (xs : List α) (i : Nat) : (keepLast n xs)[i]? = xs[xs.length - n + i]? :=
  List.getElem?_drop

theorem map_keepLast {β : Type} (f : α → β) (n : Nat) (xs : List α) : (keepLast n xs).map f = keepLast n (xs.map f) := by
  rw [keepLast, keepLast, List.map_drop, List.length_map]

theorem keepLast_keepLast_append (n : Nat) (xs ys : List α) : keepLast n (keepLast n xs ++ ys) = keepLast n (xs ++ ys) := by
  by_cases h : xs.length ≤ n
  · rw [keepLast_of_le h]
  · have hdropped : (xs ++ ys).drop (xs.length - n) = keepLast n xs ++ ys :=
      List.drop_append_of_le_length (Nat.sub_le _ _)
    have hlength := length_keepLast n xs
    rw [← hdropped, keepLast, keepLast, List.drop_drop]
    congr 1
    simp only [List.length_drop, List.length_append]
    omega

theorem holds_nil (hn : 0 < n) (h : slots.length = n) : Holds n 0 (-1) slots [] :=
  ⟨h, hn, rfl, Nat.zero_le n, fun _ => rfl, fun hn' => absurd hn' hn.ne, fun _ h => absurd h (Nat.not_lt_zero _)⟩

theorem Holds.slot_lt (h : Holds n used head slots xs) {i : Nat} (hi : i < xs.length) :
    0 ≤ slot n used head i ∧ slot n used head i < n := by
  have hn := h.positive
  have hfits := h.fits
  unfold slot
  split
  · exact ⟨Int.emod_nonneg _ (by omega), Int.emod_lt_of_pos _ (by omega)⟩
  · omega

theorem slot_full (n : Nat) (head i : Int) : slot n n head i = (head + i + 1) % n := if_pos rfl

theorem slot_partly (h : used ≠ n) (head i : Int) : slot n used head i = i := if_neg h

theorem advance_range (hn : 0 < n) (h : -1 ≤ head) : 0 ≤ advance n head ∧ advance n head < n := by
  unfold advance
  split <;> omega

/-- In a full ring the place after the head is the next element's. -/
theorem slot_advance (h : head < n) (i : Nat) : slot n n (advance n head) i = slot n n head (i + 1 : Nat) := by
  rw [slot_full, slot_full, advance]
  split
  next hlast =>
    have hsum : head + ((i + 1 : Nat) : Int) + 1 = (0 + i + 1) + n := by omega
    rw [hsum, Int.add_emod_right]
  next =>
    congr 1
    omega

/-- The newest element stands at the head. -/
theorem slot_last (hhead : 0 ≤ head) (h : head < n) : slot n n head (n - 1 : Nat) = head := by
  have hsum : head + ((n - 1 : Nat) : Int) + 1 = head + n := by omega
  rw [slot_full, hsum, Int.add_emod_right, Int.emod_eq_of_lt hhead h]

/-- Wherever the ring is, its newest element is at the head. -/
theorem Holds.slot_newest (h : Holds n used head slots xs) (hne : xs ≠ []) : slot n used head (used - 1 : Nat) = head := by
  have hcount := h.count
  have hpos := List.length_pos_iff.mpr hne
  by_cases hfull : used = n
  · obtain ⟨hhead, hlt⟩ := h.full (by omega)
    rw [hfull]
    exact slot_last hhead hlt
  · have hhead := h.partly (by have := h.fits; omega)
    rw [slot_partly hfull]
    omega

/-- Two elements of a full ring are in different places. -/
theorem slot_ne_head (hhead : 0 ≤ head) (h : head < n) {i : Nat} (hi : i + 1 < n) : slot n n head i ≠ head := by
  rw [slot_full]
  by_cases hwrap : head + i + 1 < n
  · rw [Int.emod_eq_of_lt (by omega) hwrap]
    omega
  · have hsum : head + i + 1 = (head + i + 1 - n) + n := by omega
    rw [hsum, Int.add_emod_right, Int.emod_eq_of_lt (by omega) (by omega)]
    omega

/-- A new element goes to the place after the head. -/
theorem Holds.push (h : Holds n used head slots xs) (a : α) :
    Holds n (min (used + 1) n) (advance n head) (slots.set (advance n head).toNat a) (keepLast n (xs ++ [a])) := by
  have hn := h.positive
  have hfits := h.fits
  have hcount := h.count
  have hslots := h.size
  have hsize : (slots.set (advance n head).toNat a).length = n := by rw [List.length_set, h.size]
  have hlength : (keepLast n (xs ++ [a])).length = min (xs.length + 1) n := by
    rw [length_keepLast, List.length_append, List.length_singleton]
  by_cases hfull : xs.length = n
  · obtain ⟨hhead, hlt⟩ := h.full hfull
    obtain ⟨hnext, hnextLt⟩ := advance_range hn (show -1 ≤ head by omega)
    have hused : min (used + 1) n = n := by omega
    refine ⟨hsize, hn, by omega, by omega, fun hpartly => ?_, fun _ => ⟨hnext, hnextLt⟩, fun i hi => ?_⟩
    · omega
    · rw [hused, getElem?_keepLast, List.length_append, List.length_singleton, hfull]
      by_cases hlast : i = n - 1
      · rw [hlast, slot_last hnext hnextLt, List.getElem?_set_self (by omega), List.getElem?_append_right (by omega)]
        rw [hfull, show n + 1 - n + (n - 1) - n = 0 by omega]
        rfl
      · have hread := h.reads (i + 1) (by omega)
        rw [hcount, hfull] at hread
        have hne := slot_ne_head hnext hnextLt (i := i) (by omega)
        have hslot := h.slot_lt (i := i + 1) (by omega)
        rw [hcount, hfull] at hslot
        rw [slot_advance hlt] at hne ⊢
        rw [List.getElem?_set_ne (by omega), hread, List.getElem?_append_left (by omega)]
        congr 1
        omega
  · have hhead := h.partly (by omega)
    have hadvance : advance n head = xs.length := by
      rw [advance, if_neg (by omega)]
      omega
    have hgrown : (xs ++ [a]).length = xs.length + 1 := by rw [List.length_append, List.length_singleton]
    have hkept : keepLast n (xs ++ [a]) = xs ++ [a] := keepLast_of_le (by omega)
    rw [hadvance] at hsize ⊢
    rw [hkept] at hlength ⊢
    have hreads : ∀ i < (xs ++ [a]).length, (slots.set (xs.length : Int).toNat a)[i]? = (xs ++ [a])[i]? := by
      intro i hi
      rw [Int.toNat_natCast]
      by_cases hlast : i = xs.length
      · rw [hlast, List.getElem?_set_self (by omega), List.getElem?_append_right (Nat.le_refl _), Nat.sub_self]
        rfl
      · have hread := h.reads i (by omega)
        rw [slot_partly (by omega), Int.toNat_natCast] at hread
        rw [List.getElem?_set_ne (by omega), hread, List.getElem?_append_left (by omega)]
    refine ⟨hsize, hn, by omega, by omega, fun hpartly => by omega, fun hnow => by omega, fun i hi => ?_⟩
    have hslot : slot n (min (used + 1) n) xs.length i = i := by
      by_cases hnow : min (used + 1) n = n
      · have hsum : (xs.length : Int) + i + 1 = i + n := by omega
        rw [hnow, slot_full, hsum, Int.add_emod_right, Int.emod_eq_of_lt (by omega) (by omega)]
      · exact slot_partly hnow _ _
    rw [hslot, Int.toNat_natCast]
    exact hreads i hi

end LvdTerm.Lib.Ring
