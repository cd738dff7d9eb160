import Mathlib.Data.List.Basic

/-!
# Arrays of C

An element is read and written at an `int`; a place outside of the array is no place. A block of elements is moved within the
array one element after the other, and as `memmove` has it: forwards where it moves down, backwards where it moves up.
-/
namespace LvdTerm.Lib.CArray

variable {α : Type}

def get (xs : List α) (i : Int) : Option α := if 0 ≤ i then xs[i.toNat]? else none

def put (xs : List α) (i : Int) (a : α) : Option (List α) :=
  if 0 ≤ i ∧ i < xs.length then some (xs.set i.toNat a) else none

theorem get_natCast (xs : List α) (i : Nat) : get xs i = xs[i]? := by
  rw [get, if_pos (Int.natCast_nonneg i), Int.toNat_natCast]

theorem put_natCast {xs : List α} {i : Nat} (h : i < xs.length) (a : α) : put xs i a = some (xs.set i a) := by
  rw [put, if_pos ⟨Int.natCast_nonneg i, Int.ofNat_lt.mpr h⟩, Int.toNat_natCast]

def copy (dest source : Int) (xs : List α) : Option (List α) := (get xs source).bind (put xs dest)

theorem copy_natCast {xs : List α} {d s : Nat} (hd : d < xs.length) (hs : s < xs.length) :
    copy d s xs = some (xs.set d xs[s]) := by
  rw [copy, get_natCast, List.getElem?_eq_getElem hs]
  exact put_natCast hd _

def forwards : Nat → Int → Int → List α → Option (List α)
  | 0, _, _, xs => some xs
  | n + 1, dest, source, xs => (copy dest source xs).bind (forwards n (dest + 1) (source + 1))

def backwards : Nat → Int → Int → List α → Option (List α)
  | 0, _, _, xs => some xs
  | n + 1, dest, source, xs => (copy (dest + n) (source + n) xs).bind (backwards n dest source)

def move (n : Nat) (dest source : Int) (xs : List α) : Option (List α) :=
  if dest < source then forwards n dest source xs else backwards n dest source xs

/-- The array with the block of `n` elements from `s` on at `d` as well. -/
def moved (n d s : Nat) (xs : List α) : List α := xs.take d ++ (xs.drop s).take n ++ xs.drop (d + n)

section Moved

variable {xs : List α} {n d s : Nat}

theorem length_moved (hd : d + n ≤ xs.length) (hs : s + n ≤ xs.length) : (moved n d s xs).length = xs.length := by
  simp only [moved, List.length_append, List.length_take, List.length_drop]
  omega

theorem getElem?_moved (hd : d + n ≤ xs.length) (hs : s + n ≤ xs.length) (k : Nat) :
    (moved n d s xs)[k]? = if d ≤ k ∧ k < d + n then xs[s + (k - d)]? else xs[k]? := by
  have htake : (xs.take d).length = d := by rw [List.length_take]; omega
  have hblock : ((xs.drop s).take n).length = n := by rw [List.length_take, List.length_drop]; omega
  rw [moved, List.append_assoc]
  by_cases hk : k < d
  · rw [List.getElem?_append_left (by omega), List.getElem?_take_of_lt hk, if_neg (by omega)]
  · rw [List.getElem?_append_right (by omega), htake]
    by_cases hkn : k < d + n
    · rw [List.getElem?_append_left (by omega), List.getElem?_take_of_lt (by omega), List.getElem?_drop, if_pos (by omega)]
    · rw [List.getElem?_append_right (by omega), hblock, List.getElem?_drop, if_neg (by omega)]
      congr 1
      omega

theorem forwards_eq (h : d ≤ s) (hs : s + n ≤ xs.length) : forwards n d s xs = some (moved n d s xs) := by
  induction n generalizing xs d s with
  | zero => simp [forwards, moved]
  | succ n ih =>
    have hcopy : copy d s xs = some (xs.set d xs[s]) := copy_natCast (by omega) (by omega)
    have hlen : (xs.set d xs[s]).length = xs.length := List.length_set
    have hrest : forwards n (d + 1 : Nat) (s + 1 : Nat) (xs.set d xs[s]) = some (moved n (d + 1) (s + 1) (xs.set d xs[s])) :=
      ih (by omega) (by omega)
    rw [forwards, hcopy, Option.bind_some, ← Int.natCast_succ, ← Int.natCast_succ, hrest]
    refine congrArg some (List.ext_getElem? fun k => ?_)
    rw [getElem?_moved (by omega) (by omega), getElem?_moved (by omega) (by omega)]
    -- the element just written is below the block that is still to be read
    by_cases hk : k = d
    · subst hk
      rw [if_neg (by omega), if_pos (by omega), List.getElem?_set_self (by omega), Nat.sub_self, Nat.add_zero,
        List.getElem?_eq_getElem]
    · by_cases hin : d + 1 ≤ k ∧ k < d + 1 + n
      · rw [if_pos hin, if_pos (by omega), List.getElem?_set_ne (by omega)]
        congr 1
        omega
      · rw [if_neg hin, if_neg (by omega), List.getElem?_set_ne (by omega)]

theorem backwards_eq (h : s ≤ d) (hd : d + n ≤ xs.length) : backwards n d s xs = some (moved n d s xs) := by
  induction n generalizing xs with
  | zero => simp [backwards, moved]
  | succ n ih =>
    have hcopy : copy (d + n : Nat) (s + n : Nat) xs = some (xs.set (d + n) xs[s + n]) := copy_natCast (by omega) (by omega)
    have hlen : (xs.set (d + n) xs[s + n]).length = xs.length := List.length_set
    have hrest : backwards n d s (xs.set (d + n) xs[s + n]) = some (moved n d s (xs.set (d + n) xs[s + n])) := ih (by omega)
    rw [backwards, ← Int.natCast_add, ← Int.natCast_add, hcopy, Option.bind_some, hrest]
    refine congrArg some (List.ext_getElem? fun k => ?_)
    rw [getElem?_moved (by omega) (by omega), getElem?_moved (by omega) (by omega)]
    by_cases hk : k = d + n
    · subst hk
      rw [if_neg (by omega), if_pos (by omega), List.getElem?_set_self (by omega), Nat.add_sub_cancel_left,
        List.getElem?_eq_getElem]
    · by_cases hin : d ≤ k ∧ k < d + n
      · rw [if_pos hin, if_pos (by omega), List.getElem?_set_ne (by omega)]
      · rw [if_neg hin, if_neg (by omega), List.getElem?_set_ne (by omega)]

theorem move_eq (hd : d + n ≤ xs.length) (hs : s + n ≤ xs.length) : move n d s xs = some (moved n d s xs) := by
  unfold move
  split
  next h => exact forwards_eq (by omega) hs
  next h => exact backwards_eq (by omega) hd

end Moved

/-! ## A loop over a block -/

/-- `n` elements from place `i` on, each changed by `g`. -/
def changed (n i : Nat) (g : Nat → α → α) (xs : List α) : List α := xs.mapIdx fun k a => if i ≤ k ∧ k < i + n then g k a else a

theorem length_changed (n i : Nat) (g : Nat → α → α) (xs : List α) : (changed n i g xs).length = xs.length := List.length_mapIdx

theorem getElem?_changed (n i : Nat) (g : Nat → α → α) (xs : List α) (k : Nat) :
    (changed n i g xs)[k]? = if i ≤ k ∧ k < i + n then (xs[k]?).map (g k) else xs[k]? := by
  rw [changed, List.getElem?_mapIdx]
  split <;> cases xs[k]? <;> rfl

theorem changed_zero (i : Nat) (g : Nat → α → α) (xs : List α) : changed 0 i g xs = xs := by
  refine List.ext_getElem? fun k => ?_
  rw [getElem?_changed, if_neg (by omega)]

/-- One round of the loop, and the rest of it. -/
theorem changed_succ {n i : Nat} {g : Nat → α → α} {xs : List α} {a : α} (h : xs[i]? = some a) :
    changed n (i + 1) g (xs.set i (g i a)) = changed (n + 1) i g xs := by
  refine List.ext_getElem? fun k => ?_
  rw [getElem?_changed, getElem?_changed]
  by_cases hk : k = i
  · subst hk
    have hlt := (List.getElem?_eq_some_iff.mp h).1
    rw [if_neg (by omega), if_pos (by omega), List.getElem?_set_self hlt, h]
    rfl
  · rw [List.getElem?_set_ne (by omega)]
    by_cases hin : i + 1 ≤ k ∧ k < i + 1 + n
    · rw [if_pos hin, if_pos (by omega)]
    · rw [if_neg hin, if_neg (by omega)]

end LvdTerm.Lib.CArray
