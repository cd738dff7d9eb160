import Mathlib.Data.Nat.Init

/-!
# Scanners that mark a text

A loop that goes over a text of `n` characters from a position on and marks ranges of it. `scan` does one turn after the other; a turn
that leaves the text, or a loop that is still going when its fuel is used up, has no result. Where every turn keeps between the
position it starts from and the one it goes on to, and a measure falls, the loop ends and its ranges are `Ordered` (`scan_total`).
-/
namespace LvdTerm.Lib.Scanning

structure Range (φ : Type) where
  start : Int
  length : Int
  format : φ

inductive Turn (φ σ ρ : Type) where
  | stop (ranges : List (Range φ)) (result : ρ)
  | next (ranges : List (Range φ)) (s : σ)

variable {φ σ ρ : Type}

def scan (turn : σ → Option (Turn φ σ ρ)) : Nat → σ → Option (List (Range φ) × ρ)
  | 0, _ => none
  | fuel + 1, s =>
    match turn s with
    | none => none
    | some (.stop ranges result) => some (ranges, result)
    | some (.next ranges s') => (scan turn fuel s').map fun (more, result) => (ranges ++ more, result)

/-! ## Ranges in order -/

/-- The ranges are in a text of this length, each behind the ones before it. -/
structure Ordered (n : Int) (ranges : List (Range φ)) : Prop where
  start_nonneg : ∀ r ∈ ranges, 0 ≤ r.start
  length_nonneg : ∀ r ∈ ranges, 0 ≤ r.length
  end_le : ∀ r ∈ ranges, r.start + r.length ≤ n
  increasing : ranges.Pairwise fun a b => a.start + a.length ≤ b.start

/-- From `low` to `high`, one behind the other. -/
def Between (low high : Int) : List (Range φ) → Prop
  | [] => low ≤ high
  | r :: rest => low ≤ r.start ∧ 0 ≤ r.length ∧ Between (r.start + r.length) high rest

theorem Between.le {low high : Int} {ranges : List (Range φ)} (h : Between low high ranges) : low ≤ high := by
  induction ranges generalizing low with
  | nil => exact h
  | cons r rest ih =>
    have hrest := ih h.2.2
    have hstart := h.1
    have hlength := h.2.1
    omega

theorem Between.append {low middle high : Int} {ranges more : List (Range φ)} (h : Between low middle ranges)
    (hmore : Between middle high more) : Between low high (ranges ++ more) := by
  induction ranges generalizing low with
  | nil =>
    have hle : low ≤ middle := h
    cases more with
    | nil => exact Int.le_trans hle hmore
    | cons r rest => exact ⟨Int.le_trans hle hmore.1, hmore.2⟩
  | cons r rest ih => exact ⟨h.1, h.2.1, ih h.2.2⟩

theorem Between.mem {low high : Int} {ranges : List (Range φ)} (h : Between low high ranges) :
    ∀ r ∈ ranges, low ≤ r.start ∧ 0 ≤ r.length ∧ r.start + r.length ≤ high := by
  induction ranges generalizing low with
  | nil => simp
  | cons a rest ih =>
    intro r hr
    have hstart := h.1
    have hlength := h.2.1
    rcases List.mem_cons.mp hr with rfl | hrest
    · exact ⟨hstart, hlength, h.2.2.le⟩
    · obtain ⟨hlow, hr⟩ := ih h.2.2 r hrest
      exact ⟨by omega, hr⟩

theorem Between.pairwise {low high : Int} {ranges : List (Range φ)} (h : Between low high ranges) :
    ranges.Pairwise fun a b => a.start + a.length ≤ b.start := by
  induction ranges generalizing low with
  | nil => exact List.Pairwise.nil
  | cons a rest ih => exact List.Pairwise.cons (fun r hr => (h.2.2.mem r hr).1) (ih h.2.2)

theorem Between.ordered {low high : Int} {ranges : List (Range φ)} (h : Between low high ranges) (hlow : 0 ≤ low) :
    Ordered high ranges where
  start_nonneg r hr := Int.le_trans hlow (h.mem r hr).1
  length_nonneg r hr := (h.mem r hr).2.1
  end_le r hr := (h.mem r hr).2.2
  increasing := h.pairwise

theorem between_nil {low high : Int} (h : low ≤ high) : Between low high ([] : List (Range φ)) := h

theorem between_single {low high start length : Int} {format : φ} (hlow : low ≤ start) (hlength : 0 ≤ length)
    (hhigh : start + length ≤ high) : Between low high [⟨start, length, format⟩] := ⟨hlow, hlength, hhigh⟩

/-! ## The loop -/

/-- A turn from `s` stays in the text, and goes on behind what it has marked with less left to do. -/
def Turn.Goes (n : Nat) (position left : σ → Nat) (s : σ) : Turn φ σ ρ → Prop
  | .stop ranges _ => Between (position s) n ranges
  | .next ranges s' => Between (position s) (position s') ranges ∧ position s' ≤ n ∧ left s' < left s

variable {turn : σ → Option (Turn φ σ ρ)} {position left : σ → Nat} {n : Nat}

theorem scan_total (hturn : ∀ s, position s ≤ n → ∃ t, turn s = some t ∧ t.Goes n position left s) {s : σ}
    (hs : position s ≤ n) :
    ∃ ranges result, (∀ fuel, left s < fuel → scan turn fuel s = some (ranges, result)) ∧ Between (position s) n ranges := by
  induction hleft : left s using Nat.strong_induction_on generalizing s with
  | _ m ih =>
    subst hleft
    obtain ⟨t, ht, hgoes⟩ := hturn s hs
    cases t with
    | stop ranges result =>
      refine ⟨ranges, result, ?_, hgoes⟩
      intro fuel hfuel
      obtain ⟨fuel, rfl⟩ := Nat.exists_eq_succ_of_ne_zero (Nat.ne_of_gt (Nat.zero_lt_of_lt hfuel))
      rw [scan, ht]
    | next ranges s' =>
      obtain ⟨hranges, hs', hless⟩ := hgoes
      obtain ⟨more, result, hscan, hmore⟩ := ih (left s') hless hs' rfl
      refine ⟨ranges ++ more, result, ?_, hranges.append hmore⟩
      intro fuel hfuel
      obtain ⟨fuel, rfl⟩ := Nat.exists_eq_succ_of_ne_zero (Nat.ne_of_gt (Nat.zero_lt_of_lt hfuel))
      rw [scan, ht]
      dsimp only
      rw [hscan fuel (by omega)]
      rfl

/-! ## Reading a text -/

section Reading

variable {α : Type} (p : α → Bool) (text : List α)

/-- There is a character at `j`, and it is such a one. -/
def holdsAt (j : Nat) : Option Bool := if j < text.length then text[j]?.map p else some false

/-- The first position from `j` on with no such character. -/
def skipWhile (j : Nat) : Option Nat :=
  if j < text.length then do
    let c ← text[j]?
    if p c then skipWhile (j + 1) else some j
  else some j
termination_by text.length - j

/-- Whether the text goes on with `needle` at a position in it or at its end. -/
def continues [DecidableEq α] (j : Nat) (needle : List α) : Option Bool :=
  if j ≤ text.length then some (needle.isPrefixOf (text.drop j)) else none

/-- The first place of `needle` in a text whose first character is at `j`. -/
def find [DecidableEq α] (needle : List α) : List α → Nat → Option Nat
  | [], j => if needle = [] then some j else none
  | c :: rest, j => if needle.isPrefixOf (c :: rest) then some j else find needle rest (j + 1)

def indexOf [DecidableEq α] (needle : List α) (j : Nat) : Option Nat :=
  if j ≤ text.length then find needle (text.drop j) j else none

variable {text}

theorem getElem?_total {j : Nat} (h : j < text.length) : ∃ c, text[j]? = some c := ⟨_, List.getElem?_eq_getElem h⟩

theorem holdsAt_total (p : α → Bool) (text : List α) (j : Nat) :
    ∃ b, holdsAt p text j = some b ∧ (b = true → j < text.length) := by
  unfold holdsAt
  split
  · next hj =>
    rw [List.getElem?_eq_getElem hj]
    exact ⟨_, rfl, fun _ => hj⟩
  · exact ⟨false, rfl, nofun⟩

theorem skipWhile_total (p : α → Bool) {text : List α} {j : Nat} (h : j ≤ text.length) :
    ∃ k, skipWhile p text j = some k ∧ j ≤ k ∧ k ≤ text.length := by
  induction hm : text.length - j using Nat.strong_induction_on generalizing j with
  | _ m ih =>
    rw [skipWhile]
    split
    · next hj =>
      rw [List.getElem?_eq_getElem hj, Option.bind_eq_bind, Option.bind_some]
      split
      · obtain ⟨k, hk, hle, hlast⟩ := ih (text.length - (j + 1)) (by omega) hj rfl
        exact ⟨k, hk, by omega, hlast⟩
      · exact ⟨j, rfl, Nat.le_refl j, h⟩
    · exact ⟨j, rfl, Nat.le_refl j, h⟩

theorem continues_total [DecidableEq α] {j : Nat} (h : j ≤ text.length) (needle : List α) :
    ∃ b, continues text j needle = some b ∧ (b = true → j + needle.length ≤ text.length) := by
  refine ⟨_, if_pos h, fun hprefix => ?_⟩
  have hlength := (List.isPrefixOf_iff_prefix.mp hprefix).length_le
  rw [List.length_drop] at hlength
  omega

theorem find_bounds [DecidableEq α] {needle rest : List α} {j e : Nat} (h : find needle rest j = some e) :
    j ≤ e ∧ e + needle.length ≤ j + rest.length := by
  induction rest generalizing j with
  | nil =>
    unfold find at h
    split at h
    · next hempty =>
      cases h
      rw [hempty]
      exact ⟨Nat.le_refl e, Nat.le_refl e⟩
    · cases h
  | cons c rest ih =>
    unfold find at h
    split at h
    · next hprefix =>
      cases h
      exact ⟨Nat.le_refl e, Nat.add_le_add_left (List.isPrefixOf_iff_prefix.mp hprefix).length_le e⟩
    · obtain ⟨hle, hlast⟩ := ih h
      rw [List.length_cons]
      omega

theorem indexOf_bounds [DecidableEq α] {needle : List α} {j e : Nat} (h : indexOf text needle j = some e) :
    j ≤ e ∧ e + needle.length ≤ text.length := by
  unfold indexOf at h
  split at h
  · next hj =>
    have hbounds := find_bounds h
    rw [List.length_drop] at hbounds
    omega
  · cases h

end Reading

end LvdTerm.Lib.Scanning
