import LvdTerm.Lib.Utf8

/-!
# UTF-16

A text as 16-bit units and the characters these units are. A surrogate without its partner is no scalar value; it keeps its place
among the characters, so that the units come back whole (`units_characters`), and becomes a question mark in UTF-8.
-/
namespace LvdTerm.Lib.Utf16

def isHigh (u : UInt16) : Bool := decide (0xd800 ≤ u.toNat) && decide (u.toNat < 0xdc00)

def isLow (u : UInt16) : Bool := decide (0xdc00 ≤ u.toNat) && decide (u.toNat < 0xe000)

/-- A scalar value, or a surrogate without its partner. -/
inductive Character where
  | scalar (c : Char)
  | lone (u : UInt16)
  deriving DecidableEq

def Character.units : Character → List UInt16
  | .scalar c =>
    if c.toNat < 0x10000 then [UInt16.ofNat c.toNat]
    else [UInt16.ofNat (0xd800 + (c.toNat - 0x10000) / 0x400), UInt16.ofNat (0xdc00 + (c.toNat - 0x10000) % 0x400)]
  | .lone u => [u]

def Character.utf8 : Character → List UInt8
  | .scalar c => String.utf8EncodeChar c
  | .lone _ => [Utf8.asciiByte '?']

def paired (high low : UInt16) : Char := Char.ofNat (0x10000 + (high.toNat - 0xd800) * 0x400 + (low.toNat - 0xdc00))

/-- A unit that has no partner. -/
def single (u : UInt16) : Character := if isHigh u || isLow u then .lone u else .scalar (Char.ofNat u.toNat)

def characters : List UInt16 → List Character
  | [] => []
  | [u] => [single u]
  | u :: v :: rest => if isHigh u && isLow v then .scalar (paired u v) :: characters rest else single u :: characters (v :: rest)

def toUtf8 (units : List UInt16) : List UInt8 := (characters units).flatMap Character.utf8

theorem toUtf8_singleton (u : UInt16) : toUtf8 [u] = (single u).utf8 := by
  rw [toUtf8, characters, List.flatMap_singleton]

/-! ## One character after the other -/

/-- The first unit is a surrogate that has its partner behind it. -/
def StartsPair : List UInt16 → Prop
  | u :: v :: _ => isHigh u ∧ isLow v
  | _ => False

theorem characters_pair {u v : UInt16} {rest : List UInt16} (hu : isHigh u) (hv : isLow v) :
    characters (u :: v :: rest) = .scalar (paired u v) :: characters rest := by
  rw [characters, if_pos]
  rw [hu, hv]
  rfl

theorem characters_single {u : UInt16} {rest : List UInt16} (h : ¬ StartsPair (u :: rest)) :
    characters (u :: rest) = single u :: characters rest := by
  cases rest with
  | nil => rfl
  | cons v rest =>
    rw [characters, if_neg]
    intro hpair
    exact h (Bool.and_eq_true_iff.mp hpair)

theorem not_startsPair {u : UInt16} (hu : isHigh u = false) (rest : List UInt16) : ¬ StartsPair (u :: rest) := by
  cases rest with
  | nil => exact id
  | cons v rest =>
    intro h
    exact Bool.noConfusion (hu.symm.trans h.1)

theorem isHigh_of_low {u : UInt16} (h : isLow u) : isHigh u = false := by
  simp only [isLow, isHigh, Bool.and_eq_true, decide_eq_true_eq, Bool.and_eq_false_iff, decide_eq_false_iff_not] at h ⊢
  omega

/-! ## Scalar values -/

theorem toNat_ofNat {n : Nat} (h : n.isValidChar) : (Char.ofNat n).toNat = n := by
  rw [Char.ofNat, dif_pos h]
  rfl

theorem toNat_paired {u v : UInt16} (hu : isHigh u) (hv : isLow v) :
    (paired u v).toNat = 0x10000 + (u.toNat - 0xd800) * 0x400 + (v.toNat - 0xdc00) := by
  simp only [isLow, isHigh, Bool.and_eq_true, decide_eq_true_eq] at hu hv
  apply toNat_ofNat
  right
  omega

theorem single_of_plain {u : UInt16} (hu : isHigh u = false) (hv : isLow u = false) :
    single u = .scalar (Char.ofNat u.toNat) ∧ (Char.ofNat u.toNat).toNat = u.toNat := by
  constructor
  · rw [single, hu, hv]
    rfl
  · simp only [isLow, isHigh, Bool.and_eq_false_iff, decide_eq_false_iff_not] at hu hv
    have hlt := u.toNat_lt
    apply toNat_ofNat
    unfold Nat.isValidChar
    omega

theorem single_ofNat {c : Char} (h : c.toNat < 0xd800) : single (UInt16.ofNat c.toNat) = .scalar c := by
  have hnat : (UInt16.ofNat c.toNat).toNat = c.toNat := by
    rw [UInt16.toNat_ofNat']
    omega
  have hhigh : isHigh (UInt16.ofNat c.toNat) = false := by
    simp only [isHigh, hnat, Bool.and_eq_false_iff, decide_eq_false_iff_not]
    omega
  have hlow : isLow (UInt16.ofNat c.toNat) = false := by
    simp only [isLow, hnat, Bool.and_eq_false_iff, decide_eq_false_iff_not]
    omega
  rw [(single_of_plain hhigh hlow).1, hnat, Char.ofNat_toNat]

theorem units_single (u : UInt16) : (single u).units = [u] := by
  by_cases h : isHigh u || isLow u
  · rw [single, if_pos h]
    rfl
  · simp only [Bool.or_eq_true, not_or, Bool.not_eq_true] at h
    obtain ⟨hsingle, hnat⟩ := single_of_plain h.1 h.2
    rw [hsingle, Character.units, hnat, if_pos u.toNat_lt, UInt16.ofNat_toNat]

theorem units_paired {u v : UInt16} (hu : isHigh u) (hv : isLow v) : (Character.scalar (paired u v)).units = [u, v] := by
  have hnat := toNat_paired hu hv
  simp only [isLow, isHigh, Bool.and_eq_true, decide_eq_true_eq] at hu hv
  have hhigh : UInt16.ofNat (0xd800 + ((paired u v).toNat - 0x10000) / 0x400) = u := by
    rw [← UInt16.toNat_inj, UInt16.toNat_ofNat']
    omega
  have hlow : UInt16.ofNat (0xdc00 + ((paired u v).toNat - 0x10000) % 0x400) = v := by
    rw [← UInt16.toNat_inj, UInt16.toNat_ofNat']
    omega
  rw [Character.units, if_neg (by omega), hhigh, hlow]

/-- Nothing of a text is lost. -/
theorem units_characters (text : List UInt16) : (characters text).flatMap Character.units = text := by
  induction text using characters.induct with
  | case1 => rfl
  | case2 u =>
    rw [characters, List.flatMap_singleton]
    exact units_single u
  | case3 u v rest h ih =>
    simp only [Bool.and_eq_true] at h
    rw [characters_pair h.1 h.2, List.flatMap_cons, units_paired h.1 h.2, ih]
    rfl
  | case4 u v rest h ih =>
    have hsingle : ¬ StartsPair (u :: v :: rest) := fun hpair => h (by rw [hpair.1, hpair.2]; rfl)
    rw [characters_single hsingle, List.flatMap_cons, units_single, ih]
    rfl

/-! ## Lengths -/

theorem utf8_pos (c : Character) : 0 < c.utf8.length := by
  cases c with
  | scalar c => exact List.length_pos_of_ne_nil String.utf8EncodeChar_ne_nil
  | lone u => exact Nat.one_pos

theorem length_utf8_paired {u v : UInt16} (hu : isHigh u) (hv : isLow v) : (Character.scalar (paired u v)).utf8.length = 4 := by
  have hnat := toNat_paired hu hv
  rw [Character.utf8, String.length_utf8EncodeChar, Char.utf8Size_eq_four_iff]
  rw [← Char.toNat_val] at hnat
  rw [UInt32.lt_iff_toNat_lt, hnat]
  simp
  omega

/-! ## Outside the Basic Multilingual Plane -/

def Character.Beyond : Character → Prop
  | .scalar c => 0x10000 ≤ c.toNat
  | .lone _ => False

theorem single_of_surrogate {u : UInt16} (h : isHigh u ∨ isLow u) : single u = .lone u := if_pos (Bool.or_eq_true_iff.mpr h)

theorem plain_of_single {u : UInt16} {c : Char} (h : single u = .scalar c) : isHigh u = false ∧ isLow u = false := by
  unfold single at h
  split at h
  · cases h
  · next hplain => exact Bool.or_eq_false_iff.mp (Bool.not_eq_true _ ▸ hplain)

theorem single_not_beyond (u : UInt16) : ¬ (single u).Beyond := by
  cases h : single u with
  | lone v => exact id
  | scalar c =>
    obtain ⟨hu, hv⟩ := plain_of_single h
    obtain ⟨hsingle, hnat⟩ := single_of_plain hu hv
    obtain rfl : Char.ofNat u.toNat = c := Character.scalar.inj (hsingle.symm.trans h)
    intro hbeyond
    have hlt := u.toNat_lt
    rw [Character.Beyond, hnat] at hbeyond
    omega

theorem single_inj {u v : UInt16} (h : single u = single v) : u = v := by
  have hunits := units_single u
  rw [h, units_single] at hunits
  exact (List.singleton_inj.mp hunits).symm

/-- A pair is one character; read from its second unit on, that unit is alone. -/
theorem StartsPair.cases {u : UInt16} {rest : List UInt16} (h : StartsPair (u :: rest)) :
    ∃ c v tail, characters (u :: rest) = .scalar c :: characters tail ∧ characters rest = .lone v :: characters tail ∧
      0x10000 ≤ c.toNat ∧ (String.utf8EncodeChar c).length = 4 ∧ single u = .lone u := by
  match rest, h with
  | v :: tail, ⟨hu, hv⟩ =>
    have hrest : characters (v :: tail) = .lone v :: characters tail := by
      rw [characters_single (not_startsPair (isHigh_of_low hv) tail), single_of_surrogate (Or.inr hv)]
    have hbeyond : 0x10000 ≤ (paired u v).toNat := by
      rw [toNat_paired hu hv, Nat.add_assoc]
      exact Nat.le_add_right _ _
    have hlength := length_utf8_paired hu hv
    refine ⟨paired u v, v, tail, characters_pair hu hv, hrest, ?_, hlength, single_of_surrogate (Or.inl hu)⟩
    exact hbeyond

end LvdTerm.Lib.Utf16
