import Mathlib.Algebra.Order.Ring.Nat
import Mathlib.Data.List.Basic

/-!
# Base64

Bytes as text over the standard alphabet, with padding. The decoder is the lenient one:
it collects six bits a character, skips every character outside the alphabet (padding
included) and gives a byte whenever eight bits are there. `decode_encode` is the round trip.
-/
namespace LvdTerm.Lib.Base64

def digit (n : Nat) : UInt8 :=
  if n < 26 then UInt8.ofNat (65 + n)
  else if n < 52 then UInt8.ofNat (97 + (n - 26))
  else if n < 62 then UInt8.ofNat (48 + (n - 52))
  else if n = 62 then 43
  else 47

def pad : UInt8 := 61

def value (c : UInt8) : Option Nat :=
  if 65 ≤ c ∧ c ≤ 90 then some (c.toNat - 65)
  else if 97 ≤ c ∧ c ≤ 122 then some (c.toNat - 97 + 26)
  else if 48 ≤ c ∧ c ≤ 57 then some (c.toNat - 48 + 52)
  else if c = 43 then some 62
  else if c = 47 then some 63
  else none

def encode : List UInt8 → List UInt8
  | [] => []
  | [a] => [digit (a.toNat / 4), digit (a.toNat % 4 * 16), pad, pad]
  | [a, b] => [digit (a.toNat / 4), digit (a.toNat % 4 * 16 + b.toNat / 16), digit (b.toNat % 16 * 4), pad]
  | a :: b :: c :: rest =>
    digit (a.toNat / 4) :: digit (a.toNat % 4 * 16 + b.toNat / 16) ::
      digit (b.toNat % 16 * 4 + c.toNat / 64) :: digit (c.toNat % 64) :: encode rest

/-- `nbits` bits of `buf` wait to be completed to a byte. -/
def decodeFrom (buf nbits : Nat) : List UInt8 → List UInt8
  | [] => []
  | c :: cs =>
    match value c with
    | none => decodeFrom buf nbits cs
    | some v =>
      if nbits + 6 ≥ 8 then
        UInt8.ofNat ((buf * 64 + v) / 2 ^ (nbits - 2)) :: decodeFrom ((buf * 64 + v) % 2 ^ (nbits - 2)) (nbits - 2) cs
      else decodeFrom (buf * 64 + v) (nbits + 6) cs

def decode (text : List UInt8) : List UInt8 := decodeFrom 0 0 text

/-! ## Round trip -/

theorem value_digit {n : Nat} (h : n < 64) : value (digit n) = some n := by
  have hall : ∀ m : Fin 64, value (digit m.val) = some m.val := by decide
  exact hall ⟨n, h⟩

theorem value_pad : value pad = none := by decide

theorem decodeFrom_digit {v : Nat} (hv : v < 64) (buf nbits : Nat) (cs : List UInt8) (hn : nbits < 2) :
    decodeFrom buf nbits (digit v :: cs) = decodeFrom (buf * 64 + v) (nbits + 6) cs := by
  rw [decodeFrom, value_digit hv]
  simp only [show ¬ nbits + 6 ≥ 8 from by omega, if_false]

theorem decodeFrom_byte {v : Nat} (hv : v < 64) (buf nbits : Nat) (cs : List UInt8) (hn : 2 ≤ nbits) :
    decodeFrom buf nbits (digit v :: cs) =
      UInt8.ofNat ((buf * 64 + v) / 2 ^ (nbits - 2)) ::
        decodeFrom ((buf * 64 + v) % 2 ^ (nbits - 2)) (nbits - 2) cs := by
  rw [decodeFrom, value_digit hv]
  simp only [show nbits + 6 ≥ 8 from by omega, if_true]

theorem decodeFrom_pad (buf nbits : Nat) (cs : List UInt8) : decodeFrom buf nbits (pad :: cs) = decodeFrom buf nbits cs := by
  rw [decodeFrom, value_pad]

/-- Two digits give the first byte and four bits of the next. -/
theorem decodeFrom_first (a : UInt8) (high : Nat) (h : high < 16) (cs : List UInt8) :
    decodeFrom 0 0 (digit (a.toNat / 4) :: digit (a.toNat % 4 * 16 + high) :: cs) = a :: decodeFrom high 4 cs := by
  have ha := a.toNat_lt
  rw [decodeFrom_digit (by omega) _ _ _ (by decide), decodeFrom_byte (by omega) _ _ _ (by decide)]
  have hbyte : ((0 * 64 + a.toNat / 4) * 64 + (a.toNat % 4 * 16 + high)) / 2 ^ (0 + 6 - 2) = a.toNat := by omega
  have hrest : ((0 * 64 + a.toNat / 4) * 64 + (a.toNat % 4 * 16 + high)) % 2 ^ (0 + 6 - 2) = high := by omega
  rw [hbyte, hrest, UInt8.ofNat_toNat]

/-- A third digit gives the second byte and two bits of the next. -/
theorem decodeFrom_second (b : UInt8) (high : Nat) (h : high < 4) (cs : List UInt8) :
    decodeFrom (b.toNat / 16) 4 (digit (b.toNat % 16 * 4 + high) :: cs) = b :: decodeFrom high 2 cs := by
  have hb := b.toNat_lt
  rw [decodeFrom_byte (by omega) _ _ _ (by decide)]
  have hbyte : (b.toNat / 16 * 64 + (b.toNat % 16 * 4 + high)) / 2 ^ (4 - 2) = b.toNat := by omega
  have hrest : (b.toNat / 16 * 64 + (b.toNat % 16 * 4 + high)) % 2 ^ (4 - 2) = high := by omega
  rw [hbyte, hrest, UInt8.ofNat_toNat]

theorem decodeFrom_third (c : UInt8) (cs : List UInt8) :
    decodeFrom (c.toNat / 64) 2 (digit (c.toNat % 64) :: cs) = c :: decodeFrom 0 0 cs := by
  have hc := c.toNat_lt
  rw [decodeFrom_byte (by omega) _ _ _ (by decide)]
  have hbyte : (c.toNat / 64 * 64 + c.toNat % 64) / 2 ^ (2 - 2) = c.toNat := by omega
  have hrest : (c.toNat / 64 * 64 + c.toNat % 64) % 2 ^ (2 - 2) = 0 := by omega
  rw [hbyte, hrest, UInt8.ofNat_toNat]

theorem decode_encode (bytes : List UInt8) : decode (encode bytes) = bytes := by
  unfold decode
  induction bytes using encode.induct with
  | case1 => rfl
  | case2 a =>
    have hfirst := decodeFrom_first a 0 (by decide) [pad, pad]
    rw [Nat.add_zero] at hfirst
    rw [encode, hfirst, decodeFrom_pad, decodeFrom_pad, decodeFrom]
  | case3 a b =>
    have hb := b.toNat_lt
    have hsecond := decodeFrom_second b 0 (by decide) [pad]
    rw [Nat.add_zero] at hsecond
    rw [encode, decodeFrom_first a _ (by omega), hsecond, decodeFrom_pad, decodeFrom]
  | case4 a b c rest ih =>
    have hb := b.toNat_lt
    have hc := c.toNat_lt
    rw [encode, decodeFrom_first a _ (by omega), decodeFrom_second b _ (by omega), decodeFrom_third, ih]

/-- Two texts of one kind stand for the same bytes only if they are the same. -/
theorem encode_injective {bytes bytes' : List UInt8} (h : encode bytes = encode bytes') : bytes = bytes' := by
  rw [← decode_encode bytes, h, decode_encode]

/-! ## The text -/

theorem mem_encode {bytes : List UInt8} {c : UInt8} (h : c ∈ encode bytes) : (∃ n < 64, c = digit n) ∨ c = pad := by
  induction bytes using encode.induct with
  | case1 => cases h
  | case2 a =>
    have ha := a.toNat_lt
    simp only [encode, List.mem_cons, List.not_mem_nil, or_false] at h
    rcases h with h | h | h | h
    · exact .inl ⟨_, by omega, h⟩
    · exact .inl ⟨_, by omega, h⟩
    · exact .inr h
    · exact .inr h
  | case3 a b =>
    have ha := a.toNat_lt
    have hb := b.toNat_lt
    simp only [encode, List.mem_cons, List.not_mem_nil, or_false] at h
    rcases h with h | h | h | h
    · exact .inl ⟨_, by omega, h⟩
    · exact .inl ⟨_, by omega, h⟩
    · exact .inl ⟨_, by omega, h⟩
    · exact .inr h
  | case4 a b c rest ih =>
    have ha := a.toNat_lt
    have hb := b.toNat_lt
    have hc := c.toNat_lt
    simp only [encode, List.mem_cons] at h
    rcases h with h | h | h | h | h
    · exact .inl ⟨_, by omega, h⟩
    · exact .inl ⟨_, by omega, h⟩
    · exact .inl ⟨_, by omega, h⟩
    · exact .inl ⟨_, by omega, h⟩
    · exact ih h

theorem length_encode (bytes : List UInt8) : (encode bytes).length = (bytes.length + 2) / 3 * 4 := by
  induction bytes using encode.induct with
  | case1 => rfl
  | case2 a => simp [encode]
  | case3 a b => simp [encode]
  | case4 a b c rest ih =>
    simp only [encode, List.length_cons, ih]
    omega

end LvdTerm.Lib.Base64
