import Mathlib.Data.List.Infix

/-!
# UTF-8

Text as bytes and back, over the codec of the core library: what decodes is what was encoded.
A character below 128 is its own byte and no other character has such a byte in its encoding
(`pair_infix_encode`).
-/
namespace LvdTerm.Lib.Utf8

def encode (text : List Char) : List UInt8 := text.flatMap String.utf8EncodeChar

/-- `none` if the bytes are no UTF-8. -/
def decode (bytes : List UInt8) : Option (List Char) := bytes.toByteArray.utf8Decode?.map Array.toList

theorem encode_append (s t : List Char) : encode (s ++ t) = encode s ++ encode t := List.flatMap_append

theorem decode_encode (text : List Char) : decode (encode text) = some text := by
  have h : (encode text).toByteArray = text.utf8Encode := rfl
  rw [decode, h, List.utf8Decode?_utf8Encode]
  rfl

theorem decode_eq_some {bytes : List UInt8} {text : List Char} : decode bytes = some text ↔ bytes = encode text := by
  constructor
  · intro h
    obtain ⟨chars, hchars, rfl⟩ := Option.map_eq_some_iff.mp h
    have hsome : bytes.toByteArray.utf8Decode?.isSome := Option.isSome_of_eq_some hchars
    obtain ⟨s, hs⟩ := ByteArray.isSome_utf8Decode?_iff.mp hsome
    rw [hs, List.utf8Decode?_utf8Encode, Option.some.injEq] at hchars
    rw [← hchars]
    exact List.toByteArray_inj.mp hs
  · rintro rfl
    exact decode_encode text

theorem encode_injective : Function.Injective encode := by
  intro s t h
  have hs := decode_encode s
  rw [h, decode_encode, Option.some.injEq] at hs
  exact hs.symm

/-! ## Characters below 128 -/

def asciiByte (c : Char) : UInt8 := UInt8.ofNat c.toNat

theorem asciiByte_toNat {c : Char} (h : c.toNat < 128) : (asciiByte c).toNat = c.toNat := by
  rw [asciiByte, UInt8.toNat_ofNat']
  omega

theorem asciiByte_inj {c d : Char} (hc : c.toNat < 128) (hd : d.toNat < 128) (h : asciiByte c = asciiByte d) : c = d := by
  have hnat := congrArg UInt8.toNat h
  rw [asciiByte_toNat hc, asciiByte_toNat hd] at hnat
  exact Char.toNat_inj.mp hnat

theorem encodeChar_ascii {c : Char} (h : c.toNat < 128) : String.utf8EncodeChar c = [asciiByte c] := by
  have hle : c.val.toNat ≤ 127 := by
    rw [Char.toNat_val]
    omega
  unfold String.utf8EncodeChar
  exact if_pos hle

theorem encodeChar_high {c : Char} (h : 128 ≤ c.toNat) (b : UInt8) (hb : b ∈ String.utf8EncodeChar c) : 128 ≤ b.toNat := by
  unfold String.utf8EncodeChar at hb
  simp only [Char.toNat_val] at hb
  rw [if_neg (by omega)] at hb
  split at hb
  · simp only [List.mem_cons, List.not_mem_nil, or_false] at hb
    rcases hb with rfl | rfl <;> (rw [UInt8.toNat_ofNat']; omega)
  · split at hb
    · simp only [List.mem_cons, List.not_mem_nil, or_false] at hb
      rcases hb with rfl | rfl | rfl <;> (rw [UInt8.toNat_ofNat']; omega)
    · simp only [List.mem_cons, List.not_mem_nil, or_false] at hb
      rcases hb with rfl | rfl | rfl | rfl <;> (rw [UInt8.toNat_ofNat']; omega)

theorem encode_cons (c : Char) (text : List Char) : encode (c :: text) = String.utf8EncodeChar c ++ encode text := rfl

theorem asciiByte_not_mem {a c : Char} (ha : a.toNat < 128) (hc : 128 ≤ c.toNat) : asciiByte a ∉ String.utf8EncodeChar c := by
  intro hmem
  have hhigh := encodeChar_high hc _ hmem
  rw [asciiByte_toNat ha] at hhigh
  omega

/-- The first byte tells an ASCII character. -/
theorem encode_starts {a : Char} (ha : a.toNat < 128) {text : List Char} (h : [asciiByte a] <+: encode text) : [a] <+: text := by
  cases text with
  | nil => exact absurd (List.prefix_nil.mp h) (List.cons_ne_nil _ _)
  | cons c rest =>
    rw [encode_cons] at h
    by_cases hc : c.toNat < 128
    · rw [encodeChar_ascii hc] at h
      have hbyte := (List.cons_prefix_cons.mp h).1
      rw [asciiByte_inj ha hc hbyte]
      exact List.prefix_append [c] rest
    · cases hbytes : String.utf8EncodeChar c with
      | nil => exact absurd hbytes String.utf8EncodeChar_ne_nil
      | cons b bytes =>
        rw [hbytes] at h
        have hbyte := (List.cons_prefix_cons.mp h).1
        have hmem : asciiByte a ∈ String.utf8EncodeChar c := by
          rw [hbytes, hbyte]
          exact List.mem_cons_self
        exact absurd hmem (asciiByte_not_mem ha (by omega))

theorem infix_of_append {α : Type*} {p q : α} {front rest : List α} (hp : p ∉ front) (h : [p, q] <:+: front ++ rest) :
    [p, q] <:+: rest := by
  induction front with
  | nil => exact h
  | cons a front ih =>
    rw [List.cons_append, List.infix_cons_iff] at h
    rcases h with h | h
    · exact absurd (List.cons_prefix_cons.mp h).1 (List.ne_of_not_mem_cons hp)
    · exact ih (List.not_mem_of_not_mem_cons hp) h

/-- Two ASCII characters next to each other are found among the bytes iff they are in the text. -/
theorem pair_infix_encode {a b : Char} (ha : a.toNat < 128) (hb : b.toNat < 128) (text : List Char) :
    [asciiByte a, asciiByte b] <:+: encode text ↔ [a, b] <:+: text := by
  constructor
  · intro h
    induction text with
    | nil => exact absurd (List.infix_nil.mp h) (List.cons_ne_nil _ _)
    | cons c rest ih =>
      rw [encode_cons] at h
      by_cases hc : c.toNat < 128
      · rw [encodeChar_ascii hc, List.singleton_append, List.infix_cons_iff] at h
        rcases h with h | h
        · obtain ⟨hbyte, hnext⟩ := List.cons_prefix_cons.mp h
          rw [asciiByte_inj ha hc hbyte]
          exact (List.cons_prefix_cons.mpr ⟨rfl, encode_starts hb hnext⟩).isInfix
        · exact (ih h).trans (List.suffix_cons c rest).isInfix
      · have hrest := infix_of_append (asciiByte_not_mem ha (by omega)) h
        exact (ih hrest).trans (List.suffix_cons c rest).isInfix
  · rintro ⟨front, rest, rfl⟩
    have hpair : encode [a, b] = [asciiByte a, asciiByte b] := by
      rw [encode_cons, encode_cons, encodeChar_ascii ha, encodeChar_ascii hb]
      rfl
    rw [encode_append, encode_append, hpair]
    exact ⟨encode front, encode rest, rfl⟩

end LvdTerm.Lib.Utf8
