import LvdTerm.Lib.Utf16

/-!
# ShortcutManager::decodeText

The bytes a custom shortcut sends, decoded from its text. A QString is its UTF-16 units, and `QString::toInt` is a parameter. The loop
counts in an `int`; what an `int` cannot hold makes the result `none`. Over it the grammar of the header, on the characters of the text.
-/
namespace LvdTerm.Core.DecodeText

open Lib.Utf16

def unit (c : Char) : UInt16 := UInt16.ofNat c.toNat

def hexValue : Character → Option Nat
  | .scalar c =>
    if '0' ≤ c ∧ c ≤ '9' then some (c.toNat - '0'.toNat)
    else if 'a' ≤ c ∧ c ≤ 'f' then some (c.toNat - 'a'.toNat + 10)
    else if 'A' ≤ c ∧ c ≤ 'F' then some (c.toNat - 'A'.toNat + 10)
    else none
  | .lone _ => none

/-- `toInt(&ok, 16)` where it is `ok`. Besides two digits it takes a digit with a sign or with a blank. -/
structure Numbers where
  toInt : List UInt16 → Option Int
  toInt_hex {a b x y} : hexValue (single a) = some x → hexValue (single b) = some y → toInt [a, b] = some (16 * (x : Int) + y)
  toInt_accepts {a b value} : toInt [a, b] = some value → ∀ u ∈ [a, b], u ≠ unit '\\' ∧ isHigh u = false ∧ isLow u = false

/-! ## The loop -/

/-- An `int`, unless it overflows. -/
def int (n : Nat) : Option Nat := if n < 0x80000000 then some n else none

section Loop

variable (numbers : Numbers) (text : List UInt16)

/-- The `switch` for `next`, which is at `i`: what it appends and where it leaves `i`. -/
def escape (i : Nat) (next : UInt16) : Option (List UInt8 × Nat) :=
  if next = unit 'n' then some ([0x0a], i)
  else if next = unit 'r' then some ([0x0d], i)
  else if next = unit 't' then some ([0x09], i)
  else if next = unit 'e' then some ([0x1b], i)
  else if next = unit '\\' then some ([0x5c], i)
  else if next = unit 'x' then do
    let last ← int (i + 2)
    match if last < text.length then numbers.toInt ((text.drop (i + 1)).take 2) else none with
    | some value => some ([UInt8.ofInt value], last)
    | none => some ([0x5c, 0x78], i)
  else some (0x5c :: toUtf8 [next], i)

/-- The body for the unit `ch` at `i`. -/
def turn (i : Nat) (ch : UInt16) : Option (List UInt8 × Nat) :=
  if ch ≠ unit '\\' then some (toUtf8 [ch], i)
  else do
    let j ← int (i + 1)
    match text[j]? with
    | none => some (toUtf8 [ch], i)
    | some next => escape numbers text j next

theorem int_eq_some {n m : Nat} (h : int n = some m) : m = n ∧ n < 0x80000000 := by
  unfold int at h
  split at h
  · next hlt => exact ⟨(Option.some.inj h).symm, hlt⟩
  · cases h

theorem int_of_lt {n : Nat} (h : n < 0x80000000) : int n = some n := if_pos h

variable {numbers text}

theorem escape_le {i last : Nat} {next : UInt16} {bytes : List UInt8} (h : escape numbers text i next = some (bytes, last)) :
    i ≤ last := by
  unfold escape at h
  repeat' split at h
  all_goals try (obtain ⟨rfl, rfl⟩ := Prod.mk.inj (Option.some.inj h); exact Nat.le_refl _)
  obtain ⟨j, hj, h⟩ := Option.bind_eq_some_iff.mp h
  split at h <;> obtain ⟨rfl, rfl⟩ := Prod.mk.inj (Option.some.inj h)
  · rw [(int_eq_some hj).1]
    exact Nat.le_add_right i 2
  · exact Nat.le_refl i

theorem turn_le {i last : Nat} {ch : UInt16} {bytes : List UInt8} (h : turn numbers text i ch = some (bytes, last)) : i ≤ last := by
  unfold turn at h
  split at h
  · obtain ⟨rfl, rfl⟩ := Prod.mk.inj (Option.some.inj h)
    exact Nat.le_refl i
  · obtain ⟨j, hj, h⟩ := Option.bind_eq_some_iff.mp h
    have hij : i ≤ j := (int_eq_some hj).1 ▸ Nat.le_succ i
    split at h
    · obtain ⟨rfl, rfl⟩ := Prod.mk.inj (Option.some.inj h)
      exact Nat.le_refl i
    · exact hij.trans (escape_le h)

variable (numbers text)

def decodeFrom (i : Nat) (out : List UInt8) : Option (List UInt8) :=
  match _hch : text[i]? with
  | none => some out
  | some ch =>
    match _hturn : turn numbers text i ch with
    | none => none
    | some (bytes, last) =>
      match _hnext : int (last + 1) with
      | none => none
      | some next => decodeFrom next (out ++ bytes)
termination_by text.length - i
decreasing_by
  have hlt := (List.getElem?_eq_some_iff.mp _hch).1
  have hle := turn_le _hturn
  have hsucc := (int_eq_some _hnext).1
  omega

def decodeText : Option (List UInt8) := decodeFrom numbers text 0 []

variable {numbers text}

theorem decodeFrom_end {i : Nat} {out : List UInt8} (h : text[i]? = none) : decodeFrom numbers text i out = some out := by
  rw [decodeFrom]
  split
  · rfl
  · next hch => cases h.symm.trans hch

theorem decodeFrom_turn {i : Nat} {ch : UInt16} {out : List UInt8} (h : text[i]? = some ch) :
    decodeFrom numbers text i out =
      (turn numbers text i ch).bind fun turned =>
        (int (turned.2 + 1)).bind fun next => decodeFrom numbers text next (out ++ turned.1) := by
  rw [decodeFrom]
  split
  · next hch => cases h.symm.trans hch
  · next ch' hch =>
    obtain rfl : ch = ch' := Option.some.inj (h.symm.trans hch)
    split
    · next hturn =>
      rw [hturn]
      rfl
    · next hturn =>
      rw [hturn, Option.bind_some]
      dsimp only
      split
      · next hnext =>
        rw [hnext]
        rfl
      · next hnext =>
        rw [hnext]
        rfl

end Loop

/-! ## The grammar -/

inductive Token where
  | control (letter : Character) (value : UInt8)
  | byte (high low : Character) (value : UInt8)
  /-- A backslash before anything else. -/
  | kept (next : Character)
  /-- A backslash at the end stands for itself too. -/
  | character (c : Character)

namespace Token

def source : Token → List Character
  | control letter _ => [.scalar '\\', letter]
  | byte high low _ => [.scalar '\\', .scalar 'x', high, low]
  | kept next => [.scalar '\\', next]
  | character c => [c]

def bytes : Token → List UInt8
  | control _ value => [value]
  | byte _ _ value => [value]
  | kept next => 0x5c :: next.utf8
  | character c => c.utf8

end Token

def controlByte : Character → Option UInt8
  | .scalar 'n' => some 0x0a
  | .scalar 'r' => some 0x0d
  | .scalar 't' => some 0x09
  | .scalar 'e' => some 0x1b
  | .scalar '\\' => some 0x5c
  | _ => none

def hexByte (next high low : Character) : Option UInt8 :=
  match next, hexValue high, hexValue low with
  | .scalar 'x', some x, some y => some (UInt8.ofNat (16 * x + y))
  | _, _, _ => none

def tokens : List Character → List Token
  | [] => []
  | [c] => [.character c]
  | c :: next :: rest =>
    if c ≠ .scalar '\\' then .character c :: tokens (next :: rest)
    else
      match controlByte next with
      | some value => .control next value :: tokens rest
      | none =>
        match rest with
        | high :: low :: tail =>
          match hexByte next high low with
          | some value => .byte high low value :: tokens tail
          | none => .kept next :: tokens (high :: low :: tail)
        | rest => .kept next :: tokens rest

/-- What the text stands for. -/
def decoded (text : List UInt16) : List UInt8 := (tokens (characters text)).flatMap Token.bytes

theorem tokens_character {c : Character} (hc : c ≠ .scalar '\\') (rest : List Character) :
    tokens (c :: rest) = .character c :: tokens rest := by
  cases rest with
  | nil => rfl
  | cons next rest =>
    rw [tokens.eq_def]
    exact if_pos hc

theorem tokens_control {next : Character} {value : UInt8} (h : controlByte next = some value) (rest : List Character) :
    tokens (.scalar '\\' :: next :: rest) = .control next value :: tokens rest := by
  rw [tokens.eq_def]
  dsimp only
  rw [if_neg (not_not.mpr rfl), h]

theorem tokens_byte {high low : Character} {value : UInt8} (h : hexByte (.scalar 'x') high low = some value) (rest : List Character) :
    tokens (.scalar '\\' :: .scalar 'x' :: high :: low :: rest) = .byte high low value :: tokens rest := by
  have hcontrol : controlByte (.scalar 'x') = none := rfl
  rw [tokens.eq_def]
  dsimp only
  rw [if_neg (not_not.mpr rfl), hcontrol, h]

theorem tokens_kept {next : Character} {rest : List Character} (hcontrol : controlByte next = none)
    (hhex : ∀ high low tail, rest = high :: low :: tail → hexByte next high low = none) :
    tokens (.scalar '\\' :: next :: rest) = .kept next :: tokens rest := by
  rw [tokens.eq_def]
  dsimp only
  rw [if_neg (not_not.mpr rfl), hcontrol]
  match rest with
  | [] => rfl
  | [_] => rfl
  | high :: low :: tail =>
    dsimp only
    rw [hhex high low tail rfl]

theorem hexByte_eq {next high low : Character} {value : UInt8} (h : hexByte next high low = some value) :
    next = .scalar 'x' ∧ ∃ x y, hexValue high = some x ∧ hexValue low = some y ∧ value = UInt8.ofNat (16 * x + y) := by
  unfold hexByte at h
  split at h
  · next x y hx hy => exact ⟨rfl, x, y, hx, hy, (Option.some.inj h).symm⟩
  · cases h

/-- The tokens of a text are the text. -/
theorem source_tokens (text : List Character) : (tokens text).flatMap Token.source = text := by
  induction text using tokens.induct with
  | case1 => rfl
  | case2 c => rfl
  | case3 c next rest hc ih =>
    rw [tokens_character hc, List.flatMap_cons, ih]
    rfl
  | case4 c next rest hc value hcontrol ih =>
    rw [not_not.mp hc, tokens_control hcontrol, List.flatMap_cons, ih]
    rfl
  | case5 c next hc hcontrol high low tail value hhex ih =>
    obtain rfl := (hexByte_eq hhex).1
    rw [not_not.mp hc, tokens_byte hhex, List.flatMap_cons, ih]
    rfl
  | case6 c next hc hcontrol high low tail hhex ih =>
    have hnone : ∀ h l t, high :: low :: tail = h :: l :: t → hexByte next h l = none := by
      intro h l t heq
      cases heq
      exact hhex
    rw [not_not.mp hc, tokens_kept hcontrol hnone, List.flatMap_cons, ih]
    rfl
  | case7 c next hc hcontrol rest hshort ih =>
    rw [not_not.mp hc, tokens_kept hcontrol fun high low tail heq => (hshort high low tail heq).elim, List.flatMap_cons, ih]
    rfl

theorem units_tokens (text : List UInt16) : ((tokens (characters text)).flatMap Token.source).flatMap Character.units = text := by
  rw [source_tokens, units_characters]

/-! ## One turn against one token -/

/-- What follows an `x` escape is no number for `toInt`. -/
def NoNumber (numbers : Numbers) (rest : List UInt16) : Prop := ∀ a b tail, rest = a :: b :: tail → numbers.toInt [a, b] = none

/-- What one turn takes, appends and leaves. -/
inductive Chunk (numbers : Numbers) : List UInt16 → List UInt8 → List UInt16 → Prop where
  | plain {ch rest} : ch ≠ unit '\\' → Chunk numbers (ch :: rest) (toUtf8 [ch]) rest
  | last : Chunk numbers [unit '\\'] (toUtf8 [unit '\\']) []
  | control {next value rest} : controlByte (single next) = some value → Chunk numbers (unit '\\' :: next :: rest) [value] rest
  | number {a b value rest} :
    numbers.toInt [a, b] = some value → Chunk numbers (unit '\\' :: unit 'x' :: a :: b :: rest) [UInt8.ofInt value] rest
  | noNumber {rest} : NoNumber numbers rest → Chunk numbers (unit '\\' :: unit 'x' :: rest) [0x5c, 0x78] rest
  | other {next rest} : next ≠ unit 'x' → controlByte (single next) = none →
    Chunk numbers (unit '\\' :: next :: rest) (0x5c :: toUtf8 [next]) rest

/-- No character is outside the BMP, and an `x` escape that is kept is not followed by a number. -/
structure Plain (numbers : Numbers) (tokens : List Token) : Prop where
  bmp : ∀ c ∈ tokens.flatMap Token.source, ¬ c.Beyond
  noNumber : ∀ after, .kept (.scalar 'x') :: after <:+ tokens →
    NoNumber numbers ((after.flatMap Token.source).flatMap Character.units)

variable {numbers : Numbers}

theorem Plain.nil : Plain numbers [] where
  bmp := by simp
  noNumber after h := by simp at h

theorem plain_cons {token : Token} {rest : List Token} :
    Plain numbers (token :: rest) ↔ (∀ c ∈ token.source, ¬ c.Beyond) ∧
      (token = .kept (.scalar 'x') → NoNumber numbers ((rest.flatMap Token.source).flatMap Character.units)) ∧ Plain numbers rest := by
  constructor
  · intro h
    have hbmp := h.bmp
    rw [List.flatMap_cons, List.forall_mem_append] at hbmp
    have hkept : token = .kept (.scalar 'x') → NoNumber numbers ((rest.flatMap Token.source).flatMap Character.units) := by
      rintro rfl
      exact h.noNumber rest (List.suffix_refl _)
    exact ⟨hbmp.1, hkept, hbmp.2, fun after hafter => h.noNumber after (hafter.trans (List.suffix_cons token rest))⟩
  · rintro ⟨hbmp, hkept, hrest⟩
    constructor
    · rw [List.flatMap_cons, List.forall_mem_append]
      exact ⟨hbmp, hrest.bmp⟩
    · intro after hafter
      rcases List.suffix_cons_iff.mp hafter with heq | hsuffix
      · obtain ⟨rfl, rfl⟩ := List.cons.inj heq
        exact hkept rfl
      · exact hrest.noNumber after hsuffix

theorem ofNat_eq_ofInt (x y : Nat) : UInt8.ofNat (16 * x + y) = UInt8.ofInt (16 * x + y) := by
  have hmod : ((16 * x + y : Int) % 2 ^ 8).toNat = (16 * x + y) % 2 ^ 8 := by omega
  rw [UInt8.ofInt, hmod, UInt8.ofNat_mod_size]

theorem decoded_cons {text rest : List UInt16} {token : Token} (h : tokens (characters text) = token :: tokens (characters rest)) :
    decoded text = token.bytes ++ decoded rest := by
  rw [decoded, h, List.flatMap_cons]
  rfl

theorem controlByte_eq {c : Character} {value : UInt8} (h : controlByte c = some value) :
    ∃ letter ∈ ['n', 'r', 't', 'e', '\\'], letter.toNat < 128 ∧ c = .scalar letter := by
  unfold controlByte at h
  split at h
  all_goals first
    | exact ⟨_, by decide, by decide, rfl⟩
    | cases h

theorem characters_escape {next : UInt16} (hnext : isHigh next = false) (rest : List UInt16) :
    characters (unit '\\' :: next :: rest) = .scalar '\\' :: single next :: characters rest := by
  rw [characters_single (not_startsPair rfl _), characters_single (not_startsPair hnext _)]
  rfl

theorem character_ne_of_beyond {c d : Char} (hc : 0x10000 ≤ c.toNat) (hd : d.toNat < 0x10000) : Character.scalar c ≠ .scalar d := by
  rintro ⟨⟩
  omega

theorem hexValue_lt {c : Char} {x : Nat} (h : hexValue (.scalar c) = some x) : c.toNat < 128 := by
  dsimp only [hexValue] at h
  split at h
  · next hc => exact lt_of_le_of_lt (Char.le_def.mp hc.2) (by decide)
  · split at h
    · next hc => exact lt_of_le_of_lt (Char.le_def.mp hc.2) (by decide)
    · split at h
      · next hc => exact lt_of_le_of_lt (Char.le_def.mp hc.2) (by decide)
      · cases h

/-- A digit is one unit. -/
theorem hexValue_single {c : Character} {x : Nat} (h : hexValue c = some x) : ∃ u, c.units = [u] ∧ single u = c := by
  cases c with
  | lone u => cases h
  | scalar c =>
    have hlt := hexValue_lt h
    have hsingle : single (unit c) = .scalar c := single_ofNat (by omega)
    refine ⟨unit c, ?_, hsingle⟩
    rw [← hsingle, units_single]

theorem lone_ne_scalar (u : UInt16) (c : Char) : Character.lone u ≠ .scalar c := by
  intro h
  cases h

/-- What one turn does is one token, or it is short of what the grammar gives, and the token is at fault. -/
def Agrees (numbers : Numbers) (text : List UInt16) (bytes : List UInt8) (rest : List UInt16) : Prop :=
  ∃ token, tokens (characters text) = token :: tokens (characters rest) ∧ token.bytes = bytes ∧
    (∀ c ∈ token.source, ¬ c.Beyond) ∧ (token = .kept (.scalar 'x') → NoNumber numbers rest)

def Misses (numbers : Numbers) (text : List UInt16) (bytes : List UInt8) (rest : List UInt16) : Prop :=
  ¬ Plain numbers (tokens (characters text)) ∧ bytes.length + (decoded rest).length < (decoded text).length

theorem chunk_plain {ch : UInt16} (hch : ch ≠ unit '\\') (rest : List UInt16) :
    Agrees numbers (ch :: rest) (toUtf8 [ch]) rest ∨ Misses numbers (ch :: rest) (toUtf8 [ch]) rest := by
  rw [toUtf8_singleton]
  by_cases hpair : StartsPair (ch :: rest)
  · right
    obtain ⟨c, v, tail, htext, hrest, hbeyond, hlength, hsingle⟩ := hpair.cases
    have htokens := tokens_character (character_ne_of_beyond hbeyond (by decide)) (characters tail)
    have hafter := tokens_character (lone_ne_scalar v '\\') (characters tail)
    constructor
    · rw [htext, htokens]
      intro hplain
      exact (plain_cons.mp hplain).1 _ List.mem_cons_self hbeyond
    · rw [decoded, decoded, htext, hrest, htokens, hafter, hsingle]
      simp [Token.bytes, Character.utf8, hlength]
      omega
  · left
    have hne : single ch ≠ .scalar '\\' := fun heq => hch (single_inj heq)
    have hbmp : ∀ c ∈ Token.source (.character (single ch)), ¬ c.Beyond := by
      intro c hc
      rw [List.mem_singleton.mp hc]
      exact single_not_beyond ch
    refine ⟨.character (single ch), ?_, rfl, hbmp, fun heq => by cases heq⟩
    rw [characters_single hpair, tokens_character hne]

theorem chunk_control {next : UInt16} {value : UInt8} (h : controlByte (single next) = some value) (rest : List UInt16) :
    Agrees numbers (unit '\\' :: next :: rest) [value] rest := by
  obtain ⟨letter, -, -, hsingle⟩ := controlByte_eq h
  refine ⟨.control (single next) value, ?_, rfl, ?_, nofun⟩
  · rw [characters_escape (plain_of_single hsingle).1, tokens_control h]
  · intro c hc
    rcases List.mem_pair.mp hc with rfl | rfl
    · exact Nat.not_le.mpr (by decide)
    · exact single_not_beyond next

theorem chunk_number {a b : UInt16} {value : Int} (h : numbers.toInt [a, b] = some value) (rest : List UInt16) :
    Agrees numbers (unit '\\' :: unit 'x' :: a :: b :: rest) [UInt8.ofInt value] rest ∨
      Misses numbers (unit '\\' :: unit 'x' :: a :: b :: rest) [UInt8.ofInt value] rest := by
  have ha := numbers.toInt_accepts h a List.mem_cons_self
  have hb := numbers.toInt_accepts h b (List.mem_cons_of_mem _ List.mem_cons_self)
  have htail : characters (a :: b :: rest) = single a :: single b :: characters rest := by
    rw [characters_single (not_startsPair ha.2.1 _), characters_single (not_startsPair hb.2.1 _)]
  have htext : characters (unit '\\' :: unit 'x' :: a :: b :: rest) =
      .scalar '\\' :: .scalar 'x' :: single a :: single b :: characters rest := by
    rw [characters_escape rfl, htail]
    rfl
  cases hhex : hexByte (.scalar 'x') (single a) (single b) with
  | some byte =>
    left
    obtain ⟨-, x, y, hx, hy, hbyte⟩ := hexByte_eq hhex
    refine ⟨.byte (single a) (single b) byte, ?_, ?_, ?_, nofun⟩
    · rw [htext, tokens_byte hhex]
    · obtain rfl := Option.some.inj (h.symm.trans (numbers.toInt_hex hx hy))
      rw [hbyte]
      exact congrArg (fun value => [value]) (ofNat_eq_ofInt x y)
    · intro c hc
      simp only [Token.source, List.mem_cons, List.not_mem_nil, or_false] at hc
      rcases hc with rfl | rfl | rfl | rfl
      · exact Nat.not_le.mpr (by decide)
      · exact Nat.not_le.mpr (by decide)
      · exact single_not_beyond a
      · exact single_not_beyond b
  | none =>
    right
    have hkept : tokens (.scalar '\\' :: .scalar 'x' :: single a :: single b :: characters rest) =
        .kept (.scalar 'x') :: tokens (single a :: single b :: characters rest) := by
      apply tokens_kept rfl
      rintro high low tail ⟨⟩
      exact hhex
    constructor
    · rw [htext, hkept, ← htail]
      intro hplain
      have hnone := (plain_cons.mp hplain).2.1 rfl a b rest (units_tokens _)
      cases h.symm.trans hnone
    · have hfirst : single a ≠ .scalar '\\' := fun heq => ha.1 (single_inj heq)
      have hsecond : single b ≠ .scalar '\\' := fun heq => hb.1 (single_inj heq)
      have hapos := utf8_pos (single a)
      have hbpos := utf8_pos (single b)
      rw [decoded, decoded, htext, hkept, tokens_character hfirst, tokens_character hsecond]
      simp [Token.bytes]
      omega

theorem chunk_noNumber {rest : List UInt16} (h : NoNumber numbers rest) :
    Agrees numbers (unit '\\' :: unit 'x' :: rest) [0x5c, 0x78] rest := by
  have htext : characters (unit '\\' :: unit 'x' :: rest) = .scalar '\\' :: .scalar 'x' :: characters rest := characters_escape rfl rest
  refine ⟨.kept (.scalar 'x'), ?_, rfl, ?_, fun _ => h⟩
  · rw [htext]
    apply tokens_kept rfl
    intro high low tail hrest
    by_contra hhex
    obtain ⟨byte, hbyte⟩ := Option.ne_none_iff_exists'.mp hhex
    obtain ⟨-, x, y, hx, hy, -⟩ := hexByte_eq hbyte
    obtain ⟨a, hunit, ha⟩ := hexValue_single hx
    obtain ⟨b, hunit', hb⟩ := hexValue_single hy
    have hunits : rest = a :: b :: tail.flatMap Character.units := by
      rw [← units_characters rest, hrest, List.flatMap_cons, List.flatMap_cons, hunit, hunit']
      rfl
    rw [← ha] at hx
    rw [← hb] at hy
    cases (numbers.toInt_hex hx hy).symm.trans (h a b _ hunits)
  · intro c hc
    rcases List.mem_pair.mp hc with rfl | rfl
    · exact Nat.not_le.mpr (by decide)
    · exact Nat.not_le.mpr (by decide)

theorem chunk_other {next : UInt16} (hx : next ≠ unit 'x') (hcontrol : controlByte (single next) = none) (rest : List UInt16) :
    Agrees numbers (unit '\\' :: next :: rest) (0x5c :: toUtf8 [next]) rest ∨
      Misses numbers (unit '\\' :: next :: rest) (0x5c :: toUtf8 [next]) rest := by
  rw [toUtf8_singleton]
  by_cases hpair : StartsPair (next :: rest)
  · right
    obtain ⟨c, v, tail, htail, hrest, hbeyond, hlength, hsingle⟩ := hpair.cases
    have htext : characters (unit '\\' :: next :: rest) = .scalar '\\' :: .scalar c :: characters tail := by
      rw [characters_single (not_startsPair rfl _), htail]
      rfl
    have hkept : tokens (.scalar '\\' :: .scalar c :: characters tail) = .kept (.scalar c) :: tokens (characters tail) := by
      apply tokens_kept
      · by_contra hne
        obtain ⟨value, hvalue⟩ := Option.ne_none_iff_exists'.mp hne
        obtain ⟨letter, -, hlt, heq⟩ := controlByte_eq hvalue
        exact character_ne_of_beyond hbeyond (by omega) heq
      · intro high low after _
        by_contra hne
        obtain ⟨byte, hbyte⟩ := Option.ne_none_iff_exists'.mp hne
        exact character_ne_of_beyond hbeyond (by decide) (hexByte_eq hbyte).1
    have hafter := tokens_character (lone_ne_scalar v '\\') (characters tail)
    constructor
    · rw [htext, hkept]
      intro hplain
      exact (plain_cons.mp hplain).1 _ (List.mem_cons_of_mem _ List.mem_cons_self) hbeyond
    · rw [decoded, decoded, htext, hrest, hkept, hafter, hsingle]
      simp [Token.bytes, Character.utf8, hlength]
      omega
  · left
    have hne : single next ≠ .scalar 'x' := fun heq => hx (single_inj heq)
    refine ⟨.kept (single next), ?_, rfl, ?_, fun heq => absurd (Token.kept.inj heq) hne⟩
    · rw [characters_single (not_startsPair rfl _), characters_single hpair]
      apply tokens_kept hcontrol
      intro high low tail _
      by_contra hhex
      obtain ⟨byte, hbyte⟩ := Option.ne_none_iff_exists'.mp hhex
      exact hne (hexByte_eq hbyte).1
    · intro c hc
      rcases List.mem_pair.mp hc with rfl | rfl
      · exact Nat.not_le.mpr (by decide)
      · exact single_not_beyond next

theorem Chunk.agrees_or_misses {text rest : List UInt16} {bytes : List UInt8} (h : Chunk numbers text bytes rest) :
    Agrees numbers text bytes rest ∨ Misses numbers text bytes rest := by
  cases h with
  | plain hch => exact chunk_plain hch rest
  | last =>
    left
    refine ⟨.character (.scalar '\\'), rfl, rfl, ?_, nofun⟩
    intro c hc
    rw [List.mem_singleton.mp hc]
    exact Nat.not_le.mpr (by decide)
  | control h => exact Or.inl (chunk_control h rest)
  | number h => exact chunk_number h rest
  | noNumber h => exact Or.inl (chunk_noNumber h)
  | other hx hcontrol => exact chunk_other hx hcontrol rest

theorem Agrees.plain_iff {text rest : List UInt16} {bytes : List UInt8} (h : Agrees numbers text bytes rest) :
    Plain numbers (tokens (characters text)) ↔ Plain numbers (tokens (characters rest)) := by
  obtain ⟨token, htokens, -, hbmp, hkept⟩ := h
  rw [htokens, plain_cons, units_tokens]
  exact ⟨fun hplain => hplain.2.2, fun hrest => ⟨hbmp, hkept, hrest⟩⟩

theorem Agrees.decoded_eq {text rest : List UInt16} {bytes : List UInt8} (h : Agrees numbers text bytes rest) :
    decoded text = bytes ++ decoded rest := by
  obtain ⟨token, htokens, rfl, -, -⟩ := h
  exact decoded_cons htokens

/-! ## The turns of the loop -/

variable {text : List UInt16}

theorem getElem?_of_drop {i : Nat} {ch : UInt16} {rest : List UInt16} (h : text.drop i = ch :: rest) :
    text[i]? = some ch ∧ text.drop (i + 1) = rest ∧ text.length = i + 1 + rest.length := by
  have hget : text[i]? = some ch := by rw [← Nat.add_zero i, ← List.getElem?_drop, h, List.getElem?_cons_zero]
  have hdrop : text.drop (i + 1) = rest := by rw [← List.drop_drop, h, List.drop_one, List.tail_cons]
  have hlt := (List.getElem?_eq_some_iff.mp hget).1
  have hlength := congrArg List.length h
  rw [List.length_drop, List.length_cons] at hlength
  exact ⟨hget, hdrop, by omega⟩

theorem escape_chunk {i last : Nat} {next : UInt16} {rest : List UInt16} {bytes : List UInt8} (hdrop : text.drop i = next :: rest)
    (h : escape numbers text i next = some (bytes, last)) :
    Chunk numbers (unit '\\' :: next :: rest) bytes (text.drop (last + 1)) ∧ last < text.length := by
  obtain ⟨-, hrest, hlength⟩ := getElem?_of_drop hdrop
  have hlt : i < text.length := by omega
  have hcontrol {c : Char} {value : UInt8} (hnext : next = unit c) (hc : controlByte (single (unit c)) = some value)
      (h : some ([value], i) = some (bytes, last)) :
      Chunk numbers (unit '\\' :: next :: rest) bytes (text.drop (last + 1)) ∧ last < text.length := by
    cases h
    rw [hrest, hnext]
    exact ⟨.control hc, hlt⟩
  unfold escape at h
  split at h
  · next hn => exact hcontrol hn rfl h
  split at h
  · next hr => exact hcontrol hr rfl h
  split at h
  · next ht => exact hcontrol ht rfl h
  split at h
  · next he => exact hcontrol he rfl h
  split at h
  · next hbackslash => exact hcontrol hbackslash rfl h
  split at h
  · next hx =>
    obtain ⟨j, hj, h⟩ := Option.bind_eq_some_iff.mp h
    obtain ⟨rfl, -⟩ := int_eq_some hj
    rw [hrest] at h
    split at h
    · next value hvalue =>
      cases h
      split at hvalue
      · next hlast =>
        match rest, hlength with
        | a :: b :: tail, _ =>
          have htail : text.drop (i + 2 + 1) = tail := by
            rw [show i + 2 + 1 = i + 1 + 2 by omega, ← List.drop_drop, hrest]
            rfl
          rw [htail, hx]
          exact ⟨.number hvalue, hlast⟩
        | [_], hlength => simp at hlength; omega
        | [], hlength => simp at hlength; omega
      · cases hvalue
    · next hnone =>
      cases h
      rw [hrest, hx]
      refine ⟨.noNumber ?_, hlt⟩
      rintro a b tail rfl
      rwa [if_pos (by rw [hlength, List.length_cons, List.length_cons]; omega)] at hnone
  · next hn hr ht he hbackslash hx =>
    cases h
    rw [hrest]
    refine ⟨.other hx ?_, hlt⟩
    by_contra hne
    obtain ⟨value, hvalue⟩ := Option.ne_none_iff_exists'.mp hne
    obtain ⟨letter, hletter, -, hsingle⟩ := controlByte_eq hvalue
    simp only [List.mem_cons, List.not_mem_nil, or_false] at hletter
    rcases hletter with rfl | rfl | rfl | rfl | rfl
    · exact hn (single_inj hsingle)
    · exact hr (single_inj hsingle)
    · exact ht (single_inj hsingle)
    · exact he (single_inj hsingle)
    · exact hbackslash (single_inj hsingle)

/-- What a turn takes and appends is a chunk of the text. -/
theorem turn_chunk {i last : Nat} {ch : UInt16} {rest : List UInt16} {bytes : List UInt8} (hdrop : text.drop i = ch :: rest)
    (h : turn numbers text i ch = some (bytes, last)) :
    Chunk numbers (ch :: rest) bytes (text.drop (last + 1)) ∧ last < text.length := by
  obtain ⟨-, hrest, hlength⟩ := getElem?_of_drop hdrop
  unfold turn at h
  split at h
  · next hch =>
    cases h
    rw [hrest]
    exact ⟨.plain hch, by omega⟩
  · next hch =>
    rw [not_not.mp hch]
    obtain ⟨j, hj, h⟩ := Option.bind_eq_some_iff.mp h
    obtain ⟨rfl, -⟩ := int_eq_some hj
    split at h
    · next hend =>
      cases h
      have hnil : text.drop (i + 1) = [] := List.drop_eq_nil_of_le (List.getElem?_eq_none_iff.mp hend)
      rw [hnil, ← hrest, hnil, not_not.mp hch]
      exact ⟨.last, by omega⟩
    · next next hnext =>
      obtain ⟨hlt, rfl⟩ := List.getElem?_eq_some_iff.mp hnext
      have hcons := List.drop_eq_getElem_cons hlt
      rw [← hrest, hcons]
      exact escape_chunk hcons h

theorem escape_overflows {i : Nat} {next : UInt16} : escape numbers text i next = none ↔ next = unit 'x' ∧ 0x80000000 ≤ i + 2 := by
  constructor
  · intro h
    unfold escape at h
    repeat' split at h
    all_goals try cases h
    next hx =>
      refine ⟨hx, Nat.not_lt.mp fun hlt => ?_⟩
      rw [int_of_lt hlt, Option.bind_eq_bind, Option.bind_some] at h
      split at h <;> cases h
  · rintro ⟨rfl, hle⟩
    have hint : int (i + 2) = none := if_neg (Nat.not_lt.mpr hle)
    unfold escape
    rw [if_neg (by decide), if_neg (by decide), if_neg (by decide), if_neg (by decide), if_neg (by decide), if_pos rfl, hint]
    rfl

/-- An `int` overflows only after an `x` at the end of a text as long as an `int` can say. -/
theorem turn_overflows {i : Nat} {ch : UInt16} {rest : List UInt16} (hdrop : text.drop i = ch :: rest)
    (hlt : text.length < 0x80000000) :
    turn numbers text i ch = none ↔ text.length + 1 = 0x80000000 ∧ ch :: rest = [unit '\\', unit 'x'] := by
  obtain ⟨-, hrest, hlength⟩ := getElem?_of_drop hdrop
  unfold turn
  by_cases hch : ch = unit '\\'
  · rw [if_neg (not_not.mpr hch), int_of_lt (by omega), Option.bind_eq_bind, Option.bind_some]
    cases rest with
    | nil =>
      have hend : text[i + 1]? = none := List.getElem?_eq_none_iff.mpr (by rw [hlength]; exact Nat.le_refl _)
      rw [hend]
      exact ⟨nofun, fun h => absurd h.2 (by simp)⟩
    | cons next tail =>
      rw [List.length_cons] at hlength
      rw [(getElem?_of_drop hrest).1]
      dsimp only
      rw [escape_overflows, hch, List.cons.injEq, List.cons.injEq]
      constructor
      · rintro ⟨hx, hle⟩
        have htail : tail = [] := List.eq_nil_of_length_eq_zero (by omega)
        exact ⟨by omega, rfl, hx, htail⟩
      · rintro ⟨hlen, -, hx, rfl⟩
        exact ⟨hx, by simp at hlength; omega⟩
  · rw [if_pos hch]
    exact ⟨nofun, fun h => absurd (List.cons.inj h.2).1 hch⟩

/-! ## The whole text -/

/-- All of what is appended, against what the grammar gives. -/
theorem decodeFrom_shorter (text rest : List UInt16) {i : Nat} {out result : List UInt8} (hdrop : text.drop i = rest)
    (h : decodeFrom numbers text i out = some result) :
    ∃ bytes, result = out ++ bytes ∧ bytes.length ≤ (decoded rest).length ∧
      (¬ Plain numbers (tokens (characters rest)) → bytes.length < (decoded rest).length) := by
  induction hn : rest.length using Nat.strong_induction_on generalizing rest i out with
  | _ n ih =>
    subst hn
    cases rest with
    | nil =>
      have hend : text[i]? = none := List.getElem?_eq_none_iff.mpr (List.drop_eq_nil_iff.mp hdrop)
      rw [decodeFrom_end hend] at h
      obtain rfl := Option.some.inj h
      exact ⟨[], (List.append_nil out).symm, Nat.le_refl _, fun hplain => absurd Plain.nil hplain⟩
    | cons ch tail =>
      obtain ⟨hget, -, hlength⟩ := getElem?_of_drop hdrop
      rw [decodeFrom_turn hget] at h
      obtain ⟨⟨taken, last⟩, hturn, h⟩ := Option.bind_eq_some_iff.mp h
      obtain ⟨next, hnext, h⟩ := Option.bind_eq_some_iff.mp h
      dsimp only at hnext h
      obtain ⟨rfl, -⟩ := int_eq_some hnext
      have hle := turn_le hturn
      obtain ⟨hchunk, hlast⟩ := turn_chunk hdrop hturn
      have hshorter : (text.drop (last + 1)).length < (ch :: tail).length := by
        rw [List.length_drop, List.length_cons]
        omega
      obtain ⟨bytes, rfl, hbytes, hless⟩ := ih _ hshorter _ rfl h rfl
      refine ⟨taken ++ bytes, List.append_assoc _ _ _, ?_⟩
      rw [List.length_append]
      rcases hchunk.agrees_or_misses with hagrees | hmisses
      · rw [hagrees.plain_iff, hagrees.decoded_eq, List.length_append]
        exact ⟨by omega, fun hplain => Nat.add_lt_add_left (hless hplain) _⟩
      · have hlt := hmisses.2
        exact ⟨by omega, fun _ => by omega⟩

theorem length_lt_of_decodeFrom {i : Nat} {out result : List UInt8} (hi : i < 0x80000000)
    (h : decodeFrom numbers text i out = some result) : text.length < 0x80000000 := by
  induction i, out using decodeFrom.induct numbers text with
  | case1 i out hend => exact lt_of_le_of_lt (List.getElem?_eq_none_iff.mp hend) hi
  | case2 i out ch hget hturn =>
    rw [decodeFrom_turn hget, hturn] at h
    cases h
  | case3 i out ch hget bytes last hturn hnext =>
    rw [decodeFrom_turn hget, hturn, Option.bind_some, hnext] at h
    cases h
  | case4 i out ch hget bytes last hturn next hnext ih =>
    rw [decodeFrom_turn hget, hturn, Option.bind_some, hnext, Option.bind_some] at h
    obtain ⟨rfl, hlt⟩ := int_eq_some hnext
    exact ih hlt h

/-- The last token is an `x` escape that is kept. -/
def EndsInX (text : List UInt16) : Prop := (tokens (characters text)).getLast? = some (.kept (.scalar 'x'))

theorem Agrees.endsInX {text rest : List UInt16} {bytes : List UInt8} (h : Agrees numbers text bytes rest)
    (hne : text ≠ [unit '\\', unit 'x']) : EndsInX text ↔ EndsInX rest := by
  obtain ⟨token, htokens, -, -, -⟩ := h
  unfold EndsInX
  rw [htokens]
  cases hrest : tokens (characters rest) with
  | cons next after => rw [List.getLast?_cons_cons]
  | nil =>
    rw [hrest] at htokens
    refine ⟨fun hlast => absurd ?_ hne, nofun⟩
    obtain rfl : token = .kept (.scalar 'x') := Option.some.inj hlast
    rw [← units_tokens text, htokens]
    rfl

/-- Where every token is read as it should be, the loop appends what the grammar gives, unless an `int` overflows. -/
theorem decodeFrom_plain (text rest : List UInt16) {i : Nat} {out : List UInt8} (hlt : text.length < 0x80000000)
    (hdrop : text.drop i = rest) (hplain : Plain numbers (tokens (characters rest))) :
    decodeFrom numbers text i out = some (out ++ decoded rest) ↔ ¬ (text.length + 1 = 0x80000000 ∧ EndsInX rest) := by
  induction hn : rest.length using Nat.strong_induction_on generalizing rest i out with
  | _ n ih =>
    subst hn
    cases rest with
    | nil =>
      have hend : text[i]? = none := List.getElem?_eq_none_iff.mpr (List.drop_eq_nil_iff.mp hdrop)
      rw [decodeFrom_end hend]
      exact ⟨fun _ hx => absurd hx.2 nofun, fun _ => congrArg some (List.append_nil out).symm⟩
    | cons ch tail =>
      obtain ⟨hget, -, hlength⟩ := getElem?_of_drop hdrop
      have hoverflows : turn numbers text i ch = none ↔ _ := turn_overflows hdrop hlt
      rw [decodeFrom_turn hget]
      cases hturn : turn numbers text i ch with
      | none =>
        obtain ⟨hmax, hx⟩ := hoverflows.mp hturn
        rw [hx]
        exact ⟨nofun, fun h => absurd ⟨hmax, rfl⟩ h⟩
      | some turned =>
        obtain ⟨taken, last⟩ := turned
        obtain ⟨hchunk, hlast⟩ := turn_chunk hdrop hturn
        have hle := turn_le hturn
        have hagrees := hchunk.agrees_or_misses.resolve_right fun hmisses => hmisses.1 hplain
        have hshorter : (text.drop (last + 1)).length < (ch :: tail).length := by
          rw [List.length_drop, List.length_cons]
          omega
        rw [Option.bind_some, int_of_lt (by omega), Option.bind_some, hagrees.decoded_eq, ← List.append_assoc,
          ih _ hshorter _ rfl (hagrees.plain_iff.mp hplain) rfl]
        apply not_congr
        apply and_congr_right
        intro hmax
        have hne : ch :: tail ≠ [unit '\\', unit 'x'] := by
          intro hx
          rw [hoverflows.mpr ⟨hmax, hx⟩] at hturn
          cases hturn
        exact (hagrees.endsInX hne).symm

theorem decodeText_eq_decoded_iff (numbers : Numbers) (text : List UInt16) :
    decodeText numbers text = some (decoded text) ↔
      Plain numbers (tokens (characters text)) ∧ text.length < 0x80000000 ∧ ¬ (text.length + 1 = 0x80000000 ∧ EndsInX text) := by
  constructor
  · intro h
    have hlt := length_lt_of_decodeFrom (by decide) h
    have hplain : Plain numbers (tokens (characters text)) := by
      by_contra hnot
      obtain ⟨bytes, hresult, -, hless⟩ := decodeFrom_shorter text text rfl h
      rw [List.nil_append] at hresult
      rw [hresult] at hless
      exact Nat.lt_irrefl _ (hless hnot)
    exact ⟨hplain, hlt, (decodeFrom_plain text text hlt rfl hplain).mp h⟩
  · rintro ⟨hplain, hlt, hends⟩
    exact (decodeFrom_plain text text hlt rfl hplain).mpr hends

/-! ## Numbers as Qt reads them -/

inductive Kind where
  | digit (value : Nat)
  | plus
  | minus
  | blank
  | other
  deriving DecidableEq

/-- `QChar::isSpace`. -/
def spaces : List Nat :=
  [0x09, 0x0a, 0x0b, 0x0c, 0x0d, 0x20, 0x85, 0xa0, 0x1680, 0x2000, 0x2001, 0x2002, 0x2003, 0x2004, 0x2005, 0x2006, 0x2007, 0x2008,
    0x2009, 0x200a, 0x2028, 0x2029, 0x202f, 0x205f, 0x3000]

def kind (u : UInt16) : Kind :=
  match hexValue (single u) with
  | some value => .digit value
  | none =>
    if u = unit '+' then .plus
    else if u = unit '-' then .minus
    else if u.toNat ∈ spaces then .blank
    else .other

/-- Blanks at either end are left out, and one sign may stand before the digits. -/
def pairToInt : List UInt16 → Option Int
  | [a, b] =>
    match kind a, kind b with
    | .digit x, .digit y => some (16 * x + y)
    | .digit x, .blank => some x
    | .blank, .digit y => some y
    | .plus, .digit y => some y
    | .minus, .digit y => some (-y)
    | _, _ => none
  | _ => none

theorem kind_of_hexValue {u : UInt16} {x : Nat} (h : hexValue (single u) = some x) : kind u = .digit x := by
  rw [kind, h]

theorem kind_of_surrogate {u : UInt16} (h : isHigh u ∨ isLow u) : kind u = .other := by
  have hspaces : ∀ n ∈ spaces, n < 0xd800 := by decide
  have hle : 0xd800 ≤ u.toNat := by
    simp only [isHigh, isLow, Bool.and_eq_true, decide_eq_true_eq] at h
    omega
  rw [kind, single_of_surrogate h, hexValue]
  dsimp only
  rw [if_neg, if_neg, if_neg]
  · intro hmem
    exact absurd (hspaces _ hmem) (Nat.not_lt.mpr hle)
  · rintro rfl
    exact absurd hle (by decide)
  · rintro rfl
    exact absurd hle (by decide)

theorem plain_of_kind {u : UInt16} (h : kind u ≠ .other) : u ≠ unit '\\' ∧ isHigh u = false ∧ isLow u = false := by
  refine ⟨?_, ?_, ?_⟩
  · rintro rfl
    exact h (by decide)
  · exact Bool.eq_false_iff.mpr fun hhigh => h (kind_of_surrogate (Or.inl hhigh))
  · exact Bool.eq_false_iff.mpr fun hlow => h (kind_of_surrogate (Or.inr hlow))

theorem kinds_of_pairToInt {a b : UInt16} {value : Int} (h : pairToInt [a, b] = some value) : kind a ≠ .other ∧ kind b ≠ .other := by
  dsimp only [pairToInt] at h
  split at h
  · next hx hy => exact ⟨by rw [hx]; nofun, by rw [hy]; nofun⟩
  · next hx hy => exact ⟨by rw [hx]; nofun, by rw [hy]; nofun⟩
  · next hx hy => exact ⟨by rw [hx]; nofun, by rw [hy]; nofun⟩
  · next hx hy => exact ⟨by rw [hx]; nofun, by rw [hy]; nofun⟩
  · next hx hy => exact ⟨by rw [hx]; nofun, by rw [hy]; nofun⟩
  · cases h

theorem pairToInt_hex {a b : UInt16} {x y : Nat} (ha : hexValue (single a) = some x) (hb : hexValue (single b) = some y) :
    pairToInt [a, b] = some (16 * (x : Int) + y) := by
  dsimp only [pairToInt]
  rw [kind_of_hexValue ha, kind_of_hexValue hb]

theorem pairToInt_accepts {a b : UInt16} {value : Int} (h : pairToInt [a, b] = some value) :
    ∀ u ∈ [a, b], u ≠ unit '\\' ∧ isHigh u = false ∧ isLow u = false := by
  obtain ⟨ha, hb⟩ := kinds_of_pairToInt h
  intro u hu
  rcases List.mem_pair.mp hu with rfl | rfl
  · exact plain_of_kind ha
  · exact plain_of_kind hb

/-- What Qt's `toInt` does with two units. -/
def cLocale : Numbers where
  toInt := pairToInt
  toInt_hex := pairToInt_hex
  toInt_accepts := pairToInt_accepts

/-- A grinning face is sent as two question marks, and an `x` escape with `+5` as the byte 5. -/
theorem decodeText_misses :
    decodeText cLocale [0xd83d, 0xde00] = some [0x3f, 0x3f] ∧ decoded [0xd83d, 0xde00] = [0xf0, 0x9f, 0x98, 0x80] ∧
      decodeText cLocale (['\\', 'x', '+', '5'].map unit) = some [0x05] ∧
      decoded (['\\', 'x', '+', '5'].map unit) = [0x5c, 0x78, 0x2b, 0x35] := by
  decide +kernel

end LvdTerm.Core.DecodeText
