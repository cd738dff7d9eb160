import Mathlib.Algebra.Order.Ring.Nat
import Mathlib.Data.List.Basic

/-!
# Character: a cell of the screen

The colors, the rendition flags and the properties of a line. What the C library and Qt say of a character, its width and whether
it is a non-spacing mark, comes from outside.
-/
namespace LvdTerm.Konsole

/-! ## Colors -/

def DEFAULT_FORE_COLOR : Nat := 0
def DEFAULT_BACK_COLOR : Nat := 1

def COLOR_SPACE_UNDEFINED : UInt8 := 0
def COLOR_SPACE_DEFAULT : UInt8 := 1
def COLOR_SPACE_SYSTEM : UInt8 := 2
def COLOR_SPACE_256 : UInt8 := 3
def COLOR_SPACE_RGB : UInt8 := 4

structure CharacterColor where
  colorSpace : UInt8
  u : UInt8
  v : UInt8
  w : UInt8
  deriving DecidableEq, Repr

namespace CharacterColor

def undefined : CharacterColor := ⟨COLOR_SPACE_UNDEFINED, 0, 0, 0⟩

/-- `CharacterColor(colorSpace, co)` -/
def ofSpace (colorSpace : UInt8) (co : Nat) : CharacterColor :=
  if colorSpace = COLOR_SPACE_DEFAULT then ⟨colorSpace, UInt8.ofNat (co % 2), 0, 0⟩
  else if colorSpace = COLOR_SPACE_SYSTEM then ⟨colorSpace, UInt8.ofNat (co % 8), UInt8.ofNat (co / 8 % 2), 0⟩
  else if colorSpace = COLOR_SPACE_256 then ⟨colorSpace, UInt8.ofNat (co % 256), 0, 0⟩
  else if colorSpace = COLOR_SPACE_RGB then ⟨colorSpace, UInt8.ofNat (co / 2 ^ 16), UInt8.ofNat (co / 2 ^ 8), UInt8.ofNat co⟩
  else undefined

def isValid (c : CharacterColor) : Bool := c.colorSpace != COLOR_SPACE_UNDEFINED

def setIntensive (c : CharacterColor) : CharacterColor :=
  if c.colorSpace = COLOR_SPACE_SYSTEM ∨ c.colorSpace = COLOR_SPACE_DEFAULT then { c with v := 1 } else c

end CharacterColor

/-! ## Rendition and line properties -/

def DEFAULT_RENDITION : Nat := 0
def RE_BOLD : Nat := 2 ^ 0
def RE_BLINK : Nat := 2 ^ 1
def RE_UNDERLINE : Nat := 2 ^ 2
def RE_REVERSE : Nat := 2 ^ 3
def RE_ITALIC : Nat := 2 ^ 4
def RE_CURSOR : Nat := 2 ^ 5
def RE_EXTENDED_CHAR : Nat := 2 ^ 6
def RE_FAINT : Nat := 2 ^ 7
def RE_STRIKEOUT : Nat := 2 ^ 8
def RE_CONCEAL : Nat := 2 ^ 9
def RE_OVERLINE : Nat := 2 ^ 10

/-- The flags are kept in a byte, whatever constant is asked for. -/
abbrev Rendition := UInt8

def Rendition.has (r : Rendition) (flag : Nat) : Bool := r &&& UInt8.ofNat flag != 0
def Rendition.set (r : Rendition) (flag : Nat) : Rendition := r ||| UInt8.ofNat flag
def Rendition.reset (r : Rendition) (flag : Nat) : Rendition := r &&& ~~~ UInt8.ofNat flag

abbrev LineProperty := UInt8

def LINE_DEFAULT : LineProperty := 0
def LINE_WRAPPED : LineProperty := 1
def LINE_DOUBLEWIDTH : LineProperty := 2
def LINE_DOUBLEHEIGHT : LineProperty := 4

def LineProperty.wrapped (p : LineProperty) : Bool := p &&& LINE_WRAPPED != 0

/-! ## Characters -/

structure Character where
  character : Nat
  rendition : Rendition
  foregroundColor : CharacterColor
  backgroundColor : CharacterColor
  hyperlinkId : Nat
  deriving DecidableEq, Repr

/-- `Character(c)`, with the constructor's defaults -/
def Character.ofCode (c : Nat) : Character where
  character := c
  rendition := 0
  foregroundColor := .ofSpace COLOR_SPACE_DEFAULT DEFAULT_FORE_COLOR
  backgroundColor := .ofSpace COLOR_SPACE_DEFAULT DEFAULT_BACK_COLOR
  hyperlinkId := 0

def defaultChar : Character := .ofCode 0x20
def nullChar : Character := .ofCode 0

abbrev ImageLine := List Character

namespace ImageLine

/-- `QVector::resize` -/
def resize (n : Nat) (line : ImageLine) : ImageLine := line.take n ++ List.replicate (n - line.length) defaultChar

def resizeUp (n : Nat) (line : ImageLine) : ImageLine := if line.length < n then line.resize n else line

@[simp] theorem length_resize (n : Nat) (line : ImageLine) : (line.resize n).length = n := by
  simp only [resize, List.length_append, List.length_take, List.length_replicate]
  omega

@[simp] theorem length_resizeUp (n : Nat) (line : ImageLine) : (line.resizeUp n).length = max line.length n := by
  unfold resizeUp
  split
  · rw [length_resize]
    omega
  · omega

theorem resizeUp_of_le {n : Nat} {line : ImageLine} (h : n ≤ line.length) : line.resizeUp n = line := if_neg (by omega)

end ImageLine

/-- `wcwidth`, and whether `QChar::category` is `Mark_NonSpacing` -/
structure Widths where
  width : Nat → Int
  nonSpacing : Nat → Bool
  atMostTwo : ∀ c, width c ≤ 2

def isRegionalIndicator (c : Nat) : Bool := 0x1F1E6 ≤ c ∧ c ≤ 0x1F1FF

end LvdTerm.Konsole
