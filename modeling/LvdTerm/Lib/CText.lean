import Mathlib.Data.List.Basic
import Mathlib.Data.List.TakeWhile

/-!
# C strings and text files

Bytes up to a NUL, and files that are read line by line into a buffer. `fgets` ends a piece after a
newline or when the buffer is full, so a file that is written in short lines is read back in them.
-/
namespace LvdTerm.Lib.CText

def newline : UInt8 := 10

/-- What C functions see of the bytes. -/
def cstr (bytes : List UInt8) : List UInt8 := bytes.takeWhile (· ≠ 0)

/-- A string without a NUL. -/
abbrev CString := { s : List UInt8 // 0 ∉ s }

theorem cstr_of_not_mem {bytes : List UInt8} (h : 0 ∉ bytes) : cstr bytes = bytes :=
  List.takeWhile_eq_self_iff.mpr fun _ hb => decide_eq_true fun h0 => h (h0 ▸ hb)

/-- The pieces that `fgets(buf, size, file)` gives until the end of the file, where `room` bytes fit
besides the NUL; `piece` is the reversed beginning of the next one. -/
def pieces (size : Nat) : Nat → List UInt8 → List UInt8 → List (List UInt8)
  | _, piece, [] => if piece = [] then [] else [piece.reverse]
  | room, piece, b :: rest =>
    if b = newline ∨ room ≤ 1 then (b :: piece).reverse :: pieces size size [] rest
    else pieces size (room - 1) (b :: piece) rest

def fgetsAll (size : Nat) (file : List UInt8) : List (List UInt8) := pieces size size [] file

/-- A newline at its end and nowhere else, in `size` bytes. -/
structure Line (size : Nat) (line : List UInt8) : Prop where
  ends : ∃ body, line = body ++ [newline] ∧ newline ∉ body
  fits : line.length ≤ size

theorem pieces_body {size : Nat} (body : List UInt8) (hbody : newline ∉ body) {room : Nat} (hroom : body.length < room)
    (piece rest : List UInt8) :
    pieces size room piece (body ++ newline :: rest) = (piece.reverse ++ body ++ [newline]) :: pieces size size [] rest := by
  induction body generalizing room piece with
  | nil => simp [pieces]
  | cons b body ih =>
    have hb : b ≠ newline := fun h => hbody (h ▸ List.mem_cons_self)
    have hrest : newline ∉ body := fun h => hbody (List.mem_cons_of_mem _ h)
    simp only [List.length_cons] at hroom
    rw [List.cons_append, pieces, if_neg (by simp [hb]; omega), ih hrest (by omega)]
    simp

theorem fgetsAll_line {size : Nat} {line : List UInt8} (h : Line size line) (rest : List UInt8) :
    fgetsAll size (line ++ rest) = line :: fgetsAll size rest := by
  obtain ⟨⟨body, rfl, hbody⟩, hfits⟩ := h
  rw [List.length_append] at hfits
  have hroom : body.length < size := hfits
  simpa [fgetsAll] using pieces_body body hbody hroom [] rest

end LvdTerm.Lib.CText
