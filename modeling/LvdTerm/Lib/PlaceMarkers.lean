import Mathlib.Data.List.Basic

/-!
# Place markers

`QString::arg`. A value may bring markers of its own, which the next `arg` takes for its own.
-/
namespace LvdTerm.Lib.PlaceMarkers

def digitValue (c : Char) : Nat := c.toNat - 48

/-- The number of the place marker whose `%` was read, and how many digits it has. -/
def placeMarker : List Char → Option (Nat × Nat)
  | a :: b :: _ =>
    if a.isDigit then if b.isDigit then some (10 * digitValue a + digitValue b, 2) else some (digitValue a, 1) else none
  | [a] => if a.isDigit then some (digitValue a, 1) else none
  | [] => none

def placeMarkers : List Char → List Nat
  | c :: rest => if c = '%' then ((placeMarker rest).map Prod.fst).toList ++ placeMarkers rest else placeMarkers rest
  | [] => []

/-- `skip` characters belong to a marker that was replaced. -/
def replaceMarker (n : Nat) (value : List Char) : Nat → List Char → List Char
  | skip + 1, _ :: rest => replaceMarker n value skip rest
  | 0, c :: rest =>
    match placeMarker rest with
    | some (m, digits) =>
      if c = '%' ∧ m = n then value ++ replaceMarker n value digits rest else c :: replaceMarker n value 0 rest
    | none => c :: replaceMarker n value 0 rest
  | _, [] => []

/-- `QString::arg`: the markers with the lowest number are replaced. The locale form `%Ln` is left out. -/
def arg (value text : List Char) : List Char :=
  match (placeMarkers text).min? with
  | none => text
  | some n => replaceMarker n value 0 text

example : arg "b%1".toList "%1@%2".toList = "b%1@%2".toList := by decide

end LvdTerm.Lib.PlaceMarkers
