import Mathlib.Algebra.Order.Ring.Nat
import Mathlib.Data.Rat.Defs

/-!
# JSON documents

The values of `QJsonDocument` and the readers the stores use: a reader gives its default
where the value is missing or of another type.
-/
namespace LvdTerm.Core

abbrev QString := List Char

inductive QJsonValue where
  | null
  | bool (b : Bool)
  | number (q : Rat)
  | string (s : QString)
  | array (vs : List QJsonValue)
  | object (fields : List (String × QJsonValue))

abbrev QJsonObject := List (String × QJsonValue)

/-- `object[key]`; an undefined value is read like `null`. -/
def QJsonObject.value (o : QJsonObject) (key : String) : QJsonValue := (o.lookup key).getD .null

namespace QJsonValue

def toString : QJsonValue → QString
  | .string s => s
  | _ => []

def toBool (v : QJsonValue) (defaultValue : Bool) : Bool :=
  match v with
  | .bool b => b
  | _ => defaultValue

/-- Only a whole number in the range of `int` is one. -/
def toInt (v : QJsonValue) (defaultValue : Int) : Int :=
  match v with
  | .number q => if q.den = 1 ∧ -(2 ^ 31) ≤ q.num ∧ q.num < 2 ^ 31 then q.num else defaultValue
  | _ => defaultValue

def toArray : QJsonValue → List QJsonValue
  | .array vs => vs
  | _ => []

def toObject : QJsonValue → QJsonObject
  | .object fields => fields
  | _ => []

/-- `if (v.isObject())` with `v.toObject()`, as the loading loops have it. -/
def asObject : QJsonValue → Option QJsonObject
  | .object fields => some fields
  | _ => none

def asString : QJsonValue → Option QString
  | .string s => some s
  | _ => none

end QJsonValue

end LvdTerm.Core
