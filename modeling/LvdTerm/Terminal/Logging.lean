import Mathlib.Algebra.Order.Group.Unbundled.Int
import Mathlib.Algebra.Order.Ring.Int
import Mathlib.Data.List.Basic
import LvdTerm.Lib.LineMarks

/-!
# TerminalView: the session log

What a view writes to its log file. The loop of `onDataForLogging` works on `int` positions, while the size of a
`QByteArray` has 64 bits: positions found are narrowed, and sums that leave `int` are undefined. The clock is given by its
readings in order.
-/
namespace LvdTerm.Terminal.Logging

open Lib.LineMarks

/-! ## Qt -/

/-- The time of day as a stamp shows it. -/
structure Time where
  hour : Fin 24
  minute : Fin 60
  second : Fin 60
  msec : Fin 1000
  deriving DecidableEq, Repr

def padded (width n : Nat) : List Char := List.leftpad width '0' (Nat.toDigits 10 n)

/-- `toString(QStringLiteral("[HH:mm:ss.zzz] ")).toUtf8()` -/
def Time.stamp (t : Time) : List UInt8 :=
  (['['] ++ padded 2 t.hour ++ [':'] ++ padded 2 t.minute ++ [':'] ++ padded 2 t.second ++ ['.'] ++ padded 3 t.msec ++
    [']', ' ']).map fun c => UInt8.ofNat c.toNat

def newline : UInt8 := 10

/-- `QByteArray::indexOf`; a position below zero counts from the end. -/
def indexOf (data : List UInt8) (ch : UInt8) (pos : Int) : Int :=
  let pos := if pos < 0 then max (pos + data.length) 0 else pos
  match (data.drop pos.toNat).findIdx? (· == ch) with
  | some i => pos + i
  | none => -1

/-- `QByteArray::mid`; a length below zero means the rest. -/
def mid (data : List UInt8) (pos len : Int) : List UInt8 :=
  if pos < 0 then
    if len < 0 ∨ data.length ≤ len + pos then data else data.take (len + pos).toNat
  else if len < 0 then data.drop pos.toNat
  else (data.drop pos.toNat).take len.toNat

/-- A 64-bit number as an `int`. -/
def narrow (n : Int) : Int := Int.bmod n (2 ^ 32)

inductive Fault where
  /-- A sum that is not an `int`. -/
  | overflow
  /-- The loop goes on after the number of rounds it was given. -/
  | unfinished
  deriving DecidableEq, Repr

def checked (n : Int) : Except Fault Int := if -2 ^ 31 ≤ n ∧ n < 2 ^ 31 then .ok n else .error .overflow

/-! ## The view -/

structure LogView where
  /-- What was written to the file since it was opened, one entry for each write. -/
  logFile : Option (List (List UInt8)) := none
  logIncludeTimestamps : Bool := false
  logAtLineStart : Bool := true
  /-- How often the clock was read. -/
  clockReads : Nat := 0
  deriving DecidableEq, Repr

namespace LogView

def stopLogging (v : LogView) : LogView := { v with logFile := none }

/-- `opened` is whether the file could be opened. -/
def startLogging (opened includeTimestamps : Bool) (v : LogView) : LogView :=
  if opened then
    { v.stopLogging with logFile := some [], logIncludeTimestamps := includeTimestamps, logAtLineStart := true }
  else v.stopLogging

def write (bytes : List UInt8) (v : LogView) : LogView := { v with logFile := v.logFile.map (· ++ [bytes]) }

variable (clock : Nat → Time)

def writeStamp (v : LogView) : LogView :=
  if v.logAtLineStart then
    { v.write (clock v.clockReads).stamp with logAtLineStart := false, clockReads := v.clockReads + 1 }
  else v

/-- The loop of `onDataForLogging`. -/
def logLines (data : List UInt8) : Nat → Int → LogView → Except Fault LogView
  | 0, _, _ => .error .unfinished
  | rounds + 1, start, v =>
    if start < data.length then
      let v := v.writeStamp clock
      let newlineIndex := narrow (indexOf data newline start)
      if newlineIndex = -1 then .ok (v.write (mid data start (-1)))
      else do
        let gap ← checked (newlineIndex - start)
        let len ← checked (gap + 1)
        let next ← checked (newlineIndex + 1)
        logLines data rounds next { v.write (mid data start len) with logAtLineStart := true }
    else .ok v

def onDataForLogging (rounds : Nat) (data : List UInt8) (v : LogView) : Except Fault LogView :=
  if v.logFile.isNone then .ok v
  else if ¬ v.logIncludeTimestamps then .ok (v.write data)
  else logLines clock data rounds 0 v

/-- The chunks of a stream as they come in. -/
def receive (rounds : Nat) (chunks : List (List UInt8)) (v : LogView) : Except Fault LogView :=
  chunks.foldlM (fun v data => v.onDataForLogging clock rounds data) v

end LogView
end LvdTerm.Terminal.Logging
