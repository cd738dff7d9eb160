import LvdTerm.Sftp.Download
import Mathlib.Logic.Function.Basic

/-!
# File systems and what the operations leave in them

A disk holds a directory or a file at some of its places; links are not modelled. The
operations a transfer asks for are carried out by a `Storage`, which may keep less of a file
than it was given (what is still buffered is written when the file is closed, and nobody looks
at how that ended) and may refuse to remove a file.
-/
namespace LvdTerm.Sftp

open Lib.Paths

inductive Node where
  | dir
  | file (data : List UInt8)
  deriving DecidableEq

abbrev Disk := Place → Option Node

structure Storage where
  /-- How many bytes of a file there are once it is closed; `none` stands for all of them. -/
  flushed : Place → Option Nat
  removes : Place → Bool

/-- What is kept of the data written to a file. -/
def Storage.kept (st : Storage) (place : Place) (data : List UInt8) : List UInt8 :=
  match st.flushed place with
  | none => data
  | some n => data.take n

def Disk.append (st : Storage) (fs : Disk) (place : Place) (data : List UInt8) : Disk :=
  match fs place with
  | some (.file old) => Function.update fs place (some (.file (st.kept place (old ++ data))))
  | _ => fs

def LocalOp.apply (st : Storage) (fs : Disk) : LocalOp → Disk
  | .makeDir path => Function.update fs (resolve path) (some .dir)
  | .openTruncate path => Function.update fs (resolve path) (some (.file []))
  | .write path data => fs.append st (resolve path) data
  | .remove path => if st.removes (resolve path) then Function.update fs (resolve path) none else fs

def Work.run (st : Storage) (fs : Disk) (w : Work) : Disk := w.ops.foldl (LocalOp.apply st) fs

variable {st : Storage} {fs : Disk} {place : Place}

theorem kept_nil : st.kept place [] = [] := by
  unfold Storage.kept
  split
  · rfl
  · exact List.take_nil

/-- What was lost once is lost for good. -/
theorem kept_append (old data : List UInt8) : st.kept place (st.kept place old ++ data) = st.kept place (old ++ data) := by
  unfold Storage.kept
  split
  · rfl
  next n _ =>
    rw [List.take_append, List.take_append, List.take_take, Nat.min_self, List.length_take]
    by_cases h : n ≤ old.length
    · rw [Nat.min_eq_left h, Nat.sub_self, Nat.sub_eq_zero_of_le h]
    · rw [Nat.min_eq_right (by omega)]

/-! ## Everything else stays as it is -/

theorem append_file {p : Place} {old : List UInt8} (h : fs p = some (.file old)) (data : List UInt8) :
    fs.append st p data = Function.update fs p (some (.file (st.kept p (old ++ data)))) := by
  unfold Disk.append
  rw [h]

theorem append_other {p : Place} (data : List UInt8) (h : p ≠ place) : fs.append st p data place = fs place := by
  cases hp : fs p with
  | none => simp only [Disk.append, hp]
  | some node =>
    cases node with
    | dir => simp only [Disk.append, hp]
    | file old =>
      rw [append_file hp]
      exact Function.update_of_ne (Ne.symm h) _ _

theorem apply_remove (path : Text) : (LocalOp.remove path).apply st fs (resolve path) =
    if st.removes (resolve path) then none else fs (resolve path) := by
  cases hr : st.removes (resolve path) with
  | true => simp only [LocalOp.apply, hr, if_true, Function.update_self]
  | false => simp only [LocalOp.apply, hr, Bool.false_eq_true, if_false]

theorem apply_other (op : LocalOp) (h : resolve op.path ≠ place) : op.apply st fs place = fs place := by
  cases op with
  | makeDir p => exact Function.update_of_ne (Ne.symm h) _ _
  | openTruncate p => exact Function.update_of_ne (Ne.symm h) _ _
  | write p data => exact append_other data h
  | remove p =>
    cases hr : st.removes (resolve p) with
    | true =>
      simp only [LocalOp.apply, hr, if_true]
      exact Function.update_of_ne (Ne.symm h) _ _
    | false => simp only [LocalOp.apply, hr, Bool.false_eq_true, if_false]

theorem foldl_other (ops : List LocalOp) (h : ∀ op ∈ ops, resolve op.path ≠ place) (fs : Disk) :
    ops.foldl (LocalOp.apply st) fs place = fs place := by
  induction ops generalizing fs with
  | nil => rfl
  | cons op ops ih =>
    have hop := h op List.mem_cons_self
    have hops := ih (fun o ho => h o (List.mem_cons_of_mem op ho)) (op.apply st fs)
    rw [List.foldl_cons, hops, apply_other op hop]

theorem run_other (w : Work) (h : ∀ op ∈ w.ops, resolve op.path ≠ place) : w.run st fs place = fs place :=
  foldl_other w.ops h fs

theorem run_andThen (w next : Work) : (w.andThen next).run st fs = if w.ok then next.run st (w.run st fs) else w.run st fs := by
  unfold Work.andThen Work.run
  split
  · exact List.foldl_append
  · rfl

/-! ## One file -/

/-- Writes to a file add up. -/
theorem foldl_writes (path : Text) (datas : List (List UInt8)) (old : List UInt8)
    (h : fs (resolve path) = some (.file (st.kept (resolve path) old))) :
    (datas.map (LocalOp.write path)).foldl (LocalOp.apply st) fs (resolve path) =
      some (.file (st.kept (resolve path) (old ++ datas.flatten))) := by
  induction datas generalizing fs old with
  | nil =>
    rw [List.flatten_nil, List.append_nil]
    exact h
  | cons data datas ih =>
    have hstep : (LocalOp.write path data).apply st fs (resolve path) =
        some (.file (st.kept (resolve path) (old ++ data))) := by
      rw [LocalOp.apply, append_file h, Function.update_self, kept_append]
    rw [List.map_cons, List.foldl_cons, ih (old ++ data) hstep, List.flatten_cons, List.append_assoc]

/-- A transfer into one file: it is emptied, written and, after a failure, removed again. -/
def Work.intoFile (path : Text) (datas : List (List UInt8)) (ok : Bool) : Work :=
  ⟨.openTruncate path :: datas.map (.write path) ++ (if ok then [] else [.remove path]), ok⟩

theorem intoFile_run (path : Text) (datas : List (List UInt8)) (ok : Bool) :
    (Work.intoFile path datas ok).run st fs (resolve path) =
      if ok || !st.removes (resolve path) then some (.file (st.kept (resolve path) datas.flatten)) else none := by
  have hopen : (LocalOp.openTruncate path).apply st fs (resolve path) = some (.file (st.kept (resolve path) [])) := by
    rw [LocalOp.apply, kept_nil, Function.update_self]
  have hwrites := foldl_writes path datas [] hopen
  rw [List.nil_append] at hwrites
  unfold Work.intoFile Work.run
  rw [List.cons_append, List.foldl_cons, List.foldl_append]
  cases ok with
  | true => exact hwrites
  | false =>
    simp only [Bool.false_eq_true, if_false, List.foldl_cons, List.foldl_nil, Bool.false_or]
    rw [apply_remove, hwrites]
    cases st.removes (resolve path) <;> rfl

end LvdTerm.Sftp
