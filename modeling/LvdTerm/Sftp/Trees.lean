import LvdTerm.Sftp.Confinement
import LvdTerm.Sftp.Disk

/-!
# Trees of files and directories

`HeldAt` says that a disk holds a whole tree at a place. Names in a directory are distinct
components, so its entries lie in disjoint parts of the disk: what changes nothing there leaves
them held (`heldAt_congr`, `heldIn_congr`).
-/
namespace LvdTerm.Sftp

open Lib.Paths

mutual

inductive Tree where
  | file (data : List UInt8)
  | dir (entries : Entries)

inductive Entries where
  | nil
  | cons (name : Text) (tree : Tree) (rest : Entries)

end

def Entries.names : Entries → List Text
  | .nil => []
  | .cons name _ rest => name :: rest.names

/-- One component that stands for a child. -/
structure ValidName (name : Text) : Prop where
  plain : Plain name
  ne_nil : name ≠ []
  ne_dot : name ≠ dot

mutual

def Tree.WellFormed : Tree → Prop
  | .file _ => True
  | .dir entries => entries.WellFormed

def Entries.WellFormed : Entries → Prop
  | .nil => True
  | .cons name tree rest => ValidName name ∧ name ∉ rest.names ∧ tree.WellFormed ∧ rest.WellFormed

end

/-- A finite directory tree. -/
structure Directory where
  entries : Entries
  wellFormed : entries.WellFormed

theorem ValidName.walk {name : Text} (h : ValidName name) (p : Place) : p.walk name = p.child name := by
  rw [Place.walk_plain _ h.plain, Place.go, if_neg (not_or.mpr ⟨h.ne_nil, h.ne_dot⟩), if_neg h.plain.2]
  rfl

theorem ValidName.resolve_join {name dir : Text} (h : ValidName name) (hd : dir ≠ []) :
    resolve (dir ++ '/' :: name) = (resolve dir).child name :=
  (Lib.Paths.resolve_join hd name).trans (h.walk _)

theorem ValidName.under_child {name : Text} (h : ValidName name) (p : Place) : p.Under (p.child name) :=
  Place.under_child h.plain.2

theorem Entries.valid_of_mem : {entries : Entries} → entries.WellFormed → {name : Text} → name ∈ entries.names → ValidName name
  | .nil, _, _, h => by cases h
  | .cons first tree rest, hw, name, h => by
    obtain rfl | h := List.mem_cons.mp h
    · exact hw.1
    · exact Entries.valid_of_mem hw.2.2.2 h

mutual

/-- The disk holds the tree at this place. -/
def Tree.HeldAt (fs : Disk) (place : Place) : Tree → Prop
  | .file data => fs place = some (.file data)
  | .dir entries => fs place = some .dir ∧ entries.HeldIn fs place

def Entries.HeldIn (fs : Disk) (place : Place) : Entries → Prop
  | .nil => True
  | .cons name tree rest => tree.HeldAt fs (place.child name) ∧ rest.HeldIn fs place

end

/-- The disks agree on everything that the entries cover. -/
def Entries.AgreeIn (fs fs' : Disk) (place : Place) (entries : Entries) : Prop :=
  ∀ name ∈ entries.names, ∀ q, (place.child name).Under q → fs q = fs' q

variable {fs fs' : Disk} {place : Place}

theorem Entries.AgreeIn.rest {name : Text} {tree : Tree} {rest : Entries}
    (h : (Entries.cons name tree rest).AgreeIn fs fs' place) : rest.AgreeIn fs fs' place :=
  fun n hn => h n (List.mem_cons_of_mem name hn)

theorem Entries.AgreeIn.of_under {entries : Entries} (hw : entries.WellFormed)
    (h : ∀ q, place.Under q → fs q = fs' q) : entries.AgreeIn fs fs' place := by
  intro n hn q hq
  exact h q (((Entries.valid_of_mem hw hn).under_child place).trans hq)

mutual

theorem Tree.heldAt_congr : (tree : Tree) → (place : Place) → tree.WellFormed →
    (∀ q, place.Under q → fs q = fs' q) → (tree.HeldAt fs place ↔ tree.HeldAt fs' place)
  | .file data, place, _, h => by
    unfold Tree.HeldAt
    rw [h place (Place.Under.refl place)]
  | .dir entries, place, hw, h => by
    unfold Tree.HeldAt
    rw [h place (Place.Under.refl place), Entries.heldIn_congr entries place hw (.of_under hw h)]

theorem Entries.heldIn_congr : (entries : Entries) → (place : Place) → entries.WellFormed →
    entries.AgreeIn fs fs' place → (entries.HeldIn fs place ↔ entries.HeldIn fs' place)
  | .nil, _, _, _ => by
    unfold Entries.HeldIn
    exact Iff.rfl
  | .cons name tree rest, place, hw, h => by
    unfold Entries.HeldIn
    rw [Tree.heldAt_congr tree (place.child name) hw.2.2.1 (h name List.mem_cons_self),
      Entries.heldIn_congr rest place hw.2.2.2 h.rest]

end

/-- What is under one entry is under none of the others. -/
theorem Entries.agreeIn_of_child {name : Text} {rest : Entries} (hn : name ∉ rest.names)
    (h : ∀ q, ¬ (place.child name).Under q → fs q = fs' q) : rest.AgreeIn fs fs' place := by
  intro n hmem q hq
  apply h q
  intro hname
  have heq := Place.siblings_disjoint hname hq
  rw [heq] at hn
  exact hn hmem

/-- A place below one entry is below none of the others. -/
theorem Entries.siblings_not_under {q : Place} {name : Text} {rest : Entries} (hfresh : name ∉ rest.names)
    (hq : (place.child name).Under q) : ∀ n ∈ rest.names, ¬ (place.child n).Under q := by
  intro n hmem hu
  have heq := Place.siblings_disjoint hu hq
  rw [heq] at hmem
  exact hfresh hmem

end LvdTerm.Sftp
