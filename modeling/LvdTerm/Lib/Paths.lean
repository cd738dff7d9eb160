import Mathlib.Data.List.Infix

/-!
# Slash-separated paths

Paths as text, and the place they name when `.`, `..` and empty components are worked out
without looking at any file (`resolve`). `Below base path` says that `path` is `base` itself
or lies under it, and joining plain names to such a path never leaves `base` (`Below.join`).
-/
namespace LvdTerm.Lib.Paths

abbrev Text := List Char

def dot : Text := ['.']
def dotdot : Text := ['.', '.']

/-- A place in the tree; the deepest directory comes first. -/
structure Place where
  absolute : Bool
  dirs : List Text
  deriving DecidableEq, Repr

/-- One level up: the root is its own parent, and above the start of a relative path is `..`. -/
def Place.up (p : Place) : Place :=
  match p.dirs with
  | [] => if p.absolute then p else { p with dirs := [dotdot] }
  | d :: ds => if d = dotdot then { p with dirs := dotdot :: d :: ds } else { p with dirs := ds }

def Place.go (p : Place) (component : Text) : Place :=
  if component = [] ∨ component = dot then p
  else if component = dotdot then p.up
  else { p with dirs := component :: p.dirs }

def Place.walk (p : Place) (path : Text) : Place := (path.splitOn '/').foldl Place.go p

def resolve (path : Text) : Place := Place.walk ⟨path.head? = some '/', []⟩ path

/-- `p` is `base` or under it; `..` left over in a relative path leads out. -/
def Place.Under (base p : Place) : Prop :=
  p.absolute = base.absolute ∧ base.dirs <:+ p.dirs ∧ dotdot ∉ p.dirs.take (p.dirs.length - base.dirs.length)

instance (base p : Place) : Decidable (Place.Under base p) :=
  decidable_of_iff (p.absolute = base.absolute ∧ base.dirs <:+ p.dirs ∧
      (p.dirs.take (p.dirs.length - base.dirs.length)).all (· != dotdot) = true)
    (by simp [Place.Under, List.forall_mem_ne'])

def Below (base path : Text) : Prop := Place.Under (resolve base) (resolve path)

instance (base path : Text) : Decidable (Below base path) := by
  unfold Below
  infer_instance

/-- A name that is a single component and does not lead up. -/
def Plain (name : Text) : Prop := '/' ∉ name ∧ name ≠ dotdot

theorem Place.under_iff (base p : Place) :
    base.Under p ↔ p.absolute = base.absolute ∧ ∃ under, p.dirs = under ++ base.dirs ∧ dotdot ∉ under := by
  constructor
  · rintro ⟨ha, ⟨under, hu⟩, hn⟩
    have hlen : p.dirs.length - base.dirs.length = under.length := by
      rw [← hu, List.length_append]
      omega
    rw [hlen, ← hu, List.take_left] at hn
    exact ⟨ha, under, hu.symm, hn⟩
  · rintro ⟨ha, under, hu, hn⟩
    refine ⟨ha, ⟨under, hu.symm⟩, ?_⟩
    rw [hu, List.length_append, Nat.add_sub_cancel, List.take_left]
    exact hn

theorem Place.Under.refl (base : Place) : base.Under base :=
  (Place.under_iff base base).mpr ⟨rfl, [], rfl, List.not_mem_nil⟩

theorem Below.refl (base : Text) : Below base base := Place.Under.refl _

theorem Place.Under.go {base p : Place} {component : Text} (h : base.Under p) (hc : component ≠ dotdot) :
    base.Under (p.go component) := by
  unfold Place.go
  rw [if_neg hc]
  split
  · exact h
  · obtain ⟨ha, under, hu, hn⟩ := (Place.under_iff base p).mp h
    apply (Place.under_iff _ _).mpr
    refine ⟨ha, component :: under, ?_, ?_⟩
    · exact congrArg (List.cons component) hu
    · rw [List.mem_cons, not_or]
      exact ⟨Ne.symm hc, hn⟩

theorem Place.walk_plain (p : Place) {name : Text} (h : Plain name) : p.walk name = p.go name := by
  unfold Place.walk
  rw [List.splitOn_eq_singleton h.1]
  rfl

/-- A joined path is walked from where the directory's path ends. -/
theorem resolve_join {dir : Text} (h : dir ≠ []) (name : Text) :
    resolve (dir ++ '/' :: name) = (resolve dir).walk name := by
  have hhead : (dir ++ '/' :: name).head? = dir.head? := List.head?_append_of_ne_nil dir h
  unfold resolve Place.walk
  rw [hhead, List.splitOn_append_cons_self, List.foldl_append]

theorem Below.join {base dir name : Text} (h : Below base dir) (hd : dir ≠ []) (hp : Plain name) :
    Below base (dir ++ '/' :: name) := by
  unfold Below
  rw [resolve_join hd, Place.walk_plain _ hp]
  exact Place.Under.go h hp.2

/-! ## Children -/

def Place.child (p : Place) (name : Text) : Place := { p with dirs := name :: p.dirs }

variable {p q r : Place} {name other : Text}

theorem Place.Under.trans (h : p.Under q) (h' : q.Under r) : p.Under r := by
  obtain ⟨ha, u, hu, hn⟩ := (Place.under_iff p q).mp h
  obtain ⟨ha', u', hu', hn'⟩ := (Place.under_iff q r).mp h'
  apply (Place.under_iff p r).mpr
  refine ⟨ha'.trans ha, u' ++ u, ?_, ?_⟩
  · rw [hu', hu, List.append_assoc]
  · rw [List.mem_append, not_or]
    exact ⟨hn', hn⟩

theorem Place.under_child (h : name ≠ dotdot) : p.Under (p.child name) := by
  apply (Place.under_iff _ _).mpr
  refine ⟨rfl, [name], rfl, ?_⟩
  rw [List.mem_singleton]
  exact Ne.symm h

theorem Place.child_not_under (p : Place) (name : Text) : ¬ (p.child name).Under p := by
  intro h
  obtain ⟨_, u, hu, _⟩ := (Place.under_iff _ _).mp h
  have hlen := congrArg List.length hu
  rw [List.length_append] at hlen
  simp only [Place.child, List.length_cons] at hlen
  omega

/-- Nothing is under two children of one place. -/
theorem Place.siblings_disjoint (h : (p.child name).Under q) (h' : (p.child other).Under q) : name = other := by
  obtain ⟨_, u, hu, _⟩ := (Place.under_iff _ _).mp h
  obtain ⟨_, u', hu', _⟩ := (Place.under_iff _ _).mp h'
  have heq : u ++ name :: p.dirs = u' ++ other :: p.dirs := hu.symm.trans hu'
  have hlen := congrArg List.length heq
  simp only [List.length_append, List.length_cons] at hlen
  have htails := (List.append_inj heq (by omega)).2
  exact (List.cons.inj htails).1

end LvdTerm.Lib.Paths
