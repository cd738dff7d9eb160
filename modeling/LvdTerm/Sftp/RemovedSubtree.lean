import Mathlib.Algebra.GroupWithZero.Nat
import Mathlib.Algebra.Order.BigOperators.Group.List
import Mathlib.Algebra.Order.Group.Nat
import LvdTerm.Lib.Association
import LvdTerm.Sftp.RemoveDirectory

/-!
# What removing a directory removes

The recursion takes from the listing which children are directories, and goes down by their names as text. As long as it
comes to no directory whose name as text is empty or the name of a link beside it, it stays in the subtree and ends:
`removes_exactly`. Then nothing outside changes, and a success means that the subtree is gone.
-/
namespace LvdTerm.Sftp.RemoveDirectory

/-- The name under which the client comes back to an entry. -/
def sentName (name : Name) : Name := Lib.Utf8.encode (fromUtf8 name)

/-- A directory in `path` has a name that leads nowhere else, or to a link. -/
def Astray (tree : RemoteTree) (path : Path) : Prop :=
  ∃ name, tree.node (path ++ [name]) = some .dir ∧
    (sentName name = [] ∨ ∃ target, tree.node (path ++ [sentName name]) = some (.link target))

/-- The directories to which the recursion comes from `path` by their names as text. -/
inductive Visited (tree : RemoteTree) (path : Path) : Path → Prop
  | self : Visited tree path path
  | child {dir : Path} {name : Name} : Visited tree path dir → tree.node (dir ++ [name]) = some .dir →
      tree.node (dir ++ [sentName name]) = some .dir → Visited tree path (dir ++ [sentName name])

/-- No directory to which the recursion comes sends it astray. -/
def Straight (tree : RemoteTree) (path : Path) : Prop := ∀ dir, Visited tree path dir → ¬ Astray tree dir

/-- The call ends; nothing outside of `path` has changed; and after a success the subtree is gone. -/
def RemovesExactly (tree : RemoteTree) (sched : Schedule) (path : Path) : Prop :=
  ∃ depth s ok, removeDirectory true tree sched depth path ⟨tree.node, 0⟩ = some (s, ok) ∧
    (∀ q, ¬ path <+: q → s.files q = tree.node q) ∧ (ok = true → ∀ q, path <+: q → s.files q = none)

/-- Names that come back from the text as they were lead straight. -/
theorem Straight.of_text {tree : RemoteTree} (h : ∀ path name, tree.node (path ++ [name]) = some .dir → sentName name = name)
    (path : Path) : Straight tree path := by
  rintro dir - ⟨name, hname, hastray⟩
  rw [h dir name hname] at hastray
  rcases hastray with hempty | ⟨target, hlink⟩
  · exact tree.named dir name (by rw [hname]; exact Option.some_ne_none _) hempty
  · rw [hname] at hlink
    cases hlink

/-! ## Trees from which something was removed -/

/-- What is left of the tree is a tree. -/
structure Pruned (tree : RemoteTree) (files : Files) : Prop where
  sub : ∀ q, files q = tree.node q ∨ files q = none
  closed : ∀ path name, files (path ++ [name]) ≠ none → files path = some .dir

/-- Only at or below `path` something went. -/
def Shrinks (path : Path) (files files' : Files) : Prop := ∀ q, files' q = files q ∨ (path <+: q ∧ files' q = none)

/-- Only below `path` something went. -/
def ShrinksBelow (path : Path) (files files' : Files) : Prop :=
  ∀ q, files' q = files q ∨ ((path <+: q ∧ q ≠ path) ∧ files' q = none)

variable {tree : RemoteTree} {files files' files'' : Files} {path : Path}

theorem RemoteTree.pruned (tree : RemoteTree) : Pruned tree tree.node := ⟨fun _ => .inl rfl, tree.parent⟩

theorem ShrinksBelow.refl (path : Path) (files : Files) : ShrinksBelow path files files := fun _ => .inl rfl

theorem ShrinksBelow.trans (h : ShrinksBelow path files files') (h' : ShrinksBelow path files' files'') :
    ShrinksBelow path files files'' := by
  intro q
  rcases h' q with hq | hq
  · rcases h q with hq' | hq'
    · exact .inl (hq.trans hq')
    · exact .inr ⟨hq'.1, hq.trans hq'.2⟩
  · exact .inr hq

theorem ShrinksBelow.shrinks (h : ShrinksBelow path files files') : Shrinks path files files' :=
  fun q => (h q).imp_right fun hq => ⟨hq.1.1, hq.2⟩

theorem ShrinksBelow.self (h : ShrinksBelow path files files') : files' path = files path :=
  (h path).resolve_right fun hq => hq.1.2 rfl

/-- What goes in a child goes below. -/
theorem Shrinks.below_child {name : Name} (h : Shrinks (path ++ [name]) files files') : ShrinksBelow path files files' := by
  intro q
  refine (h q).imp_right fun hq => ⟨⟨(List.prefix_append path [name]).trans hq.1, ?_⟩, hq.2⟩
  rintro rfl
  have hlen := hq.1.length_le
  simp only [List.length_append, List.length_singleton] at hlen
  omega

theorem Shrinks.trans (h : Shrinks path files files') (h' : Shrinks path files' files'') : Shrinks path files files'' := by
  intro q
  rcases h' q with hq | hq
  · rcases h q with hq' | hq'
    · exact .inl (hq.trans hq')
    · exact .inr ⟨hq'.1, hq.trans hq'.2⟩
  · exact .inr hq

/-- What is above something is a directory. -/
theorem Pruned.above (h : Pruned tree files) {name : Name} {rest : Path} (hq : files (path ++ name :: rest) ≠ none) :
    files path = some .dir := by
  induction rest using List.reverseRecOn generalizing name with
  | nil => exact h.closed _ _ hq
  | append_singleton rest last ih =>
    have hdir : files (path ++ name :: rest) = some .dir := h.closed _ last (by simpa using hq)
    have hne : files (path ++ name :: rest) ≠ none := by
      rw [hdir]
      exact Option.some_ne_none _
    exact ih hne

/-- Below nothing there is nothing. -/
theorem Pruned.none_below (h : Pruned tree files) (hnone : files path = none) {q : Path} (hq : path <+: q) : files q = none := by
  obtain ⟨rest, rfl⟩ := hq
  cases rest with
  | nil => rwa [List.append_nil]
  | cons name rest =>
    by_contra hne
    rw [h.above hne] at hnone
    cases hnone

/-- A node that has nothing below it may go. -/
theorem Pruned.remove (h : Pruned tree files) (hempty : ∀ name, files (path ++ [name]) = none) :
    Pruned tree (Function.update files path none) where
  sub q := by
    by_cases hq : q = path
    · subst hq
      exact .inr (Function.update_self ..)
    · rw [Function.update_of_ne hq]
      exact h.sub q
  closed p name hne := by
    have hchild : p ++ [name] ≠ path := by
      rintro rfl
      exact hne (Function.update_self ..)
    rw [Function.update_of_ne hchild] at hne
    have hp : p ≠ path := by
      rintro rfl
      exact hne (hempty name)
    rw [Function.update_of_ne hp]
    exact h.closed p name hne

theorem shrinks_update (path : Path) (files : Files) : Shrinks path files (Function.update files path none) := by
  intro q
  by_cases hq : q = path
  · subst hq
    exact .inr ⟨List.prefix_refl _, Function.update_self ..⟩
  · exact .inl (Function.update_of_ne hq ..)

/-- The names in a directory are not empty. -/
theorem Pruned.named (h : Pruned tree files) {name : Name} (hne : files (path ++ [name]) ≠ none) : name ≠ [] := by
  apply tree.named path name
  rcases h.sub (path ++ [name]) with heq | hnone
  · rwa [← heq]
  · exact absurd hnone hne

theorem Pruned.depth_le (h : Pruned tree files) {q : Path} (hne : files q ≠ none) : q.length ≤ tree.depth := by
  apply tree.shallow
  rcases h.sub q with heq | hnone
  · rwa [← heq]
  · exact absurd hnone hne

/-! ## Where paths lead -/

section Paths

variable {last : Bool}

/-- Directories are walked through. -/
theorem walk_dirs (last : Bool) (through : Path → Option Path) (h : Pruned tree files) (here dirs rest : Path)
    (hdir : files (here ++ dirs) = some .dir) :
    walk files last through here (dirs ++ rest) = walk files last through (here ++ dirs) rest := by
  induction dirs generalizing here with
  | nil => rw [List.nil_append, List.append_nil]
  | cons name dirs ih =>
    rw [List.append_cons] at hdir
    have hfirst : files (here ++ [name]) = some .dir := by
      cases dirs with
      | nil => simpa using hdir
      | cons next dirs =>
        have hne : files (here ++ [name] ++ next :: dirs) ≠ none := by
          rw [hdir]
          exact Option.some_ne_none _
        exact h.above hne
    have hname : name ≠ [] := h.named (by rw [hfirst]; exact Option.some_ne_none _)
    rw [List.cons_append, walk.eq_def]
    simp only [hname, if_false, hfirst]
    rw [ih (here ++ [name]) hdir, ← List.append_cons]

theorem lead_eq_walk (files : Files) (last : Bool) (links : Nat) :
    ∃ through, ∀ path, lead files last links path = walk files last through [] path := by
  cases links with
  | zero => exact ⟨_, fun _ => rfl⟩
  | succ links => exact ⟨_, fun _ => rfl⟩

theorem lead_dir (h : Pruned tree files) (hdir : files path = some .dir) (links : Nat) : lead files last links path = some path := by
  obtain ⟨through, hlead⟩ := lead_eq_walk files last links
  have hwalk := walk_dirs last through h [] path [] hdir
  rw [List.append_nil, List.nil_append] at hwalk
  rw [hlead, hwalk]
  rfl

/-- A child is where its path leads, unless it is not there, or a link to be followed. -/
theorem lead_child (h : Pruned tree files) (hdir : files path = some .dir) (links : Nat) {name : Name}
    (hchild : last = true → ∀ target, files (path ++ [name]) ≠ some (.link target)) :
    lead files last links (path ++ [name]) = if name = [] then some path
      else if files (path ++ [name]) = none then none else some (path ++ [name]) := by
  obtain ⟨through, hlead⟩ := lead_eq_walk files last links
  have hwalk := walk_dirs last through h [] path [name] hdir
  rw [List.nil_append] at hwalk
  rw [hlead, hwalk, walk.eq_def]
  simp only
  split
  next => rfl
  next hname =>
    cases hnode : files (path ++ [name]) with
    | none => rfl
    | some node =>
      cases node with
      | dir => rfl
      | file data => rfl
      | link target =>
        cases last with
        | true => exact absurd hnode (hchild rfl target)
        | false => rfl

end Paths

/-! ## The calls -/

section Calls

variable {sched : Schedule} {s : Server}

/-- A call that is over has made its change, or none. -/
theorem answer_cases (sched : Schedule) (files : Files) (possible : Bool) (s : Server) :
    ((s.answer sched files possible).1.files = s.files ∧ (s.answer sched files possible).2 = false) ∨
      (possible = true ∧ (s.answer sched files possible).1.files = files) := by
  unfold Server.answer
  cases possible with
  | false => exact .inl ⟨rfl, rfl⟩
  | true =>
    cases sched.outcome s.calls with
    | done => exact .inr ⟨rfl, rfl⟩
    | refused => exact .inl ⟨rfl, rfl⟩
    | lost => exact .inr ⟨rfl, rfl⟩

theorem rmdir_dir (sched : Schedule) (s : Server) (h : Pruned tree s.files) (hdir : s.files path = some .dir) :
    Pruned tree (s.rmdir tree sched path).1.files ∧ Shrinks path s.files (s.rmdir tree sched path).1.files ∧
      ((s.rmdir tree sched path).2 = false ∧ (s.rmdir tree sched path).1.files = s.files ∨
        (s.rmdir tree sched path).1.files path = none) := by
  unfold Server.rmdir
  rw [lead_dir h hdir]
  simp only
  rcases answer_cases sched (Function.update s.files path none)
    (path ≠ [] ∧ s.files path = some .dir ∧ ∀ name ∈ tree.names path, s.files (path ++ [name]) = none) s with
    ⟨hsame, hfalse⟩ | ⟨hpossible, hfiles⟩
  · rw [hsame]
    exact ⟨h, fun _ => .inl rfl, .inl ⟨hfalse, rfl⟩⟩
  · obtain ⟨-, -, hlisted⟩ := of_decide_eq_true hpossible
    have hempty : ∀ name, s.files (path ++ [name]) = none := by
      intro name
      by_contra hne
      apply hne
      apply hlisted
      apply tree.listed
      rcases h.sub (path ++ [name]) with heq | hnone
      · rwa [← heq]
      · exact absurd hnone hne
    rw [hfiles]
    exact ⟨h.remove hempty, shrinks_update path s.files, .inr (Function.update_self ..)⟩

/-- In a directory only a child goes, if anything. -/
theorem unlink_child (h : Pruned tree s.files) (hdir : s.files path = some .dir) (name : Name) :
    Pruned tree (s.unlink sched (path ++ [name])).1.files ∧
      ShrinksBelow path s.files (s.unlink sched (path ++ [name])).1.files := by
  have hsame : Pruned tree s.files ∧ ShrinksBelow path s.files s.files := ⟨h, ShrinksBelow.refl _ _⟩
  unfold Server.unlink
  rw [lead_child h hdir _ fun hfalse : false = true => nomatch hfalse]
  by_cases hname : name = []
  · rw [if_pos hname]
    simp only
    rcases answer_cases sched (Function.update s.files path none) (s.files path ≠ none ∧ s.files path ≠ some .dir) s with
      ⟨hfiles, -⟩ | ⟨hpossible, -⟩
    · rwa [hfiles]
    · exact absurd hdir (of_decide_eq_true hpossible).2
  · rw [if_neg hname]
    by_cases hnone : s.files (path ++ [name]) = none
    · rw [if_pos hnone]
      simp only
      rcases answer_cases sched s.files false s with ⟨hfiles, -⟩ | ⟨hpossible, -⟩
      · rwa [hfiles]
      · cases hpossible
    · rw [if_neg hnone]
      simp only
      rcases answer_cases sched (Function.update s.files (path ++ [name]) none)
        (s.files (path ++ [name]) ≠ none ∧ s.files (path ++ [name]) ≠ some .dir) s with ⟨hfiles, -⟩ | ⟨hpossible, hfiles⟩
      · rwa [hfiles]
      · rw [hfiles]
        have hleaf : ∀ below, s.files (path ++ [name] ++ [below]) = none := by
          intro below
          by_contra hne
          exact (of_decide_eq_true hpossible).2 (h.closed _ _ hne)
        exact ⟨h.remove hleaf, (shrinks_update _ s.files).below_child⟩

/-- What is listed of a directory as a directory is one. -/
theorem children_dirs {place : Path} {child : Child} (hchild : child ∈ childrenOf (s.entries tree sched place))
    (hdirectory : child.isDirectory = true) : ∃ name, s.files (place ++ [name]) = some .dir ∧ child.name = fromUtf8 name := by
  obtain ⟨hmem, hdots⟩ := List.mem_filter.mp hchild
  obtain ⟨entry, hentry, rfl⟩ := List.mem_map.mp hmem
  have hall : entry ∈ (⟨[0x2e], true⟩ :: ⟨[0x2e, 0x2e], true⟩ ::
      ((tree.names place).filter fun name => s.files (place ++ [name]) ≠ none).map fun name =>
        (⟨name, !sched.bare s.calls name && s.files (place ++ [name]) = some .dir⟩ : Entry)) := by
    unfold Server.entries at hentry
    cases hfails : sched.readdirFails s.calls with
    | none =>
      rw [hfails] at hentry
      exact hentry
    | some n =>
      rw [hfails] at hentry
      exact List.mem_of_mem_take hentry
  rcases List.mem_cons.mp hall with rfl | hall
  · exact absurd hdots (by decide +kernel)
  · rcases List.mem_cons.mp hall with rfl | hall
    · exact absurd hdots (by decide +kernel)
    · obtain ⟨name, -, rfl⟩ := List.mem_map.mp hall
      have hdir : (!sched.bare s.calls name && decide (s.files (place ++ [name]) = some .dir)) = true := hdirectory
      exact ⟨name, of_decide_eq_true (Bool.and_eq_true_iff.mp hdir).2, rfl⟩

theorem list_files (tree : RemoteTree) (sched : Schedule) (s : Server) (path : Path) : (s.list tree sched path).1.files = s.files := by
  unfold Server.list
  split
  next => rfl
  next =>
    split
    next => rfl
    next => rfl

theorem list_dir (sched : Schedule) (h : Pruned tree s.files) (hdir : s.files path = some .dir) (entries : List Entry)
    (hlist : (s.list tree sched path).2 = some entries) : entries = s.entries tree sched path := by
  unfold Server.list at hlist
  rw [lead_dir h hdir] at hlist
  simp only at hlist
  split at hlist
  next => exact (Option.some.inj hlist).symm
  next => cases hlist

/-- What is no directory, and no link, is not listed. -/
theorem list_child (h : Pruned tree s.files) (hdir : s.files path = some .dir) {name : Name} (hname : name ≠ [])
    (hlink : ∀ target, s.files (path ++ [name]) ≠ some (.link target)) (hnot : s.files (path ++ [name]) ≠ some .dir) :
    (s.list tree sched (path ++ [name])).2 = none := by
  unfold Server.list
  rw [lead_child h hdir _ fun _ => hlink, if_neg hname]
  by_cases hnone : s.files (path ++ [name]) = none
  · rw [if_pos hnone]
  · rw [if_neg hnone]
    simp only
    rw [if_neg fun hboth => hnot hboth.1]

end Calls

/-! ## The recursion -/

section Recursion

variable {sched : Schedule}

/-- A call on a directory has ended, having changed only what is at or below it; a success has removed it. -/
structure Ended (tree : RemoteTree) (path : Path) (s : Server) (r : Server × Bool) : Prop where
  pruned : Pruned tree r.1.files
  shrinks : Shrinks path s.files r.1.files
  gone : r.2 = true → r.1.files path = none

theorem removeChildren_ended (sched : Schedule) {descend : Path → Server → Returned} {children : List Child}
    (hdescend : ∀ child ∈ children, child.isDirectory = true → ∀ s, Pruned tree s.files → s.files path = some .dir →
      ∃ r, descend (joinPath path child.name) s = some r ∧ Pruned tree r.1.files ∧ ShrinksBelow path s.files r.1.files)
    {s : Server} (h : Pruned tree s.files) (hdir : s.files path = some .dir) :
    ∃ r, removeChildren sched descend path children s = some r ∧ Pruned tree r.1.files ∧
      ShrinksBelow path s.files r.1.files := by
  induction children generalizing s with
  | nil => exact ⟨_, rfl, h, ShrinksBelow.refl _ _⟩
  | cons child children ih =>
    have hvisit : ∃ r, (if child.isDirectory then descend (joinPath path child.name) s
        else some (s.unlink sched (joinPath path child.name))) = some r ∧ Pruned tree r.1.files ∧
        ShrinksBelow path s.files r.1.files := by
      split
      next hdirectory => exact hdescend child (.head _) hdirectory s h hdir
      next => exact ⟨_, rfl, unlink_child h hdir _⟩
    obtain ⟨⟨s₁, ok⟩, hvisited, hpruned, hbelow⟩ := hvisit
    unfold removeChildren
    simp only [hvisited]
    cases ok with
    | false => exact ⟨_, rfl, hpruned, hbelow⟩
    | true =>
      obtain ⟨r, hrest, hpruned', hbelow'⟩ := ih (fun c hc => hdescend c (.tail _ hc)) hpruned (hbelow.self.trans hdir)
      exact ⟨r, hrest, hpruned', hbelow.trans hbelow'⟩

theorem removeRecursively_unlisted {s : Server} (hlist : (s.list tree sched path).2 = none) (depth : Nat) :
    ∃ r, removeRecursively tree sched (depth + 1) path s = some r ∧ r.1.files = s.files := by
  unfold removeRecursively
  have hfiles := list_files tree sched s path
  generalize s.list tree sched path = listed at hlist hfiles
  obtain ⟨s₁, found⟩ := listed
  cases hlist
  exact ⟨_, rfl, hfiles⟩

/-- From directory to directory, one component deeper each time. -/
theorem removeRecursively_ended (sched : Schedule) {base : Path} (hstraight : Straight tree base) {depth : Nat} {s : Server}
    (hbase : Visited tree base path) (h : Pruned tree s.files) (hdir : s.files path = some .dir)
    (hdepth : tree.depth + 2 ≤ path.length + depth) :
    ∃ r, removeRecursively tree sched depth path s = some r ∧ Ended tree path s r := by
  induction depth generalizing path s with
  | zero =>
    have hlen := h.depth_le (q := path) (by rw [hdir]; exact Option.some_ne_none _)
    omega
  | succ depth ih =>
    unfold removeRecursively
    have hfiles := list_files tree sched s path
    have hlisted := list_dir sched h hdir
    generalize s.list tree sched path = listed at hfiles hlisted
    obtain ⟨s₁, found⟩ := listed
    have h₁ : Pruned tree s₁.files := hfiles ▸ h
    have hdir₁ : s₁.files path = some .dir := hfiles ▸ hdir
    cases found with
    | none => exact ⟨_, rfl, h₁, fun q => .inl (congrFun hfiles q), fun hok => nomatch hok⟩
    | some entries =>
      have hentries : entries = s.entries tree sched path := hlisted entries rfl
      have hdescend : ∀ child ∈ childrenOf entries, child.isDirectory = true → ∀ s₂, Pruned tree s₂.files →
          s₂.files path = some .dir → ∃ r, removeRecursively tree sched depth (joinPath path child.name) s₂ = some r ∧
            Pruned tree r.1.files ∧ ShrinksBelow path s₂.files r.1.files := by
        intro child hchild hdirectory s₂ h₂ hdir₂
        obtain ⟨name, hname, htext⟩ := children_dirs (hentries ▸ hchild) hdirectory
        have hnode : tree.node (path ++ [name]) = some .dir := by
          rcases h.sub (path ++ [name]) with heq | hnone
          · rw [← heq, hname]
          · rw [hname] at hnone
            cases hnone
        have hsent : sentName name ≠ [] := fun hempty => hstraight path hbase ⟨name, hnode, .inl hempty⟩
        have hlink : ∀ target, s₂.files (path ++ [sentName name]) ≠ some (.link target) := by
          intro target heq
          refine hstraight path hbase ⟨name, hnode, .inr ⟨target, ?_⟩⟩
          rcases h₂.sub (path ++ [sentName name]) with hsub | hnone
          · rw [← hsub, heq]
          · rw [heq] at hnone
            cases hnone
        have hjoin : joinPath path child.name = path ++ [sentName name] := by rw [joinPath, htext, sentName]
        rw [hjoin]
        by_cases hsub : s₂.files (path ++ [sentName name]) = some .dir
        · have hnode' : tree.node (path ++ [sentName name]) = some .dir := by
            rcases h₂.sub (path ++ [sentName name]) with heq | hnone
            · rw [← heq, hsub]
            · rw [hsub] at hnone
              cases hnone
          obtain ⟨r, hr, hended⟩ := ih (hbase.child hnode hnode') h₂ hsub (by
            simp only [List.length_append, List.length_singleton]
            omega)
          exact ⟨r, hr, hended.pruned, hended.shrinks.below_child⟩
        · -- the directory is known by no such name
          have hlen := h.depth_le (q := path) (by rw [hdir]; exact Option.some_ne_none _)
          obtain ⟨k, rfl⟩ : ∃ k, depth = k + 1 := ⟨depth - 1, by omega⟩
          obtain ⟨r, hr, hsame⟩ := removeRecursively_unlisted (list_child h₂ hdir₂ hsent hlink hsub) k
          rw [← hsame] at h₂
          exact ⟨r, hr, h₂, fun q => .inl (congrFun hsame q)⟩
      obtain ⟨⟨s₂, ok⟩, hloop, hpruned, hbelow⟩ := removeChildren_ended sched hdescend h₁ hdir₁
      rw [hfiles] at hbelow
      simp only [hloop]
      cases ok with
      | false => exact ⟨_, rfl, hpruned, hbelow.shrinks, fun hok => nomatch hok⟩
      | true =>
        obtain ⟨hpruned', hshrinks', hremoved⟩ := rmdir_dir sched s₂ hpruned (hbelow.self.trans hdir)
        refine ⟨_, rfl, hpruned', hbelow.shrinks.trans hshrinks', fun hok => ?_⟩
        rcases hremoved with ⟨hfailed, -⟩ | hgone
        · rw [hfailed] at hok
          cases hok
        · exact hgone

end Recursion

/-- What was removed although the answer was lost is not listed any more. -/
theorem list_removed (tree : RemoteTree) (sched : Schedule) {s : Server} (hdir : tree.node path = some .dir) (h : Pruned tree s.files)
    (hshrinks : Shrinks path tree.node s.files) (hnone : s.files path = none) : (s.list tree sched path).2 = none := by
  rcases List.eq_nil_or_concat' path with rfl | ⟨parent, name, rfl⟩
  · obtain ⟨through, hlead⟩ := lead_eq_walk s.files true sched.maxLinks
    have hroot : lead s.files true sched.maxLinks [] = some [] := hlead []
    unfold Server.list
    rw [hroot]
    simp only
    rw [if_neg fun hboth => by rw [hnone] at hboth; cases hboth.1]
  · have hne : tree.node (parent ++ [name]) ≠ none := by
      rw [hdir]
      exact Option.some_ne_none _
    have hparent : s.files parent = some .dir := by
      rcases hshrinks parent with heq | hgone
      · rw [heq]
        exact tree.parent parent name hne
      · have hlen := hgone.1.length_le
        simp only [List.length_append, List.length_singleton] at hlen
        omega
    refine list_child h hparent (tree.named parent name hne) (fun target heq => ?_) fun heq => ?_
    · rw [hnone] at heq
      cases heq
    · rw [hnone] at heq
      cases heq

/-! ## Deeper recursions -/

section Deeper

variable {sched : Schedule}

theorem removeChildren_deeper {descend descend' : Path → Server → Returned}
    (hdescend : ∀ path s r, descend path s = some r → descend' path s = some r) {children : List Child} {s : Server}
    {r : Server × Bool} (hrun : removeChildren sched descend path children s = some r) :
    removeChildren sched descend' path children s = some r := by
  induction children generalizing s with
  | nil => exact hrun
  | cons child children ih =>
    unfold removeChildren at hrun ⊢
    simp only at hrun ⊢
    cases hvisit : (if child.isDirectory then descend (joinPath path child.name) s
        else some (s.unlink sched (joinPath path child.name))) with
    | none =>
      rw [hvisit] at hrun
      cases hrun
    | some visited =>
      have hvisit' : (if child.isDirectory then descend' (joinPath path child.name) s
          else some (s.unlink sched (joinPath path child.name))) = some visited := by
        split
        next hdirectory =>
          rw [if_pos hdirectory] at hvisit
          exact hdescend _ _ _ hvisit
        next hfile =>
          rw [if_neg hfile] at hvisit
          exact hvisit
      obtain ⟨s', ok⟩ := visited
      rw [hvisit] at hrun
      rw [hvisit']
      cases ok with
      | false => exact hrun
      | true => exact ih hrun

theorem removeRecursively_succ {depth : Nat} {s : Server} {r : Server × Bool}
    (hrun : removeRecursively tree sched depth path s = some r) :
    removeRecursively tree sched (depth + 1) path s = some r := by
  induction depth generalizing path s r with
  | zero => cases hrun
  | succ depth ih =>
    unfold removeRecursively at hrun ⊢
    cases hlist : s.list tree sched path with
    | mk s₁ found =>
      rw [hlist] at hrun
      cases found with
      | none => exact hrun
      | some entries =>
        simp only at hrun ⊢
        cases hloop : removeChildren sched (removeRecursively tree sched depth) path (childrenOf entries) s₁ with
        | none =>
          rw [hloop] at hrun
          cases hrun
        | some looped =>
          rw [hloop] at hrun
          rw [removeChildren_deeper (fun path s r => ih) hloop]
          exact hrun

/-- A call that ends gives the same with any more depth. -/
theorem removeDirectory_deeper {connected : Bool} {depth : Nat} {s : Server} {r : Server × Bool}
    (hrun : removeDirectory connected tree sched depth path s = some r) (more : Nat) :
    removeDirectory connected tree sched (depth + more) path s = some r := by
  induction more with
  | zero => exact hrun
  | succ more ih =>
    unfold removeDirectory at ih ⊢
    split
    next hoff => rwa [if_pos hoff] at ih
    next hon =>
      rw [if_neg hon] at ih
      simp only at ih ⊢
      split
      next hremoved => rwa [if_pos hremoved] at ih
      next hleft =>
        rw [if_neg hleft] at ih
        exact removeRecursively_succ ih

end Deeper

/-! ## The claim -/

/-- Where no directory sends the client astray, only the subtree changes, and a success removes all of it. -/
theorem removes_exactly (tree : RemoteTree) (sched : Schedule) {path : Path} (hdir : tree.node path = some .dir)
    (hstraight : Straight tree path) : RemovesExactly tree sched path := by
  have houtside : ∀ {files : Files}, Shrinks path tree.node files → ∀ q, ¬ path <+: q → files q = tree.node q :=
    fun hshrinks q hq => (hshrinks q).resolve_right fun hgone => hq hgone.1
  have hfast := rmdir_dir sched ⟨tree.node, 0⟩ tree.pruned hdir
  unfold RemovesExactly removeDirectory
  simp only [not_true_eq_false, if_false]
  generalize Server.rmdir tree sched path ⟨tree.node, 0⟩ = fast at hfast ⊢
  obtain ⟨s, removed⟩ := fast
  obtain ⟨hpruned, hshrinks, hremoved⟩ := hfast
  cases removed with
  | true =>
    have hgone : s.files path = none := hremoved.resolve_left fun h => nomatch h.1
    exact ⟨0, s, true, rfl, houtside hshrinks, fun _ q hq => hpruned.none_below hgone hq⟩
  | false =>
    rcases hremoved with ⟨-, hsame⟩ | hgone
    · have hdir' : s.files path = some .dir := by
        rw [hsame]
        exact hdir
      obtain ⟨⟨s', ok⟩, hrun, hended⟩ := removeRecursively_ended sched hstraight Visited.self hpruned hdir'
        (Nat.le_add_left (tree.depth + 2) path.length)
      exact ⟨_, s', ok, by simpa using hrun, houtside (hshrinks.trans hended.shrinks),
        fun hok q hq => hended.pruned.none_below (hended.gone hok) hq⟩
    · obtain ⟨⟨s', ok⟩, hrun, hsame⟩ := removeRecursively_unlisted (list_removed tree sched hdir hpruned hshrinks hgone) 0
      rw [← hsame] at hshrinks hgone hpruned
      exact ⟨1, s', ok, by simpa using hrun, houtside hshrinks, fun _ q hq => hpruned.none_below hgone hq⟩

section OfList

variable {content : List (Path × Node)} {path : Path} {name : Name}

theorem name_listed (hne : content.lookup (path ++ [name]) ≠ none) :
    name ∈ content.filterMap fun entry => if entry.1.dropLast = path then entry.1.getLast? else none := by
  obtain ⟨node, hnode⟩ := Option.ne_none_iff_exists'.mp hne
  exact List.mem_filterMap.mpr ⟨_, Lib.Association.mem_of_lookup hnode, by simp⟩

theorem parent_listed (h : ∀ entry ∈ content, entry.1 = [] ∨ (content.lookup entry.1.dropLast = some .dir ∧ entry.1.getLast? ≠ some []))
    (hne : content.lookup (path ++ [name]) ≠ none) : content.lookup path = some .dir ∧ name ≠ [] := by
  obtain ⟨node, hnode⟩ := Option.ne_none_iff_exists'.mp hne
  simpa using (h _ (Lib.Association.mem_of_lookup hnode)).resolve_left (by simp)

theorem length_listed (hne : content.lookup path ≠ none) : path.length ≤ (content.map fun entry => entry.1.length).sum := by
  obtain ⟨node, hnode⟩ := Option.ne_none_iff_exists'.mp hne
  exact List.le_sum_of_mem (List.mem_map_of_mem (Lib.Association.mem_of_lookup hnode))

end OfList

/-- A tree from the list of what is in it. -/
def RemoteTree.ofList (content : List (Path × Node))
    (h : ∀ entry ∈ content, entry.1 = [] ∨ (content.lookup entry.1.dropLast = some .dir ∧ entry.1.getLast? ≠ some [])) :
    RemoteTree where
  node path := content.lookup path
  names path := content.filterMap fun entry => if entry.1.dropLast = path then entry.1.getLast? else none
  listed _ _ hne := name_listed hne
  parent _ _ hne := (parent_listed h hne).1
  named _ _ hne := (parent_listed h hne).2
  depth := (content.map fun entry => entry.1.length).sum
  shallow _ hne := length_listed hne

/-- Every call is done. -/
def allDone : Schedule := ⟨8, fun _ => .done, fun _ => none, fun _ _ => false⟩

/-- The root with `d`, in which there is a directory `x` with a file `f`, and a link `l` to `k`, and beside it `k` with a file. -/
def plainContent : List (Path × Node) :=
  [([], .dir), ([[0x64]], .dir), ([[0x64], [0x78]], .dir), ([[0x64], [0x78], [0x66]], .file [1]),
    ([[0x64], [0x6c]], .link [[0x6b]]), ([[0x6b]], .dir), ([[0x6b], [0x66]], .file [2])]

def plainTree : RemoteTree := .ofList plainContent (by decide)

theorem removes_exactly_plain : RemovesExactly plainTree allDone [[0x64]] := by
  apply removes_exactly plainTree allDone (by decide +kernel)
  apply Straight.of_text
  intro path name hdir
  have hsent : ∀ entry ∈ plainContent, entry.2 = .dir → ∀ last ∈ entry.1.getLast?, sentName last = last := by decide +kernel
  exact hsent _ (Lib.Association.mem_of_lookup hdir) rfl name (by simp)

/-- In `d` the directory 0xff has the link U+FFFD to `k` beside it. -/
def looseTree : RemoteTree :=
  .ofList [([], .dir), ([[0x64]], .dir), ([[0x64], [0xff]], .dir), ([[0x64], [0xef, 0xbf, 0xbd]], .link [[0x6b]]),
    ([[0x6b]], .dir), ([[0x6b], [0x66]], .file [2])] (by decide)

/-- Not so there: the file in `k` is gone. -/
theorem link_target_removed :
    ¬ ∀ (tree : RemoteTree) (sched : Schedule) (path : Path), tree.node path = some .dir → RemovesExactly tree sched path := by
  intro h
  obtain ⟨depth, s, ok, hrun, houtside, -⟩ := h looseTree allDone [[0x64]] (by decide +kernel)
  have hkept := houtside [[0x6b], [0x66]] (by decide)
  have hdeep : ∃ r, removeDirectory true looseTree allDone 3 [[0x64]] ⟨looseTree.node, 0⟩ = some r ∧
      r.1.files [[0x6b], [0x66]] = none := by
    have hany : (removeDirectory true looseTree allDone 3 [[0x64]] ⟨looseTree.node, 0⟩).any
        (fun r => r.1.files [[0x6b], [0x66]] = none) = true := by decide +kernel
    obtain ⟨r, hr, hnone⟩ := (Option.any_eq_true ..).mp hany
    exact ⟨r, hr, of_decide_eq_true hnone⟩
  obtain ⟨r, hr, hnone⟩ := hdeep
  have hsame : r = (s, ok) := by
    have hleft := removeDirectory_deeper hr depth
    rw [Nat.add_comm, removeDirectory_deeper hrun 3] at hleft
    exact (Option.some.inj hleft).symm
  rw [hsame] at hnone
  rw [hnone] at hkept
  exact absurd hkept (by decide +kernel)

end LvdTerm.Sftp.RemoveDirectory
