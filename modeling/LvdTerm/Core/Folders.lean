import Mathlib.Data.List.Dedup
import LvdTerm.Core.ProfileStore
import LvdTerm.Lib.Components

/-!
# ProfileStore: renaming a folder

A folder is a path with `/` between its names: that of a profile, one of `emptyFolders`, or one above those. `renameFolder` is
compared with the map that puts the new path in the place of the old one (`Components.move`).
-/
namespace LvdTerm.Core

open Lib Lib.Components

/-- The loop of `addWithAncestors`. -/
def addParts (pre : QString) : List QString → List QString
  | [] => []
  | part :: parts =>
    let pre := if pre = [] then part else pre ++ '/' :: part
    pre :: addParts pre parts

def addWithAncestors (path : QString) : List QString := addParts [] (parts '/' path)

namespace ProfileStore

/-- Every path that is stored. -/
def paths (s : ProfileStore) : List QString := s.profiles.map (·.folder) ++ s.emptyFolders

/-- In no particular order: `QSet` has none, and the sorting is for display. -/
def allFolders (s : ProfileStore) : List QString := (s.paths.flatMap addWithAncestors).dedup

end ProfileStore

/-! ## What the code says by parts of paths -/

theorem mem_addParts {names : List QString} (hnames : ∀ name ∈ names, IsName '/' name) {rest : List QString}
    (hrest : ∀ name ∈ rest, IsName '/' name) (f : QString) :
    f ∈ addParts (join '/' names) rest ↔ ∃ more, more ≠ [] ∧ more <+: rest ∧ f = join '/' (names ++ more) := by
  induction rest generalizing names with
  | nil => simp [addParts, List.prefix_nil]
  | cons part rest ih =>
    have hpart := hrest part List.mem_cons_self
    have hnext : (if join '/' names = [] then part else join '/' names ++ '/' :: part) = join '/' (names ++ [part]) := by
      by_cases hnil : names = []
      · simp [hnil]
      · have hne : join '/' names ≠ [] := by
          intro hjoin
          have hparts := parts_join hnames
          rw [hjoin, parts_nil] at hparts
          exact hnil hparts.symm
        rw [if_neg hne, join_append hnil (by simp), join_singleton]
    have hnames' : ∀ name ∈ names ++ [part], IsName '/' name := by
      intro name hname
      rcases List.mem_append.mp hname with hname | hname
      · exact hnames name hname
      · exact List.mem_singleton.mp hname ▸ hpart
    rw [addParts]
    rw [hnext, List.mem_cons, ih hnames' fun name hname => hrest name (List.mem_cons_of_mem _ hname)]
    constructor
    · rintro (rfl | ⟨more, -, hmore, rfl⟩)
      · exact ⟨[part], by simp, by simp, rfl⟩
      · exact ⟨part :: more, by simp, by simpa using hmore, by simp⟩
    · rintro ⟨more, hne, hmore, rfl⟩
      cases more with
      | nil => exact absurd rfl hne
      | cons name more =>
        obtain ⟨rfl, hrest'⟩ := List.cons_prefix_cons.mp hmore
        by_cases hmorenil : more = []
        · exact .inl (by rw [hmorenil])
        · exact .inr ⟨more, hmorenil, hrest', by simp⟩

theorem mem_addWithAncestors (path f : QString) : f ∈ addWithAncestors path ↔ f ∈ withAbove '/' path := by
  have hnames : ∀ name ∈ parts '/' path, IsName '/' name := fun name => isName_of_mem_parts
  have h : f ∈ addParts (join '/' []) (parts '/' path) ↔ _ := mem_addParts (by simp) hnames f
  rw [join_nil] at h
  rw [addWithAncestors, h]
  simp only [withAbove, List.nil_append, List.mem_map, List.mem_filter, List.mem_inits, decide_eq_true_eq, ne_eq]
  constructor
  · rintro ⟨more, hne, hmore, rfl⟩
    exact ⟨more, ⟨hmore, hne⟩, rfl⟩
  · rintro ⟨more, ⟨hmore, hne⟩, rfl⟩
    exact ⟨more, hne, hmore, rfl⟩

namespace ProfileStore

theorem mem_allFolders (s : ProfileStore) (f : QString) : f ∈ s.allFolders ↔ f ∈ s.paths.flatMap (withAbove '/') := by
  simp only [allFolders, List.mem_dedup, List.mem_flatMap, mem_addWithAncestors]

theorem inFolder_iff (path folder : QString) : inFolder path folder = true ↔ Below '/' path folder := by
  rw [inFolder, List.isPrefixOf_iff_prefix]
  rfl

theorem matchesFolder_iff (path folder : QString) : matchesFolder path folder = true ↔ folder = path ∨ Below '/' path folder := by
  rw [matchesFolder, Bool.or_eq_true, beq_iff_eq, inFolder_iff]

theorem renamed_eq (oldPath newPath : QString) (p : ConnectionProfile) :
    renamed oldPath newPath p = { p with folder := move '/' oldPath newPath p.folder } := by
  unfold renamed move
  simp only [inFolder_iff]
  split
  · rfl
  · split <;> rfl

variable {oldPath newPath : QString}

theorem move_of_not_matches {f : QString} (h : ¬ matchesFolder oldPath f = true) : move '/' oldPath newPath f = f := by
  rw [matchesFolder_iff, not_or] at h
  rw [move, if_neg h.1, if_neg h.2]

theorem move_eq_self_iff (hne : oldPath ≠ newPath) (f : QString) :
    move '/' oldPath newPath f = f ↔ ¬ matchesFolder oldPath f = true := by
  refine ⟨fun h hmatch => ?_, move_of_not_matches⟩
  rcases (matchesFolder_iff oldPath f).mp hmatch with rfl | hbelow
  · rw [move, if_pos rfl] at h
    exact hne h.symm
  · obtain ⟨rest, rfl⟩ := below_iff.mp hbelow
    rw [move, if_neg (by simp), if_pos hbelow, List.drop_left] at h
    exact hne (List.append_cancel_right h).symm

/-- The store after the call. -/
def afterRename (oldPath newPath : QString) (s : ProfileStore) : ProfileStore := (s.renameFolder oldPath newPath).getD s

theorem afterRename_profiles (s : ProfileStore) :
    (s.afterRename oldPath newPath).profiles = s.profiles.map fun p => { p with folder := move '/' oldPath newPath p.folder } := by
  have hsame : (∀ p ∈ s.profiles, move '/' oldPath newPath p.folder = p.folder) →
      s.profiles = s.profiles.map fun p => { p with folder := move '/' oldPath newPath p.folder } := by
    intro h
    conv => lhs; rw [← List.map_id s.profiles]
    exact List.map_congr_left fun p hp => by rw [h p hp]; rfl
  unfold afterRename renameFolder
  split
  next heq =>
    refine hsame fun p _ => ?_
    unfold move
    split
    next hold => rw [hold, heq]
    · split
      next hbelow =>
        obtain ⟨rest, hrest⟩ := below_iff.mp hbelow
        rw [hrest, List.drop_left, heq]
      · rfl
  · split
    · exact List.map_congr_left fun p _ => renamed_eq oldPath newPath p
    next hany =>
      refine hsame fun p hp => move_of_not_matches fun hmatch => hany ?_
      exact List.any_eq_true.mpr ⟨p, hp, hmatch⟩

theorem afterRename_emptyFolders (s : ProfileStore) : (s.afterRename oldPath newPath).emptyFolders = s.emptyFolders := by
  unfold afterRename renameFolder
  split
  · rfl
  · split <;> rfl

/-! ## The whole subtree -/

/-- The call puts the new path in the place of the old one wherever that is stored, the folders follow, and only a change is saved. -/
structure Renames (oldPath newPath : QString) (s : ProfileStore) : Prop where
  profiles : (s.afterRename oldPath newPath).profiles = s.profiles.map fun p => { p with folder := move '/' oldPath newPath p.folder }
  emptyFolders : (s.afterRename oldPath newPath).emptyFolders = s.emptyFolders.map (move '/' oldPath newPath)
  folders : ∀ f, f ∈ (s.afterRename oldPath newPath).allFolders ↔
    ∃ folder ∈ s.allFolders, f ∈ addWithAncestors (move '/' oldPath newPath folder)
  saved : (s.renameFolder oldPath newPath).isSome = true ↔ (s.afterRename oldPath newPath).paths ≠ s.paths

/-- No explicitly created folder is the old path or below it. -/
def NoneEmpty (oldPath : QString) (s : ProfileStore) : Prop := ∀ f ∈ s.emptyFolders, ¬ matchesFolder oldPath f = true

/-- Every folder above the old path is still above something that is stored. -/
def AboveKept (oldPath newPath : QString) (s : ProfileStore) : Prop :=
  ∀ f ∈ s.allFolders, inFolder f oldPath = true → ∃ path ∈ s.paths, f ∈ addWithAncestors (move '/' oldPath newPath path)

theorem emptyFolders_iff (hne : oldPath ≠ newPath) (s : ProfileStore) :
    (s.afterRename oldPath newPath).emptyFolders = s.emptyFolders.map (move '/' oldPath newPath) ↔ s.NoneEmpty oldPath := by
  rw [afterRename_emptyFolders]
  conv => lhs; lhs; rw [← List.map_id s.emptyFolders]
  rw [List.map_inj_left]
  refine forall₂_congr fun f _ => ?_
  rw [id, eq_comm, move_eq_self_iff hne]

theorem renameFolder_saved_iff (hne : oldPath ≠ newPath) (s : ProfileStore) :
    (s.renameFolder oldPath newPath).isSome = true ↔ (s.afterRename oldPath newPath).paths ≠ s.paths := by
  have hpaths : (s.afterRename oldPath newPath).paths = s.paths ↔ ∀ p ∈ s.profiles, ¬ matchesFolder oldPath p.folder = true := by
    rw [paths, paths, afterRename_emptyFolders, List.append_left_inj, afterRename_profiles, List.map_map, List.map_inj_left]
    refine forall₂_congr fun p _ => ?_
    exact move_eq_self_iff hne p.folder
  rw [ne_eq, hpaths, renameFolder, if_neg hne]
  split
  next hany => simpa using hany
  next hany => simpa using hany

theorem paths_afterRename {s : ProfileStore} (h : s.NoneEmpty oldPath) :
    (s.afterRename oldPath newPath).paths = s.paths.map (move '/' oldPath newPath) := by
  rw [paths, paths, List.map_append, afterRename_profiles, afterRename_emptyFolders, List.map_map, List.map_map]
  refine congrArg₂ _ rfl ?_
  conv => lhs; rw [← List.map_id s.emptyFolders]
  exact List.map_congr_left fun f hf => (move_of_not_matches (h f hf)).symm

end ProfileStore

end LvdTerm.Core
