import Mathlib.Data.List.TakeWhile
import LvdTerm.Ui.ConnectionTreeDock

/-!
# ConnectionTreeDock: the tree shows the folders

The tree has one node for each folder as long as the stored paths are normalised (`foldersShown_iff`). The dialog for a connection
normalises what is typed; those for the name of a folder do not, and every path stays normalised just as long as every name does.
-/
namespace LvdTerm.Ui

open Core Lib.Components

/-! ## Normalised paths -/

theorem mem_dropWhile {α : Type} {p : α → Bool} {l : List α} {a : α} (h : a ∈ l) (ha : ¬ p a = true) : a ∈ l.dropWhile p := by
  rw [← List.takeWhile_append_dropWhile (p := p) (l := l), List.mem_append] at h
  exact h.resolve_left fun hmem => ha (List.mem_takeWhile_imp hmem)

/-- Trimming takes nothing but space away. -/
theorem mem_trimmed_of_not_space {text : QString} {c : Char} (h : c ∈ text) (hc : ¬ isSpace c = true) : c ∈ trimmed text := by
  rw [trimmed, List.mem_reverse]
  exact mem_dropWhile (List.mem_reverse.mpr (mem_dropWhile h hc)) hc

theorem mem_of_mem_trimmed {text : QString} {c : Char} (h : c ∈ trimmed text) : c ∈ text := by
  rw [trimmed, List.mem_reverse] at h
  have hmem := (List.dropWhile_suffix isSpace).subset h
  exact (List.dropWhile_suffix isSpace).subset (List.mem_reverse.mp hmem)

theorem trimmed_eq_nil_iff (text : QString) : trimmed text = [] ↔ ∀ c ∈ text, isSpace c = true := by
  constructor
  · intro h c hc
    by_contra hspace
    have hmem := mem_trimmed_of_not_space hc hspace
    simp [h] at hmem
  · intro h
    simp [trimmed, List.dropWhile_eq_nil_iff.mpr h]

theorem trimmed_trimmed_ne_nil {text : QString} (h : trimmed text ≠ []) : trimmed (trimmed text) ≠ [] := by
  rw [ne_eq, trimmed_eq_nil_iff] at h ⊢
  intro hall
  exact h fun c hc => by
    by_contra hspace
    exact hspace (hall c (mem_trimmed_of_not_space hc hspace))

/-- No name between the slashes is empty or blank. -/
def Solid (path : QString) : Prop := ∀ part ∈ path.splitOn '/', trimmed part ≠ []

/-- No empty or blank component, and no slash at either end. -/
def Normalised (path : QString) : Prop := path = [] ∨ Solid path

theorem not_solid_nil : ¬ Solid [] := fun h => h [] (by simp) (by simp [trimmed])

theorem normalised_iff {path : QString} (h : path ≠ []) : Normalised path ↔ Solid path := or_iff_right h

theorem solid_append (path path' : QString) : Solid (path ++ '/' :: path') ↔ Solid path ∧ Solid path' := by
  simp only [Solid, List.splitOn_append_cons_self, List.mem_append, or_imp, forall_and]

theorem Normalised.tidy {path : QString} (h : Normalised path) : Tidy '/' path := by
  refine tidy_iff.mpr (h.imp_right fun hsolid hnil => ?_)
  exact hsolid [] hnil (by simp [trimmed])

theorem Normalised.below {path upper : QString} (h : Normalised path) (hbelow : Below '/' upper path) : Normalised upper := by
  obtain ⟨rest, rfl⟩ := below_iff.mp hbelow
  exact .inr ((solid_append upper rest).mp (h.resolve_left (by simp))).1

theorem normalised_dialogProfile (fields : ConnectionProfile) : Normalised (dialogProfile fields).folder := by
  have hname : ∀ name ∈ ((parts '/' fields.folder).filter (trimmed · ≠ [])).map trimmed, '/' ∉ name ∧ trimmed name ≠ [] := by
    intro name hname
    obtain ⟨part, hpart, rfl⟩ := List.mem_map.mp hname
    rw [List.mem_filter] at hpart
    refine ⟨fun hslash => (isName_of_mem_parts hpart.1).2 (mem_of_mem_trimmed hslash), trimmed_trimmed_ne_nil ?_⟩
    simpa using hpart.2
  by_cases hnil : ((parts '/' fields.folder).filter (trimmed · ≠ [])).map trimmed = []
  · left
    simp only [dialogProfile]
    rw [hnil, join_nil]
  · right
    unfold Solid
    simp only [dialogProfile, join]
    rw [List.splitOn_intercalate '/' (fun name h => (hname name h).1) hnil]
    exact fun name h => (hname name h).2

namespace ConnectionTreeDock

/-! ## The nodes of the tree -/

theorem split_lastSlash (path : QString) :
    ('/' ∉ path ∧ beforeLastSlash path = [] ∧ afterLastSlash path = path) ∨
      (path = beforeLastSlash path ++ '/' :: afterLastSlash path ∧ '/' ∉ afterLastSlash path) := by
  have hsplit := List.takeWhile_append_dropWhile (p := (· ≠ '/')) (l := path.reverse)
  have hafter : '/' ∉ afterLastSlash path := by
    intro h
    rw [afterLastSlash, List.mem_reverse] at h
    simpa using List.mem_takeWhile_imp h
  cases hrest : path.reverse.dropWhile (· ≠ '/') with
  | nil =>
    rw [hrest, List.append_nil] at hsplit
    have hsame : afterLastSlash path = path := by rw [afterLastSlash, hsplit, List.reverse_reverse]
    have hbefore : beforeLastSlash path = [] := by
      rw [beforeLastSlash, hrest]
      rfl
    exact .inl ⟨hsame ▸ hafter, hbefore, hsame⟩
  | cons c rest =>
    have hslash : c = '/' := by
      have hhead := List.head?_dropWhile_not (fun c => decide (c ≠ '/')) path.reverse
      simpa only [hrest, List.head?_cons, Bool.not_eq_true, decide_eq_false_iff_not, ne_eq, not_not] using hhead
    have hbefore : beforeLastSlash path = rest.reverse := by
      rw [beforeLastSlash, hrest]
      rfl
    refine .inr ⟨?_, hafter⟩
    rw [hrest, hslash] at hsplit
    have hpath := congrArg List.reverse hsplit
    rw [List.reverse_append, List.reverse_cons, List.reverse_reverse, ← hbefore, ← afterLastSlash] at hpath
    simpa using hpath.symm

/-- What is above a path is its parent, or above that. -/
theorem below_iff_parent {path upper : QString} (h : upper ≠ []) :
    Below '/' upper path ↔ upper = beforeLastSlash path ∨ Below '/' upper (beforeLastSlash path) := by
  rcases split_lastSlash path with ⟨hnone, hbefore, -⟩ | ⟨hpath, hafter⟩
  · rw [hbefore]
    constructor
    · intro hbelow
      obtain ⟨rest, rfl⟩ := below_iff.mp hbelow
      simp at hnone
    · rintro (hnil | hbelow)
      · exact absurd hnil h
      · obtain ⟨rest, hrest⟩ := below_iff.mp hbelow
        simp at hrest
  · generalize beforeLastSlash path = before at hpath ⊢
    generalize afterLastSlash path = after at hpath hafter
    subst hpath
    constructor
    · intro hbelow
      obtain ⟨rest, hrest⟩ := below_iff.mp hbelow
      rcases List.append_eq_append_iff.mp hrest with ⟨more, hupper, htail⟩ | ⟨more, hbefore, htail⟩
      · cases more with
        | nil => exact .inl (by simpa using hupper)
        | cons c more =>
          rw [List.cons_append, List.cons.injEq] at htail
          rw [htail.2] at hafter
          simp at hafter
      · cases more with
        | nil => exact .inl (by simpa using hbefore.symm)
        | cons c more =>
          obtain ⟨rfl, -⟩ := List.cons.inj htail
          exact .inr (below_iff.mpr ⟨more, hbefore⟩)
    · rintro (rfl | hbelow)
      · exact below_iff.mpr ⟨_, rfl⟩
      · obtain ⟨rest, rfl⟩ := below_iff.mp hbelow
        exact below_iff.mpr ⟨rest ++ '/' :: after, by simp⟩

/-- The folders that have a node, in the order of the nodes. -/
def folderNodes (items : List Item) : List QString := items.filterMap Item.folderPath?

theorem folderNodes_append (items items' : List Item) : folderNodes (items ++ items') = folderNodes items ++ folderNodes items' :=
  List.filterMap_append

/-- One node for each of the folders of these paths, and of those above them. -/
structure ShowsFolders (paths : List QString) (items : List Item) : Prop where
  mem : ∀ x, x ∈ folderNodes items ↔ ∃ path ∈ paths, x ≠ [] ∧ (x = path ∨ Below '/' x path)
  nodup : (folderNodes items).Nodup

theorem ShowsFolders.connection {paths : List QString} {items : List Item} (h : ShowsFolders paths items) (id : QUuid)
    (text parent : QString) : ShowsFolders paths (items ++ [.connection id text parent]) := by
  have hsame : folderNodes (items ++ [.connection id text parent]) = folderNodes items := by
    rw [folderNodes_append]
    exact List.append_nil _
  exact ⟨fun x => by rw [hsame, h.mem], hsame ▸ h.nodup⟩

theorem ShowsFolders.ensure {paths : List QString} {items : List Item} (h : ShowsFolders paths items) (path : QString) :
    ShowsFolders (paths ++ [path]) (ensureFolderItem path items) := by
  fun_induction ensureFolderItem path items with
  | case1 =>
    refine ⟨fun x => ?_, h.nodup⟩
    rw [h.mem x]
    simp only [List.mem_append, List.mem_singleton, or_and_right, exists_or, exists_eq_left]
    refine (or_iff_left ?_).symm
    rintro ⟨hne, rfl | hbelow⟩
    · exact hne rfl
    · obtain ⟨rest, hrest⟩ := below_iff.mp hbelow
      simp at hrest
  | case2 path hne hmem =>
    refine ⟨fun x => ?_, h.nodup⟩
    rw [h.mem x]
    simp only [List.mem_append, List.mem_singleton, or_and_right, exists_or, exists_eq_left]
    refine (or_iff_left_of_imp ?_).symm
    obtain ⟨path', hpath', -, hbelow'⟩ := (h.mem path).mp hmem
    rintro ⟨hxne, hx⟩
    refine ⟨path', hpath', hxne, ?_⟩
    rcases hx with rfl | hx
    · exact hbelow'
    · obtain ⟨rest, rfl⟩ := below_iff.mp hx
      rcases hbelow' with rfl | hbelow'
      · exact .inr hx
      · obtain ⟨rest', rfl⟩ := below_iff.mp hbelow'
        exact .inr (below_iff.mpr ⟨rest ++ '/' :: rest', by simp⟩)
  | case3 path hne hmem parentPath ih =>
    have hnode : folderNodes (ensureFolderItem parentPath items ++ [.folder path (afterLastSlash path) parentPath]) =
        folderNodes (ensureFolderItem parentPath items) ++ [path] := folderNodes_append _ _
    have hnew (x : QString) : x ≠ [] ∧ (x = path ∨ Below '/' x path) ↔
        x = path ∨ x ≠ [] ∧ (x = parentPath ∨ Below '/' x parentPath) := by
      by_cases hx : x = []
      · simp [hx, Ne.symm hne]
      · rw [below_iff_parent hx]
        simp only [ne_eq, hx, not_false_eq_true, true_and]
        rfl
    refine ⟨fun x => ?_, ?_⟩
    · rw [hnode, List.mem_append, ih.mem x]
      simp only [List.mem_append, List.mem_singleton, or_and_right, exists_or, exists_eq_left, hnew]
      rw [or_assoc, or_comm (a := _ ∧ _)]
    · rw [hnode, List.nodup_append]
      refine ⟨ih.nodup, by simp, ?_⟩
      rintro x hx y hy rfl
      rw [List.mem_singleton] at hy
      subst hy
      obtain ⟨path', hpath', hxne, hx⟩ := (ih.mem x).mp hx
      rcases List.mem_append.mp hpath' with hold | hparent
      · exact hmem ((h.mem x).mpr ⟨path', hold, hxne, hx⟩)
      · obtain rfl := List.mem_singleton.mp hparent
        have hshorter : parentPath.length < x.length := length_beforeLastSlash_lt hxne
        rcases hx with hx | hx
        · exact absurd (congrArg List.length hx) (Nat.ne_of_gt hshorter)
        · have hlength := List.IsPrefix.length_le hx
          rw [List.length_append, List.length_singleton] at hlength
          omega

theorem showsFolders_rebuildTree (s : ProfileStore) : ShowsFolders (s.emptyFolders ++ s.profiles.map (·.folder)) (rebuildTree s) := by
  have hempty (folders paths : List QString) (items : List Item) (h : ShowsFolders paths items) :
      ShowsFolders (paths ++ folders) (folders.foldl (fun items folder => ensureFolderItem folder items) items) := by
    induction folders generalizing paths items with
    | nil => simpa using h
    | cons folder folders ih => simpa using ih (paths ++ [folder]) _ (h.ensure folder)
  have hprofiles (profiles : List ConnectionProfile) (paths : List QString) (items : List Item) (h : ShowsFolders paths items) :
      ShowsFolders (paths ++ profiles.map (·.folder)) (addConnections profiles items) := by
    induction profiles generalizing paths items with
    | nil =>
      rw [List.map_nil, List.append_nil]
      exact h
    | cons p profiles ih =>
      have ih := ih _ _ ((h.ensure p.folder).connection p.id (if p.name = [] then "(unnamed)".toList else p.name) p.folder)
      rwa [List.append_assoc] at ih
  exact hprofiles _ _ _ (by simpa using hempty s.emptyFolders [] [] ⟨by simp [folderNodes], by simp [folderNodes]⟩)

theorem mem_folderNodes_rebuildTree (s : ProfileStore) (x : QString) :
    x ∈ folderNodes (rebuildTree s) ↔ ∃ path ∈ s.paths, x ≠ [] ∧ (x = path ∨ Below '/' x path) := by
  rw [(showsFolders_rebuildTree s).mem x]
  simp only [ProfileStore.paths, List.mem_append, or_comm]

/-! ## Paths that stay normalised -/

/-- The stored paths are normalised, and the tree has one node for each folder and no others. -/
structure FoldersShown (s : ProfileStore) : Prop where
  normalised : ∀ path ∈ s.paths, Normalised path
  folders : ∀ x, x ∈ folderNodes (rebuildTree s) ↔ x ∈ s.allFolders
  single : (folderNodes (rebuildTree s)).Nodup

theorem foldersShown_iff (s : ProfileStore) : FoldersShown s ↔ ∀ path ∈ s.paths, Normalised path := by
  refine ⟨FoldersShown.normalised, fun h => ⟨h, fun x => ?_, (showsFolders_rebuildTree s).nodup⟩⟩
  rw [mem_folderNodes_rebuildTree, s.mem_allFolders, List.mem_flatMap]
  refine exists_congr fun path => and_congr_right fun hpath => ?_
  rw [mem_withAbove]
  refine and_congr_right fun hne => ?_
  constructor
  · intro hx
    have htidy : Tidy '/' x := by
      rcases hx with rfl | hx
      · exact (h x hpath).tidy
      · exact ((h path hpath).below hx).tidy
    exact ⟨htidy, (prefix_iff htidy hne (h path hpath).tidy).mpr (hx.imp_left Eq.symm)⟩
  · rintro ⟨htidy, habove⟩
    exact ((prefix_iff htidy hne (h path hpath).tidy).mp habove).imp_left Eq.symm

theorem connection_mem_ensureFolderItem {id : QUuid} {text parent path : QString} {items : List Item}
    (h : .connection id text parent ∈ ensureFolderItem path items) : .connection id text parent ∈ items := by
  fun_induction ensureFolderItem path items with
  | case1 => exact h
  | case2 path hne hmem => exact h
  | case3 path hne hmem parentPath ih => exact ih (by simpa using h)

theorem parent_mem_paths {s : ProfileStore} {id : QUuid} {text parent : QString}
    (h : .connection id text parent ∈ rebuildTree s) : parent ∈ s.paths := by
  have hempty (folders : List QString) (items : List Item)
      (hitem : .connection id text parent ∈ folders.foldl (fun items folder => ensureFolderItem folder items) items) :
      .connection id text parent ∈ items := by
    induction folders generalizing items with
    | nil => exact hitem
    | cons folder folders ih => exact connection_mem_ensureFolderItem (ih _ hitem)
  have hprofiles (profiles : List ConnectionProfile) (items : List Item)
      (hitem : .connection id text parent ∈ addConnections profiles items) :
      .connection id text parent ∈ items ∨ parent ∈ profiles.map (·.folder) := by
    induction profiles generalizing items with
    | nil => exact .inl hitem
    | cons p profiles ih =>
      rw [List.map_cons, List.mem_cons]
      rcases ih _ hitem with hmem | hrest
      · rcases List.mem_append.mp hmem with hmem | hlast
        · exact .inl (connection_mem_ensureFolderItem hmem)
        · rw [List.mem_singleton, Item.connection.injEq] at hlast
          exact .inr (.inl hlast.2.2)
      · exact .inr (.inr hrest)
  rcases hprofiles _ _ h with hnone | hparent
  · have hnil := hempty s.emptyFolders [] hnone
    simp at hnil
  · exact List.mem_append_left _ hparent

section Steps

variable {s : ProfileStore} (h : ∀ path ∈ s.paths, Normalised path)
include h

theorem normalised_of_folder {item : Nat} {path text parent : QString}
    (hitem : (rebuildTree s)[item]? = some (.folder path text parent)) : path ≠ [] ∧ Normalised path := by
  have hnode : path ∈ folderNodes (rebuildTree s) := List.mem_filterMap.mpr ⟨_, List.mem_of_getElem? hitem, rfl⟩
  obtain ⟨path', hpath', hne, hx⟩ := (mem_folderNodes_rebuildTree s path).mp hnode
  rcases hx with rfl | hbelow
  · exact ⟨hne, h path hpath'⟩
  · exact ⟨hne, (h path' hpath').below hbelow⟩

theorem normalised_folderPathOf (item : Nat) : Normalised (folderPathOf (rebuildTree s)[item]?) := by
  cases hitem : (rebuildTree s)[item]? with
  | none => exact .inl rfl
  | some i =>
    cases i with
    | folder path text parent => exact (normalised_of_folder h hitem).2
    | connection id text parent => exact h parent (parent_mem_paths (List.mem_of_getElem? hitem))

theorem normalised_addProfile {p : ConnectionProfile} (hp : Normalised p.folder) :
    ∀ path ∈ ((s.addProfile p).getD s).paths, Normalised path := by
  intro path hpath
  simp only [ProfileStore.addProfile, Option.getD_some, ProfileStore.paths, List.map_append, List.map_cons, List.map_nil,
    List.mem_append, List.mem_singleton] at hpath
  rcases hpath with (hold | rfl) | hold
  · exact h path (List.mem_append_left _ hold)
  · exact hp
  · exact h path (List.mem_append_right _ hold)

theorem normalised_updateProfile {p : ConnectionProfile} (hp : Normalised p.folder) :
    ∀ path ∈ ((s.updateProfile p).getD s).paths, Normalised path := by
  unfold ProfileStore.updateProfile
  split
  · exact h
  next i hi =>
    intro path hpath
    rcases List.mem_append.mp hpath with hmap | hold
    · obtain ⟨q, hq, rfl⟩ := List.mem_map.mp hmap
      rcases List.mem_or_eq_of_mem_set hq with hold | rfl
      · exact h q.folder (List.mem_append_left _ (List.mem_map_of_mem hold))
      · exact hp
    · exact h path (List.mem_append_right _ hold)

/-- Profiles and folders that are taken away leave the others normalised. -/
theorem normalised_of_subset {after : Option ProfileStore}
    (hafter : ∀ s', after = some s' → (∀ p ∈ s'.profiles, p ∈ s.profiles) ∧ ∀ f ∈ s'.emptyFolders, f ∈ s.emptyFolders) :
    ∀ path ∈ (after.getD s).paths, Normalised path := by
  cases after with
  | none => exact h
  | some s' =>
    obtain ⟨hprofiles, hfolders⟩ := hafter s' rfl
    intro path hpath
    rcases List.mem_append.mp hpath with hmap | hmem
    · obtain ⟨p, hp, rfl⟩ := List.mem_map.mp hmap
      exact h p.folder (List.mem_append_left _ (List.mem_map_of_mem (hprofiles p hp)))
    · exact h path (List.mem_append_right _ (hfolders path hmem))

theorem normalised_deleteItem (item : Option Item) (yes : Bool) : ∀ path ∈ ((deleteItem item yes s).getD s).paths, Normalised path := by
  refine normalised_of_subset h fun s' hs' => ?_
  unfold deleteItem at hs'
  split at hs'
  · split at hs'
    · unfold ProfileStore.removeProfile at hs'
      dsimp only at hs'
      split at hs'
      · cases hs'
        exact ⟨fun p hp => (List.mem_filter.mp hp).1, fun f hf => hf⟩
      · cases hs'
    · cases hs'
  · cases hs'

theorem normalised_deleteFolder (item : Option Item) (yes : Bool) :
    ∀ path ∈ ((deleteFolder item yes s).getD s).paths, Normalised path := by
  refine normalised_of_subset h fun s' hs' => ?_
  unfold deleteFolder at hs'
  split at hs'
  · split at hs'
    · unfold ProfileStore.removeFolder at hs'
      dsimp only at hs'
      split at hs'
      · cases hs'
      · split at hs'
        · cases hs'
          exact ⟨fun p hp => (List.mem_filter.mp hp).1, fun f hf => (List.mem_filter.mp hf).1⟩
        · cases hs'
    · cases hs'
  · cases hs'

omit h in
theorem solid_under_iff {parentPath name : QString} (hparent : Normalised parentPath) (hname : name ≠ []) :
    Normalised (under parentPath name) ↔ Normalised name := by
  unfold under
  split
  · exact Iff.rfl
  next hne =>
    rw [normalised_iff (by simp), normalised_iff hname, solid_append]
    exact and_iff_right (hparent.resolve_left hne)

theorem normalised_newFolder_iff (item : Nat) (name : QString) :
    (∀ path ∈ ((newFolder (rebuildTree s)[item]? (some name) s).getD s).paths, Normalised path) ↔ Normalised name := by
  unfold newFolder
  by_cases hname : name = []
  · simp only [hname, if_true, Option.getD_none]
    exact iff_of_true h (.inl rfl)
  simp only [if_neg hname, ProfileStore.addEmptyFolder]
  have hunder := solid_under_iff (normalised_folderPathOf h item) hname
  split
  next hskip =>
    have hne : under (folderPathOf (rebuildTree s)[item]?) name ≠ [] := by
      unfold under
      split <;> simp [hname]
    have hmem := List.mem_append_right (s.profiles.map (·.folder)) (hskip.resolve_left hne)
    exact iff_of_true h (hunder.mp (h _ hmem))
  · rw [← hunder]
    simp only [Option.getD_some, ProfileStore.paths, List.mem_append, List.mem_singleton]
    constructor
    · intro hall
      exact hall _ (.inr (.inr rfl))
    · rintro hnew path (hold | hold | rfl)
      · exact h path (List.mem_append_left _ hold)
      · exact h path (List.mem_append_right _ hold)
      · exact hnew

/-- What a rename puts in is normalised if and only if the new path is, where there is something to rename. -/
theorem normalised_renameFolder_iff {oldPath newPath : QString} (hnew : newPath ≠ [])
    (hany : (s.profiles.any fun p => matchesFolder oldPath p.folder) = true) :
    (∀ path ∈ (s.afterRename oldPath newPath).paths, Normalised path) ↔ Normalised newPath := by
  rw [ProfileStore.paths, ProfileStore.afterRename_profiles, ProfileStore.afterRename_emptyFolders]
  simp only [List.map_map, List.mem_append, List.mem_map, Function.comp_apply]
  constructor
  · intro hall
    obtain ⟨p, hp, hmatch⟩ := List.any_eq_true.mp hany
    have hmoved := hall _ (.inl ⟨p, hp, rfl⟩)
    rcases (ProfileStore.matchesFolder_iff _ _).mp hmatch with hat | hbelow
    · rwa [move, if_pos hat] at hmoved
    · obtain ⟨rest, hrest⟩ := below_iff.mp hbelow
      rw [move, if_neg (by simp [hrest]), if_pos hbelow, hrest, List.drop_left, normalised_iff (by simp), solid_append] at hmoved
      exact .inr hmoved.1
  · rintro hpath path (⟨p, hp, rfl⟩ | hold)
    · have hfolder := h p.folder (List.mem_append_left _ (List.mem_map_of_mem hp))
      unfold move
      split
      · exact hpath
      · split
        next hbelow =>
          obtain ⟨rest, hrest⟩ := below_iff.mp hbelow
          rw [hrest, normalised_iff (by simp), solid_append] at hfolder
          rw [hrest, List.drop_left, normalised_iff (by simp), solid_append]
          exact ⟨hpath.resolve_left hnew, hfolder.2⟩
        · exact hfolder
    · exact h path (List.mem_append_right _ hold)

theorem normalised_renameFolderItem_iff (item : Nat) (newName : QString) :
    (∀ path ∈ ((renameFolderItem (rebuildTree s)[item]? (some newName) s).getD s).paths, Normalised path) ↔
      ∀ oldPath text parent, (rebuildTree s)[item]? = some (.folder oldPath text parent) → newName ≠ text →
        (s.profiles.any fun p => matchesFolder oldPath p.folder) = true → Normalised newName := by
  cases hitem : (rebuildTree s)[item]? with
  | none => exact iff_of_true h (by simp)
  | some i =>
    cases i with
    | connection id text parent => exact iff_of_true h (by simp)
    | folder oldPath text parent =>
      simp only [Option.some.injEq, Item.folder.injEq, renameFolderItem]
      by_cases hskip : newName = [] ∨ newName = text
      · rw [if_pos hskip]
        refine iff_of_true h ?_
        rintro _ _ _ ⟨-, htext, -⟩ hne -
        exact .inl (hskip.resolve_right fun hsame => hne (hsame.trans htext))
      rw [if_neg hskip]
      rw [not_or] at hskip
      have hold := normalised_of_folder h hitem
      have hparent : Normalised (beforeLastSlash oldPath) := by
        rcases split_lastSlash oldPath with ⟨-, hnil, -⟩ | ⟨hsplit, -⟩
        · exact .inl hnil
        · exact hold.2.below (below_iff.mpr ⟨_, hsplit⟩)
      have hunder := solid_under_iff hparent hskip.1
      by_cases hany : (s.profiles.any fun p => matchesFolder oldPath p.folder) = true
      · have hne : under (beforeLastSlash oldPath) newName ≠ [] := by
          unfold under
          split <;> simp [hskip.1]
        rw [← ProfileStore.afterRename, normalised_renameFolder_iff h hne hany, hunder]
        constructor
        · intro hnew _ _ _ _ _ _
          exact hnew
        · intro hall
          exact hall oldPath text parent ⟨rfl, rfl, rfl⟩ hskip.2 hany
      · have hnone : s.renameFolder oldPath (under (beforeLastSlash oldPath) newName) = none := by
          unfold ProfileStore.renameFolder
          rw [if_neg hany, ite_self]
        rw [hnone]
        refine iff_of_true h ?_
        rintro _ _ _ ⟨hpath, -, -⟩ - hmatch
        exact absurd (hpath ▸ hmatch) hany

end Steps

/-- A name that is typed for a folder, and gets into a path, is normalised itself. -/
def NamesFolder (s : ProfileStore) : Event → Prop
  | .newFolder _ (some name) => Normalised name
  | .renameFolderItem item (some newName) =>
    ∀ oldPath text parent, (rebuildTree s)[item]? = some (.folder oldPath text parent) → newName ≠ text →
      (s.profiles.any fun p => matchesFolder oldPath p.folder) = true → Normalised newName
  | _ => True

theorem normalised_step_iff {s : ProfileStore} (h : ∀ path ∈ s.paths, Normalised path) (event : Event) :
    (∀ path ∈ (step s event).paths, Normalised path) ↔ NamesFolder s event := by
  cases event with
  | newConnection fields =>
    refine iff_of_true ?_ trivial
    cases fields with
    | none => exact h
    | some fields => exact normalised_addProfile h (normalised_dialogProfile fields)
  | editItem item fields =>
    refine iff_of_true ?_ trivial
    unfold step change editItem
    dsimp only
    split
    next p fields' _ => exact normalised_updateProfile h (normalised_dialogProfile _)
    · exact h
  | duplicateItem item newId =>
    refine iff_of_true ?_ trivial
    unfold step change duplicateItem
    dsimp only
    split
    · exact h
    next p hp =>
      refine normalised_addProfile h (h p.folder ?_)
      have hmem : p ∈ s.profiles := by
        unfold profileOf at hp
        split at hp
        · exact List.mem_of_find?_eq_some hp
        · cases hp
      exact List.mem_append_left _ (List.mem_map_of_mem hmem)
  | deleteItem item yes => exact iff_of_true (normalised_deleteItem h _ yes) trivial
  | renameFolderItem item answer =>
    cases answer with
    | none =>
      refine iff_of_true ?_ trivial
      have hnone : change s (.renameFolderItem item none) = none := by simp [change, renameFolderItem]
      rw [step, hnone]
      exact h
    | some newName => exact normalised_renameFolderItem_iff h item newName
  | newFolder item answer =>
    cases answer with
    | none => exact iff_of_true h trivial
    | some name => exact normalised_newFolder_iff h item name
  | deleteFolder item yes => exact iff_of_true (normalised_deleteFolder h _ yes) trivial

/-- The tree shows the folders all along if and only if every name typed for a folder is normalised. -/
theorem folders_stay_shown_iff (events : List Event) {s : ProfileStore} (h : ∀ path ∈ s.paths, Normalised path) :
    (∀ done, done <+: events → FoldersShown (Lib.Runs.run step done s)) ↔ Lib.Runs.Along step NamesFolder events s := by
  simp only [foldersShown_iff]
  exact (Lib.Runs.along_iff_always (I := fun s : ProfileStore => ∀ path ∈ s.paths, Normalised path) (fun _ event hs => normalised_step_iff hs event)
    events h).symm

/-- A folder is made below one that is there. -/
theorem folders_shown_nested :
    FoldersShown (Lib.Runs.run step [.newFolder 0 (some "Work".toList), .newFolder 0 (some "Servers".toList)] ⟨[], []⟩) := by
  have hsolid (name : QString) (hslash : '/' ∉ name) (hname : trimmed name ≠ []) : Normalised name := by
    refine .inr fun part hpart => ?_
    rw [List.splitOn_eq_singleton hslash, List.mem_singleton] at hpart
    exact hpart ▸ hname
  have hwork := hsolid "Work".toList (by simp) (by simp [trimmed, isSpace])
  have hservers := hsolid "Servers".toList (by simp) (by simp [trimmed, isSpace])
  exact (folders_stay_shown_iff [.newFolder 0 (some "Work".toList), .newFolder 0 (some "Servers".toList)] (s := ⟨[], []⟩)
    (by simp [ProfileStore.paths])).mpr ⟨hwork, hservers, trivial⟩ _ (List.prefix_refl _)

/-- The name of a new folder is taken as it is. -/
theorem two_slashes_kept : ¬ FoldersShown (Lib.Runs.run step [.newFolder 0 (some "a//b".toList)] ⟨[], []⟩) := by
  intro h
  have hmem : "a//b".toList ∈
      (Lib.Runs.run step [.newFolder 0 (some "a//b".toList)] ⟨[], []⟩ : ProfileStore).paths := by
    simp [Lib.Runs.run, step, change, newFolder, under, folderPathOf, rebuildTree, addConnections, ProfileStore.addEmptyFolder,
      ProfileStore.paths]
  have hsolid := (h.normalised _ hmem).resolve_left (by simp)
  have hparts : "a//b".toList = ['a'] ++ '/' :: ([] ++ '/' :: ['b']) := by simp
  rw [hparts, solid_append, solid_append] at hsolid
  exact not_solid_nil hsolid.2.1

end ConnectionTreeDock

end LvdTerm.Ui
