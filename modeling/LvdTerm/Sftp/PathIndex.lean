import LvdTerm.Lib.KeyIndex
import LvdTerm.Sftp.NodeTree
import Mathlib.Data.List.Induction

/-!
# SftpModel: the index by path

`m_byPath` is kept by hand next to the tree. It never holds a pointer to a node that is gone. It holds every node, as its
comment says, exactly as long as nothing is inserted under a path that a node of the tree has already.
-/
namespace LvdTerm.Sftp

open Lib Lib.Paths SftpModel
open Lib.KeyIndex (Sound Exact)

/-- The tree, and `m_byPath`; a node's number stands for its address. -/
structure IndexedModel where
  tree : SftpModel
  byPath : Text → Option Nat

/-- The calls that change the tree. -/
inductive ModelCall where
  | setRoot (path : Text)
  | applyDirectoryListing (path : Text) (entries : List SftpEntry)
  | removeEntry (path : Text)
  | addPlaceholderDirectory (parentPath name : Text)

namespace IndexedModel

/-! ## The model -/

def insertIntoCache (byPath : Text → Option Nat) (n : SftpModel.Node) : Text → Option Nat := KeyIndex.insert byPath (n.info.path, n.info.number)

mutual

def removeFromCache (byPath : Text → Option Nat) : SftpModel.Node → Text → Option Nat
  | .mk info children => removeAllFromCache (KeyIndex.erase byPath info.path) children

def removeAllFromCache (byPath : Text → Option Nat) : List SftpModel.Node → Text → Option Nat
  | [] => byPath
  | n :: ns => removeAllFromCache (removeFromCache byPath n) ns

end

/-- The constructor's root. -/
def start : IndexedModel := ⟨.empty, insertIntoCache (fun _ => none) SftpModel.empty.root⟩

def setRoot (path : Text) (m : IndexedModel) : IndexedModel :=
  let tree := m.tree.setRoot path
  ⟨tree, insertIntoCache (fun _ => none) tree.root⟩

/-- A pointer is followed; `none` if its node was deleted. -/
def deref (number : Nat) (m : IndexedModel) : Option SftpModel.Node := m.tree.root.all.find? fun n => n.info.number = number

def applyDirectoryListing (path : Text) (entries : List SftpEntry) (m : IndexedModel) : Option IndexedModel :=
  match m.byPath path with
  | none => some m
  | some number => do
    let node ← m.deref number
    let byPath := removeAllFromCache m.byPath node.children
    let listed := childNodes path m.tree.next entries
    some ⟨⟨m.tree.root.modify number (SftpModel.Node.list listed), m.tree.next + entries.length⟩, listed.foldl insertIntoCache byPath⟩

/-- Only the root has no parent. -/
def removeEntry (path : Text) (m : IndexedModel) : Option IndexedModel :=
  match m.byPath path with
  | none => some m
  | some number => do
    let node ← m.deref number
    if number = m.tree.root.info.number then some m
    else some ⟨{ m.tree with root := m.tree.root.remove number }, removeFromCache m.byPath node⟩

def addPlaceholderDirectory (parentPath name : Text) (m : IndexedModel) : Option IndexedModel :=
  match m.byPath parentPath with
  | none => some m
  | some number => do
    let parent ← m.deref number
    if parent.info.childrenLoaded then
      let child : SftpModel.Node := .mk ⟨m.tree.next, name, joinRemotePath parentPath name, true, 0, 0, false, false⟩ []
      some ⟨⟨m.tree.root.modify number (SftpModel.Node.append child), m.tree.next + 1⟩, insertIntoCache m.byPath child⟩
    else some m

def perform (m : IndexedModel) : ModelCall → Option IndexedModel
  | .setRoot path => some (m.setRoot path)
  | .applyDirectoryListing path entries => m.applyDirectoryListing path entries
  | .removeEntry path => m.removeEntry path
  | .addPlaceholderDirectory parentPath name => m.addPlaceholderDirectory parentPath name

/-- `none` if a pointer to a deleted node is followed. -/
def run (calls : List ModelCall) : Option IndexedModel := calls.foldlM perform start

/-! ## What the index owes -/

/-- The paths and addresses of a node and the nodes under it. -/
def nodePlaces (n : SftpModel.Node) : List (Text × Nat) := n.infos.map fun i => (i.path, i.number)

def places (m : IndexedModel) : List (Text × Nat) := nodePlaces m.tree.root

/-- `m_byPath` maps a path to a node if and only if the node is in the tree and has that path. -/
def IndexExact (m : IndexedModel) : Prop := Exact m.byPath m.places

/-- What a call inserts has paths of its own: different ones, and none that a node has that stays. -/
def ownPaths (m : IndexedModel) : ModelCall → Prop
  | .setRoot _ => True
  | .applyDirectoryListing path entries => ∀ number, m.byPath path = some number →
      (entries.map fun e => joinRemotePath path e.name).Nodup ∧
        ∀ e ∈ entries, joinRemotePath path e.name ∉ (m.tree.root.modify number (SftpModel.Node.list [])).infos.map NodeInfo.path
  | .removeEntry _ => True
  | .addPlaceholderDirectory parentPath name => ∀ number parent, m.byPath parentPath = some number →
      m.deref number = some parent → parent.info.childrenLoaded = true →
      joinRemotePath parentPath name ∉ m.tree.root.infos.map NodeInfo.path

/-- What holds in every run: the nodes have different addresses, and the index holds no dangling pointer. -/
structure Sane (m : IndexedModel) : Prop where
  nodup : m.tree.root.numbers.Nodup
  lt_next : ∀ number ∈ m.tree.root.numbers, number < m.tree.next
  sound : Sound m.byPath m.places

variable {m m' : IndexedModel}

/-! ## The cache -/

theorem nodePlaces_mk (i : NodeInfo) (children : List SftpModel.Node) :
    nodePlaces (.mk i children) = (i.path, i.number) :: children.flatMap nodePlaces := by
  rw [nodePlaces, SftpModel.Node.infos_mk, List.map_cons, List.map_flatMap]
  rfl

theorem nodePlaces_snd (n : SftpModel.Node) : (nodePlaces n).map Prod.snd = n.numbers := by
  rw [nodePlaces, List.map_map]
  rfl

theorem nodePlaces_fst (n : SftpModel.Node) : (nodePlaces n).map Prod.fst = n.infos.map NodeInfo.path := by
  rw [nodePlaces, List.map_map]
  rfl

theorem removeAllFromCache_eq {ns : List SftpModel.Node}
    (ih : ∀ n ∈ ns, ∀ byPath, removeFromCache byPath n = ((nodePlaces n).map Prod.fst).foldl KeyIndex.erase byPath)
    (byPath : Text → Option Nat) :
    removeAllFromCache byPath ns = ((ns.flatMap nodePlaces).map Prod.fst).foldl KeyIndex.erase byPath := by
  induction ns generalizing byPath with
  | nil => rfl
  | cons n ns ihs =>
    rw [removeAllFromCache, ih n (List.mem_cons_self ..), ihs (fun n hn => ih n (List.mem_cons_of_mem _ hn)), List.flatMap_cons,
      List.map_append, List.foldl_append]

theorem removeFromCache_eq (n : SftpModel.Node) (byPath : Text → Option Nat) :
    removeFromCache byPath n = ((nodePlaces n).map Prod.fst).foldl KeyIndex.erase byPath := by
  induction n using SftpModel.Node.inductionOn generalizing byPath with
  | h i children ih => rw [removeFromCache, removeAllFromCache_eq ih, nodePlaces_mk, List.map_cons, List.foldl_cons]

theorem foldl_insertIntoCache (new : List SftpModel.Node) (byPath : Text → Option Nat) :
    new.foldl insertIntoCache byPath = (new.map fun n => (n.info.path, n.info.number)).foldl KeyIndex.insert byPath := by
  rw [List.foldl_map]
  rfl

/-! ## What one call does -/

/-- The node a path leads to is in the tree. -/
theorem Sane.exists_node (h : m.Sane) {path : Text} {number : Nat} (hpath : m.byPath path = some number) :
    number ∈ m.tree.root.numbers := by
  rw [← nodePlaces_snd]
  exact List.mem_map_of_mem (h.sound _ _ hpath)

theorem nodePlaces_leaf (i : NodeInfo) : nodePlaces (.mk i []) = [(i.path, i.number)] := nodePlaces_mk i []

/-- The paths of a listing, with the addresses its nodes get. -/
def entryPlaces (path : Text) (next : Nat) (entries : List SftpEntry) : List (Text × Nat) :=
  (entries.zipIdx next).map fun (e, number) => (joinRemotePath path e.name, number)

theorem nodePlaces_childNodes (path : Text) (next : Nat) (entries : List SftpEntry) :
    (childNodes path next entries).flatMap nodePlaces = entryPlaces path next entries := by
  rw [childNodes, List.flatMap_map, entryPlaces, List.map_eq_flatMap]
  rfl

theorem entryPlaces_eq (path : Text) (next : Nat) (entries : List SftpEntry) :
    (childNodes path next entries).map (fun n => (n.info.path, n.info.number)) = entryPlaces path next entries := by
  rw [childNodes, List.map_map]
  rfl

theorem entryPlaces_fst (path : Text) (next : Nat) (entries : List SftpEntry) :
    (entryPlaces path next entries).map Prod.fst = entries.map fun e => joinRemotePath path e.name := by
  rw [entryPlaces, List.map_map]
  conv_rhs => rw [← List.zipIdx_map_fst next entries, List.map_map]
  rfl

theorem entryPlaces_snd (path : Text) (next : Nat) (entries : List SftpEntry) :
    (entryPlaces path next entries).map Prod.snd = List.range' next entries.length := by
  rw [entryPlaces, List.map_map, ← List.zipIdx_map_snd next entries]
  rfl

theorem nodePlaces_perm {n t : SftpModel.Node} {rest : List NodeInfo} (h : n.infos.Perm (rest ++ t.infos)) :
    (nodePlaces n).Perm (rest.map (fun i => (i.path, i.number)) ++ nodePlaces t) := by
  have hmap := h.map fun i : NodeInfo => (i.path, i.number)
  rwa [List.map_append] at hmap

/-- A listing: its folder loses the nodes below it, and the entries come with new addresses. -/
theorem Sane.listed (h : m.Sane) {path : Text} {number : Nat} (hpath : m.byPath path = some number) (entries : List SftpEntry) :
    ∃ kept gone m', m.applyDirectoryListing path entries = some m' ∧ m.places.Perm (kept ++ gone) ∧
      (nodePlaces (m.tree.root.modify number (SftpModel.Node.list []))).Perm kept ∧
      m'.places.Perm (kept ++ entryPlaces path m.tree.next entries) ∧
      m'.tree.next = m.tree.next + entries.length ∧
      m'.byPath = (entryPlaces path m.tree.next entries).foldl KeyIndex.insert
        ((gone.map Prod.fst).foldl KeyIndex.erase m.byPath) := by
  obtain ⟨⟨i, children⟩, ht, rest, hnumber, hinfos, hchanged⟩ := SftpModel.Node.modify_context m.tree.root h.nodup (h.exists_node hpath)
  have hderef : m.deref number = some (.mk i children) := hnumber ▸ SftpModel.Node.find?_number h.nodup ht
  have hlisted (listed : List SftpModel.Node) : (nodePlaces (m.tree.root.modify number (SftpModel.Node.list listed))).Perm
      ((rest.map (fun i => (i.path, i.number)) ++ [(i.path, i.number)]) ++ listed.flatMap nodePlaces) := by
    refine (nodePlaces_perm (hchanged (SftpModel.Node.list listed))).trans (.of_eq ?_)
    rw [SftpModel.Node.list, nodePlaces_mk, List.append_assoc]
    rfl
  refine ⟨rest.map (fun i => (i.path, i.number)) ++ [(i.path, i.number)], children.flatMap nodePlaces,
    ⟨⟨m.tree.root.modify number (SftpModel.Node.list (childNodes path m.tree.next entries)), m.tree.next + entries.length⟩,
      (childNodes path m.tree.next entries).foldl insertIntoCache (removeAllFromCache m.byPath children)⟩, ?_, ?_, ?_, ?_, rfl, ?_⟩
  · rw [applyDirectoryListing, hpath]
    simp only [hderef]
    rfl
  · refine (nodePlaces_perm hinfos).trans (.of_eq ?_)
    rw [nodePlaces_mk, List.append_assoc]
    rfl
  · refine (hlisted []).trans (.of_eq ?_)
    rw [List.flatMap_nil, List.append_nil]
  · refine (hlisted _).trans (.of_eq ?_)
    rw [nodePlaces_childNodes]
  · rw [foldl_insertIntoCache, entryPlaces_eq, removeAllFromCache_eq fun n _ => removeFromCache_eq n]

/-- A removal: the node goes, with all below it. -/
theorem Sane.removed (h : m.Sane) {path : Text} {number : Nat} (hpath : m.byPath path = some number)
    (hroot : m.tree.root.info.number ≠ number) :
    ∃ kept gone m', m.removeEntry path = some m' ∧ m.places.Perm (kept ++ gone) ∧ m'.places.Perm kept ∧
      m'.tree.next = m.tree.next ∧ m'.byPath = (gone.map Prod.fst).foldl KeyIndex.erase m.byPath := by
  obtain ⟨t, ht, rest, hnumber, hinfos, hremoved⟩ := SftpModel.Node.remove_context m.tree.root h.nodup (h.exists_node hpath) hroot
  have hderef : m.deref number = some t := hnumber ▸ SftpModel.Node.find?_number h.nodup ht
  refine ⟨rest.map fun i : NodeInfo => (i.path, i.number), nodePlaces t,
    ⟨{ m.tree with root := m.tree.root.remove number }, removeFromCache m.byPath t⟩, ?_, nodePlaces_perm hinfos,
    hremoved.map fun i : NodeInfo => (i.path, i.number), rfl, removeFromCache_eq t m.byPath⟩
  rw [removeEntry, hpath]
  simp only [hderef, Option.bind_eq_bind, Option.bind_some, if_neg (Ne.symm hroot)]

theorem Sane.removeEntry_root (h : m.Sane) {path : Text} {number : Nat} (hpath : m.byPath path = some number)
    (hroot : m.tree.root.info.number = number) : m.removeEntry path = some m := by
  obtain ⟨t, ht, -, hnumber, -⟩ := SftpModel.Node.modify_context m.tree.root h.nodup (h.exists_node hpath)
  have hderef : m.deref number = some t := hnumber ▸ SftpModel.Node.find?_number h.nodup ht
  rw [removeEntry, hpath]
  simp only [hderef, Option.bind_eq_bind, Option.bind_some, if_pos hroot.symm]

/-- A placeholder: one more node, if its folder is loaded. -/
theorem Sane.added (h : m.Sane) {parentPath : Text} {number : Nat} (hpath : m.byPath parentPath = some number) (name : Text) :
    ∃ parent, m.deref number = some parent ∧
      if parent.info.childrenLoaded then
        ∃ m', m.addPlaceholderDirectory parentPath name = some m' ∧
          m'.places.Perm (m.places ++ [(joinRemotePath parentPath name, m.tree.next)]) ∧ m'.tree.next = m.tree.next + 1 ∧
          m'.byPath = KeyIndex.insert m.byPath (joinRemotePath parentPath name, m.tree.next)
      else m.addPlaceholderDirectory parentPath name = some m := by
  obtain ⟨⟨i, children⟩, ht, rest, hnumber, hinfos, hchanged⟩ := SftpModel.Node.modify_context m.tree.root h.nodup (h.exists_node hpath)
  have hderef : m.deref number = some (.mk i children) := hnumber ▸ SftpModel.Node.find?_number h.nodup ht
  refine ⟨.mk i children, hderef, ?_⟩
  rw [addPlaceholderDirectory, hpath]
  simp only [hderef, Option.bind_eq_bind, Option.bind_some]
  split
  · refine ⟨_, rfl, ?_, rfl, rfl⟩
    refine (nodePlaces_perm (hchanged _)).trans ?_
    have hbefore := (nodePlaces_perm hinfos).append_right [(joinRemotePath parentPath name, m.tree.next)]
    refine List.Perm.trans (.of_eq ?_) hbefore.symm
    rw [SftpModel.Node.append, nodePlaces_mk, nodePlaces_mk, List.flatMap_append, List.append_assoc, List.cons_append]
    rfl
  · rfl

/-! ## Every run -/

theorem nodePlaces_setRoot (path : Text) (m : IndexedModel) : (m.setRoot path).places = [(path, m.tree.next)] := nodePlaces_leaf _

theorem exact_single (p : Text) (number : Nat) : Exact (KeyIndex.insert (fun _ => none) (p, number)) [(p, number)] := by
  intro k v
  rw [KeyIndex.insert, List.mem_singleton, Prod.mk.injEq]
  split <;> simp_all [eq_comm]

theorem sane_of_perm {kept : List (Text × Nat)} (hsound : Sound m.byPath kept) (hperm : m.places.Perm kept)
    (hnodup : (kept.map Prod.snd).Nodup) (hlt : ∀ number ∈ kept.map Prod.snd, number < m.tree.next) : m.Sane := by
  have hnumbers : m.tree.root.numbers.Perm (kept.map Prod.snd) := nodePlaces_snd m.tree.root ▸ hperm.map Prod.snd
  exact ⟨hnumbers.nodup_iff.mpr hnodup, fun number hn => hlt number (hnumbers.mem_iff.mp hn), hsound.perm hperm.symm⟩

theorem sane_setRoot (path : Text) (m : IndexedModel) : (m.setRoot path).Sane :=
  sane_of_perm (exact_single path m.tree.next).sound (.of_eq (nodePlaces_setRoot path m)) (List.nodup_singleton _) (by
    intro number hnumber
    rw [List.map_singleton, List.mem_singleton] at hnumber
    exact hnumber ▸ Nat.lt_succ_self _)

section Addresses

variable {kept gone new : List (Text × Nat)}

theorem Sane.nodup_places (h : m.Sane) (hp : m.places.Perm kept) : (kept.map Prod.snd).Nodup :=
  (hp.map Prod.snd).nodup_iff.mp (nodePlaces_snd m.tree.root ▸ h.nodup)

theorem Sane.places_lt (h : m.Sane) (hp : m.places.Perm kept) : ∀ number ∈ kept.map Prod.snd, number < m.tree.next := by
  intro number hnumber
  refine h.lt_next number ?_
  rw [← nodePlaces_snd]
  exact (hp.map Prod.snd).mem_iff.mpr hnumber

theorem Sane.places_part (h : m.Sane) (hp : m.places.Perm (kept ++ gone)) :
    (kept.map Prod.snd).Nodup ∧ ∀ number ∈ kept.map Prod.snd, number < m.tree.next := by
  have hnodup := h.nodup_places hp
  have hlt := h.places_lt hp
  rw [List.map_append] at hnodup hlt
  exact ⟨hnodup.of_append_left, fun number hn => hlt number (List.mem_append_left _ hn)⟩

/-- New addresses are different from those that stay. -/
theorem nodup_new {next : Nat} (hnodup : (kept.map Prod.snd).Nodup) (hlt : ∀ number ∈ kept.map Prod.snd, number < next)
    (hnew : new.map Prod.snd = List.range' next new.length) : ((kept ++ new).map Prod.snd).Nodup := by
  rw [List.map_append, hnew, List.nodup_append]
  refine ⟨hnodup, List.nodup_range', fun a ha b hb heq => ?_⟩
  have hle := (List.mem_range'_1.mp hb).1
  have := hlt a ha
  omega

theorem lt_new {next : Nat} (hlt : ∀ number ∈ kept.map Prod.snd, number < next) (hnew : new.map Prod.snd = List.range' next new.length) :
    ∀ number ∈ (kept ++ new).map Prod.snd, number < next + new.length := by
  intro number hnumber
  rw [List.map_append, hnew, List.mem_append] at hnumber
  rcases hnumber with hkept | hnew
  · exact Nat.lt_add_right _ (hlt number hkept)
  · exact (List.mem_range'_1.mp hnew).2

end Addresses

theorem length_entryPlaces (path : Text) (next : Nat) (entries : List SftpEntry) : (entryPlaces path next entries).length = entries.length := by
  rw [entryPlaces, List.length_map, List.length_zipIdx]

theorem entryPlaces_numbered (path : Text) (next : Nat) (entries : List SftpEntry) :
    (entryPlaces path next entries).map Prod.snd = List.range' next (entryPlaces path next entries).length := by
  rw [entryPlaces_snd, length_entryPlaces]

/-- No call follows a pointer to a deleted node, or leaves one in the index. -/
theorem Sane.perform (h : m.Sane) (call : ModelCall) : ∃ m', m.perform call = some m' ∧ m'.Sane := by
  cases call with
  | setRoot path => exact ⟨_, rfl, sane_setRoot path m⟩
  | applyDirectoryListing path entries =>
    cases hpath : m.byPath path with
    | none => exact ⟨m, by rw [IndexedModel.perform, applyDirectoryListing, hpath], h⟩
    | some number =>
      obtain ⟨kept, gone, m', hcall, hplaces, -, hafter, hnext, hindex⟩ := h.listed hpath entries
      obtain ⟨hkept, hlt⟩ := h.places_part hplaces
      have hnumbered := entryPlaces_numbered path m.tree.next entries
      refine ⟨m', hcall, sane_of_perm ?_ hafter (nodup_new hkept hlt hnumbered) ?_⟩
      · rw [hindex]
        exact (h.sound.perm hplaces).foldl_erase.foldl_insert _
      · rw [hnext, ← length_entryPlaces path m.tree.next entries]
        exact lt_new hlt hnumbered
  | removeEntry path =>
    cases hpath : m.byPath path with
    | none => exact ⟨m, by rw [IndexedModel.perform, removeEntry, hpath], h⟩
    | some number =>
      by_cases hroot : m.tree.root.info.number = number
      · exact ⟨m, h.removeEntry_root hpath hroot, h⟩
      · obtain ⟨kept, gone, m', hcall, hplaces, hafter, hnext, hindex⟩ := h.removed hpath hroot
        obtain ⟨hkept, hlt⟩ := h.places_part hplaces
        refine ⟨m', hcall, sane_of_perm ?_ hafter hkept (hnext ▸ hlt)⟩
        rw [hindex]
        exact (h.sound.perm hplaces).foldl_erase
  | addPlaceholderDirectory parentPath name =>
    cases hpath : m.byPath parentPath with
    | none => exact ⟨m, by rw [IndexedModel.perform, addPlaceholderDirectory, hpath], h⟩
    | some number =>
      obtain ⟨parent, -, hadded⟩ := h.added hpath name
      split at hadded
      · obtain ⟨m', hcall, hafter, hnext, hindex⟩ := hadded
        have hnumbered : [(joinRemotePath parentPath name, m.tree.next)].map Prod.snd = List.range' m.tree.next 1 := rfl
        have hlt := h.places_lt (.refl _)
        refine ⟨m', hcall, sane_of_perm ?_ hafter (nodup_new (h.nodup_places (.refl _)) hlt hnumbered) (hnext ▸ lt_new hlt hnumbered)⟩
        rw [hindex]
        exact h.sound.foldl_insert [_]
      · exact ⟨m, hadded, h⟩

/-- A call keeps the index exact if and only if what it inserts has paths of its own. -/
theorem Sane.perform_exact_iff (h : m.Sane) (hexact : m.IndexExact) (call : ModelCall) (hcall : m.perform call = some m') :
    m'.IndexExact ↔ m.ownPaths call := by
  cases call with
  | setRoot path =>
    cases hcall
    refine iff_of_true ?_ trivial
    unfold IndexExact
    rw [nodePlaces_setRoot]
    exact exact_single path m.tree.next
  | applyDirectoryListing path entries =>
    cases hpath : m.byPath path with
    | none =>
      rw [IndexedModel.perform, applyDirectoryListing, hpath, Option.some.injEq] at hcall
      subst hcall
      refine iff_of_true hexact fun number hnumber => ?_
      rw [hpath] at hnumber
      cases hnumber
    | some number =>
      obtain ⟨kept, gone, m'', hcall', hplaces, hempty, hafter, -, hindex⟩ := h.listed hpath entries
      cases hcall'.symm.trans hcall
      obtain ⟨hkept, hlt⟩ := h.places_part hplaces
      have herased := ((KeyIndex.exact_perm hplaces).mp hexact).foldl_erase (h.nodup_places hplaces)
      have hiff := KeyIndex.exact_foldl_insert_iff herased (nodup_new hkept hlt (entryPlaces_numbered path m.tree.next entries))
      rw [IndexExact, KeyIndex.exact_perm hafter, hindex, hiff, entryPlaces_fst]
      have hpaths : ∀ p, p ∈ kept.map Prod.fst ↔ p ∈ (m.tree.root.modify number (SftpModel.Node.list [])).infos.map NodeInfo.path := by
        intro p
        rw [← nodePlaces_fst]
        exact (hempty.map Prod.fst).mem_iff.symm
      simp only [ownPaths, hpath, Option.some.injEq, forall_eq', List.forall_mem_map, hpaths]
  | removeEntry path =>
    refine iff_of_true ?_ trivial
    cases hpath : m.byPath path with
    | none =>
      rw [IndexedModel.perform, removeEntry, hpath, Option.some.injEq] at hcall
      exact hcall ▸ hexact
    | some number =>
      by_cases hroot : m.tree.root.info.number = number
      · cases (h.removeEntry_root hpath hroot).symm.trans hcall
        exact hexact
      · obtain ⟨kept, gone, m'', hcall', hplaces, hafter, -, hindex⟩ := h.removed hpath hroot
        cases hcall'.symm.trans hcall
        rw [IndexExact, KeyIndex.exact_perm hafter, hindex]
        exact ((KeyIndex.exact_perm hplaces).mp hexact).foldl_erase (h.nodup_places hplaces)
  | addPlaceholderDirectory parentPath name =>
    cases hpath : m.byPath parentPath with
    | none =>
      rw [IndexedModel.perform, addPlaceholderDirectory, hpath, Option.some.injEq] at hcall
      subst hcall
      refine iff_of_true hexact fun number _ hnumber => ?_
      rw [hpath] at hnumber
      cases hnumber
    | some number =>
      obtain ⟨parent, hderef, hadded⟩ := h.added hpath name
      have hown : m.ownPaths (.addPlaceholderDirectory parentPath name) ↔
          (parent.info.childrenLoaded = true → joinRemotePath parentPath name ∉ m.places.map Prod.fst) := by
        rw [places, nodePlaces_fst]
        refine ⟨fun hown => hown number parent hpath hderef, fun hfresh number' parent' hpath' hderef' => ?_⟩
        cases hpath.symm.trans hpath'
        cases hderef.symm.trans hderef'
        exact hfresh
      rw [hown]
      split at hadded
      · rename_i hloaded
        obtain ⟨m'', hcall', hafter, -, hindex⟩ := hadded
        cases hcall'.symm.trans hcall
        have hnumbered : [(joinRemotePath parentPath name, m.tree.next)].map Prod.snd = List.range' m.tree.next 1 := rfl
        have hiff := KeyIndex.exact_foldl_insert_iff hexact
          (nodup_new (h.nodup_places (.refl _)) (h.places_lt (.refl _)) hnumbered)
        rw [IndexExact, KeyIndex.exact_perm hafter, hindex]
        refine Iff.trans hiff ?_
        simp [hloaded]
      · rename_i hloaded
        cases hadded.symm.trans hcall
        exact iff_of_true hexact fun habs => absurd habs hloaded

theorem sane_start : start.Sane := sane_of_perm (m := start) (exact_single [] 0).sound (.of_eq (nodePlaces_leaf _)) (List.nodup_singleton _)
  (by decide)

theorem exact_start : start.IndexExact := exact_single [] 0

theorem run_append (calls : List ModelCall) (call : ModelCall) : run (calls ++ [call]) = (run calls).bind fun m => m.perform call := by
  rw [run, List.foldlM_append]
  simp [run]

/-- The index never holds a dangling pointer, and none is ever followed. -/
theorem run_sane (calls : List ModelCall) : ∃ m, run calls = some m ∧ m.Sane := by
  induction calls using List.reverseRecOn with
  | nil => exact ⟨start, rfl, sane_start⟩
  | append_singleton calls call ih =>
    obtain ⟨m, hrun, hsane⟩ := ih
    obtain ⟨m', hcall, hsane'⟩ := hsane.perform call
    exact ⟨m', by rw [run_append, hrun, Option.bind_some, hcall], hsane'⟩

/-- The index is exact after any calls, if and only if each of them inserts under paths of its own. -/
theorem index_exact_iff (calls : List ModelCall) :
    (∀ past, past <+: calls → ∃ m, run past = some m ∧ m.IndexExact) ↔
      ∀ past call m, past ++ [call] <+: calls → run past = some m → m.ownPaths call := by
  induction calls using List.reverseRecOn with
  | nil =>
    refine iff_of_true (fun past hpast => ?_) fun past call m hpast => ?_
    · rw [List.prefix_nil.mp hpast]
      exact ⟨start, rfl, exact_start⟩
    · exact absurd (List.prefix_nil.mp hpast) (by simp)
  | append_singleton calls last ih =>
    constructor
    · intro hall past call m hpast hrun
      obtain ⟨m', hrun', hexact'⟩ := hall _ hpast
      obtain ⟨before, hbefore, hexact⟩ := hall past ((List.prefix_append _ _).trans hpast)
      cases hbefore.symm.trans hrun
      obtain ⟨same, hsame, hsane⟩ := run_sane past
      cases hsame.symm.trans hrun
      rw [run_append, hrun, Option.bind_some] at hrun'
      exact (hsane.perform_exact_iff hexact call hrun').mp hexact'
    · intro hown past hpast
      have hbefore := ih.mpr fun past call m hpast => hown past call m (hpast.trans (List.prefix_append _ _))
      rcases List.prefix_concat_iff.mp hpast with rfl | hpast
      · obtain ⟨m, hrun, hexact⟩ := hbefore calls (List.prefix_refl _)
        obtain ⟨same, hsame, hsane⟩ := run_sane calls
        cases hsame.symm.trans hrun
        obtain ⟨m', hcall, -⟩ := hsane.perform last
        refine ⟨m', by rw [run_append, hrun, Option.bind_some, hcall], ?_⟩
        exact (hsane.perform_exact_iff hexact last hcall).mpr (hown calls last m (List.prefix_refl _) hrun)
      · exact hbefore past hpast

/-- A new folder with the name of one that is listed: its node takes the path from the other's, which stays in the tree. -/
theorem placeholder_hides_folder :
    ∃ m, run [.setRoot ['/'], .applyDirectoryListing ['/'] [⟨['a'], true, 0, 0⟩], .addPlaceholderDirectory ['/'] ['a']] = some m ∧
      ¬ m.IndexExact := by
  exact ⟨_, rfl, fun h => absurd ((h ['/', 'a'] 2).mpr (by decide)) (by decide)⟩

/-! ## The tree that is searched -/

/-- With an exact index a node is found by its path as a walk through the tree finds it. -/
theorem Sane.findNodeByPath (h : m.Sane) (hexact : m.IndexExact) (path : Text) :
    m.tree.findNodeByPath path = (m.byPath path).bind fun number => m.deref number := by
  have hpaths : (m.tree.root.all.map fun n => n.info.path).Nodup := by
    have hkeys := hexact.nodup_keys (h.nodup_places (.refl _))
    rwa [places, nodePlaces_fst, SftpModel.Node.infos, List.map_map] at hkeys
  have hplace (k : Nat) : (path, k) ∈ m.places ↔ ∃ t ∈ m.tree.root.all, t.info.path = path ∧ t.info.number = k := by
    simp [places, nodePlaces, SftpModel.Node.infos]
  cases hpath : m.byPath path with
  | none =>
    refine List.find?_eq_none.mpr fun t ht heq => ?_
    have hin := (hexact path t.info.number).mpr ((hplace _).mpr ⟨t, ht, by simpa using heq, rfl⟩)
    rw [hpath] at hin
    cases hin
  | some number =>
    obtain ⟨t, ht, rfl, rfl⟩ := (hplace number).mp ((hexact path number).mp hpath)
    exact (SftpModel.Node.find?_of_nodup_map hpaths ht).trans (SftpModel.Node.find?_number h.nodup ht).symm

def callTree (tree : SftpModel) : ModelCall → SftpModel
  | .setRoot path => tree.setRoot path
  | .applyDirectoryListing path entries => tree.applyDirectoryListing path entries
  | .removeEntry path => tree.removeEntry path
  | .addPlaceholderDirectory parentPath name => tree.addPlaceholderDirectory parentPath name

/-- With an exact index a call does to the tree what it does when nodes are searched. -/
theorem Sane.perform_tree (h : m.Sane) (hexact : m.IndexExact) (call : ModelCall) (hcall : m.perform call = some m') :
    m'.tree = callTree m.tree call := by
  have hfind (path : Text) : m.tree.findNodeByPath path = (m.byPath path).bind fun number => m.deref number :=
    h.findNodeByPath hexact path
  have hderef {number : Nat} {t : SftpModel.Node} (ht : m.deref number = some t) : t.info.number = number := by
    simpa using List.find?_some ht
  cases call with
  | setRoot path =>
    cases hcall
    rfl
  | applyDirectoryListing path entries =>
    simp only [IndexedModel.perform, applyDirectoryListing] at hcall
    simp only [callTree, SftpModel.applyDirectoryListing, hfind]
    cases hpath : m.byPath path with
    | none =>
      rw [hpath] at hcall
      cases hcall
      rfl
    | some number =>
      rw [hpath] at hcall
      obtain ⟨t, ht, hcall⟩ := Option.bind_eq_some_iff.mp hcall
      cases hcall
      simp only [Option.bind_some, ht, hderef ht]
  | removeEntry path =>
    simp only [IndexedModel.perform, removeEntry] at hcall
    simp only [callTree, SftpModel.removeEntry, hfind]
    cases hpath : m.byPath path with
    | none =>
      rw [hpath] at hcall
      cases hcall
      rfl
    | some number =>
      rw [hpath] at hcall
      obtain ⟨t, ht, hcall⟩ := Option.bind_eq_some_iff.mp hcall
      simp only [Option.bind_some, ht, hderef ht]
      split at hcall
      · rename_i hroot
        cases hcall
        rw [hroot, SftpModel.Node.remove_self _ h.nodup]
      · cases hcall
        rfl
  | addPlaceholderDirectory parentPath name =>
    simp only [IndexedModel.perform, addPlaceholderDirectory] at hcall
    simp only [callTree, SftpModel.addPlaceholderDirectory, hfind]
    cases hpath : m.byPath parentPath with
    | none =>
      rw [hpath] at hcall
      cases hcall
      rfl
    | some number =>
      rw [hpath] at hcall
      obtain ⟨t, ht, hcall⟩ := Option.bind_eq_some_iff.mp hcall
      simp only [Option.bind_some, ht, hderef ht]
      split at hcall
      · cases hcall
        rw [if_pos ‹_›]
      · cases hcall
        rw [if_neg ‹_›]

/-- As long as every call inserts under paths of its own, the tree is the one that is made by searching it. -/
theorem run_tree (calls : List ModelCall) (hown : ∀ past call m, past ++ [call] <+: calls → run past = some m → m.ownPaths call) :
    ∃ m, run calls = some m ∧ m.tree = calls.foldl callTree SftpModel.empty := by
  have hall : ∃ m, run calls = some m ∧ m.Sane ∧ m.IndexExact ∧ m.tree = calls.foldl callTree SftpModel.empty := by
    induction calls using List.reverseRecOn with
    | nil => exact ⟨start, rfl, sane_start, exact_start, rfl⟩
    | append_singleton calls last ih =>
      obtain ⟨m, hrun, hsane, hexact, htree⟩ := ih fun past call m hpast => hown past call m (hpast.trans (List.prefix_append _ _))
      obtain ⟨m', hcall, hsane'⟩ := hsane.perform last
      have hnext : m'.tree = (calls ++ [last]).foldl callTree SftpModel.empty := by
        rw [hsane.perform_tree hexact last hcall, htree, List.foldl_append, List.foldl_cons, List.foldl_nil]
      exact ⟨m', by rw [run_append, hrun, Option.bind_some, hcall], hsane',
        (hsane.perform_exact_iff hexact last hcall).mpr (hown calls last m (List.prefix_refl _) hrun), hnext⟩
  obtain ⟨m, hrun, -, -, htree⟩ := hall
  exact ⟨m, hrun, htree⟩

theorem run_tree_root : ∃ m, run [.setRoot ['/'], .removeEntry ['a']] = some m ∧
    m.tree = [ModelCall.setRoot ['/'], .removeEntry ['a']].foldl callTree SftpModel.empty := by
  refine run_tree _ fun past call m hpast hrun => ?_
  match past with
  | [] =>
    obtain rfl : call = .setRoot ['/'] := by simpa using hpast
    trivial
  | [first] =>
    obtain ⟨-, rfl⟩ : first = .setRoot ['/'] ∧ call = .removeEntry ['a'] := by simpa using hpast
    trivial
  | _ :: _ :: _ => simpa using hpast.length_le

end IndexedModel

end LvdTerm.Sftp
