import Mathlib.Data.List.Nodup

/-!
# Trees with labelled nodes

A `Rose` has data at its leaves and labels at its nodes. `edit` puts other trees in the place of a leaf, `collapse` a lone child in
the place of its node. `tokens` lists all that a tree is made of, `links` its leaves, each with the label of its node. A tree is
`Branching` if no node has less than two children; it still is after one leaf was taken out and its node collapsed
(`branching_collapse_remove`).
-/
namespace LvdTerm.Lib

inductive Rose (α β : Type) where
  | leaf (a : α)
  | node (b : β) (children : List (Rose α β))

namespace Rose

variable {α β : Type}

/-- A property of all trees, from that of their children. -/
theorem inductionOn {P : Rose α β → Prop} (hleaf : ∀ a, P (leaf a)) (hnode : ∀ b children, (∀ c ∈ children, P c) → P (node b children)) :
    (t : Rose α β) → P t
  | leaf a => hleaf a
  | node b children => hnode b children fun c _ => inductionOn hleaf hnode c

/-! ## What is in a tree -/

mutual

def tokens : Rose α β → List (α ⊕ β)
  | leaf a => [.inl a]
  | node b children => .inr b :: tokensAll children

def tokensAll : List (Rose α β) → List (α ⊕ β)
  | [] => []
  | t :: ts => tokens t ++ tokensAll ts

end

mutual

/-- The leaves, each with the label of its node; `q` is that of the node the tree is in. -/
def links (q : Option β) : Rose α β → List (α × Option β)
  | leaf a => [(a, q)]
  | node b children => linksAll (some b) children

def linksAll (q : Option β) : List (Rose α β) → List (α × Option β)
  | [] => []
  | t :: ts => links q t ++ linksAll q ts

end

def leaves (t : Rose α β) : List α := t.tokens.filterMap Sum.getLeft?

mutual

def Branching : Rose α β → Prop
  | leaf _ => True
  | node _ children => 2 ≤ children.length ∧ BranchingAll children

def BranchingAll : List (Rose α β) → Prop
  | [] => True
  | t :: ts => Branching t ∧ BranchingAll ts

end

theorem tokensAll_eq (ts : List (Rose α β)) : tokensAll ts = ts.flatMap tokens := by
  induction ts with
  | nil => rfl
  | cons t ts ih => rw [tokensAll, ih, List.flatMap_cons]

theorem linksAll_eq (q : Option β) (ts : List (Rose α β)) : linksAll q ts = ts.flatMap (links q) := by
  induction ts with
  | nil => rfl
  | cons t ts ih => rw [linksAll, ih, List.flatMap_cons]

theorem branchingAll_iff (ts : List (Rose α β)) : BranchingAll ts ↔ ∀ t ∈ ts, t.Branching := by
  induction ts with
  | nil => simp [BranchingAll]
  | cons t ts ih => simp [BranchingAll, ih]

@[simp] theorem tokens_leaf (a : α) : (leaf a : Rose α β).tokens = [.inl a] := rfl

@[simp] theorem tokens_node (b : β) (children : List (Rose α β)) : (node b children).tokens = .inr b :: children.flatMap tokens := by
  rw [tokens, tokensAll_eq]

@[simp] theorem links_leaf (q : Option β) (a : α) : (leaf a : Rose α β).links q = [(a, q)] := rfl

@[simp] theorem links_node (q : Option β) (b : β) (children : List (Rose α β)) :
    (node b children).links q = children.flatMap (links (some b)) := by
  rw [links, linksAll_eq]

@[simp] theorem branching_leaf (a : α) : (leaf a : Rose α β).Branching := trivial

@[simp] theorem branching_node (b : β) (children : List (Rose α β)) :
    (node b children).Branching ↔ 2 ≤ children.length ∧ ∀ c ∈ children, c.Branching := by
  rw [Branching, branchingAll_iff]

@[simp] theorem leaves_leaf (a : α) : (leaf a : Rose α β).leaves = [a] := rfl

@[simp] theorem leaves_node (b : β) (children : List (Rose α β)) : (node b children).leaves = children.flatMap leaves := by
  rw [leaves, tokens_node, List.filterMap_cons_none rfl, List.filterMap_flatMap]
  rfl

theorem links_fst (q : Option β) (t : Rose α β) : (t.links q).map Prod.fst = t.leaves := by
  induction t using inductionOn generalizing q with
  | hleaf a => rfl
  | hnode b children ih =>
    rw [links_node, leaves_node, List.map_flatMap]
    exact List.flatMap_congr fun c hc => ih c hc (some b)

theorem mem_leaves_of_links {q q' : Option β} {t : Rose α β} {a : α} (h : (a, q') ∈ t.links q) : a ∈ t.leaves := by
  rw [← links_fst q]
  exact List.mem_map_of_mem h

/-- In a tree that is no leaf every leaf has a node. -/
theorem label_of_node {q : Option β} {b : β} {children : List (Rose α β)} {a : α} {q' : Option β}
    (h : (a, q') ∈ (node b children).links q) : ∃ b', q' = some b' := by
  have hinner : ∀ (t : Rose α β) (b : β), (a, q') ∈ t.links (some b) → ∃ b', q' = some b' := by
    intro t
    induction t using inductionOn with
    | hleaf x =>
      intro b h
      rw [links_leaf, List.mem_singleton] at h
      cases h
      exact ⟨b, rfl⟩
    | hnode b' children ih =>
      intro b h
      rw [links_node, List.mem_flatMap] at h
      obtain ⟨c, hc, hlink⟩ := h
      exact ih c hc b' hlink
  rw [links_node, List.mem_flatMap] at h
  obtain ⟨c, -, hlink⟩ := h
  exact hinner c b hlink

/-- A leaf's node is in the tree. -/
theorem label_of_links {q : Option β} {t : Rose α β} {a : α} {b : β} (h : (a, some b) ∈ t.links q) (hq : q ≠ some b) :
    Sum.inr b ∈ t.tokens := by
  induction t using inductionOn generalizing q with
  | hleaf a' => simp_all
  | hnode b' children ih =>
    rw [links_node, List.mem_flatMap] at h
    obtain ⟨c, hc, hlink⟩ := h
    rw [tokens_node, List.mem_cons]
    by_cases hb : b = b'
    · exact .inl (by rw [hb])
    · exact .inr (List.mem_flatMap.mpr ⟨c, hc, ih c hc hlink (by simpa using Ne.symm hb)⟩)

/-! ## Editing leaves -/

section Edit

variable (hit : α → Bool) (f : α → List (Rose α β))

mutual

/-- Other trees in the place of the leaves that are hit. -/
def edit : Rose α β → List (Rose α β)
  | leaf a => if hit a then f a else [leaf a]
  | node b children => [node b (editAll children)]

def editAll : List (Rose α β) → List (Rose α β)
  | [] => []
  | t :: ts => edit t ++ editAll ts

end

theorem editAll_eq (ts : List (Rose α β)) : editAll hit f ts = ts.flatMap (edit hit f) := by
  induction ts with
  | nil => rfl
  | cons t ts ih => rw [editAll, ih, List.flatMap_cons]

theorem edit_leaf (a : α) : edit hit f (leaf a) = if hit a then f a else [leaf a] := rfl

@[simp] theorem edit_node (b : β) (children : List (Rose α β)) :
    edit hit f (node b children) = [node b (children.flatMap (edit hit f))] := by
  rw [edit, editAll_eq]

/-- The same, but for a leaf that is the whole tree. -/
def editBelow : Rose α β → Rose α β
  | leaf a => leaf a
  | node b children => node b (children.flatMap (edit hit f))

theorem edit_eq_editBelow {t : Rose α β} (h : ∀ a, t ≠ leaf a) : edit hit f t = [editBelow hit f t] := by
  cases t with
  | leaf a => exact absurd rfl (h a)
  | node b children => exact edit_node hit f b children

theorem tokens_edit (t : Rose α β) : (edit hit f t).flatMap tokens =
    t.tokens.flatMap (Sum.elim (fun a => if hit a then (f a).flatMap tokens else [.inl a]) fun b => [.inr b]) := by
  induction t using inductionOn with
  | hleaf a =>
    rw [edit_leaf]
    split <;> simp_all
  | hnode b children ih =>
    rw [edit_node, List.flatMap_singleton, tokens_node, tokens_node, List.flatMap_cons, List.flatMap_assoc, List.flatMap_assoc,
      List.flatMap_congr ih]
    rfl

theorem links_edit (q : Option β) (t : Rose α β) : (edit hit f t).flatMap (links q) =
    (t.links q).flatMap fun l => if hit l.1 then (f l.1).flatMap (links l.2) else [l] := by
  induction t using inductionOn generalizing q with
  | hleaf a =>
    rw [edit_leaf]
    split <;> simp_all
  | hnode b children ih =>
    rw [edit_node, List.flatMap_singleton, links_node, links_node, List.flatMap_assoc, List.flatMap_assoc]
    exact List.flatMap_congr fun c hc => ih c hc (some b)

theorem leaves_edit (t : Rose α β) :
    (edit hit f t).flatMap leaves = t.leaves.flatMap fun a => if hit a then (f a).flatMap leaves else [a] := by
  induction t using inductionOn with
  | hleaf a =>
    rw [edit_leaf]
    split <;> simp_all
  | hnode b children ih =>
    rw [edit_node, List.flatMap_singleton, leaves_node, leaves_node, List.flatMap_assoc, List.flatMap_assoc]
    exact List.flatMap_congr ih

/-- Where nothing is hit, nothing changes. -/
theorem edit_of_not_hit {t : Rose α β} (h : ∀ a ∈ t.leaves, hit a = false) : edit hit f t = [t] := by
  induction t using inductionOn with
  | hleaf a => simp [edit_leaf, h a (by simp)]
  | hnode b children ih =>
    have hchildren : ∀ c ∈ children, edit hit f c = [c] := by
      intro c hc
      refine ih c hc fun a ha => h a ?_
      rw [leaves_node]
      exact List.mem_flatMap_of_mem hc ha
    rw [edit_node, List.flatMap_congr hchildren, List.flatMap_singleton']

variable {hit f}

omit hit f in
theorem length_le_flatMap {γ : Type} {ts : List γ} (g : γ → List (Rose α β)) (h : ∀ t ∈ ts, g t ≠ []) :
    ts.length ≤ (ts.flatMap g).length := by
  induction ts with
  | nil => simp
  | cons t ts ih =>
    have hfirst := List.length_pos_iff.mpr (h t List.mem_cons_self)
    have hrest := ih fun t' ht' => h t' (List.mem_cons_of_mem t ht')
    rw [List.flatMap_cons, List.length_append, List.length_cons]
    omega

theorem branching_edit (hf : ∀ a, hit a = true → f a ≠ [] ∧ ∀ t ∈ f a, t.Branching) {t : Rose α β} (h : t.Branching) :
    edit hit f t ≠ [] ∧ ∀ t' ∈ edit hit f t, t'.Branching := by
  induction t using inductionOn with
  | hleaf a =>
    rw [edit_leaf]
    split
    next ha => exact hf a ha
    · simp
  | hnode b children ih =>
    rw [branching_node] at h
    have hlength := length_le_flatMap (edit hit f) fun c hc => (ih c hc (h.2 c hc)).1
    simp only [edit_node, ne_eq, List.cons_ne_nil, not_false_eq_true, List.mem_singleton, forall_eq, branching_node, true_and]
    refine ⟨Nat.le_trans h.1 hlength, fun c' hc' => ?_⟩
    obtain ⟨c, hc, hmem⟩ := List.mem_flatMap.mp hc'
    exact (ih c hc (h.2 c hc)).2 c' hmem

end Edit

/-! ## Other leaves in the same places -/

section MapLeaves

mutual

def mapLeaves {γ : Type} (g : α → γ) : Rose α β → Rose γ β
  | leaf a => leaf (g a)
  | node b children => node b (mapAll g children)

def mapAll {γ : Type} (g : α → γ) : List (Rose α β) → List (Rose γ β)
  | [] => []
  | t :: ts => mapLeaves g t :: mapAll g ts

end

variable {γ : Type} {g g' : α → γ}

theorem mapAll_eq (g : α → γ) (ts : List (Rose α β)) : mapAll g ts = ts.map (mapLeaves g) := by
  induction ts with
  | nil => rfl
  | cons t ts ih => rw [mapAll, ih, List.map_cons]

@[simp] theorem mapLeaves_node (g : α → γ) (b : β) (children : List (Rose α β)) :
    mapLeaves g (node b children) = node b (children.map (mapLeaves g)) := by
  rw [mapLeaves, mapAll_eq]

theorem leaves_mapLeaves (g : α → γ) (t : Rose α β) : (mapLeaves g t).leaves = t.leaves.map g := by
  induction t using inductionOn with
  | hleaf a => rfl
  | hnode b children ih =>
    rw [mapLeaves_node, leaves_node, leaves_node, List.flatMap_map, List.map_flatMap]
    exact List.flatMap_congr ih

theorem tokens_mapLeaves (g : α → γ) (t : Rose α β) : (mapLeaves g t).tokens = t.tokens.map (Sum.map g id) := by
  induction t using inductionOn with
  | hleaf a => rfl
  | hnode b children ih =>
    rw [mapLeaves_node, tokens_node, tokens_node, List.flatMap_map, List.map_cons, List.map_flatMap]
    exact congrArg (Sum.inr b :: ·) (List.flatMap_congr ih)

theorem links_mapLeaves (g : α → γ) (q : Option β) (t : Rose α β) : (mapLeaves g t).links q = (t.links q).map (Prod.map g id) := by
  induction t using inductionOn generalizing q with
  | hleaf a => rfl
  | hnode b children ih =>
    rw [mapLeaves_node, links_node, links_node, List.flatMap_map, List.map_flatMap]
    exact List.flatMap_congr fun c hc => ih c hc (some b)

theorem branching_mapLeaves (g : α → γ) {t : Rose α β} (h : t.Branching) : (mapLeaves g t).Branching := by
  induction t using inductionOn with
  | hleaf a => trivial
  | hnode b children ih =>
    rw [branching_node] at h
    rw [mapLeaves_node, branching_node, List.length_map]
    refine ⟨h.1, fun c' hc' => ?_⟩
    obtain ⟨c, hc, rfl⟩ := List.mem_map.mp hc'
    exact ih c hc (h.2 c hc)

theorem mapLeaves_congr {t : Rose α β} (h : ∀ a ∈ t.leaves, g a = g' a) : mapLeaves g t = mapLeaves g' t := by
  induction t using inductionOn with
  | hleaf a => exact congrArg leaf (h a (by simp))
  | hnode b children ih =>
    rw [mapLeaves_node, mapLeaves_node]
    refine congrArg (node b) (List.map_congr_left fun c hc => ih c hc fun a ha => h a ?_)
    rw [leaves_node]
    exact List.mem_flatMap_of_mem hc ha

theorem mapLeaves_mapLeaves {δ : Type} (f : γ → δ) (g : α → γ) (t : Rose α β) :
    mapLeaves f (mapLeaves g t) = mapLeaves (f ∘ g) t := by
  induction t using inductionOn with
  | hleaf a => rfl
  | hnode b children ih =>
    rw [mapLeaves_node, mapLeaves_node, mapLeaves_node, List.map_map]
    exact congrArg (node b) (List.map_congr_left ih)

/-- One leaf in the place of another. -/
theorem edit_eq_mapLeaves [DecidableEq α] (a b : α) (t : Rose α β) :
    edit (· = a) (fun _ => [leaf b]) t = [mapLeaves (fun x => if x = a then b else x) t] := by
  induction t using inductionOn with
  | hleaf x =>
    rw [edit_leaf, mapLeaves]
    by_cases hx : x = a <;> simp [hx]
  | hnode label children ih =>
    rw [edit_node, mapLeaves_node, List.flatMap_congr ih, List.map_eq_flatMap]

end MapLeaves

/-! ## Trees beside each other -/

section Beside

variable (p : β → Bool)

mutual

/-- A node that is meant has these children next to each other. -/
def Beside (ts : List (Rose α β)) : Rose α β → Prop
  | leaf _ => False
  | node b children => p b = true ∧ ts <:+: children ∨ BesideAny ts children

def BesideAny (ts : List (Rose α β)) : List (Rose α β) → Prop
  | [] => False
  | c :: cs => Beside ts c ∨ BesideAny ts cs

end

variable {p}

theorem besideAny_iff (ts cs : List (Rose α β)) : BesideAny p ts cs ↔ ∃ c ∈ cs, Beside p ts c := by
  induction cs with
  | nil => simp [BesideAny]
  | cons c cs ih => simp [BesideAny, ih]

@[simp] theorem beside_node (ts : List (Rose α β)) (b : β) (children : List (Rose α β)) :
    Beside p ts (node b children) ↔ p b = true ∧ ts <:+: children ∨ ∃ c ∈ children, Beside p ts c := by
  rw [Beside, besideAny_iff]

/-- Trees that are put beside each other into a node that is meant, or with it. -/
theorem beside_edit [DecidableEq α] {a : α} {ts widgets : List (Rose α β)} {t : Rose α β} {q : Option β}
    (hlink : ∃ q', (a, q') ∈ t.links q) (hput : (∀ q', (a, q') ∈ t.links q → ∃ b, q' = some b ∧ p b = true ∧ widgets = ts) ∨
      ∃ w ∈ widgets, Beside p ts w) :
    (∃ b, q = some b ∧ p b = true ∧ ts = edit (· = a) (fun _ => widgets) t) ∨
      ∃ t' ∈ edit (· = a) (fun _ => widgets) t, Beside p ts t' := by
  induction t using inductionOn generalizing q with
  | hleaf x =>
    obtain ⟨q', hq'⟩ := hlink
    have heq : a = x ∧ q' = q := by simpa using hq'
    obtain ⟨rfl, rfl⟩ := heq
    have hedit : edit (· = a) (fun _ => widgets) (leaf a : Rose α β) = widgets := by simp [edit_leaf]
    rw [hedit]
    rcases hput with hput | hput
    · obtain ⟨b, hb, hp, hw⟩ := hput q' (by simp)
      exact .inl ⟨b, hb, hp, hw.symm⟩
    · exact .inr hput
  | hnode b children ih =>
    right
    obtain ⟨q', hq'⟩ := hlink
    rw [links_node, List.mem_flatMap] at hq'
    obtain ⟨c, hc, hmem⟩ := hq'
    have hput' : (∀ q', (a, q') ∈ c.links (some b) → ∃ b, q' = some b ∧ p b = true ∧ widgets = ts) ∨ ∃ w ∈ widgets, Beside p ts w := by
      refine hput.imp_left fun h q'' hq'' => h q'' ?_
      rw [links_node]
      exact List.mem_flatMap_of_mem hc hq''
    refine ⟨_, by rw [edit_node]; exact List.mem_singleton_self _, ?_⟩
    rw [beside_node]
    rcases ih c hc ⟨q', hmem⟩ hput' with ⟨b', hb', hp, hts⟩ | ⟨t', ht', hbeside⟩
    · cases hb'
      left
      refine ⟨hp, ?_⟩
      obtain ⟨before, after, rfl⟩ := List.append_of_mem hc
      rw [hts, List.flatMap_append, List.flatMap_cons]
      exact ⟨_, _, List.append_assoc ..⟩
    · exact .inr ⟨t', List.mem_flatMap_of_mem hc ht', hbeside⟩

end Beside

/-! ## Collapsing a node -/

section Collapse

variable (p : β → Bool)

mutual

/-- The lone child of a node that is meant takes its place. -/
def collapse : Rose α β → Rose α β
  | leaf a => leaf a
  | node b children =>
    match p b, collapseAll children with
    | true, [c] => c
    | _, children => node b children

def collapseAll : List (Rose α β) → List (Rose α β)
  | [] => []
  | t :: ts => collapse t :: collapseAll ts

end

mutual

/-- The leaf is all there is in a node that is meant. -/
def Sole (a : α) : Rose α β → Prop
  | leaf _ => False
  | node b children => p b = true ∧ children = [leaf a] ∨ SoleAny a children

def SoleAny (a : α) : List (Rose α β) → Prop
  | [] => False
  | t :: ts => Sole a t ∨ SoleAny a ts

end

theorem collapseAll_eq (ts : List (Rose α β)) : collapseAll p ts = ts.map (collapse p) := by
  induction ts with
  | nil => rfl
  | cons t ts ih => rw [collapseAll, ih, List.map_cons]

theorem soleAny_iff (a : α) (ts : List (Rose α β)) : SoleAny p a ts ↔ ∃ t ∈ ts, Sole p a t := by
  induction ts with
  | nil => simp [SoleAny]
  | cons t ts ih => simp [SoleAny, ih]

variable {p}

theorem collapse_leaf (a : α) : collapse p (leaf a : Rose α β) = leaf a := rfl

/-- Either the node is gone, or it is as it was. -/
theorem collapse_node (b : β) (children : List (Rose α β)) :
    (p b = true ∧ ∃ c, children = [c] ∧ collapse p (node b children) = collapse p c) ∨
      (p b = true → children.length ≠ 1) ∧ collapse p (node b children) = node b (children.map (collapse p)) := by
  rw [collapse, collapseAll_eq]
  cases hb : p b with
  | false => exact .inr ⟨nofun, rfl⟩
  | true =>
    match children with
    | [] => exact .inr ⟨fun _ => by simp, rfl⟩
    | [c] => exact .inl ⟨rfl, c, rfl, rfl⟩
    | c :: c' :: rest => exact .inr ⟨fun _ => by simp, rfl⟩

theorem collapse_single {b : β} (hb : p b = true) (c : Rose α β) : collapse p (node b [c]) = collapse p c := by
  rcases collapse_node (p := p) b [c] with ⟨-, c', hone, h⟩ | ⟨hnot, -⟩
  · rw [h, List.singleton_inj.mp hone]
  · exact absurd rfl (hnot hb)

theorem tokens_collapse (t : Rose α β) : (collapse p t).tokens.Sublist t.tokens := by
  induction t using inductionOn with
  | hleaf a => exact List.Sublist.refl _
  | hnode b children ih =>
    rw [tokens_node]
    rcases collapse_node (p := p) b children with ⟨-, c, rfl, h⟩ | ⟨-, h⟩
    · rw [h, List.flatMap_singleton]
      exact (ih c (by simp)).cons _
    · rw [h, tokens_node, List.flatMap_map]
      refine List.Sublist.cons_cons _ ?_
      clear h
      induction children with
      | nil => simp
      | cons c children ihc =>
        exact (ih c List.mem_cons_self).append (ihc fun c' hc' => ih c' (List.mem_cons_of_mem c hc'))

@[simp] theorem leaves_collapse (t : Rose α β) : (collapse p t).leaves = t.leaves := by
  induction t using inductionOn with
  | hleaf a => rfl
  | hnode b children ih =>
    rcases collapse_node (p := p) b children with ⟨-, c, rfl, h⟩ | ⟨-, h⟩
    · rw [h, ih c (by simp), leaves_node, List.flatMap_singleton]
    · rw [h, leaves_node, leaves_node, List.flatMap_map]
      exact List.flatMap_congr ih

/-- A leaf keeps its node, unless it was alone there. -/
theorem links_collapse {q : Option β} {t : Rose α β} {l : α × Option β} (h : l ∈ (collapse p t).links q) :
    l ∈ t.links q ∨ Sole p l.1 t := by
  induction t using inductionOn generalizing q with
  | hleaf a => exact .inl h
  | hnode b children ih =>
    rw [Sole, soleAny_iff, links_node]
    rcases collapse_node (p := p) b children with ⟨hb, c, rfl, hc⟩ | ⟨-, hc⟩
    · rw [hc] at h
      rcases ih c (by simp) h with hlink | hsole
      · cases c with
        | leaf a =>
          rw [links_leaf, List.mem_singleton] at hlink
          exact .inr (.inl ⟨hb, by rw [hlink]⟩)
        | node b' children' => exact .inl (by simpa using hlink)
      · exact .inr (.inr ⟨c, by simp, hsole⟩)
    · rw [hc, links_node, List.flatMap_map, List.mem_flatMap] at h
      obtain ⟨c, hmem, hlink⟩ := h
      rcases ih c hmem hlink with hlink | hsole
      · exact .inl (List.mem_flatMap_of_mem hmem hlink)
      · exact .inr (.inr ⟨c, hmem, hsole⟩)

/-- Such a leaf has a node that is meant. -/
theorem link_of_sole {a : α} {t : Rose α β} (q : Option β) (h : Sole p a t) : ∃ b, p b = true ∧ (a, some b) ∈ t.links q := by
  induction t using inductionOn generalizing q with
  | hleaf x => exact h.elim
  | hnode b children ih =>
    rw [Sole, soleAny_iff] at h
    rw [links_node]
    rcases h with ⟨hb, rfl⟩ | ⟨c, hc, hsole⟩
    · exact ⟨b, hb, by simp⟩
    · obtain ⟨b', hb', hlink⟩ := ih c hc (some b) hsole
      exact ⟨b', hb', List.mem_flatMap_of_mem hc hlink⟩

/-- With the only node that is meant collapsed, none is. -/
theorem collapse_sole {a : α} {t : Rose α β} (h : Sole p a t) (hcount : t.tokens.countP (Sum.elim (fun _ => false) p) ≤ 1) :
    ∀ b, .inr b ∈ (collapse p t).tokens → p b = false := by
  induction t using inductionOn with
  | hleaf x => exact h.elim
  | hnode b children ih =>
    rw [Sole, soleAny_iff] at h
    rcases h with ⟨hb, rfl⟩ | ⟨c, hc, hsole⟩
    · intro b' hb'
      rw [collapse_single hb, collapse_leaf, tokens_leaf, List.mem_singleton] at hb'
      cases hb'
    · obtain ⟨before, after, rfl⟩ := List.append_of_mem hc
      have hmeant : 0 < c.tokens.countP (Sum.elim (fun _ => false) p) := by
        obtain ⟨b', hb', hlink⟩ := link_of_sole (none : Option β) hsole
        exact List.countP_pos_iff.mpr ⟨.inr b', label_of_links hlink (by simp), hb'⟩
      rw [tokens_node, List.countP_cons, List.flatMap_append, List.flatMap_cons, List.countP_append, List.countP_append] at hcount
      have hb : p b = false := by
        by_contra hp
        rw [Sum.elim_inr, eq_true_of_ne_false hp, if_pos rfl] at hcount
        omega
      have hothers : ∀ c' ∈ before ++ after, ∀ b', .inr b' ∈ c'.tokens → p b' = false := by
        intro c' hc' b' hb'
        by_contra hp
        have hpos : 0 < (before.flatMap tokens).countP (Sum.elim (fun _ => false) p) ∨
            0 < (after.flatMap tokens).countP (Sum.elim (fun _ => false) p) := by
          rcases List.mem_append.mp hc' with hc' | hc'
          · exact .inl (List.countP_pos_iff.mpr ⟨.inr b', List.mem_flatMap_of_mem hc' hb', eq_true_of_ne_false hp⟩)
          · exact .inr (List.countP_pos_iff.mpr ⟨.inr b', List.mem_flatMap_of_mem hc' hb', eq_true_of_ne_false hp⟩)
        omega
      rcases collapse_node (p := p) b (before ++ c :: after) with ⟨hp, -⟩ | ⟨-, hcollapsed⟩
      · rw [hb] at hp
        cases hp
      · intro b' hb'
        rw [hcollapsed, tokens_node, List.mem_cons, List.flatMap_map, List.mem_flatMap] at hb'
        rcases hb' with hb' | ⟨c', hc', hb'⟩
        · cases hb'
          exact hb
        · rcases List.mem_append.mp hc' with hbefore | hafter
          · exact hothers c' (List.mem_append_left _ hbefore) b' ((tokens_collapse c').subset hb')
          · rcases List.mem_cons.mp hafter with rfl | hafter
            · exact ih c' hc hsole (by omega) b' hb'
            · exact hothers c' (List.mem_append_right _ hafter) b' ((tokens_collapse c').subset hb')

/-- Where no node is meant, nothing changes. -/
theorem collapse_of_absent {t : Rose α β} (h : ∀ b, .inr b ∈ t.tokens → p b = false) : collapse p t = t := by
  induction t using inductionOn with
  | hleaf a => rfl
  | hnode b children ih =>
    have hb : p b = false := h b (by simp)
    have hchildren : ∀ c ∈ children, collapse p c = c := by
      intro c hc
      refine ih c hc fun b' hb' => h b' ?_
      rw [tokens_node]
      exact .tail _ (List.mem_flatMap_of_mem hc hb')
    rcases collapse_node (p := p) b children with ⟨hmeant, -⟩ | ⟨-, hc⟩
    · rw [hb] at hmeant
      cases hmeant
    · rw [hc, List.map_congr_left hchildren, List.map_id']

end Collapse

/-! ## Taking a leaf out -/

section Remove

variable [DecidableEq α] (a : α)

def remove (t : Rose α β) : List (Rose α β) := edit (· = a) (fun _ => []) t

theorem remove_leaf (a' : α) : remove a (leaf a' : Rose α β) = if a' = a then [] else [leaf a'] := by
  simp [remove, edit_leaf]

@[simp] theorem remove_node (b : β) (children : List (Rose α β)) : remove a (node b children) = [node b (children.flatMap (remove a))] :=
  edit_node ..

theorem leaves_remove (t : Rose α β) : (remove a t).flatMap leaves = t.leaves.filter (· ≠ a) := by
  rw [remove, leaves_edit]
  induction t.leaves with
  | nil => rfl
  | cons x xs ih =>
    rw [List.flatMap_cons, ih]
    by_cases hx : x = a <;> simp [hx]

theorem tokens_remove [DecidableEq β] (t : Rose α β) : (remove a t).flatMap tokens = t.tokens.filter (· ≠ .inl a) := by
  rw [remove, tokens_edit]
  induction t.tokens with
  | nil => rfl
  | cons x xs ih =>
    rw [List.flatMap_cons, ih]
    cases x with
    | inl x => by_cases hx : x = a <;> simp [hx]
    | inr b => simp

variable {a}

theorem remove_of_notMem {t : Rose α β} (h : a ∉ t.leaves) : remove a t = [t] := by
  refine edit_of_not_hit _ _ fun x hx => ?_
  have hne : x ≠ a := fun hxa => h (hxa ▸ hx)
  simpa using hne

theorem remove_eq_nil {t : Rose α β} : remove a t = [] ↔ t = leaf a := by
  cases t with
  | leaf x => by_cases hx : x = a <;> simp [remove_leaf, hx]
  | node b children => simp

/-- A child is lost for each time the leaf is one. -/
theorem length_flatMap_remove (children : List (Rose α β)) :
    (children.flatMap (remove a)).length + children.countP (fun c => (remove a c).isEmpty) = children.length := by
  induction children with
  | nil => rfl
  | cons c children ih =>
    rw [List.flatMap_cons, List.length_append, List.countP_cons, List.length_cons]
    cases c with
    | leaf x =>
      by_cases hx : x = a
      · simp only [remove_leaf, hx, if_true, List.length_nil, List.isEmpty_nil]
        omega
      · simp only [remove_leaf, hx, if_false, List.length_singleton, List.isEmpty_cons, Bool.false_eq_true]
        omega
    | node b cs =>
      simp only [remove_node, List.length_singleton, List.isEmpty_cons, Bool.false_eq_true, if_false]
      omega

theorem countP_remove_le (children : List (Rose α β)) :
    children.countP (fun c => (remove a c).isEmpty) ≤ (children.flatMap leaves).count a := by
  induction children with
  | nil => simp
  | cons c children ih =>
    rw [List.countP_cons, List.flatMap_cons, List.count_append]
    by_cases hc : (remove a c).isEmpty = true
    · obtain rfl : c = leaf a := remove_eq_nil.mp (List.isEmpty_iff.mp hc)
      simp only [hc, if_true, leaves_leaf, List.count_singleton_self]
      omega
    · rw [if_neg hc]
      omega

variable {p : β → Bool}

/-- A leaf that is found once, in a node that is meant, leaves a branching tree behind. -/
theorem branching_collapse_remove {q : Option β} {t : Rose α β} (h : t.Branching) (hcount : t.leaves.count a ≤ 1)
    (hlinks : ∀ q', (a, q') ∈ t.links q → ∃ b, q' = some b ∧ p b = true) (hne : t ≠ leaf a) :
    ∃ t', remove a t = [t'] ∧ (collapse p t').Branching := by
  induction t using inductionOn generalizing q with
  | hleaf x =>
    have hx : x ≠ a := fun hxa => hne (by rw [hxa])
    exact ⟨leaf x, by simp [remove_leaf, hx], trivial⟩
  | hnode b children ih =>
    rw [branching_node] at h
    rw [leaves_node] at hcount
    rw [links_node] at hlinks
    refine ⟨_, remove_node a b children, ?_⟩
    have hrest : ∀ c' ∈ children.flatMap (remove a), (collapse p c').Branching := by
      intro c' hc'
      obtain ⟨c, hc, hmem⟩ := List.mem_flatMap.mp hc'
      have hleaf : c ≠ leaf a := fun hca => by simp [remove_eq_nil.mpr hca] at hmem
      have hle : c.leaves.count a ≤ (children.flatMap leaves).count a := by
        obtain ⟨before, after, hsplit⟩ := List.append_of_mem hc
        rw [hsplit, List.flatMap_append, List.flatMap_cons, List.count_append, List.count_append]
        omega
      obtain ⟨c'', hremoved, hbranching⟩ := ih c hc (h.2 c hc) (Nat.le_trans hle hcount)
        (fun q' hq' => hlinks q' (List.mem_flatMap_of_mem hc hq')) hleaf
      rw [hremoved, List.mem_singleton] at hmem
      exact hmem ▸ hbranching
    rcases collapse_node (p := p) b (children.flatMap (remove a)) with ⟨-, c, hone, hc⟩ | ⟨hmeant, hc⟩
    · rw [hc]
      exact hrest c (by rw [hone]; exact List.mem_singleton_self c)
    · rw [hc, branching_node, List.length_map]
      refine ⟨?_, fun c hmem => ?_⟩
      · have hlength := length_flatMap_remove (a := a) children
        have hlost := Nat.le_trans (countP_remove_le (a := a) children) hcount
        by_cases hnone : children.countP (fun c => (remove a c).isEmpty) = 0
        · omega
        · obtain ⟨c, hmem, hempty⟩ := List.countP_pos_iff.mp (Nat.pos_of_ne_zero hnone)
          obtain rfl : c = leaf a := remove_eq_nil.mp (List.isEmpty_iff.mp hempty)
          obtain ⟨b', hb', hp⟩ := hlinks (some b) (List.mem_flatMap_of_mem hmem (by simp))
          cases hb'
          have hone := hmeant hp
          omega
      · obtain ⟨c', hc', rfl⟩ := List.mem_map.mp hmem
        exact hrest c' hc'

end Remove

end Rose

end LvdTerm.Lib
