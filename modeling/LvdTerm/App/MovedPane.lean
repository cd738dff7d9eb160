import Mathlib.Logic.Equiv.Basic
import LvdTerm.App.Panes
import LvdTerm.Lib.Association

/-!
# Moving a pane

Dropping a pane on another of its tab rearranges the tab's tree and loses nothing: `movePane_rearranges`. Taking the pane out may
collapse its splitter, which can be the page itself; the target is then wherever that has left it.
-/
namespace LvdTerm.App.Panes

open LvdTerm.Lib Rose

/-! ## What moving should do -/

/-- `source` was dropped on `target`. -/
structure Moved (source target : Nat) (zone : PaneDropZone) (page page' : Widget) : Prop where
  leaves : page'.leaves.Perm page.leaves
  branching : page'.Branching
  /-- The others keep their order. -/
  order : page'.leaves.filter (fun a => a ≠ .view source ∧ (zone = .swap → a ≠ .view target)) =
    page.leaves.filter (fun a => a ≠ .view source ∧ (zone = .swap → a ≠ .view target))
  swapped : zone = .swap → page' = page.mapLeaves (Equiv.swap (Leaf.view source) (.view target))
  beside : zone ≠ .swap → page'.Beside (·.orientation = zone.orientation) (Window.besides source target zone)

/-- All widgets of the window are different. -/
structure Distinct (s : Window) : Prop where
  pages : ∀ tab ∈ s.tabs, Made s.next tab.page
  apart : s.tabs.Pairwise fun tab tab' => tab.page.numbers.Disjoint tab'.page.numbers

/-! ## Pages -/

section Pages

variable {next : Nat} {page : Widget} {a : Leaf}

theorem token_of_leaf (h : a ∈ page.leaves) : .inl a ∈ page.tokens := by
  obtain ⟨x, hx, ha⟩ := List.mem_filterMap.mp h
  cases x with
  | inl a' =>
    cases ha
    exact hx
  | inr b => cases ha

theorem number_of_leaf (h : a ∈ page.leaves) : a.number ∈ page.numbers := List.mem_map.mpr ⟨.inl a, token_of_leaf h, rfl⟩

theorem view_mem_leaves {v : Nat} : v ∈ collectViews page ↔ .view v ∈ page.leaves := by
  unfold collectViews
  rw [List.mem_filterMap]
  constructor
  · rintro ⟨x, hx, hv⟩
    cases x <;> cases hv
    exact hx
  · intro h
    exact ⟨_, h, rfl⟩

theorem Made.leaves_nodup (h : Made next page) : page.leaves.Nodup := by
  have htokens : page.tokens.Nodup := List.Nodup.of_map _ h.1
  refine htokens.filterMap fun x y a hx hy => ?_
  cases x with
  | inl a' =>
    cases y with
    | inl a'' =>
      cases hx
      cases hy
      rfl
    | inr b => cases hy
  | inr b => cases hx

/-- The links of a leaf in a page that is no leaf are all the same. -/
theorem parentSplitter_of_nodup (h : page.leaves.Nodup) (ha : a ∈ page.leaves) (hnode : ∀ x, page ≠ leaf x) :
    ∃ p, page.parentSplitter a = some p ∧ ∀ q, (a, q) ∈ page.links none → q = some p := by
  have hkeys : ((page.links none).map Prod.fst).Nodup := by
    rw [links_fst]
    exact h
  rw [← links_fst none, List.mem_map] at ha
  obtain ⟨⟨x, q⟩, hlink, rfl⟩ := ha
  have hlookup := fun q' (hq' : (x, q') ∈ page.links none) => Lib.Association.lookup_of_mem hkeys hq'
  obtain ⟨p, rfl⟩ : ∃ p, q = some p := by
    cases page with
    | leaf y => exact absurd rfl (hnode y)
    | node b children => exact label_of_node hlink
  refine ⟨p, ?_, fun q' hq' => ?_⟩
  · rw [Widget.parentSplitter, hlookup _ hlink]
    rfl
  · have hboth := hlookup q' hq'
    rw [hlookup _ hlink] at hboth
    exact (Option.some.inj hboth).symm

theorem number_of_splitter {p : Splitter} (h : .inr p ∈ page.tokens) : p.number ∈ page.numbers :=
  List.mem_map.mpr ⟨.inr p, h, rfl⟩

theorem hasSplitter_iff {n : Nat} (page : Widget) : page.hasSplitter n = true ↔ ∃ p : Splitter, .inr p ∈ page.tokens ∧ p.number = n := by
  unfold Widget.hasSplitter
  rw [List.any_eq_true]
  constructor
  · rintro ⟨x, hx, hn⟩
    cases x with
    | inl a => cases hn
    | inr p => exact ⟨p, hx, of_decide_eq_true hn⟩
  · rintro ⟨p, hp, hn⟩
    exact ⟨.inr p, hp, decide_eq_true hn⟩

end Pages

/-! ## The pane is taken out -/

section Taken

variable {next : Nat} {page : Widget} {a : Leaf} {p : Splitter}

/-- What is left of the page without the pane, whose splitter may collapse. -/
def taken (a : Leaf) (p : Splitter) (page : Widget) : Widget := (page.takeOut a).collapse (·.number = p.number)

theorem remove_eq_takeOut (hnode : ∀ x, page ≠ leaf x) : remove a page = [page.takeOut a] := edit_eq_editBelow _ _ hnode

theorem taken_leaves (hnode : ∀ x, page ≠ leaf x) : (taken a p page).leaves = page.leaves.filter (· ≠ a) := by
  rw [taken, leaves_collapse, ← leaves_remove, remove_eq_takeOut hnode, List.flatMap_singleton]

theorem taken_branching (h : page.Branching) (hnodup : page.leaves.Nodup) (hnode : ∀ x, page ≠ leaf x)
    (hlinks : ∀ q, (a, q) ∈ page.links none → q = some p) : (taken a p page).Branching := by
  have hmeant : ∀ q, (a, q) ∈ page.links none → ∃ b : Splitter, q = some b ∧ decide (b.number = p.number) = true :=
    fun q hq => ⟨p, hlinks q hq, decide_eq_true rfl⟩
  obtain ⟨t, hremoved, hbranching⟩ := branching_collapse_remove h (List.nodup_iff_count_le_one.mp hnodup a) hmeant (hnode a)
  rw [remove_eq_takeOut hnode, List.singleton_inj] at hremoved
  rwa [taken, hremoved]

end Taken

/-! ## It is put next to the target -/

/-- The two panes, in a splitter of their own where the one of the target has the other direction. -/
def Placed (source target : Nat) (zone : PaneDropZone) (widgets : List Widget) : Prop :=
  widgets = Window.besides source target zone ∨ ∃ n, widgets = [.node ⟨n, zone.orientation⟩ (Window.besides source target zone)]

section Placed

variable {source target : Nat} {zone : PaneDropZone} {widgets : List Widget}

theorem besides_eq (source target : Nat) (zone : PaneDropZone) :
    Window.besides source target zone = [.leaf (.view source), .leaf (.view target)] ∨
      Window.besides source target zone = [.leaf (.view target), .leaf (.view source)] := by
  unfold Window.besides
  split
  next => exact .inr rfl
  next => exact .inl rfl

theorem Placed.ne_nil (h : Placed source target zone widgets) : widgets ≠ [] := by
  rcases h with rfl | ⟨n, rfl⟩
  · rcases besides_eq source target zone with h | h <;> simp [h]
  · simp

theorem Placed.branching (h : Placed source target zone widgets) : ∀ w ∈ widgets, w.Branching := by
  have hpair : ∀ w ∈ Window.besides source target zone, w.Branching := by
    rcases besides_eq source target zone with h | h <;> simp [h]
  rcases h with rfl | ⟨n, rfl⟩
  · exact hpair
  · intro w hw
    rw [List.mem_singleton.mp hw, branching_node]
    refine ⟨?_, hpair⟩
    rcases besides_eq source target zone with h | h <;> simp [h]

theorem Placed.leaves (h : Placed source target zone widgets) :
    widgets.flatMap Rose.leaves = [.view source, .view target] ∨ widgets.flatMap Rose.leaves = [.view target, .view source] := by
  have hpair : (Window.besides source target zone).flatMap Rose.leaves = [.view source, .view target] ∨
      (Window.besides source target zone).flatMap Rose.leaves = [.view target, .view source] := by
    rcases besides_eq source target zone with h | h <;> simp [h]
  rcases h with rfl | ⟨n, rfl⟩
  · exact hpair
  · rw [List.flatMap_singleton, leaves_node]
    exact hpair

/-- A splitter of their own is one in which they are next to each other. -/
theorem wrapper_beside (n : Nat) : (Rose.node ⟨n, zone.orientation⟩ (Window.besides source target zone) : Widget).Beside
    (·.orientation = zone.orientation) (Window.besides source target zone) := by
  rw [beside_node]
  exact .inl ⟨decide_eq_true rfl, List.infix_refl _⟩

end Placed

section Put

variable {page rest page' : Widget} {source target : Nat} {zone : PaneDropZone} {widgets : List Widget}

theorem flatMap_of_notMem {α : Type} [DecidableEq α] {l : List α} {y : α} (w : List α) (h : y ∉ l) :
    (l.flatMap fun x => if x = y then w else [x]) = l := by
  induction l with
  | nil => rfl
  | cons x l ih =>
    rw [List.mem_cons, not_or] at h
    rw [List.flatMap_cons, if_neg (Ne.symm h.1), ih h.2]
    rfl

/-- One item, found once, makes room for others. -/
theorem flatMap_of_nodup {α : Type} [DecidableEq α] {l : List α} {y : α} (w : List α) (hnodup : l.Nodup) (hy : y ∈ l) :
    ∃ before after, l = before ++ y :: after ∧ (l.flatMap fun x => if x = y then w else [x]) = before ++ w ++ after := by
  obtain ⟨before, after, rfl⟩ := List.append_of_mem hy
  rw [List.nodup_append'] at hnodup
  obtain ⟨-, hafter, hdisjoint⟩ := hnodup
  have hnotBefore : y ∉ before := fun h => hdisjoint h (.head _)
  have hnotAfter : y ∉ after := (List.nodup_cons.mp hafter).1
  refine ⟨before, after, rfl, ?_⟩
  rw [List.flatMap_append, List.flatMap_cons, if_pos rfl, flatMap_of_notMem w hnotBefore, flatMap_of_notMem w hnotAfter, List.append_assoc]

/-- Widgets in the place of the target. -/
theorem edit_leaves_at (hnodup : rest.leaves.Nodup) (htarget : .view target ∈ rest.leaves)
    (hedit : edit (· = .view target) (fun _ => widgets) rest = [page']) : ∃ before after,
      rest.leaves = before ++ .view target :: after ∧ page'.leaves = before ++ widgets.flatMap Rose.leaves ++ after := by
  obtain ⟨before, after, hsplit, hflat⟩ := flatMap_of_nodup (widgets.flatMap Rose.leaves) hnodup htarget
  have hedited := leaves_edit (· = Leaf.view target) (fun _ => widgets) rest
  rw [hedit, List.flatMap_singleton] at hedited
  simp only [decide_eq_true_eq] at hedited
  exact ⟨before, after, hsplit, hedited.trans hflat⟩

/-- The target's place is taken by both. -/
theorem put_moved (hzone : zone ≠ .swap) (hnodup : page.leaves.Nodup) (hsource : .view source ∈ page.leaves)
    (htarget : .view target ∈ page.leaves) (hne : source ≠ target) (hrest : rest.leaves = page.leaves.filter (· ≠ .view source))
    (hbranching : rest.Branching) (hplaced : Placed source target zone widgets)
    (hput : (∀ q, (.view target, q) ∈ rest.links none → ∃ b : Splitter, q = some b ∧ decide (b.orientation = zone.orientation) = true ∧
      widgets = Window.besides source target zone) ∨
      ∃ w ∈ widgets, w.Beside (·.orientation = zone.orientation) (Window.besides source target zone))
    (hedit : edit (· = .view target) (fun _ => widgets) rest = [page']) : Moved source target zone page page' := by
  have hviews : Leaf.view target ≠ .view source := fun h => hne (Leaf.view.inj h).symm
  have htarget' : .view target ∈ rest.leaves := by
    rw [hrest]
    exact List.mem_filter.mpr ⟨htarget, decide_eq_true hviews⟩
  have hnodup' : rest.leaves.Nodup := by
    rw [hrest]
    exact hnodup.filter _
  obtain ⟨before, after, hsplit, hpage'⟩ := edit_leaves_at hnodup' htarget' hedit
  have hgone : ∀ x ∈ rest.leaves, x ≠ .view source := by
    intro x hx
    rw [hrest] at hx
    exact of_decide_eq_true (List.mem_filter.mp hx).2
  rw [hsplit] at hgone
  have hpair := hplaced.leaves
  refine ⟨?_, ?_, ?_, fun hswap => absurd hswap hzone, fun _ => ?_⟩
  · have hput' : page'.leaves.Perm (.view source :: rest.leaves) := by
      rw [hpage', hsplit]
      rcases hpair with hpair | hpair
      · rw [hpair, List.append_assoc]
        exact List.perm_middle
      · rw [hpair, List.append_assoc]
        refine List.Perm.trans ?_ List.perm_middle
        exact List.Perm.append_left _ (List.Perm.swap ..)
    have hback : page.leaves.Perm (.view source :: rest.leaves) := by
      have herase : page.leaves.filter (· ≠ .view source) = page.leaves.erase (.view source) := by
        rw [hnodup.erase_eq_filter]
        exact List.filter_congr fun x _ => by rw [Bool.eq_iff_iff]; simp
      rw [hrest, herase]
      exact List.perm_cons_erase hsource
    exact hput'.trans hback.symm
  · have hedited : edit (· = .view target) (fun _ => widgets) rest ≠ [] ∧
        ∀ t ∈ edit (· = .view target) (fun _ => widgets) rest, t.Branching :=
      branching_edit (fun _ _ => ⟨hplaced.ne_nil, hplaced.branching⟩) hbranching
    apply hedited.2
    rw [hedit]
    exact List.mem_singleton_self _
  · have hfilter : ∀ l : List Leaf, l.filter (fun a => a ≠ .view source ∧ (zone = .swap → a ≠ .view target)) =
        l.filter (· ≠ .view source) := by
      intro l
      simp [hzone]
    have hkeep : ∀ l : List Leaf, (∀ x ∈ l, x ≠ .view source) → l.filter (· ≠ .view source) = l :=
      fun l hl => List.filter_eq_self.mpr fun x hx => decide_eq_true (hl x hx)
    have hbefore := hkeep before fun x hx => hgone x (List.mem_append_left _ hx)
    have hafter := hkeep after fun x hx => hgone x (List.mem_append_right _ (.tail _ hx))
    rw [hfilter, hfilter, ← hrest, hpage', hsplit, List.filter_append, List.filter_append, hbefore, hafter]
    rcases hpair with hpair | hpair
    · simp [hpair, hviews]
    · simp [hpair, hviews]
  · obtain ⟨b, hb, -⟩ | ⟨t, ht, hbeside⟩ := beside_edit (q := none) (by
      rw [← links_fst none, List.mem_map] at htarget'
      obtain ⟨⟨x, q⟩, hlink, rfl⟩ := htarget'
      exact ⟨q, hlink⟩) hput
    · cases hb
    · rw [hedit, List.mem_singleton] at ht
      rwa [ht] at hbeside

end Put

/-! ## They change places -/

section Swap

variable {page : Widget} {source target placeholder : Leaf}

theorem replaceWidget_eq_mapLeaves (hnode : ∀ x, page ≠ leaf x) (a b : Leaf) :
    page.replaceWidget a b = page.mapLeaves (fun x => if x = a then b else x) := by
  have hedit := edit_eq_mapLeaves a b page
  rw [edit_eq_editBelow _ _ hnode, List.singleton_inj] at hedit
  exact hedit

theorem replaceWidget_ne_leaf (hnode : ∀ x, page ≠ leaf x) (a b x : Leaf) : page.replaceWidget a b ≠ leaf x := by
  cases page with
  | leaf y => exact absurd rfl (hnode y)
  | node label children => exact fun h => nomatch h

/-- With the placeholder for a while in the place of the source. -/
theorem swap_eq_mapLeaves (hnode : ∀ x, page ≠ leaf x) (hfree : placeholder ∉ page.leaves)
    (hsource : source ∈ page.leaves) (htarget : target ∈ page.leaves) :
    ((page.replaceWidget source placeholder).replaceWidget target source).replaceWidget placeholder target =
      page.mapLeaves (Equiv.swap source target) := by
  have hnode₁ := replaceWidget_ne_leaf hnode source placeholder
  have hnode₂ := replaceWidget_ne_leaf hnode₁ target source
  rw [replaceWidget_eq_mapLeaves hnode₂, replaceWidget_eq_mapLeaves hnode₁, replaceWidget_eq_mapLeaves hnode, mapLeaves_mapLeaves,
    mapLeaves_mapLeaves]
  refine mapLeaves_congr fun x hx => ?_
  have hplaceholder : x ≠ placeholder := fun h => hfree (h ▸ hx)
  have hps : placeholder ≠ source := fun h => hfree (h ▸ hsource)
  have hpt : placeholder ≠ target := fun h => hfree (h ▸ htarget)
  simp only [Function.comp_apply]
  by_cases hxs : x = source
  · rw [if_pos hxs, if_neg hpt, if_pos rfl, hxs, Equiv.swap_apply_left]
  · rw [if_neg hxs]
    by_cases hxt : x = target
    · rw [if_pos hxt, if_neg (Ne.symm hps), hxt, Equiv.swap_apply_right]
    · rw [if_neg hxt, if_neg hplaceholder, Equiv.swap_apply_of_ne_of_ne hxs hxt]

theorem swap_mem {l : List Leaf} (hsource : source ∈ l) (htarget : target ∈ l) {x : Leaf} (hx : x ∈ l) :
    Equiv.swap source target x ∈ l := by
  rw [Equiv.swap_apply_def]
  split
  next => exact htarget
  next =>
    split
    next => exact hsource
    next => exact hx

theorem swap_ne_iff (x : Leaf) : (Equiv.swap source target x ≠ source ∧ Equiv.swap source target x ≠ target) ↔
    (x ≠ source ∧ x ≠ target) := by
  rw [Ne, Ne, Equiv.swap_apply_eq_iff, Equiv.swap_apply_eq_iff, Equiv.swap_apply_left, Equiv.swap_apply_right]
  exact and_comm

/-- Two leaves change places, and nothing else does. -/
theorem swap_moved {page : Widget} {source target : Nat} (hbranching : page.Branching) (hnodup : page.leaves.Nodup)
    (hsource : .view source ∈ page.leaves) (htarget : .view target ∈ page.leaves) :
    Moved source target .swap page (page.mapLeaves (Equiv.swap (Leaf.view source) (.view target))) where
  leaves := by
    rw [leaves_mapLeaves]
    refine (List.perm_ext_iff_of_nodup (hnodup.map (Equiv.injective _)) hnodup).mpr fun x => ?_
    rw [List.mem_map]
    constructor
    · rintro ⟨y, hy, rfl⟩
      exact swap_mem hsource htarget hy
    · intro hx
      exact ⟨_, swap_mem hsource htarget hx, Equiv.swap_apply_self ..⟩
  branching := branching_mapLeaves _ hbranching
  order := by
    rw [leaves_mapLeaves, List.filter_map]
    have hothers : page.leaves.filter ((fun a => decide (a ≠ .view source ∧ (PaneDropZone.swap = .swap → a ≠ .view target))) ∘
        Equiv.swap (Leaf.view source) (.view target)) =
        page.leaves.filter fun a => a ≠ .view source ∧ (PaneDropZone.swap = .swap → a ≠ .view target) := by
      refine List.filter_congr fun x _ => ?_
      simp only [Function.comp_apply, forall_const, decide_eq_decide]
      exact swap_ne_iff x
    rw [hothers]
    refine (List.map_congr_left fun x hx => ?_).trans (List.map_id' _)
    have hne := of_decide_eq_true (List.mem_filter.mp hx).2
    exact Equiv.swap_apply_of_ne_of_ne hne.1 (hne.2 rfl)
  swapped _ := rfl
  beside h := absurd rfl h

end Swap

/-! ## The window -/

section Windows

variable {s s' s'' : Window} {i : Nat} {tab : Tab} {n : Nat} {page page' : Widget}

theorem findIdx?_eq_some {α : Type} {l : List α} {f : α → Bool} {i : Nat} {x : α} (hx : l[i]? = some x) (hf : f x = true)
    (hfirst : ∀ j < i, ∀ y, l[j]? = some y → f y = false) : l.findIdx? f = some i := by
  obtain ⟨hi, rfl⟩ := List.getElem?_eq_some_iff.mp hx
  refine List.findIdx?_eq_some_iff_getElem.mpr ⟨hi, hf, fun j hj => ?_⟩
  rw [hfirst j hj l[j] (List.getElem?_eq_getElem (Nat.lt_trans hj hi))]
  decide

theorem modify_congr {α : Type} {l : List α} {i : Nat} {x : α} (hx : l[i]? = some x) {f g : α → α} (h : f x = g x) :
    l.modify i f = l.modify i g := by
  apply List.ext_getElem?
  intro j
  rw [List.getElem?_modify, List.getElem?_modify]
  by_cases hj : i = j
  · subst hj
    simp [hx, h]
  · simp [hj]

theorem modify_eq_set_of {α : Type} {l : List α} {i : Nat} {x : α} (hx : l[i]? = some x) (f : α → α) : l.modify i f = l.set i (f x) := by
  obtain ⟨hi, rfl⟩ := List.getElem?_eq_some_iff.mp hx
  apply List.ext_getElem?
  intro j
  rw [List.getElem?_modify, List.getElem?_set]
  by_cases hj : i = j
  · subst hj
    simp [hi]
  · simp [hj]

/-- The widgets of one tab are in no other. -/
theorem Distinct.elsewhere (hs : Distinct s) (htab : s.tabs[i]? = some tab) (hn : n ∈ tab.page.numbers) :
    ∀ j < i, ∀ tab', s.tabs[j]? = some tab' → n ∉ tab'.page.numbers := by
  intro j hj tab' htab' hn'
  obtain ⟨hi, rfl⟩ := List.getElem?_eq_some_iff.mp htab
  obtain ⟨hj', rfl⟩ := List.getElem?_eq_some_iff.mp htab'
  exact List.pairwise_iff_getElem.mp hs.apart j i hj' hi hj hn' hn

theorem Distinct.tabRootOf (hs : Distinct s) (htab : s.tabs[i]? = some tab) {a : Leaf} (ha : a ∈ tab.page.leaves) :
    s.tabRootOf a = some i :=
  findIdx?_eq_some htab (decide_eq_true ha) fun j hj tab' htab' =>
    decide_eq_false fun ha' => hs.elsewhere htab (number_of_leaf ha) j hj tab' htab' (number_of_leaf ha')

theorem pageAt_eq (htab : s.tabs[i]? = some tab) : s.pageAt i = some tab.page := by
  rw [Window.pageAt, htab]
  rfl

/-- One page is another one now. -/
structure Reworks (s s' : Window) (i : Nat) (page : Widget) : Prop where
  tabs : s'.tabs = s.tabs.modify i fun tab => { tab with page := page }
  current : s.currentIndex = some i → s'.currentIndex = some i

theorem Reworks.getElem? (h : Reworks s s' i page) (htab : s.tabs[i]? = some tab) : s'.tabs[i]? = some ⟨tab.title, page⟩ := by
  rw [h.tabs, List.getElem?_modify_eq, htab]
  rfl

theorem Reworks.trans (h : Reworks s s' i page) (h' : Reworks s' s'' i page') : Reworks s s'' i page' where
  tabs := by
    rw [h'.tabs, h.tabs, List.modify_modify_eq]
    rfl
  current hcurrent := h'.current (h.current hcurrent)

theorem changePage_reworks (htab : s.tabs[i]? = some tab) (f : Widget → Widget) : Reworks s (s.changePage i f) i (f tab.page) where
  tabs := modify_congr htab rfl
  current hcurrent := hcurrent

theorem replacePage_reworks (htab : s.tabs[i]? = some tab) (page : Widget) : Reworks s (s.replacePage i page) i page where
  tabs := Window.replacePage_tabs s i page
  current _ := Window.replacePage_currentIndex s (List.getElem?_eq_some_iff.mp htab).1 page

theorem collapse_same (s : Window) (n : Nat) : Window.Same s (s.collapseSplitterIfSingle n) := by
  unfold Window.collapseSplitterIfSingle
  split
  next => exact ⟨rfl, rfl⟩
  next =>
    split
    next =>
      split
      next => exact Window.replacePage_same ..
      next => exact ⟨rfl, rfl⟩
    next => exact ⟨rfl, rfl⟩

/-- The splitter is collapsed in its page, whether it is the page itself or not. -/
theorem collapse_reworks (htab : s.tabs[i]? = some tab) (hnodup : tab.page.numbers.Nodup) (hsplitter : tab.page.hasSplitter n = true)
    (hfirst : ∀ j < i, ∀ tab', s.tabs[j]? = some tab' → tab'.page.hasSplitter n = false) :
    Reworks s (s.collapseSplitterIfSingle n) i (tab.page.collapse (·.number = n)) := by
  unfold Window.collapseSplitterIfSingle
  rw [findIdx?_eq_some htab hsplitter hfirst]
  simp only [pageAt_eq htab]
  split
  next b remaining hroot =>
    split
    next hb =>
      have hroot := Option.some.inj hroot
      have habsent : ∀ b' : Splitter, .inr b' ∈ remaining.tokens → decide (b'.number = n) = false := by
        intro b' hb'
        refine decide_eq_false fun hn => ?_
        rw [hroot, Widget.numbers, tokens_node, List.flatMap_singleton, List.map_cons] at hnodup
        exact (List.nodup_cons.mp hnodup).1 (List.mem_map.mpr ⟨.inr b', hb', hn.trans hb.symm⟩)
      have hsingle := collapse_single (p := fun b : Splitter => decide (b.number = n)) (decide_eq_true hb) remaining
      rw [hroot, hsingle, collapse_of_absent habsent]
      exact replacePage_reworks htab remaining
    next => exact changePage_reworks htab _
  next => exact changePage_reworks htab _

/-- `source` has come next to `target`, if need be in a splitter that is new. -/
def PutBeside (m m' source target : Nat) (zone : PaneDropZone) (page page' : Widget) : Prop := ∃ widgets,
  edit (· = .view target) (fun _ => widgets) page = [page'] ∧
    ((widgets = Window.besides source target zone ∧
        ∀ q, (.view target, q) ∈ page.links none → ∃ b : Splitter, q = some b ∧ decide (b.orientation = zone.orientation) = true) ∨
      ∃ n, m ≤ n ∧ n < m' ∧ widgets = [.node ⟨n, zone.orientation⟩ (Window.besides source target zone)])

theorem PutBeside.placed {m m' source target : Nat} {zone : PaneDropZone} (h : PutBeside m m' source target zone page page') :
    ∃ widgets, edit (· = .view target) (fun _ => widgets) page = [page'] ∧ Placed source target zone widgets := by
  obtain ⟨widgets, hedit, ⟨hwidgets, -⟩ | ⟨n, -, -, hwidgets⟩⟩ := h
  · exact ⟨widgets, hedit, .inl hwidgets⟩
  · exact ⟨widgets, hedit, .inr ⟨n, hwidgets⟩⟩

/-- The place of the target is taken, in whatever splitter it is, or where it is the page. -/
theorem insertPane_reworks (source : Nat) {target : Nat} (zone : PaneDropZone) (htab : s.tabs[i]? = some tab)
    (hnodup : tab.page.leaves.Nodup) (htarget : .view target ∈ tab.page.leaves) : ∃ page',
      PutBeside s.next (s.insertPane i source target zone).next source target zone tab.page page' ∧
        s.next ≤ (s.insertPane i source target zone).next ∧ Reworks s (s.insertPane i source target zone) i page' := by
  unfold Window.insertPane
  rw [pageAt_eq htab, Option.bind_some]
  by_cases hleaf : ∃ x, tab.page = leaf x
  · obtain ⟨x, hx⟩ := hleaf
    rw [hx, leaves_leaf, List.mem_singleton] at htarget
    subst htarget
    have hnone : Widget.parentSplitter (.view target) (leaf (.view target)) = none := by simp [Widget.parentSplitter]
    have hnext : (Window.replacePage i (.node ⟨s.next, zone.orientation⟩ (Window.besides source target zone))
        { s with next := s.next + 1 }).next = s.next + 1 := (Window.replacePage_same ..).next
    rw [hx, hnone]
    simp only
    rw [hnext]
    refine ⟨.node ⟨s.next, zone.orientation⟩ (Window.besides source target zone), ?_, Nat.le_succ _, ?_⟩
    · exact ⟨_, by simp [edit_leaf], .inr ⟨s.next, Nat.le_refl _, Nat.lt_succ_self _, rfl⟩⟩
    · have hreworks := replacePage_reworks (s := { s with next := s.next + 1 }) htab
        (.node ⟨s.next, zone.orientation⟩ (Window.besides source target zone))
      exact ⟨hreworks.tabs, hreworks.current⟩
  · have hnode : ∀ x, tab.page ≠ leaf x := fun x hx => hleaf ⟨x, hx⟩
    obtain ⟨p, hparent, hlinks⟩ := parentSplitter_of_nodup hnodup htarget hnode
    rw [hparent]
    simp only
    split
    next hsame =>
      refine ⟨_, ⟨_, edit_eq_editBelow _ _ hnode, .inl ⟨rfl, fun q hq => ?_⟩⟩, Nat.le_refl _, changePage_reworks htab _⟩
      exact ⟨p, hlinks q hq, decide_eq_true hsame⟩
    next =>
      refine ⟨_, ⟨_, edit_eq_editBelow _ _ hnode, .inr ⟨s.next, Nat.le_refl _, Nat.lt_succ_self _, rfl⟩⟩, Nat.le_succ _, ?_⟩
      have hreworks := changePage_reworks (s := { s with next := s.next + 1 }) htab
        (·.insertAt (.view target) [.node ⟨s.next, zone.orientation⟩ (Window.besides source target zone)])
      exact ⟨hreworks.tabs, hreworks.current⟩

/-- The window in which a pane was taken out, with the pane's splitter collapsed. -/
theorem takenOut_reworks (hs : Distinct s) (htab : s.tabs[i]? = some tab) {a : Leaf} {p : Splitter} (ha : a ∈ tab.page.leaves)
    (hnode : ∀ x, tab.page ≠ leaf x) (hlinks : ∀ q, (a, q) ∈ tab.page.links none → q = some p)
    (htaken : Reworks s s' i (tab.page.takeOut a)) : Reworks s (s'.collapseSplitterIfSingle p.number) i (taken a p tab.page) := by
  have htokens : (tab.page.takeOut a).tokens = tab.page.tokens.filter (· ≠ .inl a) := by
    rw [← tokens_remove, remove_eq_takeOut hnode, List.flatMap_singleton]
  have hp : .inr p ∈ tab.page.tokens := by
    rw [← links_fst none, List.mem_map] at ha
    obtain ⟨⟨x, q⟩, hlink, rfl⟩ := ha
    rw [hlinks q hlink] at hlink
    exact label_of_links hlink (by simp)
  have hsplitter : (tab.page.takeOut a).hasSplitter p.number = true := by
    refine (hasSplitter_iff _).mpr ⟨p, ?_, rfl⟩
    rw [htokens]
    exact List.mem_filter.mpr ⟨hp, rfl⟩
  have hnodup : (tab.page.takeOut a).numbers.Nodup := by
    rw [Widget.numbers, htokens]
    exact (hs.pages tab (List.mem_of_getElem? htab)).1.sublist (List.filter_sublist.map _)
  refine htaken.trans (collapse_reworks (htaken.getElem? htab) hnodup hsplitter fun j hj tab' htab' => ?_)
  rw [htaken.tabs, List.getElem?_modify_ne _ _ (by omega)] at htab'
  rw [Bool.eq_false_iff]
  intro hhas
  obtain ⟨p', hp', hnumber⟩ := (hasSplitter_iff _).mp hhas
  refine hs.elsewhere htab (number_of_splitter hp) j hj tab' htab' ?_
  rw [← hnumber]
  exact number_of_splitter hp'

theorem swapPanes_reworks (hs : Distinct s) (htab : s.tabs[i]? = some tab) {source target : Nat} (hnode : ∀ x, tab.page ≠ leaf x)
    (hsource : .view source ∈ tab.page.leaves) (htarget : .view target ∈ tab.page.leaves) :
    Reworks s (s.swapPanes i source target) i (tab.page.mapLeaves (Equiv.swap (Leaf.view source) (.view target))) := by
  have hmade := hs.pages tab (List.mem_of_getElem? htab)
  have hfree : Leaf.plain s.next ∉ tab.page.leaves := fun h => Nat.lt_irrefl _ (hmade.2 _ (number_of_leaf h))
  rw [← swap_eq_mapLeaves hnode hfree hsource htarget]
  have hfirst := changePage_reworks (s := { s with next := s.next + 1 }) htab (·.replaceWidget (.view source) (.plain s.next))
  have hsecond := changePage_reworks (hfirst.getElem? htab) (·.replaceWidget (.view target) (.view source))
  have hthird := changePage_reworks (hsecond.getElem? (hfirst.getElem? htab)) (·.replaceWidget (.plain s.next) (.view target))
  have hall := hfirst.trans (hsecond.trans hthird)
  exact ⟨hall.tabs, hall.current⟩

/-- The page in which the pane has been moved, and what follows. -/
theorem movePane_eq (hs : Distinct s) (htab : s.tabs[i]? = some tab) {source target : Nat} (hsource : .view source ∈ tab.page.leaves)
    (htarget : .view target ∈ tab.page.leaves) (hne : source ≠ target) (zone : PaneDropZone) : ∃ s' page',
      s.movePane source target zone = { s'.loseFocus with activeView := some source }.setFocus (.view source) ∧
      Reworks s s' i page' ∧ s.next ≤ s'.next ∧
      (zone = .swap → page' = tab.page.mapLeaves (Equiv.swap (Leaf.view source) (.view target))) ∧
      (zone ≠ .swap → ∃ p, (∀ q, (.view source, q) ∈ tab.page.links none → q = some p) ∧
        PutBeside s.next s'.next source target zone (taken (.view source) p tab.page) page') := by
  have hmade := hs.pages tab (List.mem_of_getElem? htab)
  have hnodup := hmade.leaves_nodup
  have hnode : ∀ x, tab.page ≠ leaf x := by
    intro x hx
    rw [hx, leaves_leaf, List.mem_singleton] at hsource htarget
    exact hne (Leaf.view.inj (hsource.trans htarget.symm))
  obtain ⟨p, hparent, hlinks⟩ := parentSplitter_of_nodup hnodup hsource hnode
  obtain ⟨p', hparent', -⟩ := parentSplitter_of_nodup hnodup htarget hnode
  unfold Window.movePane
  rw [hs.tabRootOf htab hsource, hs.tabRootOf htab htarget]
  simp only [pageAt_eq htab, Option.bind_some, hparent, hparent', hne, ne_eq, not_true_eq_false, or_self, if_false]
  by_cases hzone : zone = .swap
  · subst hzone
    exact ⟨_, _, rfl, swapPanes_reworks hs htab hnode hsource htarget, Nat.le_succ _, fun _ => rfl, fun h => absurd rfl h⟩
  · simp only [hzone, if_false]
    have hout := takenOut_reworks hs htab hsource hnode hlinks (changePage_reworks htab _)
    have hsame : ((s.changePage i (·.takeOut (.view source))).collapseSplitterIfSingle p.number).next = s.next :=
      (collapse_same _ _).next
    generalize (s.changePage i (·.takeOut (.view source))).collapseSplitterIfSingle p.number = s' at hout hsame ⊢
    have hrest : (taken (.view source) p tab.page).leaves = tab.page.leaves.filter (· ≠ .view source) := taken_leaves hnode
    have htarget' : .view target ∈ (taken (.view source) p tab.page).leaves := by
      rw [hrest]
      exact List.mem_filter.mpr ⟨htarget, decide_eq_true fun h => hne (Leaf.view.inj h).symm⟩
    have hnodup' : (taken (.view source) p tab.page).leaves.Nodup := by
      rw [hrest]
      exact hnodup.filter _
    obtain ⟨page', hput, hle, hreworks⟩ := insertPane_reworks source zone (hout.getElem? htab) hnodup' htarget'
    rw [hsame] at hput hle
    exact ⟨_, page', rfl, hout.trans hreworks, hle, fun h => h.elim, fun _ => ⟨p, hlinks, hput⟩⟩

end Windows

/-! ## The claim -/

/-- Dropping one pane of a tab on another keeps all panes, every splitter's two children, the order of the other panes, and the tab's
place and title; the two have changed places, or are next to each other as the zone says. -/
theorem movePane_rearranges {s : Window} (hs : Distinct s) {i : Nat} {tab : Tab} (htab : s.tabs[i]? = some tab)
    (hbranching : tab.page.Branching) {source target : Nat} (hsource : source ∈ collectViews tab.page)
    (htarget : target ∈ collectViews tab.page) (hne : source ≠ target) (zone : PaneDropZone) :
    ∃ page, (s.movePane source target zone).tabs = s.tabs.set i ⟨tab.title, page⟩ ∧ Moved source target zone tab.page page := by
  rw [view_mem_leaves] at hsource htarget
  have hnodup := (hs.pages tab (List.mem_of_getElem? htab)).leaves_nodup
  have hnode : ∀ x, tab.page ≠ leaf x := by
    intro x hx
    rw [hx, leaves_leaf, List.mem_singleton] at hsource htarget
    exact hne (Leaf.view.inj (hsource.trans htarget.symm))
  obtain ⟨s', page', heq, hreworks, -, hswap, hbeside⟩ := movePane_eq hs htab hsource htarget hne zone
  have htabs : (s.movePane source target zone).tabs = s.tabs.set i ⟨tab.title, page'⟩ := by
    rw [heq, Window.setFocus_tabs, ← modify_eq_set_of htab fun tab => { tab with page := page' }]
    exact hreworks.tabs
  refine ⟨page', htabs, ?_⟩
  by_cases hzone : zone = .swap
  · rw [hswap hzone]
    subst hzone
    exact swap_moved hbranching hnodup hsource htarget
  · obtain ⟨p, hlinks, widgets, hedit, hput⟩ := hbeside hzone
    have hplaced : Placed source target zone widgets := by
      rcases hput with ⟨hwidgets, -⟩ | ⟨n, -, -, hwidgets⟩
      · exact .inl hwidgets
      · exact .inr ⟨n, hwidgets⟩
    refine put_moved hzone hnodup hsource htarget hne (taken_leaves hnode) (taken_branching hbranching hnodup hnode hlinks) hplaced ?_ hedit
    rcases hput with ⟨hwidgets, hsame⟩ | ⟨n, -, -, hwidgets⟩
    · left
      intro q hq
      obtain ⟨b, hb, horientation⟩ := hsame q hq
      exact ⟨b, hb, horientation, hwidgets⟩
    · exact .inr ⟨_, by rw [hwidgets]; exact List.mem_singleton_self _, wrapper_beside n⟩

/-- One pane beside two that are above each other. -/
def threePanes : Widget := .node ⟨0, .horizontal⟩ [.leaf (.view 1), .node ⟨2, .vertical⟩ [.leaf (.view 3), .leaf (.view 4)]]

def oneTab : Window := { Window.empty with tabs := [⟨[], threePanes⟩], currentIndex := some 0, next := 5 }

/-- The other splitter becomes the page before the pane is put into it. -/
theorem movePane_rearranges_threePanes :
    ∃ page, (oneTab.movePane 1 3 .right).tabs = oneTab.tabs.set 0 ⟨[], page⟩ ∧ Moved 1 3 .right threePanes page := by
  have hdistinct : Distinct oneTab := ⟨by decide, List.pairwise_singleton _ _⟩
  have htab : oneTab.tabs[0]? = some ⟨[], threePanes⟩ := rfl
  have hbranching : threePanes.Branching := by simp [threePanes]
  exact movePane_rearranges hdistinct htab hbranching (by decide) (by decide) (by decide) .right

end LvdTerm.App.Panes
