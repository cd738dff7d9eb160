import Mathlib.Data.List.Perm.Basic
import LvdTerm.App.MovedPane
import LvdTerm.Lib.Runs

/-!
# What the commands do to the trees

Whatever is done, the widgets of a window stay different from each other, and every page but the welcome page has a pane
(`reached_sound`). So much is left of a page where one of its panes is closed.
-/
namespace LvdTerm.App.Panes

open LvdTerm.Lib Rose Runs

/-! ## A leaf makes room for widgets -/

section Put

variable {page page' : Widget} {a : Leaf} {widgets : List Widget} {n m m' : Nat}

theorem put_tokens (hput : edit (· = a) (fun _ => widgets) page = [page']) : page'.tokens =
    page.tokens.flatMap fun x => if x = .inl a then widgets.flatMap Rose.tokens else [x] := by
  have htokens := tokens_edit (· = a) (fun _ => widgets) page
  rw [hput, List.flatMap_singleton] at htokens
  refine htokens.trans (List.flatMap_congr fun x _ => ?_)
  cases x with
  | inl y => by_cases hy : y = a <;> simp [hy]
  | inr b => simp

/-- The widgets have the place of the leaf. -/
theorem put_numbers (hput : edit (· = a) (fun _ => widgets) page = [page']) (hnodup : page.numbers.Nodup) (ha : a ∈ page.leaves) :
    ∃ before after, page.numbers = before ++ a.number :: after ∧ page'.numbers = before ++ widgets.flatMap Widget.numbers ++ after := by
  obtain ⟨before, after, hsplit, hflat⟩ := flatMap_of_nodup (widgets.flatMap Rose.tokens) (List.Nodup.of_map _ hnodup) (token_of_leaf ha)
  refine ⟨before.map (Sum.elim Leaf.number Splitter.number), after.map (Sum.elim Leaf.number Splitter.number), ?_, ?_⟩
  · rw [Widget.numbers, hsplit, List.map_append, List.map_cons]
    rfl
  · rw [Widget.numbers, put_tokens hput, hflat, List.map_append, List.map_append, List.map_flatMap]
    rfl

theorem mem_put_numbers (hput : edit (· = a) (fun _ => widgets) page = [page']) (hnodup : page.numbers.Nodup) (ha : a ∈ page.leaves) :
    n ∈ page'.numbers ↔ n ∈ widgets.flatMap Widget.numbers ∨ n ∈ page.numbers ∧ n ≠ a.number := by
  obtain ⟨before, after, hnumbers, hnumbers'⟩ := put_numbers hput hnodup ha
  rw [hnumbers, List.nodup_append'] at hnodup
  obtain ⟨-, hafter, hdisjoint⟩ := hnodup
  have hnotBefore : a.number ∉ before := fun h => hdisjoint h (.head _)
  have hnotAfter : a.number ∉ after := (List.nodup_cons.mp hafter).1
  rw [hnumbers', hnumbers]
  simp only [List.mem_append, List.mem_cons]
  constructor
  · rintro ((h | h) | h)
    · exact .inr ⟨.inl h, fun hn => hnotBefore (hn ▸ h)⟩
    · exact .inl h
    · exact .inr ⟨.inr (.inr h), fun hn => hnotAfter (hn ▸ h)⟩
  · rintro (h | ⟨h | h | h, hne⟩)
    · exact .inl (.inr h)
    · exact .inl (.inl h)
    · exact absurd h hne
    · exact .inr h

/-- Widgets that are new in the page, or the leaf itself, leave all different. -/
theorem Made.put (h : Made m page) (hput : edit (· = a) (fun _ => widgets) page = [page']) (ha : a ∈ page.leaves) (hle : m ≤ m')
    (hwidgets : (widgets.flatMap Widget.numbers).Nodup)
    (hnew : ∀ n ∈ widgets.flatMap Widget.numbers, n < m' ∧ (n ∈ page.numbers → n = a.number)) : Made m' page' := by
  constructor
  · obtain ⟨before, after, hnumbers, hnumbers'⟩ := put_numbers hput h.1 ha
    have hnodup := h.1
    rw [hnumbers, List.nodup_middle, List.nodup_cons] at hnodup
    rw [hnumbers', List.append_assoc, (List.perm_append_comm_assoc ..).nodup_iff, List.nodup_append']
    refine ⟨hwidgets, hnodup.2, fun n hn hrest => ?_⟩
    have hpage : n ∈ page.numbers := by
      rw [hnumbers]
      simp only [List.mem_append, List.mem_cons] at hrest ⊢
      tauto
    rw [(hnew n hn).2 hpage] at hrest
    exact hnodup.1 hrest
  · intro n hn
    rcases (mem_put_numbers hput h.1 ha).mp hn with hn | ⟨hn, -⟩
    · exact (hnew n hn).1
    · exact Nat.lt_of_lt_of_le (h.2 n hn) hle

theorem mem_put_leaves (hput : edit (· = a) (fun _ => widgets) page = [page']) {x : Leaf} : x ∈ page'.leaves ↔
    (x ∈ page.leaves ∧ x ≠ a) ∨ (a ∈ page.leaves ∧ x ∈ widgets.flatMap Rose.leaves) := by
  have hleaves := leaves_edit (· = a) (fun _ => widgets) page
  rw [hput, List.flatMap_singleton] at hleaves
  rw [hleaves, List.mem_flatMap]
  constructor
  · rintro ⟨y, hy, hx⟩
    by_cases hya : y = a
    · rw [if_pos (decide_eq_true hya)] at hx
      exact .inr ⟨hya ▸ hy, hx⟩
    · rw [if_neg (by simpa using hya), List.mem_singleton] at hx
      rw [hx]
      exact .inl ⟨hy, hya⟩
  · rintro (⟨hx, hne⟩ | ⟨ha, hx⟩)
    · exact ⟨x, hx, by simp [hne]⟩
    · exact ⟨a, ha, by simpa using hx⟩

end Put

/-! ## Sound windows -/

/-- Besides, every page but the welcome page has a pane. -/
structure Sound (s : Window) : Prop extends Distinct s where
  peopled : ∀ tab ∈ s.tabs, Peopled tab.page

section Windows

variable {s s' : Window} {i n : Nat} {tab : Tab} {page : Widget}

theorem Made.mono {m m' : Nat} (h : Made m page) (hle : m ≤ m') : Made m' page :=
  ⟨h.1, fun n hn => Nat.lt_of_lt_of_le (h.2 n hn) hle⟩

/-- A page is changed, or replaced by another with its widgets and new ones. -/
theorem Sound.modify (hs : Sound s) (htab : s.tabs[i]? = some tab) (hle : s.next ≤ s'.next)
    (htabs : s'.tabs = s.tabs.modify i fun tab => { tab with page := page }) (hmade : Made s'.next page)
    (hnumbers : ∀ n ∈ page.numbers, n ∈ tab.page.numbers ∨ s.next ≤ n) (hpeopled : Peopled page) : Sound s' := by
  rw [modify_eq_set_of htab] at htabs
  have hapart : ∀ tab' ∈ s.tabs, tab.page.numbers.Disjoint tab'.page.numbers → page.numbers.Disjoint tab'.page.numbers := by
    intro tab' hmem hdisjoint n hn hn'
    rcases hnumbers n hn with hold | hnew
    · exact hdisjoint hold hn'
    · exact absurd ((hs.pages tab' hmem).2 n hn') (Nat.not_lt.mpr hnew)
  refine ⟨⟨fun tab' hmem => ?_, ?_⟩, fun tab' hmem => ?_⟩
  · rw [htabs] at hmem
    rcases List.mem_or_eq_of_mem_set hmem with hmem | rfl
    · exact (hs.pages tab' hmem).mono hle
    · exact hmade
  · rw [htabs]
    refine List.pairwise_iff_getElem.mpr fun j k hj hk hjk => ?_
    have hj' : j < s.tabs.length := List.length_set ▸ hj
    have hk' : k < s.tabs.length := List.length_set ▸ hk
    obtain ⟨hi, rfl⟩ := List.getElem?_eq_some_iff.mp htab
    have hpair := List.pairwise_iff_getElem.mp hs.apart
    rw [List.getElem_set, List.getElem_set]
    by_cases hij : i = j
    · subst hij
      rw [if_pos rfl, if_neg (by omega)]
      exact hapart _ (List.getElem_mem hk') (hpair i k hi hk' hjk)
    · rw [if_neg hij]
      split
      next hik =>
        subst hik
        exact List.disjoint_symm (hapart _ (List.getElem_mem hj') (List.disjoint_symm (hpair j i hj' hi hjk)))
      next => exact hpair j k hj' hk' hjk
  · rw [htabs] at hmem
    rcases List.mem_or_eq_of_mem_set hmem with hmem | rfl
    · exact hs.peopled tab' hmem
    · exact hpeopled

theorem Sound.of_sublist (hs : Sound s) (hle : s.next ≤ s'.next) (htabs : s'.tabs.Sublist s.tabs) : Sound s' where
  pages tab hmem := (hs.pages tab (htabs.subset hmem)).mono hle
  apart := hs.apart.sublist htabs
  peopled tab hmem := hs.peopled tab (htabs.subset hmem)

theorem Sound.of_perm (hs : Sound s) (hle : s.next ≤ s'.next) (htabs : s'.tabs.Perm s.tabs) : Sound s' where
  pages tab hmem := (hs.pages tab (htabs.subset hmem)).mono hle
  apart := (htabs.pairwise_iff List.disjoint_symm).mpr hs.apart
  peopled tab hmem := hs.peopled tab (htabs.subset hmem)

/-- A page comes. -/
theorem Sound.take (hs : Sound s) {next : Nat} (htake : s.CanTake tab.page next) (hle : s.next ≤ s'.next) (hnext : next ≤ s'.next)
    (htabs : s'.tabs.Perm (tab :: s.tabs)) : Sound s' := by
  obtain ⟨hmade, hpeopled, hnew⟩ := htake
  refine ⟨⟨fun tab' hmem => ?_, ?_⟩, fun tab' hmem => ?_⟩
  · rcases List.mem_cons.mp (htabs.subset hmem) with rfl | hmem
    · exact hmade.mono hnext
    · exact (hs.pages tab' hmem).mono hle
  · refine (htabs.pairwise_iff List.disjoint_symm).mpr (List.pairwise_cons.mpr ⟨fun tab' hmem n hn hn' => ?_, hs.apart⟩)
    exact hnew n hn tab' hmem hn'
  · rcases List.mem_cons.mp (htabs.subset hmem) with rfl | hmem
    · exact hpeopled
    · exact hs.peopled tab' hmem

theorem tabRootOf_eq_some {a : Leaf} (h : s.tabRootOf a = some i) : ∃ tab, s.tabs[i]? = some tab ∧ a ∈ tab.page.leaves := by
  obtain ⟨hi, ha, -⟩ := List.findIdx?_eq_some_iff_getElem.mp h
  exact ⟨s.tabs[i], List.getElem?_eq_getElem hi, of_decide_eq_true ha⟩

/-! ## What a page is -/

theorem peopled_of_view {v : Nat} (h : .view v ∈ page.leaves) : Peopled page := by
  right
  rw [← view_mem_leaves] at h
  exact List.ne_nil_of_mem h

theorem Peopled.view (h : Peopled page) (hplain : isPlain page = false) : ∃ v, .view v ∈ page.leaves := by
  rcases h with h | h
  · rw [hplain] at h
    cases h
  · obtain ⟨v, hv⟩ := List.exists_mem_of_ne_nil _ h
    exact ⟨v, view_mem_leaves.mp hv⟩

/-- A picker shares its page with a pane. -/
theorem Peopled.node_of_picker (h : Peopled page) {p : Nat} (hp : .picker p ∈ page.leaves) : ∀ x, page ≠ leaf x := by
  intro x hx
  subst hx
  rw [leaves_leaf, List.mem_singleton] at hp
  subst hp
  rcases h with h | h
  · cases h
  · exact h rfl

theorem isPlain_of_node (h : ∀ x, page ≠ leaf x) : isPlain page = false := by
  cases page with
  | leaf x => exact absurd rfl (h x)
  | node b children => rfl

theorem node_of_parentSplitter {a : Leaf} {p : Splitter} (h : page.parentSplitter a = some p) : ∀ x, page ≠ leaf x := by
  intro x hx
  subst hx
  rw [Widget.parentSplitter, links_leaf, List.lookup_cons] at h
  split at h <;> cases h

theorem leaf_of_parentSplitter {a : Leaf} {m : Nat} (hmade : Made m page) (ha : a ∈ page.leaves) (h : page.parentSplitter a = none) :
    page = leaf a := by
  by_contra hleaf
  have hnode : ∀ x, page ≠ leaf x := by
    intro x hx
    rw [hx, leaves_leaf, List.mem_singleton] at ha
    exact hleaf (ha ▸ hx)
  obtain ⟨p, hparent, -⟩ := parentSplitter_of_nodup hmade.leaves_nodup ha hnode
  rw [h] at hparent
  cases hparent

theorem node_of_hasSplitter (h : page.hasSplitter n = true) : ∀ x, page ≠ leaf x := by
  intro x hx
  subst hx
  cases h

/-! ## Every command keeps a window sound -/

theorem Sound.of_tabs (hs : Sound s) (hle : s.next ≤ s'.next) (htabs : s'.tabs = s.tabs) : Sound s' :=
  hs.of_sublist hle (htabs ▸ List.Sublist.refl _)

theorem Sound.setFocus (hs : Sound s) (a : Leaf) : Sound (s.setFocus a) :=
  hs.of_tabs (Window.setFocus_same s a).next.ge (Window.setFocus_tabs s a)

theorem Sound.loseFocus (hs : Sound s) : Sound s.loseFocus := hs.of_tabs (Nat.le_refl _) rfl

/-- A leaf makes room for new widgets. -/
theorem Sound.put (hs : Sound s) (htab : s.tabs[i]? = some tab) {a : Leaf} (ha : a ∈ tab.page.leaves) {widgets : List Widget}
    (hput : edit (· = a) (fun _ => widgets) tab.page = [page]) (hle : s.next ≤ s'.next)
    (htabs : s'.tabs = s.tabs.modify i fun tab => { tab with page := page }) (hwidgets : (widgets.flatMap Widget.numbers).Nodup)
    (hnew : ∀ n ∈ widgets.flatMap Widget.numbers, n = a.number ∨ s.next ≤ n ∧ n < s'.next) (hview : ∃ v, .view v ∈ page.leaves) :
    Sound s' := by
  have hmade := hs.pages tab (List.mem_of_getElem? htab)
  have hold : a.number ∈ tab.page.numbers := number_of_leaf ha
  obtain ⟨v, hv⟩ := hview
  refine hs.modify htab hle htabs (hmade.put hput ha hle hwidgets fun n hn => ?_) (fun n hn => ?_) (peopled_of_view hv)
  · rcases hnew n hn with rfl | ⟨hge, hlt⟩
    · exact ⟨Nat.lt_of_lt_of_le (hmade.2 _ hold) hle, fun _ => rfl⟩
    · exact ⟨hlt, fun hmem => absurd (hmade.2 n hmem) (Nat.not_lt.mpr hge)⟩
  · rcases (mem_put_numbers hput hmade.1 ha).mp hn with hn | ⟨hn, -⟩
    · rcases hnew n hn with rfl | ⟨hge, -⟩
      · exact .inl hold
      · exact .inr hge
    · exact .inl hn

/-- A leaf of a page that keeps a pane is taken out. -/
theorem Sound.takeOut (hs : Sound s) (htab : s.tabs[i]? = some tab) {a : Leaf} (ha : a ∈ tab.page.leaves)
    (hnode : ∀ x, tab.page ≠ leaf x) (hview : ∃ v, .view v ∈ tab.page.leaves ∧ .view v ≠ a) : Sound (s.changePage i (·.takeOut a)) := by
  have hput : edit (· = a) (fun _ => []) tab.page = [tab.page.takeOut a] := edit_eq_editBelow _ _ hnode
  obtain ⟨v, hv, hne⟩ := hview
  exact hs.put htab ha hput (Nat.le_refl _) (changePage_reworks htab _).tabs List.nodup_nil (by simp)
    ⟨v, (mem_put_leaves hput).mpr (.inl ⟨hv, hne⟩)⟩

theorem collapse_cases (hs : Sound s) (n : Nat) : s.collapseSplitterIfSingle n = s ∨ ∃ i tab, s.tabs[i]? = some tab ∧
    tab.page.hasSplitter n = true ∧ Reworks s (s.collapseSplitterIfSingle n) i (tab.page.collapse (·.number = n)) := by
  cases hfind : s.tabs.findIdx? (·.page.hasSplitter n) with
  | none =>
    left
    rw [Window.collapseSplitterIfSingle, hfind]
  | some i =>
    right
    obtain ⟨hi, hhas, hfirst⟩ := List.findIdx?_eq_some_iff_getElem.mp hfind
    have htab : s.tabs[i]? = some s.tabs[i] := List.getElem?_eq_getElem hi
    refine ⟨i, s.tabs[i], htab, hhas, collapse_reworks htab (hs.pages _ (List.getElem_mem hi)).1 hhas fun j hj tab' htab' => ?_⟩
    obtain ⟨hj', rfl⟩ := List.getElem?_eq_some_iff.mp htab'
    exact Bool.eq_false_of_not_eq_true (hfirst j hj)

theorem Sound.collapse (hs : Sound s) (n : Nat) : Sound (s.collapseSplitterIfSingle n) := by
  rcases collapse_cases hs n with heq | ⟨i, tab, htab, hhas, hreworks⟩
  · rw [heq]
    exact hs
  · have hmem := List.mem_of_getElem? htab
    have hsublist : (Widget.numbers (tab.page.collapse (·.number = n))).Sublist tab.page.numbers := (tokens_collapse _).map _
    have hmade : Made s.next (tab.page.collapse (·.number = n)) :=
      ⟨(hs.pages tab hmem).1.sublist hsublist, fun m hm => (hs.pages tab hmem).2 m (hsublist.subset hm)⟩
    obtain ⟨v, hv⟩ := (hs.peopled tab hmem).view (isPlain_of_node (node_of_hasSplitter hhas))
    have hpeopled : Peopled (tab.page.collapse (·.number = n)) := peopled_of_view (by rwa [leaves_collapse])
    exact hs.modify htab (collapse_same s n).next.ge hreworks.tabs ((collapse_same s n).next ▸ hmade)
      (fun m hm => .inl (hsublist.subset hm)) hpeopled

theorem Sound.removeTab (hs : Sound s) (i : Nat) : Sound (s.removeTab i) := by
  refine hs.of_sublist (Window.removeTab_same s i).next.ge ?_
  rw [Window.removeTab_tabs]
  exact List.eraseIdx_sublist ..

theorem Sound.closeTab (hs : Sound s) (i : Nat) : Sound (s.closeTab i) := by
  unfold Window.closeTab
  split
  next => exact hs
  next root _ =>
    have hcleared : Sound { s with activeView := s.activeView.filter (· ∉ collectViews root) } := hs.of_tabs (Nat.le_refl _) rfl
    exact hcleared.removeTab i

theorem Sound.addTab (hs : Sound s) {next : Nat} (htake : s.CanTake tab.page next) :
    Sound ({ s with next := max s.next next }.addTab tab) := by
  refine hs.take htake ?_ ?_ ?_
  · rw [Window.addTab, (Window.insertTab_same ..).next]
    exact Nat.le_max_left ..
  · rw [Window.addTab, (Window.insertTab_same ..).next]
    exact Nat.le_max_right ..
  · rw [Window.addTab, Window.insertTab_tabs _ (Nat.le_refl _)]
    exact List.perm_insertIdx _ _ (Nat.le_refl _)

theorem Sound.acceptTab (hs : Sound s) {next : Nat} (htake : s.CanTake tab.page next) :
    Sound ({ s with next := max s.next next }.acceptTab tab) :=
  (hs.addTab htake).of_tabs (Window.setCurrentIndex_same ..).next.ge (Window.setCurrentIndex_tabs ..)

theorem Sound.addTerminalTab (hs : Sound s) (title : List Char) : Sound (s.addTerminalTab title) := by
  have htake : s.CanTake (.leaf (.view s.next)) (s.next + 1) := by
    refine ⟨⟨List.nodup_singleton _, fun n hn => ?_⟩, peopled_of_view (List.mem_singleton_self _), fun n hn tab hmem hn' => ?_⟩
    · rw [List.mem_singleton.mp hn]
      exact Nat.lt_succ_self _
    · rw [List.mem_singleton.mp hn] at hn'
      exact Nat.lt_irrefl _ ((hs.pages tab hmem).2 _ hn')
  have hadded : Sound ({ s with next := max s.next (s.next + 1) }.addTab ⟨title, .leaf (.view s.next)⟩) := hs.addTab htake
  rw [Nat.max_eq_right (Nat.le_succ s.next)] at hadded
  have hcurrent := hadded.of_tabs (Window.setCurrentIndex_same _ s.tabs.length).next.ge (Window.setCurrentIndex_tabs ..)
  exact hcurrent.setFocus _

theorem Sound.moveTab (hs : Sound s) (i j : Nat) : Sound (s.moveTab i j) := by
  unfold Window.moveTab
  split
  next => exact hs
  next tab htab =>
    split
    next hj =>
      obtain ⟨hi, rfl⟩ := List.getElem?_eq_some_iff.mp htab
      refine hs.of_perm (Nat.le_refl _) ?_
      have hj' : j ≤ (s.tabs.eraseIdx i).length := by
        rw [List.length_eraseIdx_of_lt hi]
        omega
      exact (List.perm_insertIdx _ _ hj').trans (List.getElem_cons_eraseIdx_perm hi)
    next => exact hs

/-- The splitter of the pane that is split. -/
theorem Sound.split (hs : Sound s) (htab : s.tabs[i]? = some tab) {existing : Nat} (hexisting : .view existing ∈ tab.page.leaves)
    (o : Core.Orientation) (hput : edit (· = .view existing)
      (fun _ => [.node ⟨s.next + 1, o⟩ [.leaf (.view existing), .leaf (.picker s.next)]]) tab.page = [page])
    (hnext : s'.next = s.next + 2) (htabs : s'.tabs = s.tabs.modify i fun tab => { tab with page := page }) : Sound s' := by
  have hlt : existing < s.next := (hs.pages tab (List.mem_of_getElem? htab)).2 _ (number_of_leaf hexisting)
  have hnumbers : [(Rose.node ⟨s.next + 1, o⟩ [.leaf (.view existing), .leaf (.picker s.next)] : Widget)].flatMap Widget.numbers =
      [s.next + 1, existing, s.next] := rfl
  refine hs.put htab hexisting hput (by omega) htabs ?_ (fun n hn => ?_) ⟨existing, (mem_put_leaves hput).mpr (.inr ⟨hexisting, ?_⟩)⟩
  · rw [hnumbers]
    simp
    omega
  · rw [hnumbers] at hn
    simp only [List.mem_cons, List.not_mem_nil, or_false] at hn
    rcases hn with rfl | rfl | rfl
    · exact .inr (by omega)
    · exact .inl rfl
    · exact .inr (by omega)
  · simp

/-- The pane and the picker are in a splitter of their own, which has the place of the pane. -/
theorem split_cases (hs : Sound s) (o : Core.Orientation) : s.splitActivePane o = { s with activeView := s.currentActiveView } ∨
    ∃ existing i tab s₁ s₂, ∃ page : Widget, s.currentActiveView = some existing ∧ s.tabs[i]? = some tab ∧
      .view existing ∈ tab.page.leaves ∧
      edit (· = .view existing) (fun _ => [.node ⟨s.next + 1, o⟩ [.leaf (.view existing), .leaf (.picker s.next)]]) tab.page = [page] ∧
      s₁ = { s with
        activeView := some existing
        captured := Function.update s.captured s.next ⟨s.next + 1, existing⟩
        next := s.next + 2 } ∧
      (s₂ = s₁.changePage i (fun _ => page) ∨ s₂ = s₁.replacePage i page) ∧ s.splitActivePane o = s₂.setFocus (.picker s.next) := by
  unfold Window.splitActivePane
  simp only
  split
  next => exact .inl rfl
  next existing hexisting =>
    split
    next => exact .inl rfl
    next i hroot =>
      right
      change s.tabRootOf (.view existing) = some i at hroot
      obtain ⟨tab, htab, hmem⟩ := tabRootOf_eq_some hroot
      split
      next p hparent =>
        change (s.pageAt i).bind (·.parentSplitter (.view existing)) = some p at hparent
        rw [pageAt_eq htab] at hparent
        refine ⟨existing, i, tab, _, _, _, hexisting, htab, hmem, edit_eq_editBelow _ _ (node_of_parentSplitter hparent), rfl, .inl rfl, ?_⟩
        rw [hexisting]
        exact congrArg (fun tabs => Window.setFocus (.picker s.next) { s with
          tabs := tabs
          activeView := some existing
          captured := Function.update s.captured s.next ⟨s.next + 1, existing⟩
          next := s.next + 2 }) (modify_congr htab rfl)
      next hparent =>
        change (s.pageAt i).bind (·.parentSplitter (.view existing)) = none at hparent
        rw [pageAt_eq htab] at hparent
        have hleaf := leaf_of_parentSplitter (hs.pages tab (List.mem_of_getElem? htab)) hmem hparent
        have hput : edit (· = .view existing) (fun _ => [.node ⟨s.next + 1, o⟩ [.leaf (.view existing), .leaf (.picker s.next)]]) tab.page =
            [(.node ⟨s.next + 1, o⟩ [.leaf (.view existing), .leaf (.picker s.next)] : Widget)] := by
          rw [hleaf]
          simp [edit_leaf]
        refine ⟨existing, i, tab, _, _, _, hexisting, htab, hmem, hput, rfl, .inr rfl, ?_⟩
        rw [hexisting]

theorem Sound.splitActivePane (hs : Sound s) (o : Core.Orientation) : Sound (s.splitActivePane o) := by
  rcases split_cases hs o with heq | ⟨existing, i, tab, s₁, s₂, page, -, htab, hmem, hput, rfl, hchanged, heq⟩
  · rw [heq]
    exact hs.of_tabs (Nat.le_refl _) rfl
  · rw [heq]
    apply Sound.setFocus
    rcases hchanged with rfl | rfl
    · exact hs.split htab hmem o hput rfl rfl
    · exact hs.split htab hmem o hput (Window.replacePage_same ..).next (Window.replacePage_tabs ..)

/-- A picker goes, or a new pane takes its place. -/
theorem finishSplit_cases (hs : Sound s) {picker : Nat} (h : s.finishSplitWithResult n picker = some s') : s' = s ∨
    ∃ i tab, s.tabRootOf (.picker picker) = some i ∧ s.tabs[i]? = some tab ∧ .picker picker ∈ tab.page.leaves ∧
      (∀ x, tab.page ≠ leaf x) ∧
      (s' = ({ s with next := s.next + 1 }.changePage i (·.replaceWidget (.picker picker) (.view s.next))).setFocus (.view s.next) ∨
        s' = ({ s with next := s.next + 1 }.changePage i (·.takeOut (.picker picker))).loseFocus) := by
  unfold Window.finishSplitWithResult at h
  split at h
  next =>
    cases h
    exact .inl rfl
  next i hroot =>
    right
    obtain ⟨tab, htab, hmem⟩ := tabRootOf_eq_some hroot
    refine ⟨i, tab, hroot, htab, hmem, (hs.peopled tab (List.mem_of_getElem? htab)).node_of_picker hmem, ?_⟩
    split at h
    next => cases h
    next =>
      simp only at h
      split at h
      next => exact .inl (Option.some.inj h).symm
      next => exact .inr (Option.some.inj h).symm

theorem Sound.finishSplit (hs : Sound s) {picker : Nat} (h : s.finishSplitWithResult n picker = some s') : Sound s' := by
  rcases finishSplit_cases hs h with rfl | ⟨i, tab, -, htab, hmem, hnode, rfl | rfl⟩
  · exact hs
  · apply Sound.setFocus
    have hput : edit (· = .picker picker) (fun _ => [.leaf (.view s.next)]) tab.page =
        [tab.page.replaceWidget (.picker picker) (.view s.next)] := edit_eq_editBelow _ _ hnode
    refine hs.put htab hmem hput (Nat.le_succ _) (changePage_reworks htab _).tabs (List.nodup_singleton _) (fun n hn => ?_) ?_
    · rw [List.mem_singleton.mp hn]
      exact .inr ⟨Nat.le_refl _, Nat.lt_succ_self _⟩
    · exact ⟨s.next, (mem_put_leaves hput).mpr (.inr ⟨hmem, List.mem_singleton_self _⟩)⟩
  · obtain ⟨v, hv⟩ := (hs.peopled tab (List.mem_of_getElem? htab)).view (isPlain_of_node hnode)
    have hmore : Sound { s with next := s.next + 1 } := hs.of_tabs (Nat.le_succ _) rfl
    exact (hmore.takeOut htab hmem hnode ⟨v, hv, nofun⟩).loseFocus

theorem choose_cases {picker : Nat} {duplicate : Bool} (h : s.choose picker duplicate = some s') :
    s.finishSplitWithResult (s.captured picker).splitter picker = some s' := by
  unfold Window.choose at h
  simp only at h
  split at h
  next => cases h
  next => exact h

/-- The picker is taken out of its page, and the splitter collapsed. -/
theorem cancel_cases (hs : Sound s) {picker : Nat} (h : s.cancel picker = some s') : s' = s ∨ ∃ i tab, ∃ n e : Nat,
    s.tabs[i]? = some tab ∧ (∀ x, tab.page ≠ leaf x) ∧ Sound (s.changePage i (·.takeOut (.picker picker))).loseFocus ∧
      s' = ((s.changePage i (·.takeOut (.picker picker))).loseFocus.collapseSplitterIfSingle n).setFocus (.view e) := by
  unfold Window.cancel at h
  simp only at h
  split at h
  next =>
    cases h
    exact .inl rfl
  next i hroot =>
    right
    obtain ⟨tab, htab, hmem⟩ := tabRootOf_eq_some hroot
    have hpeopled := hs.peopled tab (List.mem_of_getElem? htab)
    have hnode := hpeopled.node_of_picker hmem
    obtain ⟨v, hv⟩ := hpeopled.view (isPlain_of_node hnode)
    split at h
    next => cases h
    next =>
      have htaken := (hs.takeOut htab hmem hnode ⟨v, hv, nofun⟩).loseFocus
      exact ⟨i, tab, _, _, htab, hnode, htaken, (Option.some.inj h).symm⟩

theorem Sound.cancel (hs : Sound s) {picker : Nat} (h : s.cancel picker = some s') : Sound s' := by
  rcases cancel_cases hs h with rfl | ⟨i, tab, n, e, -, -, htaken, rfl⟩
  · exact hs
  · exact (htaken.collapse n).setFocus _

/-! ## Closing -/

theorem Made.views_nodup {m : Nat} (h : Made m page) : (collectViews page).Nodup := by
  refine h.leaves_nodup.filterMap fun x y v hx hy => ?_
  cases x <;> cases hx
  cases y <;> cases hy
  rfl

/-- A page with a pane that is not its only one has another. -/
theorem exists_other_view {m v : Nat} (h : Made m page) (hv : v ∈ collectViews page) (hlength : (collectViews page).length ≠ 1) :
    ∃ u, .view u ∈ page.leaves ∧ Leaf.view u ≠ .view v := by
  have hnodup := h.views_nodup
  obtain ⟨u, hu, hne⟩ : ∃ u ∈ collectViews page, u ≠ v := by
    by_contra hnone
    refine hlength (List.length_eq_one_iff.mpr ⟨v, ?_⟩)
    refine List.perm_singleton.mp ((List.perm_ext_iff_of_nodup hnodup (List.nodup_singleton v)).mpr fun u => ?_)
    rw [List.mem_singleton]
    constructor
    · intro hu
      by_contra hne
      exact hnone ⟨u, hu, hne⟩
    · rintro rfl
      exact hv
  exact ⟨u, view_mem_leaves.mp hu, fun heq => hne (Leaf.view.inj heq)⟩

theorem Sound.focusPage (hs : Sound s) : Sound s.focusPage := by
  unfold Window.focusPage
  split
  next => exact hs.setFocus _
  next => exact hs

/-- A pane that is not the last one of its tab is taken out of its splitter, and no pane is active. -/
theorem closePane_cases (hs : Sound s) (v : Nat) : s.closePane v = s ∨ (∃ i, s.closePane v = s.closeTab i) ∨ ∃ s₁ : Window, ∃ n : Nat,
    Sound s₁.loseFocus ∧ s₁.activeView = none ∧ s.closePane v = (s₁.loseFocus.collapseSplitterIfSingle n).focusPage := by
  unfold Window.closePane
  split
  next => exact .inl rfl
  next i hroot =>
    right
    obtain ⟨tab, htab, hmem⟩ := tabRootOf_eq_some hroot
    rw [pageAt_eq htab]
    simp only
    split
    next => exact .inl ⟨i, rfl⟩
    next hlength =>
      split
      next => exact .inl ⟨i, rfl⟩
      next p hparent =>
        have hother := exists_other_view (hs.pages tab (List.mem_of_getElem? htab)) (view_mem_leaves.mpr hmem) hlength
        have hcleared : Sound { s with activeView := none } := hs.of_tabs (Nat.le_refl _) rfl
        exact .inr ⟨_, p.number, (hcleared.takeOut htab hmem (node_of_parentSplitter hparent) hother).loseFocus, rfl, rfl⟩

theorem Sound.closePane (hs : Sound s) (v : Nat) : Sound (s.closePane v) := by
  rcases closePane_cases hs v with heq | ⟨i, heq⟩ | ⟨s₁, n, htaken, -, heq⟩
  · rw [heq]
    exact hs
  · rw [heq]
    exact hs.closeTab i
  · rw [heq]
    exact (htaken.collapse n).focusPage

theorem Sound.closeActivePane (hs : Sound s) (h : s.closeActivePane = some s') : Sound s' := by
  unfold Window.closeActivePane at h
  split at h
  next => exact hs.cancel h
  next =>
    split at h
    next v _ =>
      cases h
      exact hs.closePane v
    next =>
      cases h
      exact hs

theorem Sound.confirmClosePane (hs : Sound s) (yes : Bool) (v : Nat) : Sound (s.confirmClosePane yes v) := by
  unfold Window.confirmClosePane
  split
  next =>
    have hcleared : Sound { s with activeView := if s.activeView = some v then none else s.activeView } := hs.of_tabs (Nat.le_refl _) rfl
    exact hcleared.closePane v
  next => exact hs

theorem Sound.confirmCloseActivePane (hs : Sound s) {yes : Bool} (h : s.confirmCloseActivePane yes = some s') : Sound s' := by
  unfold Window.confirmCloseActivePane at h
  split at h
  next =>
    cases h
    exact hs
  next i _ =>
    split at h
    next => exact hs.cancel h
    next =>
      split at h
      next =>
        cases h
        exact hs.closeTab i
      next v _ =>
        cases h
        exact hs.confirmClosePane yes v

/-! ## Moving -/

/-- Leaves change places in a page that keeps all its widgets. -/
theorem swap_numbers {a b : Leaf} (hnodup : page.numbers.Nodup) (ha : .inl a ∈ page.tokens) (hb : .inl b ∈ page.tokens) :
    (Widget.numbers (page.mapLeaves (Equiv.swap a b))).Perm page.numbers := by
  refine List.Perm.map _ ?_
  have htokens : page.tokens.Nodup := List.Nodup.of_map _ hnodup
  have hinjective : Function.Injective (Sum.map (Equiv.swap a b) (id : Splitter → Splitter)) :=
    (Equiv.injective _).sumMap Function.injective_id
  have hmem : ∀ x ∈ page.tokens, Sum.map (Equiv.swap a b) id x ∈ page.tokens := by
    intro x hx
    cases x with
    | inl y =>
      rw [Sum.map_inl, Equiv.swap_apply_def]
      split
      next => exact hb
      next =>
        split
        next => exact ha
        next => exact hx
    | inr p => exact hx
  rw [tokens_mapLeaves]
  refine (List.perm_ext_iff_of_nodup (htokens.map hinjective) htokens).mpr fun x => ?_
  rw [List.mem_map]
  constructor
  · rintro ⟨y, hy, rfl⟩
    exact hmem y hy
  · intro hx
    refine ⟨_, hmem x hx, ?_⟩
    cases x with
    | inl y => rw [Sum.map_inl, Sum.map_inl, Equiv.swap_apply_self]
    | inr p => rfl

/-- The widgets of a page in which a pane from outside was put next to another. -/
theorem PutBeside.made {m m' source target : Nat} {zone : PaneDropZone} (h : PutBeside m m' source target zone page page')
    (hmade : Made m page) (hle : m ≤ m') (htarget : .view target ∈ page.leaves) (hsource : source < m) (hout : source ∉ page.numbers) :
    Made m' page' ∧ (∀ n ∈ page'.numbers, n ∈ page.numbers ∨ n = source ∨ m ≤ n) ∧ .view source ∈ page'.leaves := by
  obtain ⟨widgets, hput, hwidgets⟩ := h
  have htarget' : target ∈ page.numbers := number_of_leaf htarget
  have hlt := hmade.2 _ htarget'
  have hne : source ≠ target := fun heq => hout (heq ▸ htarget')
  have hpair : (Window.besides source target zone).flatMap Widget.numbers = [source, target] ∨
      (Window.besides source target zone).flatMap Widget.numbers = [target, source] := by
    rcases besides_eq source target zone with h | h <;> rw [h]
    · exact .inl rfl
    · exact .inr rfl
  have hnumbers : (widgets.flatMap Widget.numbers).Nodup ∧
      ∀ n ∈ widgets.flatMap Widget.numbers, n = source ∨ n = target ∨ m ≤ n ∧ n < m' := by
    have hboth : ((Window.besides source target zone).flatMap Widget.numbers).Nodup ∧
        ∀ n ∈ (Window.besides source target zone).flatMap Widget.numbers, n = source ∨ n = target := by
      rcases hpair with h | h <;> rw [h] <;> simp [hne, Ne.symm hne, or_comm]
    rcases hwidgets with ⟨rfl, -⟩ | ⟨k, hk, hk', rfl⟩
    · exact ⟨hboth.1, fun n hn => (hboth.2 n hn).elim .inl fun h => .inr (.inl h)⟩
    · have hwrapper : [(Rose.node ⟨k, zone.orientation⟩ (Window.besides source target zone) : Widget)].flatMap Widget.numbers =
          k :: (Window.besides source target zone).flatMap Widget.numbers := by
        rw [List.flatMap_singleton, Widget.numbers, tokens_node, List.map_cons, List.map_flatMap]
        rfl
      rw [hwrapper]
      refine ⟨List.nodup_cons.mpr ⟨fun hmem => ?_, hboth.1⟩, fun n hn => ?_⟩
      · rcases hboth.2 k hmem with h | h <;> omega
      · rcases List.mem_cons.mp hn with rfl | hn
        · exact .inr (.inr ⟨hk, hk'⟩)
        · exact (hboth.2 n hn).elim .inl fun h => .inr (.inl h)
  have hplaced : Placed source target zone widgets := by
    rcases hwidgets with ⟨hwidgets, -⟩ | ⟨k, -, -, hwidgets⟩
    · exact .inl hwidgets
    · exact .inr ⟨k, hwidgets⟩
  refine ⟨hmade.put hput htarget hle hnumbers.1 fun n hn => ?_, fun n hn => ?_, (mem_put_leaves hput).mpr (.inr ⟨htarget, ?_⟩)⟩
  · rcases hnumbers.2 n hn with rfl | rfl | ⟨hge, hlt'⟩
    · exact ⟨Nat.lt_of_lt_of_le hsource hle, fun hmem => absurd hmem hout⟩
    · exact ⟨Nat.lt_of_lt_of_le hlt hle, fun _ => rfl⟩
    · exact ⟨hlt', fun hmem => absurd (hmade.2 n hmem) (Nat.not_lt.mpr hge)⟩
  · rcases (mem_put_numbers hput hmade.1 htarget).mp hn with hn | ⟨hn, -⟩
    · rcases hnumbers.2 n hn with rfl | rfl | ⟨hge, -⟩
      · exact .inr (.inl rfl)
      · exact .inl htarget'
      · exact .inr (.inr hge)
    · exact .inl hn
  · rcases hplaced.leaves with h | h <;> rw [h] <;> simp

/-- The page in which a pane was moved has its widgets, and may have one more splitter. -/
theorem movePane_made (hs : Distinct s) (htab : s.tabs[i]? = some tab) {source target : Nat} (hsource : .view source ∈ tab.page.leaves)
    (htarget : .view target ∈ tab.page.leaves) (hne : source ≠ target) (zone : PaneDropZone) : ∃ s' page',
      s.movePane source target zone = { s'.loseFocus with activeView := some source }.setFocus (.view source) ∧
      Reworks s s' i page' ∧ s.next ≤ s'.next ∧ Made s'.next page' ∧ (∀ n ∈ page'.numbers, n ∈ tab.page.numbers ∨ s.next ≤ n) ∧
      .view source ∈ page'.leaves := by
  have hmade := hs.pages tab (List.mem_of_getElem? htab)
  have hnode : ∀ x, tab.page ≠ leaf x := by
    intro x hx
    rw [hx, leaves_leaf, List.mem_singleton] at hsource htarget
    exact hne (Leaf.view.inj (hsource.trans htarget.symm))
  obtain ⟨s', page', heq, hreworks, hle, hswap, hbeside⟩ := movePane_eq hs htab hsource htarget hne zone
  refine ⟨s', page', heq, hreworks, hle, ?_⟩
  by_cases hzone : zone = .swap
  · have hperm := swap_numbers hmade.1 (token_of_leaf hsource) (token_of_leaf htarget)
    rw [hswap hzone]
    refine ⟨⟨hperm.nodup_iff.mpr hmade.1, fun n hn => ?_⟩, fun n hn => .inl (hperm.subset hn), ?_⟩
    · exact Nat.lt_of_lt_of_le (hmade.2 n (hperm.subset hn)) hle
    · rw [leaves_mapLeaves]
      exact List.mem_map.mpr ⟨_, htarget, Equiv.swap_apply_right ..⟩
  · obtain ⟨p, -, hput⟩ := hbeside hzone
    have hsublist : (Widget.numbers (taken (.view source) p tab.page)).Sublist (tab.page.takeOut (.view source)).numbers :=
      (tokens_collapse _).map _
    have hout : edit (· = .view source) (fun _ => []) tab.page = [tab.page.takeOut (.view source)] := edit_eq_editBelow _ _ hnode
    have hrest := hmade.put hout hsource (Nat.le_refl _) List.nodup_nil (by simp)
    have hold : ∀ n ∈ Widget.numbers (taken (.view source) p tab.page), n ∈ tab.page.numbers ∧ n ≠ source := by
      intro n hn
      rcases (mem_put_numbers hout hmade.1 hsource).mp (hsublist.subset hn) with hn | hn
      · cases hn
      · exact hn
    have hrest' : Made s.next (taken (.view source) p tab.page) :=
      ⟨hrest.1.sublist hsublist, fun n hn => hrest.2 n (hsublist.subset hn)⟩
    have htarget' : .view target ∈ (taken (.view source) p tab.page).leaves := by
      rw [taken_leaves hnode]
      exact List.mem_filter.mpr ⟨htarget, decide_eq_true fun h => hne (Leaf.view.inj h).symm⟩
    have hsource' : source < s.next := hmade.2 _ (number_of_leaf hsource)
    obtain ⟨hmade', hnumbers, hmem⟩ := hput.made hrest' hle htarget' hsource' fun hn => (hold _ hn).2 rfl
    refine ⟨hmade', fun n hn => ?_, hmem⟩
    rcases hnumbers n hn with hn | rfl | hn
    · exact .inl (hold n hn).1
    · exact .inl (number_of_leaf hsource)
    · exact .inr hn

/-- Nothing is moved unless both panes are in one tab. -/
theorem movePane_cases (s : Window) (source target : Nat) (zone : PaneDropZone) : s.movePane source target zone = s ∨
    ∃ (i : Nat) (tab : Tab), s.tabs[i]? = some tab ∧ .view source ∈ tab.page.leaves ∧ .view target ∈ tab.page.leaves ∧
      source ≠ target := by
  unfold Window.movePane
  split
  next i j hi hj =>
    split
    next =>
      split
      next => exact .inl rfl
      next hboth =>
        rw [not_or, not_not] at hboth
        obtain ⟨hne, rfl⟩ := hboth
        obtain ⟨tab, htab, hsource⟩ := tabRootOf_eq_some hi
        obtain ⟨tab', htab', htarget⟩ := tabRootOf_eq_some hj
        rw [htab] at htab'
        cases htab'
        exact .inr ⟨i, tab, htab, hsource, htarget, hne⟩
    next => exact .inl rfl
  next => exact .inl rfl

theorem Sound.movePane (hs : Sound s) (source target : Nat) (zone : PaneDropZone) : Sound (s.movePane source target zone) := by
  rcases movePane_cases s source target zone with heq | ⟨i, tab, htab, hsource, htarget, hne⟩
  · rw [heq]
    exact hs
  · obtain ⟨s', page', heq, hreworks, hle, hmade, hnumbers, hmem⟩ := movePane_made hs.toDistinct htab hsource htarget hne zone
    rw [heq]
    have hmoved : Sound s' := hs.modify htab hle hreworks.tabs hmade hnumbers (peopled_of_view hmem)
    have hmarked : Sound { s'.loseFocus with activeView := some source } := hmoved.of_tabs (Nat.le_refl _) rfl
    exact hmarked.setFocus _

end Windows

/-! ## Runs -/

theorem Sound.step {s s' : Window} (hs : Sound s) {e : Event} (h : step s e = some s') : Sound s' := by
  have hstay : ∀ {condition : Prop} [Decidable condition] {s₁ : Window}, Sound s₁ → Sound (if condition then s₁ else s) := by
    intro condition _ s₁ hs₁
    split
    next => exact hs₁
    next => exact hs
  cases e with
  | addTab tab next =>
    cases h
    split
    next htake => exact hs.addTab htake.1
    next => exact hs
  | addTerminalTab title =>
    cases h
    exact hs.addTerminalTab title
  | splitActivePane o =>
    cases h
    exact hstay (hs.splitActivePane o)
  | choose picker duplicate =>
    simp only [Panes.step] at h
    split at h
    next => exact hs.finishSplit (choose_cases h)
    next =>
      cases h
      exact hs
  | cancel picker =>
    simp only [Panes.step] at h
    split at h
    next => exact hs.cancel h
    next =>
      cases h
      exact hs
  | closeActivePane =>
    simp only [Panes.step] at h
    split at h
    next => exact hs.closeActivePane h
    next =>
      cases h
      exact hs
  | confirmCloseActivePane yes =>
    simp only [Panes.step] at h
    split at h
    next => exact hs.confirmCloseActivePane h
    next =>
      cases h
      exact hs
  | confirmClosePane yes view =>
    cases h
    exact hstay (hs.confirmClosePane yes view)
  | showPaneContextMenu view =>
    cases h
    have hmarked : Sound { s with activeView := some view } := hs.of_tabs (Nat.le_refl _) rfl
    exact hstay (hmarked.setFocus _)
  | closeTab i =>
    cases h
    exact hstay (hs.closeTab i)
  | setCurrentIndex i =>
    cases h
    exact hs.of_tabs (Window.setCurrentIndex_same s i).next.ge (Window.setCurrentIndex_tabs s i)
  | moveTab i j =>
    cases h
    exact hs.moveTab i j
  | movePane source target zone =>
    cases h
    exact hs.movePane source target zone
  | transferTab i =>
    cases h
    exact hstay (hs.closeTab i)
  | acceptTab tab next =>
    cases h
    split
    next htake => exact hs.acceptTab htake
    next => exact hs
  | focus a =>
    cases h
    exact hstay (hs.setFocus a)
  | focusElsewhere =>
    cases h
    exact hstay (hs.of_tabs (Nat.le_refl _) rfl)
  | activate =>
    cases h
    have hactive : Sound { s with active := true } := hs.of_tabs (Nat.le_refl _) rfl
    have hfocus : ∀ o : Option Leaf, Sound (o.elim { s with active := true } { s with active := true }.onFocusChanged) := by
      intro o
      cases o with
      | none => exact hactive
      | some a => exact hactive.of_tabs (Window.onFocusChanged_same _ a).next.ge (Window.onFocusChanged_tabs _ a)
    exact hfocus s.focus
  | deactivate =>
    cases h
    exact hs.of_tabs (Nat.le_refl _) rfl

theorem empty_sound : Sound Window.empty where
  pages _ h := nomatch h
  apart := List.Pairwise.nil
  peopled _ h := nomatch h

/-- In every window that is reached all widgets are different, and every page but the welcome page has a pane. -/
theorem reached_sound (events : List Event) {s : Window} (h : run next events (some Window.empty) = some s) : Sound s := by
  have hall : ∀ s, run next events (some Window.empty) = some s → Sound s := by
    refine run_keeps (I := fun o => ∀ s, o = some s → Sound s) (fun o e hs s' hs' => ?_) events fun s hs => ?_
    · cases o with
      | none => cases hs'
      | some s => exact (hs s rfl).step hs'
    · cases hs
      exact empty_sound
  exact hall s h

theorem reached_sound_split : ∃ s, run next [.addTerminalTab ['a'], .addTerminalTab ['b'], .splitActivePane .horizontal, .closeTab 0]
    (some Window.empty) = some s ∧ Sound s :=
  ⟨_, rfl, reached_sound [.addTerminalTab ['a'], .addTerminalTab ['b'], .splitActivePane .horizontal, .closeTab 0] rfl⟩

end LvdTerm.App.Panes
