import LvdTerm.App.PaneTrees
import Mathlib.Data.Set.Basic

/-!
# What a command changes

A command of a window opens a page, takes pages away, or reworks one of them (`step_change`); a page is reworked in one of six ways
(`PageChange`). From them follows which splitter a picker is in afterwards (`PageChange.picker`).
-/
namespace LvdTerm.App.Panes

open LvdTerm.Lib Rose

/-! ## What the handlers of a picker have captured -/

def Window.pages (s : Window) : Set Widget := {page | ∃ tab ∈ s.tabs, tab.page = page}

/-- A picker is in the splitter that was made with it, or that splitter is gone. -/
def Tied (pages : Set Widget) (next : Nat) (captured : Nat → Captured) : Prop :=
  ∀ page ∈ pages, ∀ p, .picker p ∈ page.leaves → p + 1 < next ∧ (captured p).splitter = p + 1 ∧
    ((∃ q, page.parentSplitter (.picker p) = some q ∧ q.number = p + 1) ∨ ∀ page' ∈ pages, p + 1 ∉ page'.numbers)

theorem Tied.mono {pages pages' : Set Widget} {next : Nat} {captured : Nat → Captured} (h : Tied pages next captured)
    (hsub : ∀ page ∈ pages', page ∈ pages) : Tied pages' next captured := by
  intro page hpage p hp
  obtain ⟨hlt, hcaptured, hparent⟩ := h page (hsub page hpage) p hp
  exact ⟨hlt, hcaptured, hparent.imp_right fun hgone page' hpage' => hgone page' (hsub page' hpage')⟩

/-! ## The commands of one window -/

/-- A page does not come from elsewhere, or go there. -/
def Event.ofWindow : Event → Bool
  | .addTab _ _ => false
  | .transferTab _ => false
  | .acceptTab _ _ => false
  | _ => true

/-- The pane that the command closes. -/
def Window.closes (s : Window) : Event → Option Nat
  | .closeActivePane => if s.active ∧ s.focusedPicker = none then s.currentActiveView else none
  | .confirmCloseActivePane yes =>
    if s.active ∧ yes ∧ s.currentIndex.isSome ∧ s.focusedPicker = none then s.confirmTarget else none
  | .confirmClosePane yes v => if s.active ∧ yes then some v else none
  | _ => none

/-- How a page is reworked. -/
inductive PageChange (s : Window) (e : Event) (s' : Window) (page : Widget) : Widget → Prop
  | split (existing : Nat) (o : Core.Orientation) (page' : Widget) (hmem : .view existing ∈ page.leaves)
    (hput : edit (· = .view existing) (fun _ => [.node ⟨s.next + 1, o⟩ [.leaf (.view existing), .leaf (.picker s.next)]]) page = [page'])
    (hnext : s'.next = s.next + 2) (hcaptured : s'.captured s.next = ⟨s.next + 1, existing⟩) : PageChange s e s' page page'
  | chosen (picker : Nat) (q : Splitter) (hparent : page.parentSplitter (.picker picker) = some q) (hnext : s'.next = s.next + 1) :
    PageChange s e s' page (page.replaceWidget (.picker picker) (.view s.next))
  | cancelled (picker : Nat) (q : Splitter) (hparent : page.parentSplitter (.picker picker) = some q) :
    PageChange s e s' page (taken (.picker picker) q page)
  | closed (v : Nat) (q : Splitter) (hcloses : s.closes e = some v) (hmore : (collectViews page).length ≠ 1)
    (hparent : page.parentSplitter (.view v) = some q) : PageChange s e s' page (taken (.view v) q page)
  | swapped (source target : Nat) (hsource : .view source ∈ page.leaves) (htarget : .view target ∈ page.leaves) :
    PageChange s e s' page (page.mapLeaves (Equiv.swap (Leaf.view source) (.view target)))
  | moved (source target : Nat) (zone : PaneDropZone) (q : Splitter) (page' : Widget) (he : e = .movePane source target zone)
    (hzone : zone ≠ .swap) (hne : source ≠ target) (htarget : .view target ∈ page.leaves)
    (hparent : page.parentSplitter (.view source) = some q)
    (hput : PutBeside s.next s'.next source target zone (taken (.view source) q page) page') : PageChange s e s' page page'

inductive Change (s : Window) (e : Event) (s' : Window) : Prop
  | kept (htabs : ∀ tab ∈ s'.tabs, tab ∈ s.tabs)
  | opened (hnext : s'.next = s.next + 1) (htabs : ∀ tab ∈ s'.tabs, tab ∈ s.tabs ∨ tab.page = .leaf (.view s.next))
  | reworked (i : Nat) (tab : Tab) (page : Widget) (htab : s.tabs[i]? = some tab)
    (htabs : s'.tabs = s.tabs.modify i fun tab => { tab with page := page }) (hpage : PageChange s e s' tab.page page)

/-! ## What the pickers have captured stays -/

section Captured

variable (s : Window)

namespace Window

@[simp] theorem onFocusChanged_captured (a : Leaf) : (s.onFocusChanged a).captured = s.captured := by
  unfold onFocusChanged
  cases a with
  | view v =>
    simp only
    split
    next => rfl
    next => rfl
  | picker p => rfl
  | plain n => rfl

@[simp] theorem setFocus_captured (a : Leaf) : (s.setFocus a).captured = s.captured := by
  unfold setFocus
  split
  next =>
    simp only
    split
    next => exact onFocusChanged_captured _ a
    next => rfl
  next => rfl

@[simp] theorem onCurrentTabChanged_captured : s.onCurrentTabChanged.captured = s.captured := by
  unfold onCurrentTabChanged
  simp only
  split
  next => exact setFocus_captured _ _
  next => rfl

@[simp] theorem setCurrentIndex_captured (i : Nat) : (s.setCurrentIndex i).captured = s.captured := by
  unfold setCurrentIndex
  split
  next => exact onCurrentTabChanged_captured _
  next => rfl

@[simp] theorem removeTab_captured (i : Nat) : (s.removeTab i).captured = s.captured := by
  unfold removeTab
  split
  next =>
    simp only
    split
    next => rfl
    next =>
      split
      next => rfl
      next => exact onCurrentTabChanged_captured _
  next => rfl

@[simp] theorem insertTab_captured (i : Nat) (tab : Tab) : (s.insertTab i tab).captured = s.captured := by
  unfold insertTab
  split
  next => exact onCurrentTabChanged_captured _
  next => rfl

@[simp] theorem replacePage_captured (i : Nat) (page : Widget) : (s.replacePage i page).captured = s.captured := by
  unfold replacePage
  cases s.tabs[i]? with
  | none => rfl
  | some tab => simp

@[simp] theorem collapse_captured (n : Nat) : (s.collapseSplitterIfSingle n).captured = s.captured := by
  unfold collapseSplitterIfSingle
  split
  next => rfl
  next =>
    split
    next =>
      split
      next => exact replacePage_captured ..
      next => rfl
    next => rfl

@[simp] theorem focusPage_captured : s.focusPage.captured = s.captured := by
  unfold focusPage
  split
  next => exact setFocus_captured _ _
  next => rfl

@[simp] theorem closeTab_captured (i : Nat) : (s.closeTab i).captured = s.captured := by
  unfold closeTab
  split
  next => rfl
  next => exact removeTab_captured _ _

@[simp] theorem insertPane_captured (i source target : Nat) (zone : PaneDropZone) :
    (s.insertPane i source target zone).captured = s.captured := by
  unfold insertPane
  split
  next =>
    split
    next => rfl
    next => rfl
  next => exact replacePage_captured ..

@[simp] theorem movePane_captured (source target : Nat) (zone : PaneDropZone) :
    (s.movePane source target zone).captured = s.captured := by
  unfold movePane
  split
  next =>
    split
    next =>
      split
      next => rfl
      next =>
        simp only [setFocus_captured]
        split
        next => rfl
        next =>
          change (Window.insertPane _ _ _ _ _).captured = s.captured
          rw [insertPane_captured, collapse_captured]
          rfl
    next => rfl
  next => rfl

end Window

end Captured

/-! ## Pages -/

/-- With the leaf taken out, nothing but the picker is in the leaf's splitter. -/
def LeftAlone (a : Leaf) (picker : Nat) (page : Widget) : Prop :=
  ∃ q, page.parentSplitter a = some q ∧ Rose.Sole (fun b : Splitter => b.number = q.number) (.picker picker) (page.takeOut a)

section Pages

variable {page page' : Widget} {a : Leaf} {q : Splitter} {widgets : List Widget} {m p : Nat} {q' : Option Splitter}

theorem parentSplitter_iff (hnodup : page.leaves.Nodup) : page.parentSplitter a = some q ↔ (a, some q) ∈ page.links none := by
  have hkeys : ((page.links none).map Prod.fst).Nodup := by
    rw [links_fst]
    exact hnodup
  rw [Widget.parentSplitter, Option.join_eq_some_iff]
  exact ⟨Lib.Association.mem_of_lookup, Lib.Association.lookup_of_mem hkeys⟩

theorem mem_of_parentSplitter (h : page.parentSplitter a = some q) : a ∈ page.leaves := by
  rw [Widget.parentSplitter, Option.join_eq_some_iff] at h
  exact mem_leaves_of_links (Lib.Association.mem_of_lookup h)

theorem splitter_of_parentSplitter (h : page.parentSplitter a = some q) : .inr q ∈ page.tokens := by
  rw [Widget.parentSplitter, Option.join_eq_some_iff] at h
  exact label_of_links (Lib.Association.mem_of_lookup h) (by simp)

/-- The splitter of a leaf is the only one. -/
theorem link_unique (hnodup : page.leaves.Nodup) (h : page.parentSplitter a = some q) (hlink : (a, q') ∈ page.links none) :
    q' = some q := by
  obtain ⟨r, hr, hall⟩ := parentSplitter_of_nodup hnodup (mem_of_parentSplitter h) (node_of_parentSplitter h)
  rw [h] at hr
  cases hr
  exact hall q' hlink

theorem put_links (hput : edit (· = a) (fun _ => widgets) page = [page']) {l : Leaf × Option Splitter} : l ∈ page'.links none ↔
    (l ∈ page.links none ∧ l.1 ≠ a) ∨ ∃ r, (a, r) ∈ page.links none ∧ l ∈ widgets.flatMap (links r) := by
  have hlinks := links_edit (· = a) (fun _ => widgets) none page
  rw [hput, List.flatMap_singleton] at hlinks
  rw [hlinks, List.mem_flatMap]
  constructor
  · rintro ⟨⟨x, r⟩, hx, hl⟩
    by_cases hxa : x = a
    · rw [if_pos (decide_eq_true hxa)] at hl
      exact .inr ⟨r, hxa ▸ hx, hl⟩
    · rw [if_neg (by simpa using hxa), List.mem_singleton] at hl
      rw [hl]
      exact .inl ⟨hx, hxa⟩
  · rintro (⟨hl, hne⟩ | ⟨r, ha, hl⟩)
    · exact ⟨l, hl, by simp [hne]⟩
    · exact ⟨(a, r), ha, by simpa using hl⟩

/-- A number belongs to one widget. -/
theorem token_unique (hnodup : page.numbers.Nodup) {x y : Leaf ⊕ Splitter} (hx : x ∈ page.tokens) (hy : y ∈ page.tokens)
    (h : Sum.elim Leaf.number Splitter.number x = Sum.elim Leaf.number Splitter.number y) : x = y :=
  List.inj_on_of_nodup_map hnodup hx hy h

theorem takeOut_tokens (hnode : ∀ x, page ≠ leaf x) : (page.takeOut a).tokens = page.tokens.filter (· ≠ .inl a) := by
  rw [← tokens_remove, remove_eq_takeOut hnode, List.flatMap_singleton]

theorem takeOut_numbers (hnode : ∀ x, page ≠ leaf x) : (page.takeOut a).numbers.Sublist page.numbers := by
  rw [Widget.numbers, takeOut_tokens hnode]
  exact List.filter_sublist.map _

theorem taken_numbers (hnode : ∀ x, page ≠ leaf x) : (Widget.numbers (taken a q page)).Sublist page.numbers :=
  List.Sublist.trans ((tokens_collapse _).map _) (takeOut_numbers hnode)

/-- The splitter with nothing but a picker in it does not stay. -/
theorem taken_gone (hmade : Made m page) (hparent : page.parentSplitter a = some q)
    (hsole : Rose.Sole (fun b : Splitter => b.number = q.number) (.picker p) (page.takeOut a)) :
    q.number ∉ Widget.numbers (taken a q page) := by
  have hnode := node_of_parentSplitter hparent
  have hnodup : (page.takeOut a).numbers.Nodup := hmade.1.sublist (takeOut_numbers hnode)
  have hcount : (page.takeOut a).tokens.countP (Sum.elim (fun _ => false) fun b : Splitter => decide (b.number = q.number)) ≤ 1 := by
    refine Nat.le_trans ?_ (List.nodup_iff_count_le_one.mp hnodup q.number)
    rw [Widget.numbers, List.count, List.countP_map]
    refine List.countP_mono_left fun x _ hx => ?_
    cases x with
    | inl b => cases hx
    | inr b => simpa using hx
  intro hmem
  obtain ⟨x, hx, hnumber⟩ := List.mem_map.mp hmem
  cases x with
  | inl b =>
    have hold : .inl b ∈ page.tokens := by
      have htaken := (tokens_collapse _).subset hx
      rw [takeOut_tokens hnode] at htaken
      exact (List.mem_filter.mp htaken).1
    cases token_unique hmade.1 hold (splitter_of_parentSplitter hparent) hnumber
  | inr b =>
    have hnot := collapse_sole hsole hcount b hx
    rw [show b.number = q.number from hnumber, decide_eq_false_iff_not] at hnot
    exact hnot rfl

/-- What is left of a page has its pickers where they were, but for one that was left alone. -/
theorem taken_picker (hmade : Made m page) (hparent : page.parentSplitter a = some q)
    (hlink : (.picker p, q') ∈ (taken a q page).links none) : .picker p ≠ a ∧
      ((.picker p, q') ∈ page.links none ∨ LeftAlone a p page ∧ page.parentSplitter (.picker p) = some q ∧
        q.number ∉ Widget.numbers (taken a q page)) := by
  have hnode := node_of_parentSplitter hparent
  have hput : edit (· = a) (fun _ => []) page = [page.takeOut a] := edit_eq_editBelow _ _ hnode
  have hold : ∀ r, (.picker p, r) ∈ (page.takeOut a).links none → (.picker p, r) ∈ page.links none ∧ Leaf.picker p ≠ a := by
    intro r hr
    rcases (put_links hput).mp hr with h | ⟨_, _, h⟩
    · exact h
    · cases h
  rcases links_collapse hlink with h | hsole
  · exact ⟨(hold q' h).2, .inl (hold q' h).1⟩
  · obtain ⟨r, hr, hlink'⟩ := link_of_sole none hsole
    obtain ⟨hlink', hne⟩ := hold _ hlink'
    have heq : Sum.inr r = (Sum.inr q : Leaf ⊕ Splitter) :=
      token_unique hmade.1 (label_of_links hlink' (by simp)) (splitter_of_parentSplitter hparent) (of_decide_eq_true hr)
    cases heq
    exact ⟨hne, .inr ⟨⟨q, hparent, hsole⟩, (parentSplitter_iff hmade.leaves_nodup).mpr hlink', taken_gone hmade hparent hsole⟩⟩

theorem taken_made (hmade : Made m page) (hnode : ∀ x, page ≠ leaf x) : Made m (taken a q page) :=
  ⟨hmade.1.sublist (taken_numbers hnode), fun n hn => hmade.2 n ((taken_numbers hnode).subset hn)⟩

theorem number_not_taken (hmade : Made m page) (hnode : ∀ x, page ≠ leaf x) (ha : a ∈ page.leaves) :
    a.number ∉ Widget.numbers (taken a q page) := by
  intro hmem
  have hput : edit (· = a) (fun _ => []) page = [page.takeOut a] := edit_eq_editBelow _ _ hnode
  have htaken : a.number ∈ (page.takeOut a).numbers := ((tokens_collapse _).map _).subset hmem
  rcases (mem_put_numbers hput hmade.1 ha).mp htaken with h | ⟨-, hne⟩
  · cases h
  · exact hne rfl

end Pages

/-! ## What is new in a page -/

/-- Why a leaf is taken out of its page: it is a picker that is cancelled, or a pane that is closed or moved. -/
def TakenBy (s : Window) (e : Event) (page : Widget) (a : Leaf) : Prop :=
  (∃ picker, a = .picker picker) ∨ (∃ v, a = .view v ∧ s.closes e = some v ∧ (collectViews page).length ≠ 1) ∨
    ∃ source target zone, a = .view source ∧ e = .movePane source target zone ∧ zone ≠ .swap ∧ source ≠ target ∧
      .view target ∈ page.leaves

section PageChange

variable {s s' : Window} {e : Event} {page page' : Widget} {p : Nat}

/-- The page in which a pane was moved, when it was out of it. -/
theorem moved_made {source target : Nat} {zone : PaneDropZone} {q : Splitter} (hmade : Made s.next page) (hne : source ≠ target)
    (htarget : .view target ∈ page.leaves) (hparent : page.parentSplitter (.view source) = some q) (hle : s.next ≤ s'.next)
    (hput : PutBeside s.next s'.next source target zone (taken (.view source) q page) page') :
    .view target ∈ (taken (.view source) q page).leaves ∧
      (∀ n ∈ page'.numbers, n ∈ Widget.numbers (taken (.view source) q page) ∨ n = source ∨ s.next ≤ n) ∧
      .view source ∈ page'.leaves := by
  have hnode := node_of_parentSplitter hparent
  have hsource := mem_of_parentSplitter hparent
  have htarget' : .view target ∈ (taken (.view source) q page).leaves := by
    rw [taken_leaves hnode]
    exact List.mem_filter.mpr ⟨htarget, decide_eq_true fun h => hne (Leaf.view.inj h).symm⟩
  obtain ⟨-, hnumbers, hmem⟩ := hput.made (taken_made hmade hnode) hle htarget' (hmade.2 _ (number_of_leaf hsource))
    (number_not_taken hmade hnode hsource)
  exact ⟨htarget', hnumbers, hmem⟩

theorem PageChange.numbers (h : PageChange s e s' page page') (hmade : Made s.next page) (hle : s.next ≤ s'.next) {n : Nat}
    (hn : n ∈ page'.numbers) : n ∈ page.numbers ∨ s.next ≤ n := by
  cases h with
  | split existing o page' hmem hput hnext hcaptured =>
    rcases (mem_put_numbers hput hmade.1 hmem).mp hn with hn | ⟨hn, -⟩
    · have hcases : n = s.next + 1 ∨ n = existing ∨ n = s.next := by simpa [Widget.numbers, Leaf.number] using hn
      rcases hcases with rfl | rfl | rfl
      · exact .inr (Nat.le_succ _)
      · exact .inl (number_of_leaf hmem)
      · exact .inr (Nat.le_refl _)
    · exact .inl hn
  | chosen picker q hparent hnext =>
    have hput : edit (· = .picker picker) (fun _ => [.leaf (.view s.next)]) page =
        [page.replaceWidget (.picker picker) (.view s.next)] := edit_eq_editBelow _ _ (node_of_parentSplitter hparent)
    rcases (mem_put_numbers hput hmade.1 (mem_of_parentSplitter hparent)).mp hn with hn | ⟨hn, -⟩
    · have heq : n = s.next := by simpa [Widget.numbers, Leaf.number] using hn
      exact .inr heq.ge
    · exact .inl hn
  | cancelled picker q hparent => exact .inl ((taken_numbers (node_of_parentSplitter hparent)).subset hn)
  | closed v q hcloses hmore hparent => exact .inl ((taken_numbers (node_of_parentSplitter hparent)).subset hn)
  | swapped source target hsource htarget =>
    exact .inl ((swap_numbers hmade.1 (token_of_leaf hsource) (token_of_leaf htarget)).subset hn)
  | moved source target zone q page' he hzone hne htarget hparent hput =>
    rcases (moved_made hmade hne htarget hparent hle hput).2.1 n hn with hn | rfl | hn
    · exact .inl ((taken_numbers (node_of_parentSplitter hparent)).subset hn)
    · exact .inl (number_of_leaf (mem_of_parentSplitter hparent))
    · exact .inr hn

/-- Only the pane that is closed goes. -/
theorem PageChange.views (h : PageChange s e s' page page') (hmade : Made s.next page) (hle : s.next ≤ s'.next) {u : Nat}
    (hu : .view u ∈ page.leaves) : .view u ∈ page'.leaves ∨ s.closes e = some u ∧ TakenBy s e page (.view u) := by
  cases h with
  | split existing o page' hmem hput hnext hcaptured =>
    left
    by_cases heq : u = existing
    · exact (mem_put_leaves hput).mpr (.inr ⟨hmem, by simp [heq]⟩)
    · exact (mem_put_leaves hput).mpr (.inl ⟨hu, fun h => heq (Leaf.view.inj h)⟩)
  | chosen picker q hparent hnext =>
    have hput : edit (· = .picker picker) (fun _ => [.leaf (.view s.next)]) page =
        [page.replaceWidget (.picker picker) (.view s.next)] := edit_eq_editBelow _ _ (node_of_parentSplitter hparent)
    exact .inl ((mem_put_leaves hput).mpr (.inl ⟨hu, by simp⟩))
  | cancelled picker q hparent =>
    rw [taken_leaves (node_of_parentSplitter hparent)]
    exact .inl (List.mem_filter.mpr ⟨hu, by simp⟩)
  | closed v q hcloses hmore hparent =>
    by_cases heq : u = v
    · subst heq
      exact .inr ⟨hcloses, .inr (.inl ⟨u, rfl, hcloses, hmore⟩)⟩
    · rw [taken_leaves (node_of_parentSplitter hparent)]
      exact .inl (List.mem_filter.mpr ⟨hu, decide_eq_true fun h => heq (Leaf.view.inj h)⟩)
  | swapped source target hsource htarget =>
    rw [leaves_mapLeaves]
    exact .inl (List.mem_map.mpr ⟨_, swap_mem hsource htarget hu, Equiv.swap_apply_self ..⟩)
  | moved source target zone q page' he hzone hne htarget hparent hput =>
    left
    obtain ⟨htarget', -, hsource⟩ := moved_made hmade hne htarget hparent hle hput
    by_cases heq : u = source
    · exact heq ▸ hsource
    · have htaken : .view u ∈ (taken (.view source) q page).leaves := by
        rw [taken_leaves (node_of_parentSplitter hparent)]
        exact List.mem_filter.mpr ⟨hu, decide_eq_true fun h => heq (Leaf.view.inj h)⟩
      obtain ⟨widgets, hedit, hplaced⟩ := hput.placed
      by_cases hutarget : u = target
      · refine (mem_put_leaves hedit).mpr (.inr ⟨htarget', ?_⟩)
        rcases hplaced.leaves with h | h <;> rw [h] <;> simp [hutarget]
      · exact (mem_put_leaves hedit).mpr (.inl ⟨htaken, fun h => hutarget (Leaf.view.inj h)⟩)

/-- A picker is where it was, or was made by the command, or was left alone and is in its splitter no longer. -/
theorem PageChange.picker (h : PageChange s e s' page page') (hmade : Made s.next page) (hle : s.next ≤ s'.next)
    {q' : Option Splitter} (hlink : (.picker p, q') ∈ page'.links none) : (.picker p, q') ∈ page.links none ∨
      (∃ existing o, p = s.next ∧ q' = some ⟨s.next + 1, o⟩ ∧ s'.next = s.next + 2 ∧ s'.captured p = ⟨s.next + 1, existing⟩ ∧
        .view existing ∈ page'.leaves) ∨
      ∃ a q, TakenBy s e page a ∧ .picker p ≠ a ∧ LeftAlone a p page ∧ page.parentSplitter a = some q ∧
        page.parentSplitter (.picker p) = some q ∧ q.number ∉ page'.numbers := by
  have hout : ∀ {a : Leaf} {q : Splitter}, page.parentSplitter a = some q → TakenBy s e page a →
      (.picker p, q') ∈ (taken a q page).links none → (∀ n ∈ page'.numbers, n = q.number → n ∈ Widget.numbers (taken a q page)) →
      (.picker p, q') ∈ page.links none ∨ ∃ a q, TakenBy s e page a ∧ .picker p ≠ a ∧ LeftAlone a p page ∧
        page.parentSplitter a = some q ∧ page.parentSplitter (.picker p) = some q ∧ q.number ∉ page'.numbers := by
    intro a q hparent hby hlink hnumbers
    obtain ⟨hne, hlink | ⟨hleft, hpicker, hgone⟩⟩ := taken_picker hmade hparent hlink
    · exact .inl hlink
    · exact .inr ⟨a, q, hby, hne, hleft, hparent, hpicker, fun hmem => hgone (hnumbers _ hmem rfl)⟩
  cases h with
  | split existing o page' hmem hput hnext hcaptured =>
    rcases (put_links hput).mp hlink with ⟨h, -⟩ | ⟨r, hr, h⟩
    · exact .inl h
    · have hnew : p = s.next ∧ q' = some ⟨s.next + 1, o⟩ := by simpa using h
      obtain ⟨rfl, rfl⟩ := hnew
      exact .inr (.inl ⟨existing, o, rfl, rfl, hnext, hcaptured, (mem_put_leaves hput).mpr (.inr ⟨hmem, by simp⟩)⟩)
  | chosen picker q hparent hnext =>
    have hput : edit (· = .picker picker) (fun _ => [.leaf (.view s.next)]) page =
        [page.replaceWidget (.picker picker) (.view s.next)] := edit_eq_editBelow _ _ (node_of_parentSplitter hparent)
    rcases (put_links hput).mp hlink with ⟨h, -⟩ | ⟨r, hr, h⟩
    · exact .inl h
    · simp at h
  | cancelled picker q hparent => exact (hout hparent (.inl ⟨picker, rfl⟩) hlink fun n hn _ => hn).imp_right .inr
  | closed v q hcloses hmore hparent =>
    exact (hout hparent (.inr (.inl ⟨v, rfl, hcloses, hmore⟩)) hlink fun n hn _ => hn).imp_right .inr
  | swapped source target hsource htarget =>
    rw [links_mapLeaves, List.mem_map] at hlink
    obtain ⟨⟨x, r⟩, hx, heq⟩ := hlink
    rw [Prod.map_apply, Prod.mk.injEq, id_eq, Equiv.swap_apply_eq_iff, Equiv.swap_apply_of_ne_of_ne (by simp) (by simp)] at heq
    obtain ⟨rfl, rfl⟩ := heq
    exact .inl hx
  | moved source target zone q page' he hzone hne htarget hparent hput =>
    obtain ⟨htarget', hnumbers, -⟩ := moved_made hmade hne htarget hparent hle hput
    obtain ⟨widgets, hedit, hplaced⟩ := hput.placed
    rcases (put_links hedit).mp hlink with ⟨h, -⟩ | ⟨r, hr, h⟩
    · refine (hout hparent (.inr (.inr ⟨source, target, zone, rfl, he, hzone, hne, htarget⟩)) h fun n hn hq => ?_).imp_right .inr
      rcases hnumbers n hn with hn | rfl | hn
      · exact hn
      · have hsame := token_unique hmade.1 (token_of_leaf (mem_of_parentSplitter hparent)) (splitter_of_parentSplitter hparent) hq
        cases hsame
      · have hlt := hmade.2 _ (number_of_splitter (splitter_of_parentSplitter hparent))
        omega
    · obtain ⟨w, hw, hmem⟩ := List.mem_flatMap.mp h
      have hleaf : .picker p ∈ widgets.flatMap Rose.leaves := List.mem_flatMap_of_mem hw (mem_leaves_of_links hmem)
      rcases hplaced.leaves with h | h <;> rw [h] at hleaf <;> simp at hleaf

end PageChange

/-! ## What a command does -/

section Windows

variable {s s' s₁ : Window} {e : Event} {i : Nat} {tab : Tab} {a : Leaf} {q : Splitter} {page : Widget} {picker : Nat}

theorem hasLeaf_iff : s.hasLeaf a = true ↔ ∃ tab ∈ s.tabs, a ∈ tab.page.leaves := by
  unfold Window.hasLeaf Window.tabRootOf
  rw [List.findIdx?_isSome, List.any_eq_true]
  simp only [decide_eq_true_eq]

theorem hasSplitter_window {n : Nat} : s.hasSplitter n = true ↔ ∃ tab ∈ s.tabs, tab.page.hasSplitter n = true := List.any_eq_true

theorem hasSplitter_of_parent (htab : s.tabs[i]? = some tab) (hparent : tab.page.parentSplitter a = some q) :
    s.hasSplitter q.number = true :=
  hasSplitter_window.mpr ⟨tab, List.mem_of_getElem? htab, (hasSplitter_iff _).mpr ⟨q, splitter_of_parentSplitter hparent, rfl⟩⟩

/-- A page with a leaf taken out has the splitters it had. -/
theorem takeOut_hasSplitter (hnode : ∀ x, page ≠ leaf x) (n : Nat) : (page.takeOut a).hasSplitter n = page.hasSplitter n := by
  rw [Bool.eq_iff_iff, hasSplitter_iff, hasSplitter_iff, takeOut_tokens hnode]
  simp

/-- A tab is another one, or has the new page. -/
theorem Reworks.mem {s' : Window} (h : Reworks s s' i page) (htab : s.tabs[i]? = some tab) {tab' : Tab} (hmem : tab' ∈ s'.tabs) :
    (∃ j, j ≠ i ∧ s.tabs[j]? = some tab') ∨ tab' = ⟨tab.title, page⟩ := by
  obtain ⟨j, hj⟩ := List.getElem?_of_mem hmem
  by_cases hij : i = j
  · rw [← hij, h.getElem? htab] at hj
    exact .inr (Option.some.inj hj).symm
  · rw [h.tabs, List.getElem?_modify_ne _ _ hij] at hj
    exact .inl ⟨j, Ne.symm hij, hj⟩

theorem Reworks.mem_of {s' : Window} (h : Reworks s s' i page) (htab : s.tabs[i]? = some tab) : ⟨tab.title, page⟩ ∈ s'.tabs :=
  List.mem_of_getElem? (h.getElem? htab)

/-- The splitter of the pages is one of the window, or was one when a leaf was still in it. -/
theorem taken_hasSplitter (htab : s.tabs[i]? = some tab) (hnode : ∀ x, tab.page ≠ leaf x) (htaken : Reworks s s₁ i (tab.page.takeOut a))
    (n : Nat) (h : s₁.hasSplitter n = true) : s.hasSplitter n = true := by
  obtain ⟨tab', hmem, hhas⟩ := hasSplitter_window.mp h
  rcases htaken.mem htab hmem with ⟨j, -, hj⟩ | rfl
  · exact hasSplitter_window.mpr ⟨tab', List.mem_of_getElem? hj, hhas⟩
  · rw [takeOut_hasSplitter hnode] at hhas
    exact hasSplitter_window.mpr ⟨tab, List.mem_of_getElem? htab, hhas⟩

/-- The handlers of a picker have captured its splitter, or one that is gone. -/
theorem Tied.parent (h : Tied s.pages s.next s.captured) (htab : s.tabs[i]? = some tab) (hpicker : .picker picker ∈ tab.page.leaves)
    (halive : s.hasSplitter (s.captured picker).splitter = true) :
    ∃ q, tab.page.parentSplitter (.picker picker) = some q ∧ q.number = (s.captured picker).splitter := by
  obtain ⟨-, hcaptured, hparent⟩ := h tab.page ⟨tab, List.mem_of_getElem? htab, rfl⟩ picker hpicker
  rw [hcaptured] at halive ⊢
  rcases hparent with hparent | hgone
  · exact hparent
  · obtain ⟨tab', hmem, hhas⟩ := hasSplitter_window.mp halive
    obtain ⟨q, hq, hnumber⟩ := (hasSplitter_iff _).mp hhas
    exact absurd (hnumber ▸ number_of_splitter hq) (hgone tab'.page ⟨tab', hmem, rfl⟩)

/-- A new pane takes the place of the picker. -/
theorem finishSplit_eq (hroot : s.tabRootOf (.picker picker) = some i) (htab : s.tabs[i]? = some tab)
    (hparent : tab.page.parentSplitter (.picker picker) = some q) : s.finishSplitWithResult q.number picker =
      some (({ s with next := s.next + 1 }.changePage i (·.replaceWidget (.picker picker) (.view s.next))).setFocus (.view s.next)) := by
  unfold Window.finishSplitWithResult
  rw [hroot]
  simp only [hasSplitter_of_parent htab hparent, not_true_eq_false, if_false, pageAt_eq htab, Option.bind_some, hparent, Option.any_some,
    decide_true, if_true]

theorem choose_change (htied : Tied s.pages s.next s.captured) {duplicate : Bool} (h : s.choose picker duplicate = some s') :
    s' = s ∨ ∃ i tab q, s.tabs[i]? = some tab ∧ tab.page.parentSplitter (.picker picker) = some q ∧
      s' = ({ s with next := s.next + 1 }.changePage i (·.replaceWidget (.picker picker) (.view s.next))).setFocus (.view s.next) := by
  have hfinish := choose_cases h
  cases hroot : s.tabRootOf (.picker picker) with
  | none =>
    rw [Window.finishSplitWithResult, hroot] at hfinish
    exact .inl (Option.some.inj hfinish).symm
  | some i =>
    obtain ⟨tab, htab, hmem⟩ := tabRootOf_eq_some hroot
    have halive : s.hasSplitter (s.captured picker).splitter = true := by
      by_contra hdead
      simp [Window.finishSplitWithResult, hroot, hdead] at hfinish
    obtain ⟨q, hparent, hq⟩ := htied.parent htab hmem halive
    rw [← hq, finishSplit_eq hroot htab hparent] at hfinish
    exact .inr ⟨i, tab, q, htab, hparent, (Option.some.inj hfinish).symm⟩

/-- The picker goes, and its splitter with it where another widget is left. -/
theorem cancel_eq (hs : Sound s) (hroot : s.tabRootOf (.picker picker) = some i) (htab : s.tabs[i]? = some tab)
    (hparent : tab.page.parentSplitter (.picker picker) = some q) (hq : q.number = (s.captured picker).splitter)
    (hexisting : s.hasLeaf (.view (s.captured picker).existing) = true) : ∃ s₁, Reworks s s₁ i (taken (.picker picker) q tab.page) ∧
      s₁.next = s.next ∧ s₁.captured = s.captured ∧ s.cancel picker = some (s₁.setFocus (.view (s.captured picker).existing)) := by
  have hnode := node_of_parentSplitter hparent
  have hmem := mem_of_parentSplitter hparent
  have hnodup := (hs.pages tab (List.mem_of_getElem? htab)).leaves_nodup
  have hchanged := changePage_reworks htab (·.takeOut (.picker picker))
  have htaken : Reworks s (s.changePage i (·.takeOut (.picker picker))).loseFocus i (tab.page.takeOut (.picker picker)) :=
    ⟨hchanged.tabs, hchanged.current⟩
  have hreworks := takenOut_reworks hs.toDistinct htab hmem hnode (fun r hr => link_unique hnodup hparent hr) htaken
  refine ⟨_, hreworks, (collapse_same _ _).next, Window.collapse_captured _ _, ?_⟩
  have halive : (s.changePage i (·.takeOut (.picker picker))).loseFocus.hasSplitter q.number = true := by
    refine hasSplitter_window.mpr ⟨_, htaken.mem_of htab, ?_⟩
    rw [takeOut_hasSplitter hnode]
    exact (hasSplitter_iff _).mpr ⟨q, splitter_of_parentSplitter hparent, rfl⟩
  have hleaf : (s.changePage i (·.takeOut (.picker picker))).loseFocus.hasLeaf (.view (s.captured picker).existing) = true := by
    obtain ⟨tab', hmem', hview⟩ := hasLeaf_iff.mp hexisting
    have hput : edit (· = .picker picker) (fun _ => []) tab.page = [tab.page.takeOut (.picker picker)] := edit_eq_editBelow _ _ hnode
    obtain ⟨j, hj⟩ := List.getElem?_of_mem hmem'
    by_cases hij : i = j
    · subst hij
      rw [htab] at hj
      cases hj
      exact hasLeaf_iff.mpr ⟨_, htaken.mem_of htab, (mem_put_leaves hput).mpr (.inl ⟨hview, by simp⟩)⟩
    · refine hasLeaf_iff.mpr ⟨tab', List.mem_of_getElem? (i := j) ?_, hview⟩
      rw [htaken.tabs, List.getElem?_modify_ne _ _ hij, hj]
  unfold Window.cancel
  simp only [hroot, ← hq, halive, hleaf, not_true_eq_false, or_self, if_false]

theorem cancel_change (hs : Sound s) (htied : Tied s.pages s.next s.captured) (h : s.cancel picker = some s') :
    s' = s ∨ ∃ i tab q s₁, s.tabs[i]? = some tab ∧ tab.page.parentSplitter (.picker picker) = some q ∧
      Reworks s s₁ i (taken (.picker picker) q tab.page) ∧ s₁.next = s.next ∧ s₁.captured = s.captured ∧
      s' = s₁.setFocus (.view (s.captured picker).existing) := by
  cases hroot : s.tabRootOf (.picker picker) with
  | none =>
    rw [Window.cancel, hroot] at h
    exact .inl (Option.some.inj h).symm
  | some i =>
    obtain ⟨tab, htab, hmem⟩ := tabRootOf_eq_some hroot
    have hnode := (hs.peopled tab (List.mem_of_getElem? htab)).node_of_picker hmem
    have hchanged := changePage_reworks htab (·.takeOut (.picker picker))
    have htaken : Reworks s (s.changePage i (·.takeOut (.picker picker))).loseFocus i (tab.page.takeOut (.picker picker)) :=
      ⟨hchanged.tabs, hchanged.current⟩
    have hboth : (s.changePage i (·.takeOut (.picker picker))).loseFocus.hasSplitter (s.captured picker).splitter = true ∧
        (s.changePage i (·.takeOut (.picker picker))).loseFocus.hasLeaf (.view (s.captured picker).existing) = true := by
      by_contra hdead
      rw [not_and_or] at hdead
      rw [Window.cancel, hroot] at h
      simp only at h
      rw [if_pos hdead] at h
      cases h
    have hexisting : s.hasLeaf (.view (s.captured picker).existing) = true := by
      obtain ⟨tab', hmem', hview⟩ := hasLeaf_iff.mp hboth.2
      rcases htaken.mem htab hmem' with ⟨j, -, hj⟩ | rfl
      · exact hasLeaf_iff.mpr ⟨tab', List.mem_of_getElem? hj, hview⟩
      · have hput : edit (· = .picker picker) (fun _ => []) tab.page = [tab.page.takeOut (.picker picker)] := edit_eq_editBelow _ _ hnode
        rcases (mem_put_leaves hput).mp hview with ⟨hview, -⟩ | ⟨-, hview⟩
        · exact hasLeaf_iff.mpr ⟨tab, List.mem_of_getElem? htab, hview⟩
        · cases hview
    obtain ⟨q, hparent, hq⟩ := htied.parent htab hmem (taken_hasSplitter htab hnode htaken _ hboth.1)
    obtain ⟨s₁, hreworks, hnext, hcaptured, heq⟩ := cancel_eq hs hroot htab hparent hq hexisting
    rw [heq] at h
    exact .inr ⟨i, tab, q, s₁, htab, hparent, hreworks, hnext, hcaptured, (Option.some.inj h).symm⟩

theorem closePane_change (hs : Sound s) (v : Nat) : s.closePane v = s ∨ (∃ i, s.closePane v = s.closeTab i) ∨ ∃ i tab q s₁,
    s.tabs[i]? = some tab ∧ (collectViews tab.page).length ≠ 1 ∧ tab.page.parentSplitter (.view v) = some q ∧
      Reworks s s₁ i (taken (.view v) q tab.page) ∧ s₁.next = s.next ∧ s₁.captured = s.captured ∧ s.closePane v = s₁.focusPage := by
  unfold Window.closePane
  split
  next => exact .inl rfl
  next i hroot =>
    right
    obtain ⟨tab, htab, hmem⟩ := tabRootOf_eq_some hroot
    rw [pageAt_eq htab]
    simp only
    split
    next => exact .inl ⟨i, rfl⟩
    next hlength =>
      split
      next => exact .inl ⟨i, rfl⟩
      next q hparent =>
        have hnodup := (hs.pages tab (List.mem_of_getElem? htab)).leaves_nodup
        have hchanged := changePage_reworks (s := { s with activeView := none }) htab (·.takeOut (.view v))
        have htaken : Reworks s (Window.changePage i (·.takeOut (.view v)) { s with activeView := none }).loseFocus i
            (tab.page.takeOut (.view v)) := ⟨hchanged.tabs, hchanged.current⟩
        have hreworks := takenOut_reworks hs.toDistinct htab hmem (node_of_parentSplitter hparent)
          (fun r hr => link_unique hnodup hparent hr) htaken
        exact .inr ⟨i, tab, q, _, htab, hlength, hparent, hreworks, (collapse_same _ _).next, Window.collapse_captured _ _, rfl⟩

/-- What a command does to the window. -/
structure Effect (s : Window) (e : Event) (s' : Window) : Prop where
  next : s.next ≤ s'.next
  captured : ∀ p < s.next, s'.captured p = s.captured p
  change : Change s e s'

theorem Effect.keep (hsame : Window.Same s s') (hcaptured : s'.captured = s.captured) (htabs : ∀ tab ∈ s'.tabs, tab ∈ s.tabs) :
    Effect s e s' :=
  ⟨hsame.next.ge, fun p _ => congrFun hcaptured p, .kept htabs⟩

theorem Effect.refl (s : Window) (e : Event) : Effect s e s := .keep ⟨rfl, rfl⟩ rfl fun _ h => h

/-- A page is reworked in its tab, and no picker is made. -/
theorem Effect.rework (htab : s.tabs[i]? = some tab) (hreworks : Reworks s s₁ i page) (hnext : s.next ≤ s'.next)
    (hcaptured : s'.captured = s.captured) (htabs : s'.tabs = s₁.tabs) (hpage : PageChange s e s' tab.page page) : Effect s e s' :=
  ⟨hnext, fun p _ => congrFun hcaptured p, .reworked i tab page htab (htabs.trans hreworks.tabs) hpage⟩

theorem closeTab_effect (x : Option Nat) (i : Nat) : Effect s e (Window.closeTab i { s with activeView := x }) := by
  refine .keep ?_ (Window.closeTab_captured { s with activeView := x } i) fun tab hmem => ?_
  · unfold Window.closeTab
    split
    next => exact ⟨rfl, rfl⟩
    next => exact ⟨(Window.removeTab_same _ i).next, (Window.removeTab_same _ i).active⟩
  · unfold Window.closeTab at hmem
    split at hmem
    next => exact hmem
    next =>
      rw [Window.removeTab_tabs] at hmem
      exact List.mem_of_mem_eraseIdx hmem

theorem choose_effect (htied : Tied s.pages s.next s.captured) {duplicate : Bool} (h : s.choose picker duplicate = some s') :
    Effect s e s' := by
  rcases choose_change htied h with rfl | ⟨i, tab, q, htab, hparent, rfl⟩
  · exact .refl _ e
  · have hnext : (({ s with next := s.next + 1 }.changePage i (·.replaceWidget (.picker picker) (.view s.next))).setFocus
        (.view s.next)).next = s.next + 1 := (Window.setFocus_same _ _).next
    exact .rework htab (changePage_reworks htab _) (by rw [hnext]; exact Nat.le_succ _) (Window.setFocus_captured _ _)
      (Window.setFocus_tabs _ _) (.chosen picker q hparent hnext)

theorem cancel_effect (hs : Sound s) (htied : Tied s.pages s.next s.captured) (h : s.cancel picker = some s') : Effect s e s' := by
  rcases cancel_change hs htied h with rfl | ⟨i, tab, q, s₁, htab, hparent, hreworks, hnext, hcaptured, rfl⟩
  · exact .refl _ e
  · have hnext' : (s₁.setFocus (.view (s.captured picker).existing)).next = s.next := (Window.setFocus_same _ _).next.trans hnext
    exact .rework htab hreworks hnext'.ge ((Window.setFocus_captured _ _).trans hcaptured) (Window.setFocus_tabs _ _)
      (.cancelled picker q hparent)

theorem closePane_effect (hs : Sound s) (x : Option Nat) {v : Nat} (hcloses : s.closes e = some v) :
    Effect s e (Window.closePane v { s with activeView := x }) := by
  have hmarked : Sound { s with activeView := x } := hs.of_tabs (Nat.le_refl _) rfl
  rcases closePane_change hmarked v with heq | ⟨i, heq⟩ | ⟨i, tab, q, s₁, htab, hlength, hparent, hreworks, hnext, hcaptured, heq⟩
  · rw [heq]
    exact .keep ⟨rfl, rfl⟩ rfl fun _ h => h
  · rw [heq]
    exact closeTab_effect x i
  · rw [heq]
    have hfocus : s₁.focusPage.tabs = s₁.tabs ∧ s₁.focusPage.next = s₁.next := by
      unfold Window.focusPage
      split
      next => exact ⟨Window.setFocus_tabs _ _, (Window.setFocus_same _ _).next⟩
      next => exact ⟨rfl, rfl⟩
    have hreworks' : Reworks s s₁ i (taken (.view v) q tab.page) := ⟨hreworks.tabs, hreworks.current⟩
    exact .rework htab hreworks' (hfocus.2.trans hnext).ge ((Window.focusPage_captured _).trans hcaptured) hfocus.1
      (.closed v q hcloses hlength hparent)

theorem confirmClosePane_effect (hs : Sound s) {yes : Bool} {v : Nat} (hcloses : yes = true → s.closes e = some v) :
    Effect s e (s.confirmClosePane yes v) := by
  unfold Window.confirmClosePane
  split
  next hboth => exact closePane_effect hs _ (hcloses hboth.2)
  next => exact .refl s e

theorem split_effect (hs : Sound s) (o : Core.Orientation) : Effect s e (s.splitActivePane o) := by
  rcases split_cases hs o with heq | ⟨existing, i, tab, s₁, s₂, page, -, htab, hmem, hput, rfl, hchanged, heq⟩
  · rw [heq]
    exact .keep ⟨rfl, rfl⟩ rfl fun _ h => h
  · have hreworks : Reworks s s₂ i page ∧ s₂.next = s.next + 2 ∧
        s₂.captured = Function.update s.captured s.next ⟨s.next + 1, existing⟩ := by
      rcases hchanged with rfl | rfl
      · have hreworks := changePage_reworks (s := { s with
          activeView := some existing
          captured := Function.update s.captured s.next ⟨s.next + 1, existing⟩
          next := s.next + 2 }) htab (fun _ => page)
        exact ⟨⟨hreworks.tabs, hreworks.current⟩, rfl, rfl⟩
      · have hreworks := replacePage_reworks (s := { s with
          activeView := some existing
          captured := Function.update s.captured s.next ⟨s.next + 1, existing⟩
          next := s.next + 2 }) htab page
        exact ⟨⟨hreworks.tabs, hreworks.current⟩, (Window.replacePage_same ..).next, Window.replacePage_captured ..⟩
    obtain ⟨hreworks, hnext, hcaptured⟩ := hreworks
    rw [heq]
    have hnext' : (s₂.setFocus (.picker s.next)).next = s.next + 2 := (Window.setFocus_same _ _).next.trans hnext
    have hcaptured' : (s₂.setFocus (.picker s.next)).captured = Function.update s.captured s.next ⟨s.next + 1, existing⟩ :=
      (Window.setFocus_captured _ _).trans hcaptured
    refine ⟨by omega, fun p hp => ?_, .reworked i tab page htab ((Window.setFocus_tabs _ _).trans hreworks.tabs) ?_⟩
    · rw [hcaptured', Function.update_of_ne (Nat.ne_of_lt hp)]
    · exact .split existing o page hmem hput hnext' (by rw [hcaptured', Function.update_self])

theorem movePane_effect (hs : Sound s) (source target : Nat) (zone : PaneDropZone) :
    Effect s (.movePane source target zone) (s.movePane source target zone) := by
  rcases movePane_cases s source target zone with heq | ⟨i, tab, htab, hsource, htarget, hne⟩
  · rw [heq]
    exact .refl s _
  · have hnodup := (hs.pages tab (List.mem_of_getElem? htab)).leaves_nodup
    obtain ⟨s₁, page, heq, hreworks, hle, hswap, hbeside⟩ := movePane_eq hs.toDistinct htab hsource htarget hne zone
    have hcaptured := Window.movePane_captured s source target zone
    rw [heq] at hcaptured ⊢
    have hnext : ({ s₁.loseFocus with activeView := some source }.setFocus (.view source)).next = s₁.next :=
      (Window.setFocus_same _ _).next
    refine .rework htab hreworks (hnext ▸ hle) hcaptured (Window.setFocus_tabs _ _) ?_
    by_cases hzone : zone = .swap
    · rw [hswap hzone]
      exact .swapped source target hsource htarget
    · obtain ⟨q, hlinks, hput⟩ := hbeside hzone
      have hparent : tab.page.parentSplitter (.view source) = some q := by
        rw [parentSplitter_iff hnodup]
        rw [← links_fst none, List.mem_map] at hsource
        obtain ⟨⟨x, r⟩, hlink, rfl⟩ := hsource
        exact hlinks r hlink ▸ hlink
      exact .moved source target zone q page rfl hzone hne htarget hparent (hnext.symm ▸ hput)

theorem moveTab_effect (i j : Nat) : Effect s e (s.moveTab i j) := by
  unfold Window.moveTab
  split
  next => exact .refl s e
  next tab htab =>
    split
    next hj =>
      refine .keep ⟨rfl, rfl⟩ rfl fun tab' hmem => ?_
      rcases List.eq_or_mem_of_mem_insertIdx hmem with rfl | hmem
      · exact List.mem_of_getElem? htab
      · exact List.mem_of_mem_eraseIdx hmem
    next => exact .refl s e

theorem addTerminalTab_effect (title : List Char) : Effect s e (s.addTerminalTab title) := by
  have hnext : (s.addTerminalTab title).next = s.next + 1 := by
    unfold Window.addTerminalTab
    exact ((Window.setFocus_same _ _).next.trans (Window.setCurrentIndex_same _ _).next).trans (Window.insertTab_same _ _ _).next
  refine ⟨hnext ▸ Nat.le_succ _, fun p _ => ?_, .opened hnext fun tab hmem => ?_⟩
  · unfold Window.addTerminalTab Window.addTab
    simp only [Window.setFocus_captured, Window.setCurrentIndex_captured, Window.insertTab_captured]
  · unfold Window.addTerminalTab Window.addTab at hmem
    simp only [Window.setFocus_tabs, Window.setCurrentIndex_tabs] at hmem
    rw [Window.insertTab_tabs { s with next := s.next + 1 } (Nat.le_refl s.tabs.length)] at hmem
    rcases List.eq_or_mem_of_mem_insertIdx hmem with rfl | hmem
    · exact .inr rfl
    · exact .inl hmem

theorem activate_effect : Effect s e (s.focus.elim { s with active := true } { s with active := true }.onFocusChanged) := by
  have hall : ∀ o : Option Leaf, Effect s e (o.elim { s with active := true } { s with active := true }.onFocusChanged) := by
    intro o
    cases o with
    | none => exact ⟨Nat.le_refl _, fun _ _ => rfl, .kept fun _ h => h⟩
    | some a =>
      refine ⟨(Window.onFocusChanged_same { s with active := true } a).next.ge,
        fun p _ => congrFun (Window.onFocusChanged_captured { s with active := true } a) p, .kept fun tab hmem => ?_⟩
      rwa [Option.elim, Window.onFocusChanged_tabs] at hmem
  exact hall s.focus

/-- The effect of every command of a window. -/
theorem step_effect (hs : Sound s) (htied : Tied s.pages s.next s.captured) (hwindow : e.ofWindow = true) (h : step s e = some s') :
    Effect s e s' := by
  have hstay : ∀ {condition : Prop} [Decidable condition] {s₁ : Window}, (condition → Effect s e s₁) →
      Effect s e (if condition then s₁ else s) := by
    intro condition _ s₁ hs₁
    split
    next hcondition => exact hs₁ hcondition
    next => exact .refl s e
  cases e with
  | addTab tab next => cases hwindow
  | transferTab i => cases hwindow
  | acceptTab tab next => cases hwindow
  | addTerminalTab title =>
    cases h
    exact addTerminalTab_effect title
  | splitActivePane o =>
    cases h
    exact hstay fun _ => split_effect hs o
  | choose picker duplicate =>
    simp only [step] at h
    split at h
    next => exact choose_effect htied h
    next =>
      cases h
      exact .refl s _
  | cancel picker =>
    simp only [step] at h
    split at h
    next => exact cancel_effect hs htied h
    next =>
      cases h
      exact .refl s _
  | closeActivePane =>
    simp only [step] at h
    split at h
    next hactive =>
      unfold Window.closeActivePane at h
      split at h
      next => exact cancel_effect hs htied h
      next hfocused =>
        split at h
        next v hv =>
          cases h
          refine closePane_effect hs s.activeView ?_
          rw [Window.closes, if_pos ⟨hactive, hfocused⟩]
          exact hv
        next =>
          cases h
          exact .refl s _
    next =>
      cases h
      exact .refl s _
  | confirmCloseActivePane yes =>
    simp only [step] at h
    split at h
    next hactive =>
      unfold Window.confirmCloseActivePane at h
      split at h
      next =>
        cases h
        exact .refl s _
      next i hi =>
        split at h
        next => exact cancel_effect hs htied h
        next hfocused =>
          split at h
          next =>
            cases h
            exact closeTab_effect s.activeView i
          next v hv =>
            cases h
            refine confirmClosePane_effect hs fun hyes => ?_
            rw [Window.closes, if_pos ⟨hactive, hyes, Option.isSome_of_eq_some hi, hfocused⟩]
            exact hv
    next =>
      cases h
      exact .refl s _
  | confirmClosePane yes view =>
    cases h
    refine hstay fun hactive => confirmClosePane_effect hs fun hyes => ?_
    rw [Window.closes, if_pos ⟨hactive, hyes⟩]
  | showPaneContextMenu view =>
    cases h
    refine hstay fun _ => .keep ⟨(Window.setFocus_same _ _).next, (Window.setFocus_same _ _).active⟩ (Window.setFocus_captured _ _) ?_
    intro tab hmem
    rwa [Window.showPaneContextMenu, Window.setFocus_tabs] at hmem
  | closeTab i =>
    cases h
    exact hstay fun _ => closeTab_effect s.activeView i
  | setCurrentIndex i =>
    cases h
    refine .keep (Window.setCurrentIndex_same s i) (Window.setCurrentIndex_captured s i) fun tab hmem => ?_
    rwa [Window.setCurrentIndex_tabs] at hmem
  | moveTab i j =>
    cases h
    exact moveTab_effect i j
  | movePane source target zone =>
    cases h
    exact movePane_effect hs source target zone
  | focus a =>
    cases h
    refine hstay fun _ => .keep (Window.setFocus_same s a) (Window.setFocus_captured s a) fun tab hmem => ?_
    rwa [Window.setFocus_tabs] at hmem
  | focusElsewhere =>
    cases h
    exact hstay fun _ => .keep ⟨rfl, rfl⟩ rfl fun _ h => h
  | activate =>
    cases h
    exact activate_effect
  | deactivate =>
    cases h
    exact ⟨Nat.le_refl _, fun _ _ => rfl, .kept fun _ h => h⟩

/-! ## What follows from an effect -/

theorem Distinct.apart_of_ne (hs : Distinct s) {j : Nat} {tab' : Tab} (htab : s.tabs[i]? = some tab) (htab' : s.tabs[j]? = some tab')
    (hne : j ≠ i) : tab.page.numbers.Disjoint tab'.page.numbers := by
  obtain ⟨hi, rfl⟩ := List.getElem?_eq_some_iff.mp htab
  obtain ⟨hj, rfl⟩ := List.getElem?_eq_some_iff.mp htab'
  have hpair := List.pairwise_iff_getElem.mp hs.apart
  rcases Nat.lt_or_gt_of_ne hne with h | h
  · exact List.disjoint_symm (hpair j i hj hi h)
  · exact hpair i j hi hj h

/-- A widget of the window was in it before, or is new. -/
theorem Effect.numbers (h : Effect s e s') (hs : Sound s) {tab' : Tab} (hmem : tab' ∈ s'.tabs) {n : Nat} (hn : n ∈ tab'.page.numbers) :
    (∃ tab ∈ s.tabs, n ∈ tab.page.numbers) ∨ s.next ≤ n := by
  cases h.change with
  | kept htabs => exact .inl ⟨tab', htabs tab' hmem, hn⟩
  | opened hnext htabs =>
    rcases htabs tab' hmem with hmem | hpage
    · exact .inl ⟨tab', hmem, hn⟩
    · rw [hpage] at hn
      rw [List.mem_singleton.mp hn]
      exact .inr (Nat.le_refl _)
  | reworked i tab page htab htabs hpage =>
    have hreworks : Reworks s { s with tabs := s'.tabs } i page := ⟨htabs, fun h => h⟩
    rcases hreworks.mem htab hmem with ⟨j, -, hj⟩ | rfl
    · exact .inl ⟨tab', List.mem_of_getElem? hj, hn⟩
    · exact (hpage.numbers (hs.pages tab (List.mem_of_getElem? htab)) h.next hn).imp_left fun hn => ⟨tab, List.mem_of_getElem? htab, hn⟩

/-- The splitter of a picker. -/
theorem Sound.picker_parent (hs : Sound s) (hmem : tab ∈ s.tabs) (hpicker : .picker picker ∈ tab.page.leaves) :
    ∃ q, tab.page.parentSplitter (.picker picker) = some q := by
  obtain ⟨q, hq, -⟩ := parentSplitter_of_nodup (hs.pages tab hmem).leaves_nodup hpicker ((hs.peopled tab hmem).node_of_picker hpicker)
  exact ⟨q, hq⟩

/-- A picker of a window is in a page that it was in before, or in one that was reworked. -/
theorem Effect.page_of_picker (h : Effect s e s') (hs : Sound s) (hs' : Sound s') {tab' : Tab} (hmem : tab' ∈ s'.tabs)
    (hpicker : .picker picker ∈ tab'.page.leaves) : tab' ∈ s.tabs ∨ ∃ i tab q, s.tabs[i]? = some tab ∧
      s'.tabs = s.tabs.modify i (fun tab => { tab with page := tab'.page }) ∧ PageChange s e s' tab.page tab'.page ∧
      tab'.page.parentSplitter (.picker picker) = some q ∧ (.picker picker, some q) ∈ tab'.page.links none := by
  cases h.change with
  | kept htabs => exact .inl (htabs tab' hmem)
  | opened hnext htabs =>
    rcases htabs tab' hmem with hmem | hpage
    · exact .inl hmem
    · rw [hpage, leaves_leaf, List.mem_singleton] at hpicker
      cases hpicker
  | reworked i tab page htab htabs hpage =>
    have hreworks : Reworks s { s with tabs := s'.tabs } i page := ⟨htabs, fun h => h⟩
    rcases hreworks.mem htab hmem with ⟨j, -, hj⟩ | rfl
    · exact .inl (List.mem_of_getElem? hj)
    · obtain ⟨q, hq⟩ := hs'.picker_parent hmem hpicker
      exact .inr ⟨i, tab, q, htab, htabs, hpage, hq, (parentSplitter_iff (hs'.pages _ hmem).leaves_nodup).mp hq⟩

/-- A picker was there before, or is new. -/
theorem Effect.pickers (h : Effect s e s') (hs : Sound s) (hs' : Sound s') {tab' : Tab} (hmem : tab' ∈ s'.tabs)
    (hpicker : .picker picker ∈ tab'.page.leaves) : (∃ tab ∈ s.tabs, .picker picker ∈ tab.page.leaves) ∨ s.next ≤ picker := by
  rcases h.page_of_picker hs hs' hmem hpicker with hmem | ⟨i, tab, q, htab, -, hpage, -, hlink⟩
  · exact .inl ⟨tab', hmem, hpicker⟩
  · have hold := List.mem_of_getElem? htab
    rcases hpage.picker (hs.pages tab hold) h.next hlink with hlink | ⟨_, _, rfl, _⟩ | ⟨_, _, _, _, _, _, hparent, _⟩
    · exact .inl ⟨tab, hold, mem_leaves_of_links hlink⟩
    · exact .inr (Nat.le_refl _)
    · exact .inl ⟨tab, hold, mem_of_parentSplitter hparent⟩

/-- A picker is left alone only by the end of its splitter. -/
theorem Effect.tied (h : Effect s e s') (hs : Sound s) (hs' : Sound s') (htied : Tied s.pages s.next s.captured) :
    Tied s'.pages s'.next s'.captured := by
  have hgone : ∀ {p : Nat}, p + 1 < s.next → (∀ page ∈ s.pages, p + 1 ∉ page.numbers) → ∀ page ∈ s'.pages, p + 1 ∉ page.numbers := by
    rintro p hlt hdead page ⟨tab', hmem, rfl⟩ hn
    rcases h.numbers hs hmem hn with ⟨tab, hold, hn⟩ | hn
    · exact hdead tab.page ⟨tab, hold, rfl⟩ hn
    · omega
  rintro page ⟨tab', hmem, rfl⟩ p hpicker
  rcases h.page_of_picker hs hs' hmem hpicker with hold | ⟨i, tab, q, htab, htabs, hpage, hparent', hlink⟩
  · obtain ⟨hlt, hcaptured, hparent⟩ := htied tab'.page ⟨tab', hold, rfl⟩ p hpicker
    refine ⟨Nat.lt_of_lt_of_le hlt h.next, ?_, hparent.imp_right (hgone hlt)⟩
    rw [h.captured p (by omega), hcaptured]
  · have hold := List.mem_of_getElem? htab
    have hmade := hs.pages tab hold
    rcases hpage.picker hmade h.next hlink with hlink | ⟨existing, o, rfl, hq, hnext, hcaptured, -⟩ | ⟨a, r, -, -, -, -, hparent, hr⟩
    · obtain ⟨hlt, hcaptured, hparent⟩ := htied tab.page ⟨tab, hold, rfl⟩ p (mem_leaves_of_links hlink)
      refine ⟨Nat.lt_of_lt_of_le hlt h.next, ?_, ?_⟩
      · rw [h.captured p (by omega), hcaptured]
      · rcases hparent with ⟨r, hparent, hr⟩ | hdead
        · rw [(parentSplitter_iff hmade.leaves_nodup).mpr hlink, Option.some.injEq] at hparent
          exact .inl ⟨q, hparent', hparent ▸ hr⟩
        · exact .inr (hgone hlt hdead)
    · refine ⟨by omega, by rw [hcaptured], .inl ⟨q, hparent', ?_⟩⟩
      rw [Option.some.inj hq]
    · obtain ⟨hlt, hcaptured, hkept⟩ := htied tab.page ⟨tab, hold, rfl⟩ p (mem_of_parentSplitter hparent)
      refine ⟨Nat.lt_of_lt_of_le hlt h.next, by rw [h.captured p (by omega), hcaptured], .inr ?_⟩
      rcases hkept with ⟨q', hparent', hq'⟩ | hdead
      · rw [hparent, Option.some.injEq] at hparent'
        subst hparent'
        rintro page ⟨tab'', hmem'', rfl⟩ hn
        have hreworks : Reworks s { s with tabs := s'.tabs } i tab'.page := ⟨htabs, fun h => h⟩
        rcases hreworks.mem htab hmem'' with ⟨j, hne, hj⟩ | rfl
        · exact hs.toDistinct.apart_of_ne htab hj hne (number_of_splitter (splitter_of_parentSplitter hparent)) (hq' ▸ hn)
        · exact hr (hq' ▸ hn)
      · exact hgone hlt hdead

end Windows

end LvdTerm.App.Panes
