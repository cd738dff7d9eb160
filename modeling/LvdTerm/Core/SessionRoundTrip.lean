import LvdTerm.Core.ProfileRoundTrip
import LvdTerm.Core.SessionStore
import Mathlib.Data.List.Basic

/-!
# SessionStore: what is read is what was written

A profile comes back with the settings that its type selects, as long as the secrets can be sealed and opened with one key, and
a pane tree comes back without its empty splitters.
-/
namespace LvdTerm.Core

open Lib

/-! ## Pane trees -/

mutual

/-- What is read back of a tree: a splitter with nothing in it is not. -/
def SessionNode.survivor : SessionNode → Option SessionNode
  | .leaf none => none
  | .leaf (some p) => some (.leaf (some p.selected))
  | .splitter orientation sizes children =>
    if survivors children = [] then none else some (.splitter orientation sizes (survivors children))

def survivors : List SessionNode → List SessionNode
  | [] => []
  | node :: nodes => node.survivor.toList ++ survivors nodes

end

mutual

def SessionNode.Proper (pl : Platform) : SessionNode → Prop
  | .leaf connection => ∀ p, connection = some p → p.Proper pl
  | .splitter _ sizes children => (∀ size ∈ sizes, FitsInt size) ∧ ProperNodes pl children

def ProperNodes (pl : Platform) : List SessionNode → Prop
  | [] => True
  | node :: nodes => node.Proper pl ∧ ProperNodes pl nodes

end

theorem sizes_toInt {sizes : List Int} (h : ∀ size ∈ sizes, FitsInt size) :
    (sizes.map fun size => QJsonValue.number size).map (fun v => v.toInt 0) = sizes := by
  induction sizes with
  | nil => rfl
  | cons size sizes ih =>
    have hsize := toInt_number (h size List.mem_cons_self) 0
    have hsizes := ih fun n hn => h n (List.mem_cons_of_mem size hn)
    simpa [hsize] using hsizes

theorem orientation_read (orientation : Orientation) :
    (if orientationToString orientation = "vertical".toList then Orientation.vertical else .horizontal) = orientation := by
  cases orientation <;> rfl

variable {pl : Platform} {key : QByteArray}

mutual

theorem nodeFromJson_toJson (hpl : pl.Seals key) : ∀ (node : SessionNode) (c : StoreCalls) (opening : StoreCalls), node.Proper pl → Unlocked key c →
    Unlocked key opening → ∃ opening', nodeFromJson pl opening (nodeToJson pl c node).1 = (node.survivor, opening') ∧
      Unlocked key opening' ∧ Unlocked key (nodeToJson pl c node).2
  | .leaf none, c, opening, _, hc, hopening => by
    refine ⟨opening, ?_, hopening, hc⟩
    rw [nodeToJson, nodeFromJson]
    simp [QJsonObject.value, List.lookup_cons, QJsonValue.toString, SessionNode.survivor]
  | .leaf (some p), c, opening, hp, hc, hopening => by
    refine ⟨opening.next, ?_, hopening.next, hc.next⟩
    rw [nodeToJson, nodeFromJson]
    simp [QJsonObject.value, List.lookup_cons, QJsonValue.toString, QJsonValue.toObject, SessionNode.survivor,
      fromJson_toJson hpl (hc 0) (fun slot => (hopening 0 slot).1) _ (hp p rfl)]
  | .splitter orientation sizes children, c, opening, hp, hc, hopening => by
    obtain ⟨opening', hread, hopening', hc'⟩ := nodesFromJson_toJson hpl children c opening hp.2 hc hopening
    refine ⟨opening', ?_, hopening', ?_⟩
    · rw [nodeToJson, nodeFromJson]
      simp only [QJsonObject.value, List.lookup_cons, QJsonValue.toString, beq_self_eq_true, Option.getD_some, String.reduceBEq,
        QJsonValue.toArray, if_true, orientation_read, sizes_toInt hp.1, hread, SessionNode.survivor]
      split <;> rfl
    · simpa [nodeToJson] using hc'

theorem nodesFromJson_toJson (hpl : pl.Seals key) : ∀ (nodes : List SessionNode) (c : StoreCalls) (opening : StoreCalls), ProperNodes pl nodes →
    Unlocked key c → Unlocked key opening → ∃ opening', nodesFromJson pl opening (nodesToJson pl c nodes).1 =
      (survivors nodes, opening') ∧ Unlocked key opening' ∧ Unlocked key (nodesToJson pl c nodes).2
  | [], c, opening, _, hc, hopening => by
    refine ⟨opening, ?_, hopening, by simpa [nodesToJson] using hc⟩
    rw [nodesToJson, nodesFromJson, survivors]
  | node :: nodes, c, opening, hp, hc, hopening => by
    obtain ⟨opening', hnode, hopening', hc'⟩ := nodeFromJson_toJson hpl node c opening hp.1 hc hopening
    obtain ⟨opening'', hnodes, hopening'', hc''⟩ := nodesFromJson_toJson hpl nodes _ opening' hp.2 hc' hopening'
    refine ⟨opening'', ?_, hopening'', by simpa [nodesToJson] using hc''⟩
    simp only [nodesToJson, nodesFromJson, hnode, hnodes, survivors]

end

/-! ## The document -/

def survivingTabs (tabs : List SessionTab) : List SessionTab :=
  tabs.filterMap fun tab => tab.root.survivor.map fun root => ⟨tab.title, root⟩

theorem tabsFromJson_toJson (hpl : pl.Seals key) {tabs : List SessionTab} {c opening : StoreCalls}
    (htabs : ∀ tab ∈ tabs, tab.root.Proper pl) (hc : Unlocked key c) (hopening : Unlocked key opening) :
    tabsFromJson pl opening (tabsToJson pl c tabs) = survivingTabs tabs := by
  induction tabs generalizing c opening with
  | nil => rfl
  | cons tab tabs ih =>
    obtain ⟨opening', hroot, hopening', hc'⟩ := nodeFromJson_toJson hpl tab.root c opening (htabs tab List.mem_cons_self) hc hopening
    have hrest := ih (fun t ht => htabs t (List.mem_cons_of_mem tab ht)) hc' hopening'
    cases hsurvivor : tab.root.survivor <;>
      simp [tabsToJson, tabsFromJson, QJsonObject.value, List.lookup_cons, QJsonValue.toString, QJsonValue.toObject, hroot, hrest,
        survivingTabs, hsurvivor]

theorem load_save (hpl : pl.Seals key) {state : SessionState} {c opening : StoreCalls}
    (htabs : ∀ tab ∈ state.tabs, tab.root.Proper pl) (hindex : FitsInt state.currentTabIndex) (hc : Unlocked key c)
    (hopening : Unlocked key opening) :
    (SessionState.load pl opening (some (.object (state.save pl c)))).tabs = survivingTabs state.tabs ∧
      (SessionState.load pl opening (some (.object (state.save pl c)))).currentTabIndex = state.currentTabIndex := by
  simp [SessionState.load, SessionState.save, QJsonObject.value, List.lookup_cons, QJsonValue.toArray, tabsFromJson_toJson hpl htabs hc hopening,
    toInt_number hindex]

/-! ## What survives -/

mutual

def SessionNode.selected : SessionNode → SessionNode
  | .leaf connection => .leaf (connection.map (·.selected))
  | .splitter orientation sizes children => .splitter orientation sizes (selectedNodes children)

def selectedNodes : List SessionNode → List SessionNode
  | [] => []
  | node :: nodes => node.selected :: selectedNodes nodes

end

mutual

/-- Every leaf has a connection, and no splitter is empty. -/
def SessionNode.Full : SessionNode → Prop
  | .leaf connection => connection ≠ none
  | .splitter _ _ children => children ≠ [] ∧ FullNodes children

def FullNodes : List SessionNode → Prop
  | [] => True
  | node :: nodes => node.Full ∧ FullNodes nodes

end

theorem length_survivors_le (nodes : List SessionNode) : (survivors nodes).length ≤ nodes.length := by
  induction nodes with
  | nil => simp [survivors]
  | cons node nodes ih =>
    cases h : node.survivor <;> simp [survivors, h]
    · omega
    · exact ih

theorem survivors_eq_nil_of_full {nodes : List SessionNode} (hne : nodes ≠ []) (h : survivors nodes = selectedNodes nodes) :
    survivors nodes ≠ [] := by
  rw [h]
  cases nodes with
  | nil => exact absurd rfl hne
  | cons node nodes => simp [selectedNodes]

@[simp] theorem length_selectedNodes (nodes : List SessionNode) : (selectedNodes nodes).length = nodes.length := by
  induction nodes with
  | nil => rfl
  | cons node nodes ih => simp [selectedNodes, ih]

mutual

/-- A tree is read back as it was if and only if it is full. -/
theorem survivor_eq_selected_iff : ∀ node : SessionNode, node.survivor = some node.selected ↔ node.Full
  | .leaf none => by simp [SessionNode.survivor, SessionNode.Full]
  | .leaf (some p) => by simp [SessionNode.survivor, SessionNode.selected, SessionNode.Full]
  | .splitter orientation sizes children => by
    have hchildren := survivors_eq_selected_iff children
    rw [SessionNode.survivor, SessionNode.selected, SessionNode.Full]
    constructor
    · intro h
      split at h
      · cases h
      next hne =>
        simp only [Option.some.injEq, SessionNode.splitter.injEq, true_and] at h
        refine ⟨fun hnil => hne ?_, hchildren.mp h⟩
        rw [hnil, survivors]
    · rintro ⟨hne, hfull⟩
      have hsame := hchildren.mpr hfull
      rw [if_neg (survivors_eq_nil_of_full hne hsame), hsame]

theorem survivors_eq_selected_iff : ∀ nodes : List SessionNode, survivors nodes = selectedNodes nodes ↔ FullNodes nodes
  | [] => by simp [survivors, selectedNodes, FullNodes]
  | node :: nodes => by
    have hnode := survivor_eq_selected_iff node
    have hnodes := survivors_eq_selected_iff nodes
    rw [survivors, selectedNodes, FullNodes, ← hnode, ← hnodes]
    cases hsurvivor : node.survivor with
    | none =>
      have hshort := length_survivors_le nodes
      constructor
      · intro h
        have hlength := congrArg List.length h
        simp at hlength
        omega
      · simp
    | some survivor => simp

end

mutual

theorem survivor_full : ∀ {node survivor : SessionNode}, node.survivor = some survivor → survivor.Full
  | .leaf none, _, h => by simp [SessionNode.survivor] at h
  | .leaf (some p), _, h => by
    simp only [SessionNode.survivor, Option.some.injEq] at h
    simp [← h, SessionNode.Full]
  | .splitter orientation sizes children, _, h => by
    rw [SessionNode.survivor] at h
    split at h
    · cases h
    next hne =>
      cases h
      exact ⟨hne, survivors_full children⟩

theorem survivors_full : ∀ nodes : List SessionNode, FullNodes (survivors nodes)
  | [] => trivial
  | node :: nodes => by
    have hnodes := survivors_full nodes
    cases h : node.survivor with
    | none => simpa [survivors, h] using hnodes
    | some survivor => simpa [survivors, h, FullNodes, hnodes] using survivor_full h

end

mutual

theorem survivor_selected : ∀ {node survivor : SessionNode}, node.survivor = some survivor → survivor.selected = survivor
  | .leaf none, _, h => by simp [SessionNode.survivor] at h
  | .leaf (some p), _, h => by
    simp only [SessionNode.survivor, Option.some.injEq] at h
    simp [← h, SessionNode.selected]
  | .splitter orientation sizes children, _, h => by
    rw [SessionNode.survivor] at h
    split at h
    · cases h
    · cases h
      rw [SessionNode.selected, survivors_selected children]

theorem survivors_selected : ∀ nodes : List SessionNode, selectedNodes (survivors nodes) = survivors nodes
  | [] => rfl
  | node :: nodes => by
    have hnodes := survivors_selected nodes
    cases h : node.survivor with
    | none => simpa [survivors, h] using hnodes
    | some survivor => simpa [survivors, h, selectedNodes, hnodes] using survivor_selected h

end

def SessionTab.selected (tab : SessionTab) : SessionTab := ⟨tab.title, tab.root.selected⟩

theorem survivingTabs_selected (tabs : List SessionTab) : (survivingTabs tabs).map (·.selected) = survivingTabs tabs := by
  conv => rhs; rw [← List.map_id (survivingTabs tabs)]
  apply List.map_congr_left
  intro tab htab
  obtain ⟨saved, -, hsaved⟩ := List.mem_filterMap.mp htab
  obtain ⟨root, hroot, rfl⟩ := Option.map_eq_some_iff.mp hsaved
  simp [SessionTab.selected, survivor_selected hroot]

/-- Every tab is read back if and only if all are full. -/
theorem survivingTabs_eq_iff (tabs : List SessionTab) :
    survivingTabs tabs = tabs.map (·.selected) ↔ ∀ tab ∈ tabs, tab.root.Full := by
  rw [survivingTabs, List.filterMap_eq_map_iff_forall_eq_some]
  apply forall₂_congr
  intro tab _
  rw [← survivor_eq_selected_iff]
  cases tab.root.survivor <;> simp [SessionTab.selected]

theorem survivingTabs_full (tabs : List SessionTab) : ∀ tab ∈ survivingTabs tabs, tab.root.Full := by
  intro tab htab
  obtain ⟨saved, -, hsaved⟩ := List.mem_filterMap.mp htab
  obtain ⟨root, hroot, rfl⟩ := Option.map_eq_some_iff.mp hsaved
  exact survivor_full hroot

end LvdTerm.Core
