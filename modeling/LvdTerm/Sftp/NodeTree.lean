import LvdTerm.Sftp.BrowserModel
import Mathlib.Data.List.Perm.Basic
import Mathlib.Data.List.Nodup

/-!
# The tree of SftpModel

What a change at one node does to all that the tree holds. With numbers that are all different, a tree is what is under
one node and a rest, and a change at that node leaves the rest (`modify_context`, `remove_context`).
-/
namespace LvdTerm.Sftp.SftpModel

namespace Node

/-- What the node and the nodes under it hold. -/
def infos (n : Node) : List NodeInfo := n.all.map info

theorem allOf_eq (ns : List Node) : allOf ns = ns.flatMap all := by
  induction ns with
  | nil => rfl
  | cons n ns ih => rw [allOf, ih, List.flatMap_cons]

theorem modifyOf_eq (number : Nat) (f : Node → Node) (ns : List Node) : modifyOf number f ns = ns.map (modify number f) := by
  induction ns with
  | nil => rfl
  | cons n ns ih => rw [modifyOf, ih, List.map_cons]

theorem all_mk (i : NodeInfo) (children : List Node) : (mk i children).all = mk i children :: children.flatMap all := by
  rw [all, allOf_eq]

theorem infos_mk (i : NodeInfo) (children : List Node) : (mk i children).infos = i :: children.flatMap infos := by
  rw [infos, all_mk, List.map_cons, List.map_flatMap]
  rfl

theorem modify_mk (number : Nat) (f : Node → Node) (i : NodeInfo) (children : List Node) :
    (mk i children).modify number f = if i.number = number then f (mk i children) else mk i (children.map (modify number f)) := by
  rw [modify, modifyOf_eq]

/-- A property of all nodes, from that of their children. -/
theorem inductionOn {P : Node → Prop} (h : ∀ i children, (∀ c ∈ children, P c) → P (mk i children)) : (n : Node) → P n
  | mk i children => h i children fun c _ => inductionOn h c

variable {number : Nat}

def numbers (n : Node) : List Nat := n.infos.map NodeInfo.number

theorem numbers_mk (i : NodeInfo) (children : List Node) : (mk i children).numbers = i.number :: children.flatMap numbers := by
  rw [numbers, infos_mk, List.map_cons, List.map_flatMap]
  rfl

theorem mem_numbers_self (n : Node) : n.info.number ∈ n.numbers := by
  obtain ⟨i, children⟩ := n
  rw [numbers_mk]
  exact List.mem_cons_self ..

theorem modify_of_notMem (f : Node → Node) (n : Node) (h : number ∉ n.numbers) : n.modify number f = n := by
  induction n using inductionOn with
  | h i children ih =>
    rw [numbers_mk, List.mem_cons, not_or] at h
    rw [modify_mk, if_neg (Ne.symm h.1)]
    refine congrArg (mk i) ((List.map_congr_left fun c hc => ih c hc fun hin => ?_).trans (List.map_id _))
    exact h.2 (List.mem_flatMap_of_mem hc hin)

theorem removeOf_of_notMem {ns : List Node} (ih : ∀ n ∈ ns, number ∉ n.numbers → n.remove number = n)
    (h : ∀ n ∈ ns, number ∉ n.numbers) : removeOf number ns = ns := by
  induction ns with
  | nil => rfl
  | cons n ns ihs =>
    have hn := h n (List.mem_cons_self ..)
    have hne : n.info.number ≠ number := fun heq => hn (heq ▸ mem_numbers_self n)
    rw [removeOf, if_neg hne, ih n (List.mem_cons_self ..) hn,
      ihs (fun m hm => ih m (List.mem_cons_of_mem _ hm)) fun m hm => h m (List.mem_cons_of_mem _ hm)]

theorem remove_of_notMem (n : Node) (h : number ∉ n.numbers) : n.remove number = n := by
  induction n using inductionOn with
  | h i children ih =>
    rw [numbers_mk, List.mem_cons, not_or] at h
    rw [remove, removeOf_of_notMem ih fun c hc hin => h.2 (List.mem_flatMap_of_mem hc hin)]

/-- A node is removed from its parent only. -/
theorem remove_self (n : Node) (hnodup : n.numbers.Nodup) : n.remove n.info.number = n := by
  obtain ⟨i, children⟩ := n
  rw [numbers_mk, List.nodup_cons] at hnodup
  have hchildren : removeOf i.number children = children :=
    removeOf_of_notMem (fun c _ => remove_of_notMem c) fun c hc hin => hnodup.1 (List.mem_flatMap_of_mem hc hin)
  exact congrArg (mk i) hchildren

/-- With different numbers at most one child has a number under it. -/
theorem exists_child {children : List Node} (hnodup : (children.flatMap numbers).Nodup) (h : number ∈ children.flatMap numbers) :
    ∃ before child after, children = before ++ child :: after ∧ number ∈ child.numbers ∧ child.numbers.Nodup ∧
      (∀ c ∈ before, number ∉ c.numbers) ∧ ∀ c ∈ after, number ∉ c.numbers := by
  obtain ⟨child, hchild, hin⟩ := List.mem_flatMap.mp h
  obtain ⟨before, after, rfl⟩ := List.append_of_mem hchild
  rw [List.flatMap_append, List.flatMap_cons] at hnodup
  have ⟨_, hrest, hbefore⟩ := List.nodup_append.mp hnodup
  have ⟨hown, _, hafter⟩ := List.nodup_append.mp hrest
  refine ⟨before, child, after, rfl, hin, hown, fun c hc hc' => ?_, fun c hc hc' => ?_⟩
  · exact hbefore _ (List.mem_flatMap_of_mem hc hc') _ (List.mem_append_left _ hin) rfl
  · exact hafter _ hin _ (List.mem_flatMap_of_mem hc hc') rfl

/-- What a node holds, with the part of one child put last. -/
theorem infos_place (i : NodeInfo) (before after : List Node) {c : Node} {rest part : List NodeInfo} (h : c.infos.Perm (rest ++ part)) :
    (mk i (before ++ c :: after)).infos.Perm ((i :: before.flatMap infos ++ after.flatMap infos ++ rest) ++ part) := by
  simp only [infos_mk, List.flatMap_append, List.flatMap_cons, List.cons_append, List.append_assoc]
  refine List.Perm.cons _ (List.Perm.append_left _ ?_)
  exact List.perm_append_comm.trans (List.Perm.append_left _ h)

/-- A tree is what is under the node with a number, and a rest that a change of that node leaves alone. -/
theorem modify_context (n : Node) (hnodup : n.numbers.Nodup) (h : number ∈ n.numbers) :
    ∃ t ∈ n.all, ∃ rest, t.info.number = number ∧ n.infos.Perm (rest ++ t.infos) ∧
      ∀ f : Node → Node, (n.modify number f).infos.Perm (rest ++ (f t).infos) := by
  induction n using inductionOn with
  | h i children ih =>
    rw [numbers_mk, List.nodup_cons] at hnodup
    by_cases hself : i.number = number
    · refine ⟨mk i children, by rw [all_mk]; exact List.mem_cons_self .., [], hself, .refl _, fun f => ?_⟩
      rw [modify_mk, if_pos hself]
      exact .refl _
    · have hbelow : number ∈ children.flatMap numbers := by
        rw [numbers_mk] at h
        exact (List.mem_cons.mp h).resolve_left (Ne.symm hself)
      obtain ⟨before, child, after, rfl, hin, hown, hbefore, hafter⟩ := exists_child hnodup.2 hbelow
      obtain ⟨t, ht, rest, hnumber, hinfos, hchanged⟩ := ih child (by simp) hown hin
      refine ⟨t, ?_, _, hnumber, infos_place i before after hinfos, fun f => ?_⟩
      · rw [all_mk]
        exact List.mem_cons_of_mem _ (List.mem_flatMap_of_mem (by simp) ht)
      · have hsame {ns : List Node} (hns : ∀ c ∈ ns, number ∉ c.numbers) : ns.map (modify number f) = ns :=
          (List.map_congr_left fun c hc => modify_of_notMem f c (hns c hc)).trans (List.map_id _)
        rw [modify_mk, if_neg hself, List.map_append, List.map_cons, hsame hbefore, hsame hafter]
        exact infos_place i before after (hchanged f)

theorem removeOf_append {before : List Node} (after : List Node) (h : ∀ c ∈ before, number ∉ c.numbers) :
    removeOf number (before ++ after) = before ++ removeOf number after := by
  induction before with
  | nil => rfl
  | cons n before ih =>
    have hn := h n (List.mem_cons_self ..)
    have hne : n.info.number ≠ number := fun heq => hn (heq ▸ mem_numbers_self n)
    rw [List.cons_append, removeOf, if_neg hne, remove_of_notMem n hn, ih fun c hc => h c (List.mem_cons_of_mem _ hc)]
    rfl

/-- A tree without one of its nodes is the rest. -/
theorem remove_context (n : Node) (hnodup : n.numbers.Nodup) (h : number ∈ n.numbers) (hroot : n.info.number ≠ number) :
    ∃ t ∈ n.all, ∃ rest, t.info.number = number ∧ n.infos.Perm (rest ++ t.infos) ∧ (n.remove number).infos.Perm rest := by
  induction n using inductionOn with
  | h i children ih =>
    rw [numbers_mk, List.nodup_cons] at hnodup
    have hbelow : number ∈ children.flatMap numbers := by
      rw [numbers_mk] at h
      exact (List.mem_cons.mp h).resolve_left (Ne.symm hroot)
    obtain ⟨before, child, after, rfl, hin, hown, hbefore, hafter⟩ := exists_child hnodup.2 hbelow
    have hremove : (mk i (before ++ child :: after)).remove number = mk i (before ++ removeOf number (child :: after)) := by
      rw [remove, removeOf_append _ hbefore]
    by_cases hchild : child.info.number = number
    · refine ⟨child, ?_, i :: before.flatMap infos ++ after.flatMap infos ++ [], hchild, ?_, ?_⟩
      · obtain ⟨j, grand⟩ := child
        have hself : mk j grand ∈ (mk j grand).all := by
          rw [all_mk]
          exact List.mem_cons_self ..
        rw [all_mk]
        exact List.mem_cons_of_mem _ (List.mem_flatMap_of_mem (by simp) hself)
      · exact infos_place i before after (.refl _)
      · rw [hremove, removeOf, if_pos hchild, infos_mk, List.flatMap_append, List.append_nil, List.cons_append]
    · obtain ⟨t, ht, rest, hnumber, hinfos, hremoved⟩ := ih child (by simp) hown hin hchild
      refine ⟨t, ?_, _, hnumber, infos_place i before after hinfos, ?_⟩
      · rw [all_mk]
        exact List.mem_cons_of_mem _ (List.mem_flatMap_of_mem (by simp) ht)
      · rw [hremove, removeOf, if_neg hchild, removeOf_of_notMem (fun n _ => remove_of_notMem n) hafter]
        have hpart : (child.remove number).infos.Perm (rest ++ []) := hremoved.trans (.of_eq (List.append_nil rest).symm)
        have hplaced := infos_place i before after hpart
        rwa [List.append_nil] at hplaced

/-- What is different for all of a list is enough to find one of them. -/
theorem find?_of_nodup_map {α β : Type} [DecidableEq β] {g : α → β} {l : List α} {a : α} (hnodup : (l.map g).Nodup) (ha : a ∈ l) :
    l.find? (fun b => g b = g a) = some a := by
  obtain ⟨before, after, rfl⟩ := List.append_of_mem ha
  rw [List.map_append, List.nodup_append] at hnodup
  have hbefore : before.find? (fun b => g b = g a) = none :=
    List.find?_eq_none.mpr fun b hb heq => hnodup.2.2 (g b) (List.mem_map_of_mem hb) (g a) (by simp) (by simpa using heq)
  rw [List.find?_append, hbefore]
  simp

/-- With different numbers a node is found by its own. -/
theorem find?_number {n t : Node} (hnodup : n.numbers.Nodup) (ht : t ∈ n.all) :
    n.all.find? (fun m => m.info.number = t.info.number) = some t := by
  rw [numbers, infos, List.map_map] at hnodup
  exact find?_of_nodup_map hnodup ht

end Node

end LvdTerm.Sftp.SftpModel
