import Mathlib.Data.List.InsertIdx
import Mathlib.Data.List.Nodup

/-!
# Association lists

Lists of keys and values under `List.lookup`, where taking a key out filters it away.
-/
namespace LvdTerm.Lib.Association

variable {κ α : Type} [BEq κ] [LawfulBEq κ] {key other : κ} {value : α} {l : List (κ × α)}

theorem mem_of_lookup (h : l.lookup key = some value) : (key, value) ∈ l := by
  obtain ⟨before, after, rfl, -⟩ := List.lookup_eq_some_iff.mp h
  simp

/-- Under different keys every entry is found. -/
theorem lookup_of_mem (hkeys : (l.map Prod.fst).Nodup) (h : (key, value) ∈ l) : l.lookup key = some value := by
  cases hfound : l.lookup key with
  | none => exact absurd (List.lookup_eq_none_iff.mp hfound _ h) (by simp)
  | some found =>
    have hsame := List.inj_on_of_nodup_map hkeys (mem_of_lookup hfound) h rfl
    exact congrArg (fun e => some e.2) hsame

/-- An entry that is taken out by its place is gone. -/
theorem not_mem_eraseIdx (hkeys : (l.map Prod.fst).Nodup) {i : Nat} (hi : i < l.length) : l[i] ∉ l.eraseIdx i := by
  intro hmem
  have hmap : (l.map Prod.fst).eraseIdx i = (l.eraseIdx i).map Prod.fst := List.eraseIdx_map Prod.fst l i
  have hkey : l[i].1 ∈ (l.map Prod.fst).eraseIdx i := hmap ▸ List.mem_map_of_mem hmem
  have herase := hkeys.erase_getElem i (by simpa using hi)
  rw [List.getElem_map] at herase
  rw [← herase] at hkey
  exact hkeys.not_mem_erase hkey

theorem lookup_filter_ne [DecidableEq κ] (h : other ≠ key) (l : List (κ × α)) : (l.filter (·.1 ≠ key)).lookup other = l.lookup other := by
  induction l with
  | nil => rfl
  | cons entry l ih =>
    rw [List.filter_cons]
    split
    · rw [List.lookup_cons, List.lookup_cons, ih]
    · next hentry =>
      have hkey : entry.1 = key := by simpa using hentry
      have hne : (other == entry.1) = false := by simpa [hkey] using h
      rw [ih, List.lookup_cons, hne]

theorem lookup_filter_self [DecidableEq κ] (key : κ) (l : List (κ × α)) : (l.filter (·.1 ≠ key)).lookup key = none :=
  List.lookup_eq_none_iff.mpr fun e he => by
    have hne : e.1 ≠ key := of_decide_eq_true (List.mem_filter.mp he).2
    simpa using hne.symm

/-- No entry is under a key that is not found. -/
theorem free_of_lookup (h : l.lookup key = none) : ∀ e ∈ l, e.1 ≠ key := by
  intro e he heq
  have hne := List.lookup_eq_none_iff.mp h e he
  simp [heq] at hne

theorem lookup_of_free (h : ∀ e ∈ l, e.1 ≠ key) : l.lookup key = none :=
  List.lookup_eq_none_iff.mpr fun e he => by simpa using (h e he).symm

/-- What is taken out and what stays are the list. -/
theorem perm_take [DecidableEq κ] (hkeys : (l.map Prod.fst).Nodup) (h : (key, value) ∈ l) :
    ((key, value) :: l.filter (·.1 ≠ key)).Perm l := by
  obtain ⟨before, after, rfl⟩ := List.append_of_mem h
  have hother : ∀ e ∈ before ++ after, e.1 ≠ key := by
    have hnodup := (List.perm_middle.map Prod.fst).nodup_iff.mp hkeys
    intro e he heq
    exact (List.nodup_cons.mp hnodup).1 (List.mem_map.mpr ⟨e, he, heq⟩)
  have hstays : (before ++ (key, value) :: after).filter (·.1 ≠ key) = before ++ after := by
    have hbefore : before.filter (·.1 ≠ key) = before :=
      List.filter_eq_self.mpr fun e he => decide_eq_true (hother e (List.mem_append_left _ he))
    have hafter : after.filter (·.1 ≠ key) = after :=
      List.filter_eq_self.mpr fun e he => decide_eq_true (hother e (List.mem_append_right _ he))
    rw [List.filter_append, hbefore, List.filter_cons, if_neg (by simp), hafter]
  rw [hstays]
  exact List.perm_middle.symm

end LvdTerm.Lib.Association
