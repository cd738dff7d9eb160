import Mathlib.Data.List.Nodup
import LvdTerm.Core.ShortcutManager

/-!
# ShortcutManager: who has which key

What each operation does to the key of every command, and `Free`: no two commands of one scope, built-in or custom, have the same key.
-/
namespace LvdTerm.Core.ShortcutManager

/-! ## The built-in table -/

theorem mem_table_of_command {id : CommandId} {c : ShortcutCommand} (h : command (.command id) = some c) : c ∈ table ∧ c.id = id := by
  have hfound : table.find? (·.id = id) = some c := h
  exact ⟨List.mem_of_find?_eq_some hfound, by simpa using List.find?_some hfound⟩

theorem command_isSome (id : CommandId) : ∃ c, command (.command id) = some c := by
  cases id <;> exact ⟨_, rfl⟩

/-- The defaults are free of conflicts. -/
theorem table_free : ∀ c ∈ table, ∀ c' ∈ table, c.id ≠ c'.id → c.scope = c'.scope → c.defaultSequence ≠ [] →
    c.defaultSequence ≠ c'.defaultSequence := by
  decide

theorem firstChord_default : ∀ c ∈ table, firstChord c.defaultSequence = c.defaultSequence := by decide

theorem default_unique {id id' : CommandId} (hne : id ≠ id') (hscope : scopeOf (.command id) = scopeOf (.command id'))
    (hbound : defaultSequence id ≠ []) : defaultSequence id ≠ defaultSequence id' := by
  obtain ⟨c, hc⟩ := command_isSome id
  obtain ⟨c', hc'⟩ := command_isSome id'
  obtain ⟨hmem, rfl⟩ := mem_table_of_command hc
  obtain ⟨hmem', rfl⟩ := mem_table_of_command hc'
  simp only [scopeOf, defaultSequence, hc, hc', Option.map_some, Option.getD_some] at hscope hbound ⊢
  exact table_free c hmem c' hmem' hne hscope hbound

/-! ## Keys after each operation -/

/-- There is a command or custom shortcut with the id. -/
def Registered (s : ShortcutManager) : ShortcutId → Prop
  | .command _ => True
  | .custom uuid => uuid ∈ s.customShortcuts.map (·.uuid)

/-- What is used of the custom shortcuts: their ids and keys. -/
def customKeys (s : ShortcutManager) : List (QUuid × QKeySequence) := s.customShortcuts.map fun c => (c.uuid, c.sequence)

theorem uuids_eq (s : ShortcutManager) : s.customShortcuts.map (·.uuid) = s.customKeys.map Prod.fst := by
  simp [customKeys, Function.comp_def]

theorem sequence_custom (s : ShortcutManager) (uuid : QUuid) :
    s.sequence (.custom uuid) = ((s.customKeys.find? (·.1 = uuid)).map Prod.snd).getD [] := by
  rw [customKeys, List.find?_map, Option.map_map]
  rfl

variable {s s' : ShortcutManager}

theorem sequence_congr (hoverrides : s'.overrides = s.overrides) (hkeys : s'.customKeys = s.customKeys) (x : ShortcutId) :
    s'.sequence x = s.sequence x := by
  cases x with
  | command id => simp only [sequence, hoverrides]
  | custom uuid => rw [sequence_custom, sequence_custom, hkeys]

theorem registered_congr (hkeys : s'.customKeys = s.customKeys) (x : ShortcutId) : s'.Registered x ↔ s.Registered x := by
  cases x with
  | command id => exact Iff.rfl
  | custom uuid => rw [Registered, Registered, uuids_eq, uuids_eq, hkeys]

@[simp] theorem uuids_setSequence (id : ShortcutId) (q : QKeySequence) (s : ShortcutManager) :
    (s.setSequence id q).customShortcuts.map (·.uuid) = s.customShortcuts.map (·.uuid) := by
  cases id with
  | command name =>
    simp only [setSequence]
    split
    · rfl
    · split <;> rfl
  | custom uuid =>
    simp only [setSequence, List.map_map]
    refine List.map_congr_left fun c _ => ?_
    dsimp only [Function.comp_apply]
    split <;> rfl

theorem registered_setSequence (id : ShortcutId) (q : QKeySequence) (x : ShortcutId) : (s.setSequence id q).Registered x ↔ s.Registered x := by
  cases x with
  | command name => exact Iff.rfl
  | custom uuid => rw [Registered, Registered, uuids_setSequence]

theorem sequence_setSequence_self {id : ShortcutId} (h : s.Registered id) (q : QKeySequence) :
    (s.setSequence id q).sequence id = firstChord q := by
  cases id with
  | command name =>
    simp only [setSequence]
    split
    next hsame => exact hsame
    · split
      next hdefault => simp [sequence, hdefault]
      · simp [sequence]
  | custom uuid =>
    obtain ⟨c, hc, huuid⟩ := List.mem_map.mp h
    obtain ⟨found, hfound⟩ := Option.isSome_iff_exists.mp (List.find?_isSome.mpr ⟨c, hc, by simpa using huuid⟩ :
      (s.customShortcuts.find? (·.uuid = uuid)).isSome = true)
    have hid : found.uuid = uuid := by simpa using List.find?_some hfound
    have hsame : ((fun c : CustomShortcut => decide (c.uuid = uuid)) ∘ fun c : CustomShortcut =>
        if c.uuid = uuid ∧ c.sequence ≠ firstChord q then { c with sequence := firstChord q } else c) = fun c => decide (c.uuid = uuid) := by
      funext c
      dsimp only [Function.comp_apply]
      split <;> rfl
    simp only [sequence, setSequence, List.find?_map, hsame, hfound, Option.map_some, Option.getD_some, hid, true_and]
    split
    · rfl
    next hseq => simpa using hseq

theorem sequence_setSequence_ne {id x : ShortcutId} (h : x ≠ id) (q : QKeySequence) : (s.setSequence id q).sequence x = s.sequence x := by
  cases id with
  | command name =>
    simp only [setSequence]
    split
    · rfl
    · cases x with
      | custom uuid => split <;> rfl
      | command name' =>
        have hne : name' ≠ name := fun hname => h (congrArg _ hname)
        split <;> simp [sequence, hne]
  | custom uuid =>
    cases x with
    | command name => rfl
    | custom uuid' =>
      have hne : uuid' ≠ uuid := fun huuid => h (congrArg _ huuid)
      simp only [sequence, setSequence, List.find?_map]
      have hsame : ((fun c : CustomShortcut => decide (c.uuid = uuid')) ∘ fun c : CustomShortcut =>
          if c.uuid = uuid ∧ c.sequence ≠ firstChord q then { c with sequence := firstChord q } else c) = fun c => decide (c.uuid = uuid') := by
        funext c
        dsimp only [Function.comp_apply]
        split <;> rfl
      rw [hsame]
      cases hfound : s.customShortcuts.find? (fun c => decide (c.uuid = uuid')) with
      | none => rfl
      | some c =>
        have hid : c.uuid = uuid' := by simpa using List.find?_some hfound
        simp [hid, hne]

/-! ## Conflicts -/

/-- Two commands of one scope never have the same key; ids are given once, and a custom shortcut has one chord at most. -/
structure Free (s : ShortcutManager) : Prop where
  distinct : (s.customShortcuts.map (·.uuid)).Nodup
  single : ∀ c ∈ s.customShortcuts, firstChord c.sequence = c.sequence
  unique : ∀ x y, s.Registered x → s.Registered y → x ≠ y → scopeOf x = scopeOf y → s.sequence x ≠ [] → s.sequence x ≠ s.sequence y

theorem sequence_of_mem (h : (s.customShortcuts.map (·.uuid)).Nodup) {c : CustomShortcut} (hc : c ∈ s.customShortcuts) :
    s.sequence c.id = c.sequence := by
  obtain ⟨found, hfound⟩ := Option.isSome_iff_exists.mp (List.find?_isSome.mpr ⟨c, hc, by simp⟩ :
    (s.customShortcuts.find? (·.uuid = c.uuid)).isSome = true)
  have hid : found.uuid = c.uuid := by simpa using List.find?_some hfound
  have hsame : found = c := List.inj_on_of_nodup_map h (List.mem_of_find?_eq_some hfound) hc hid
  simp only [CustomShortcut.id, sequence, hfound, hsame, Option.map_some, Option.getD_some]

theorem registered_of_mem {c : CustomShortcut} (hc : c ∈ s.customShortcuts) : s.Registered c.id := List.mem_map_of_mem hc

theorem conflictingCommand_some {id other : ShortcutId} {q : QKeySequence} (hdistinct : (s.customShortcuts.map (·.uuid)).Nodup)
    (h : s.conflictingCommand id q = some other) :
    s.Registered other ∧ other ≠ id ∧ scopeOf other = scopeOf id ∧ s.sequence other = q ∧ q ≠ [] := by
  unfold conflictingCommand at h
  split at h
  · cases h
  next hq =>
    split at h
    next c hc =>
      cases h
      have hfound := List.find?_some hc
      simp only [decide_eq_true_eq] at hfound
      obtain ⟨hne, hscope, hseq⟩ := hfound
      refine ⟨trivial, hne, ?_, hseq, hq⟩
      obtain ⟨c', hc'⟩ := command_isSome c.id
      obtain ⟨hmem', hid'⟩ := mem_table_of_command hc'
      have hsame : c' = c := List.inj_on_of_nodup_map (by decide : (table.map (·.id)).Nodup) hmem' (List.mem_of_find?_eq_some hc) hid'
      rw [scopeOf, hc', hsame]
      exact hscope
    · split at h
      next hmain =>
        obtain ⟨c, hc, rfl⟩ := Option.map_eq_some_iff.mp h
        have hmem := List.mem_of_find?_eq_some hc
        have hfound := List.find?_some hc
        simp only [decide_eq_true_eq] at hfound
        exact ⟨registered_of_mem hmem, hfound.1, hmain.symm, (sequence_of_mem hdistinct hmem).trans hfound.2, hq⟩
      · cases h

theorem conflictingCommand_none {id x : ShortcutId} {q : QKeySequence} (hdistinct : (s.customShortcuts.map (·.uuid)).Nodup)
    (h : s.conflictingCommand id q = none) (hq : q ≠ []) (hx : s.Registered x) (hne : x ≠ id) (hscope : scopeOf x = scopeOf id) :
    s.sequence x ≠ q := by
  intro hseq
  unfold conflictingCommand at h
  rw [if_neg hq] at h
  split at h
  · cases h
  next htable =>
    cases x with
    | command name =>
      obtain ⟨c, hc⟩ := command_isSome name
      obtain ⟨hmem, rfl⟩ := mem_table_of_command hc
      have hscope' : c.scope = scopeOf id := by
        rw [← hscope, scopeOf, hc]
        rfl
      have hnone := List.find?_eq_none.mp htable c hmem
      exact hnone (by simpa using ⟨hne, hscope', hseq⟩)
    | custom uuid =>
      have hmain : scopeOf id = .mainWindow := hscope.symm
      rw [if_pos hmain, Option.map_eq_none_iff] at h
      obtain ⟨c, hc, rfl⟩ := List.mem_map.mp hx
      have hnone := List.find?_eq_none.mp h c hc
      exact hnone (by simpa using ⟨hne, (sequence_of_mem hdistinct hc).symm.trans hseq⟩)

/-! ## Operations keep keys unique -/

theorem firstChord_firstChord (q : QKeySequence) : firstChord (firstChord q) = firstChord q := by simp [firstChord, List.take_take]

theorem single_setSequence (h : ∀ c ∈ s.customShortcuts, firstChord c.sequence = c.sequence) (id : ShortcutId) (q : QKeySequence) :
    ∀ c ∈ (s.setSequence id q).customShortcuts, firstChord c.sequence = c.sequence := by
  cases id with
  | command name =>
    simp only [setSequence]
    split
    · exact h
    · split <;> exact h
  | custom uuid =>
    intro c hc
    obtain ⟨c', hc', rfl⟩ := List.mem_map.mp hc
    split
    · exact firstChord_firstChord q
    · exact h c' hc'

/-- A key that nothing else of the scope has may be set. -/
theorem Free.setSequence (h : s.Free) {id : ShortcutId} {q : QKeySequence}
    (hunused : ∀ x, s.Registered x → x ≠ id → scopeOf x = scopeOf id → firstChord q ≠ [] → s.sequence x ≠ firstChord q) :
    (s.setSequence id q).Free := by
  refine ⟨by simpa using h.distinct, single_setSequence h.single id q, fun x y hx hy hne hscope hbound => ?_⟩
  rw [registered_setSequence] at hx hy
  by_cases hxid : x = id
  · subst hxid
    rw [sequence_setSequence_self hx] at hbound ⊢
    rw [sequence_setSequence_ne (Ne.symm hne)]
    exact Ne.symm (hunused y hy (Ne.symm hne) hscope.symm hbound)
  · rw [sequence_setSequence_ne hxid] at hbound ⊢
    by_cases hyid : y = id
    · subst hyid
      rw [sequence_setSequence_self hy]
      intro hsame
      exact hunused x hx hxid hscope (hsame ▸ hbound) hsame
    · rw [sequence_setSequence_ne hyid]
      exact h.unique x y hx hy hne hscope hbound

theorem Free.clear (h : s.Free) (id : ShortcutId) : (s.setSequence id []).Free :=
  h.setSequence fun _ _ _ _ hbound => absurd rfl hbound

theorem sequence_clear {id x : ShortcutId} (hx : s.Registered x) :
    (s.setSequence id []).sequence x = if x = id then [] else s.sequence x := by
  by_cases hxid : x = id
  · subst hxid
    rw [sequence_setSequence_self hx, if_pos rfl]
    rfl
  · rw [sequence_setSequence_ne hxid, if_neg hxid]

theorem Free.congr (h : s.Free) (hoverrides : s'.overrides = s.overrides) (hkeys : s'.customKeys = s.customKeys) : s'.Free := by
  refine ⟨by rw [uuids_eq, hkeys, ← uuids_eq]; exact h.distinct, fun c hc => ?_, fun x y hx hy => ?_⟩
  · have hmem : (c.uuid, c.sequence) ∈ s.customKeys := hkeys ▸ List.mem_map_of_mem hc
    obtain ⟨c', hc', hsame⟩ := List.mem_map.mp hmem
    rw [Prod.mk.injEq] at hsame
    rw [← hsame.2]
    exact h.single c' hc'
  · rw [registered_congr hkeys] at hx hy
    rw [sequence_congr hoverrides hkeys, sequence_congr hoverrides hkeys]
    exact h.unique x y hx hy

theorem sequence_addCustom {c : CustomShortcut} (hfresh : ¬ s.Registered c.id) (x : ShortcutId) :
    (s.addCustom c).sequence x = if x = c.id then firstChord c.sequence else s.sequence x := by
  cases x with
  | command name => simp [addCustom, sequence, CustomShortcut.id]
  | custom uuid =>
    have hnone (hsame : uuid = c.uuid) : s.customShortcuts.find? (fun c' => decide (c'.uuid = uuid)) = none := by
      refine List.find?_eq_none.mpr fun c' hc' => ?_
      have hne : c'.uuid ≠ uuid := by
        intro h
        have hmem : c'.uuid ∈ s.customShortcuts.map (·.uuid) := List.mem_map_of_mem hc'
        rw [h, hsame] at hmem
        exact hfresh hmem
      simpa using hne
    by_cases hsame : uuid = c.uuid
    · simp [addCustom, sequence, CustomShortcut.id, hsame, List.find?_append, hsame ▸ hnone hsame]
    · cases hfound : s.customShortcuts.find? (fun c' => decide (c'.uuid = uuid)) <;>
        simp [addCustom, sequence, CustomShortcut.id, List.find?_append, hfound, hsame, Ne.symm hsame]

theorem registered_addCustom (c : CustomShortcut) (x : ShortcutId) : (s.addCustom c).Registered x ↔ s.Registered x ∨ x = c.id := by
  cases x with
  | command name => simp [Registered]
  | custom uuid => simp [Registered, addCustom, CustomShortcut.id]

/-- A new custom shortcut that has no key yet. -/
theorem Free.addCustom (h : s.Free) {c : CustomShortcut} (hfresh : ¬ s.Registered c.id) (hseq : c.sequence = []) :
    (s.addCustom c).Free := by
  refine ⟨?_, ?_, fun x y hx hy hne hscope hbound => ?_⟩
  · have hnot : c.uuid ∉ s.customShortcuts.map (·.uuid) := hfresh
    simp only [ShortcutManager.addCustom, List.map_append, List.map_cons, List.map_nil]
    exact h.distinct.append (List.nodup_singleton _) (by simpa using hnot)
  · intro c' hc'
    rcases List.mem_append.mp hc' with hc' | hc'
    · exact h.single c' hc'
    · rw [List.mem_singleton.mp hc']
      exact firstChord_firstChord c.sequence
  · rw [registered_addCustom] at hx hy
    have hx' : x ≠ c.id := by
      rintro rfl
      rw [sequence_addCustom hfresh, if_pos rfl, hseq] at hbound
      exact hbound rfl
    rw [sequence_addCustom hfresh, if_neg hx'] at hbound ⊢
    rw [sequence_addCustom hfresh]
    split
    · rw [hseq]
      exact hbound
    next hy' => exact h.unique x y (hx.resolve_right hx') (hy.resolve_right hy') hne hscope hbound

theorem customKeys_removeCustom (uuid : QUuid) : (s.removeCustom uuid).customKeys = s.customKeys.eraseP (·.1 = uuid) := by
  simp only [customKeys, removeCustom]
  induction s.customShortcuts with
  | nil => rfl
  | cons c rest ih =>
    by_cases hc : c.uuid = uuid
    · simp [hc]
    · simp [hc, ih]

/-- An id that is there once is gone once it was erased. -/
theorem notMem_eraseP {uuid : QUuid} {keys : List (QUuid × QKeySequence)} (h : (keys.map Prod.fst).Nodup) :
    uuid ∉ (keys.eraseP (·.1 = uuid)).map Prod.fst := by
  induction keys with
  | nil => simp
  | cons k rest ih =>
    rw [List.map_cons, List.nodup_cons] at h
    by_cases hk : k.1 = uuid
    · rw [List.eraseP_cons_of_pos (by simpa using hk)]
      exact hk ▸ h.1
    · rw [List.eraseP_cons_of_neg (by simpa using hk), List.map_cons, List.mem_cons, not_or]
      exact ⟨Ne.symm hk, ih h.2⟩

theorem sequence_removeCustom {uuid : QUuid} {x : ShortcutId} (h : x ≠ .custom uuid) : (s.removeCustom uuid).sequence x = s.sequence x := by
  cases x with
  | command name => rfl
  | custom uuid' =>
    have hne : uuid' ≠ uuid := fun huuid => h (congrArg _ huuid)
    rw [sequence_custom, sequence_custom, customKeys_removeCustom]
    induction s.customKeys with
    | nil => rfl
    | cons k rest ih =>
      by_cases hk : k.1 = uuid
      · simp [hk, Ne.symm hne]
      · by_cases hk' : k.1 = uuid'
        · simp [hk', hne]
        · simpa [List.eraseP_cons, List.find?_cons, hk, hk'] using ih

theorem Free.removeCustom (h : s.Free) (uuid : QUuid) : (s.removeCustom uuid).Free := by
  have hsub : (s.removeCustom uuid).customShortcuts.Sublist s.customShortcuts := List.eraseP_sublist
  have hdistinct : ((s.removeCustom uuid).customShortcuts.map (·.uuid)).Nodup := h.distinct.sublist (hsub.map _)
  have hother {x : ShortcutId} (hx : (s.removeCustom uuid).Registered x) : s.Registered x ∧ x ≠ .custom uuid := by
    cases x with
    | command name => exact ⟨trivial, nofun⟩
    | custom uuid' =>
      refine ⟨(hsub.map _).subset hx, fun hsame => ?_⟩
      rw [ShortcutId.custom.injEq] at hsame
      rw [Registered, uuids_eq, customKeys_removeCustom, hsame] at hx
      exact notMem_eraseP (uuids_eq s ▸ h.distinct) hx
  refine ⟨hdistinct, fun c hc => h.single c (hsub.subset hc), fun x y hx hy hne hscope hbound => ?_⟩
  rw [sequence_removeCustom (hother hx).2] at hbound ⊢
  rw [sequence_removeCustom (hother hy).2]
  exact h.unique x y (hother hx).1 (hother hy).1 hne hscope hbound

theorem customKeys_updateFirst {customs : List CustomShortcut} {before shortcut : CustomShortcut}
    (hfound : customs.find? (·.uuid = shortcut.uuid) = some before) (hkey : firstChord shortcut.sequence = before.sequence) :
    (updateFirst shortcut customs).map (fun c => (c.uuid, c.sequence)) = customs.map fun c => (c.uuid, c.sequence) := by
  induction customs with
  | nil => rfl
  | cons c rest ih =>
    by_cases hc : c.uuid = shortcut.uuid
    · rw [List.find?_cons_of_pos (by simpa using hc), Option.some.injEq] at hfound
      subst hfound
      simp [updateFirst, hc, hkey]
    · rw [List.find?_cons_of_neg (by simpa using hc)] at hfound
      simp [updateFirst, hc, ih hfound]

/-- A custom shortcut that keeps its id and key. -/
theorem customKeys_updateCustom {before shortcut : CustomShortcut}
    (hfound : s.customShortcuts.find? (·.uuid = shortcut.uuid) = some before) (hkey : firstChord shortcut.sequence = before.sequence) :
    (s.updateCustom shortcut).customKeys = s.customKeys := customKeys_updateFirst hfound hkey

end LvdTerm.Core.ShortcutManager
