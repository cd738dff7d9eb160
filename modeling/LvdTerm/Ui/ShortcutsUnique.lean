import LvdTerm.Core.ShortcutKeys
import LvdTerm.Ui.ShortcutsPage

/-!
# ShortcutsPage: no key is taken twice

Every operation of the page keeps the keys unique (`ShortcutManager.Free`), and one that the user backs out of leaves every key as it
was (`shortcuts_stay_free`).
-/
namespace LvdTerm.Ui.ShortcutsPage

open Core Core.ShortcutManager Lib.Runs

variable {s : ShortcutManager}

/-! ## Claiming a key -/

/-- The key is not acceptable, or the question whether to take it from its owner is not answered with Yes. -/
def Refused (id : ShortcutId) (sequence : QKeySequence) (yes : Bool) (s : ShortcutManager) : Prop :=
  isAcceptable sequence = false ∨ (s.conflictingCommand id sequence).isSome = true ∧ yes = false

theorem assign_refused {id : ShortcutId} {sequence : QKeySequence} {yes : Bool} (h : Refused id sequence yes s) :
    assign id sequence yes s = (s, false) := by
  unfold assign
  by_cases hacceptable : isAcceptable sequence = true
  · obtain ⟨hconflict, rfl⟩ := h.resolve_left (by simp [hacceptable])
    obtain ⟨other, hother⟩ := Option.isSome_iff_exists.mp hconflict
    simp [hacceptable, hother]
  · simp [hacceptable]

theorem assign_done {id : ShortcutId} {sequence : QKeySequence} {yes : Bool} (h : ¬ Refused id sequence yes s) :
    (assign id sequence yes s).2 = true := by
  unfold Refused at h
  unfold assign
  rw [not_or] at h
  rw [if_neg (by simpa using h.1)]
  split
  next other hother =>
    have hyes : yes = true := by simpa [hother] using h.2
    simp [hyes]
  · rfl

theorem free_assign (h : s.Free) {id : ShortcutId} {sequence : QKeySequence} (hchord : firstChord sequence = sequence) (yes : Bool) :
    (assign id sequence yes s).1.Free := by
  unfold assign
  split
  · exact h
  · split
    next other hother =>
      split
      · exact h
      · obtain ⟨hregistered, hne, hscope, hsame, hbound⟩ := conflictingCommand_some h.distinct hother
        refine (h.clear other).setSequence fun x hx hxid hxscope _ => ?_
        rw [registered_setSequence] at hx
        rw [hchord, sequence_clear hx]
        split
        · exact Ne.symm hbound
        next hxother =>
          rw [← hsame] at hbound ⊢
          exact Ne.symm (h.unique other x hregistered hx (Ne.symm hxother) (hscope.trans hxscope.symm) hbound)
    next hnone =>
      refine h.setSequence fun x hx hxid hxscope hbound => ?_
      rw [hchord] at hbound ⊢
      exact conflictingCommand_none h.distinct hnone hbound hx hxid hxscope

/-! ## All defaults at once -/

/-- One of the two is among the custom shortcuts that the loop has not come to yet, and the other is built in. -/
def Pending (rest : List CustomShortcut) (x y : ShortcutId) : Prop := (∃ c ∈ rest, x = c.id) ∧ ∃ name, y = .command name

theorem free_clearClashes {rest : List CustomShortcut} (hdistinct : (s.customShortcuts.map (·.uuid)).Nodup)
    (hsingle : ∀ c ∈ s.customShortcuts, firstChord c.sequence = c.sequence)
    (hrest : ∀ c ∈ rest, s.Registered c.id ∧ s.sequence c.id = c.sequence) (hnodup : (rest.map (·.uuid)).Nodup)
    (hunique : ∀ x y, s.Registered x → s.Registered y → x ≠ y → scopeOf x = scopeOf y → ¬ Pending rest x y → ¬ Pending rest y x →
      s.sequence x ≠ [] → s.sequence x ≠ s.sequence y) : (clearClashes rest s).Free := by
  induction rest generalizing s with
  | nil => exact ⟨hdistinct, hsingle, fun x y hx hy hne hscope => hunique x y hx hy hne hscope (by simp [Pending]) (by simp [Pending])⟩
  | cons c rest ih =>
    rw [List.map_cons, List.nodup_cons] at hnodup
    obtain ⟨hregistered, hseq⟩ := hrest c List.mem_cons_self
    have hother : ∀ c' ∈ rest, c'.id ≠ c.id := by
      intro c' hc' hsame
      rw [CustomShortcut.id, CustomShortcut.id, ShortcutId.custom.injEq] at hsame
      exact hnodup.1 (hsame ▸ List.mem_map_of_mem hc')
    have hpending {x y : ShortcutId} (hx : x ≠ c.id) (h : ¬ Pending rest x y) : ¬ Pending (c :: rest) x y := by
      rintro ⟨⟨c', hc', rfl⟩, hy⟩
      rcases List.mem_cons.mp hc' with rfl | hc'
      · exact hx rfl
      · exact h ⟨⟨c', hc', rfl⟩, hy⟩
    unfold clearClashes
    split
    · refine ih (by simpa using hdistinct) (single_setSequence hsingle c.id []) (fun c' hc' => ?_) hnodup.2 fun x y hx hy hne hscope hxy hyx hbound => ?_
      · rw [registered_setSequence, sequence_setSequence_ne (hother c' hc')]
        exact hrest c' (List.mem_cons_of_mem c hc')
      · rw [registered_setSequence] at hx hy
        rw [sequence_clear hx] at hbound ⊢
        have hxc : x ≠ c.id := fun hxc => hbound (if_pos hxc)
        rw [if_neg hxc] at hbound ⊢
        rw [sequence_clear hy]
        split
        · exact hbound
        next hyc => exact hunique x y hx hy hne hscope (hpending hxc hxy) (hpending hyc hyx) hbound
    next hnone =>
      have hclash {x y : ShortcutId} (hx : x = c.id) (hy : s.Registered y) (hne : x ≠ y) (hscope : scopeOf x = scopeOf y)
          (hbound : s.sequence x ≠ []) : s.sequence y ≠ s.sequence x := by
        rw [hx] at hne hscope hbound ⊢
        rw [hseq] at hbound ⊢
        exact conflictingCommand_none hdistinct (by simpa using hnone) hbound hy (Ne.symm hne) hscope.symm
      refine ih hdistinct hsingle (fun c' hc' => hrest c' (List.mem_cons_of_mem c hc')) hnodup.2 fun x y hx hy hne hscope hxy hyx hbound => ?_
      by_cases hxc : x = c.id
      · exact Ne.symm (hclash hxc hy hne hscope hbound)
      by_cases hyc : y = c.id
      · intro hsame
        exact hclash hyc hx (Ne.symm hne) hscope.symm (hsame ▸ hbound) hsame
      · exact hunique x y hx hy hne hscope (hpending hxc hxy) (hpending hyc hyx) hbound

theorem free_resetAll (h : s.Free) (yes : Bool) : (resetAll yes s).Free := by
  unfold resetAll
  split
  · exact h
  · refine free_clearClashes h.distinct h.single (fun c hc => ⟨registered_of_mem hc, sequence_of_mem h.distinct hc⟩) h.distinct ?_
    intro x y hx hy hne hscope hxy hyx hbound
    -- a custom shortcut and a built-in command are pending: what is left are two of one kind
    cases x with
    | command name =>
      cases y with
      | command name' => exact default_unique (fun h => hne (congrArg _ h)) hscope hbound
      | custom uuid =>
        obtain ⟨c, hc, rfl⟩ := List.mem_map.mp hy
        exact absurd ⟨⟨c, hc, rfl⟩, name, rfl⟩ hyx
    | custom uuid =>
      cases y with
      | command name =>
        obtain ⟨c, hc, rfl⟩ := List.mem_map.mp hx
        exact absurd ⟨⟨c, hc, rfl⟩, name, rfl⟩ hxy
      | custom uuid' => exact h.unique (.custom uuid) (.custom uuid') hx hy hne hscope hbound

/-! ## Custom shortcuts -/

theorem editCustom_some {before shortcut : CustomShortcut} {fields : Option CustomShortcut} (h : editCustom before fields = some shortcut) :
    shortcut.uuid = before.uuid ∧ firstChord shortcut.sequence = shortcut.sequence := by
  unfold editCustom at h
  split at h
  · cases h
  · split at h
    · cases h
    · cases h
      exact ⟨rfl, firstChord_firstChord _⟩

theorem find_id {id : ShortcutId} {before : CustomShortcut} (h : s.customShortcuts.find? (·.id = id) = some before) :
    before.id = id ∧ before ∈ s.customShortcuts ∧ s.customShortcuts.find? (·.uuid = before.uuid) = some before := by
  have hid : before.id = id := by simpa using List.find?_some h
  refine ⟨hid, List.mem_of_find?_eq_some h, ?_⟩
  rw [← hid] at h
  simpa [CustomShortcut.id] using h

theorem removeCustom_addCustom {c : CustomShortcut} (hfresh : ¬ s.Registered c.id) : (s.addCustom c).removeCustom c.uuid = s := by
  have hnone : ∀ c' ∈ s.customShortcuts, ¬ decide (c'.uuid = c.uuid) = true := by
    intro c' hc' hsame
    have hmem : c'.uuid ∈ s.customShortcuts.map (·.uuid) := List.mem_map_of_mem hc'
    rw [of_decide_eq_true hsame] at hmem
    exact hfresh hmem
  simp only [ShortcutManager.addCustom, removeCustom]
  rw [List.eraseP_append_right _ hnone]
  simp

/-- The custom shortcut with another name and text, and its old key. -/
theorem keeps_key (h : s.Free) {id : ShortcutId} {before shortcut : CustomShortcut} (hfound : s.customShortcuts.find? (·.id = id) = some before)
    (huuid : shortcut.uuid = before.uuid) :
    (s.updateCustom { shortcut with sequence := before.sequence }).Free ∧
      (∀ x, (s.updateCustom { shortcut with sequence := before.sequence }).Registered x ↔ s.Registered x) ∧
        ∀ x, (s.updateCustom { shortcut with sequence := before.sequence }).sequence x = s.sequence x := by
  obtain ⟨-, hmem, hfirst⟩ := find_id hfound
  have hfound' : s.customShortcuts.find? (·.uuid = shortcut.uuid) = some before := by simpa [huuid] using hfirst
  have hkeys : (s.updateCustom { shortcut with sequence := before.sequence }).customKeys = s.customKeys :=
    customKeys_updateCustom hfound' (h.single before hmem)
  exact ⟨h.congr rfl hkeys, registered_congr hkeys, sequence_congr rfl hkeys⟩

/-- The key that a custom shortcut has already. -/
theorem restores_key (h : s.Free) {id : ShortcutId} (hregistered : s.Registered id) {q : QKeySequence} (hchord : firstChord q = q)
    (hkey : s.sequence id = q) : (s.setSequence id q).Free ∧ ∀ x, (s.setSequence id q).sequence x = s.sequence x := by
  constructor
  · refine h.setSequence fun x hx hne hscope hbound => ?_
    rw [hchord, ← hkey] at hbound ⊢
    exact Ne.symm (h.unique id x hregistered hx (Ne.symm hne) hscope.symm hbound)
  · intro x
    by_cases hx : x = id
    · rw [hx, sequence_setSequence_self hregistered, hchord, hkey]
    · exact sequence_setSequence_ne hx q

/-! ## Runs -/

/-- `QUuid::createUuid` never gives an id twice. -/
def FreshId (s : ShortcutManager) : Event → Prop
  | .addCustom uuid _ _ => ¬ s.Registered (.custom uuid)
  | _ => True

/-- A dialog is cancelled, or a question is not answered with Yes; a key that is not acceptable is refused too. -/
def BacksOut (s : ShortcutManager) : Event → Prop
  | .changeSelected id keys yes => ∀ chosen, captureSequence keys = some chosen → Refused id chosen yes s
  | .clearSelected _ => False
  | .resetSelected id yes => ∀ c, command id = some c → Refused id c.defaultSequence yes s
  | .resetAll yes => yes = false
  | .addCustom uuid fields yes => ∀ shortcut, editCustom ⟨uuid, [], [], [], false⟩ fields = some shortcut →
      Refused shortcut.id shortcut.sequence yes (s.addCustom { shortcut with sequence := [] })
  | .editSelectedCustom id fields yes => ∀ before shortcut, s.customShortcuts.find? (·.id = id) = some before →
      editCustom before fields = some shortcut → shortcut.sequence ≠ before.sequence →
        Refused id shortcut.sequence yes (s.updateCustom { shortcut with sequence := before.sequence })
  | .deleteSelectedCustom _ yes => yes = false

theorem free_addCustom (h : s.Free) {uuid : QUuid} (hfresh : ¬ s.Registered (.custom uuid)) (fields : Option CustomShortcut) (yes : Bool) :
    (addCustom uuid fields yes s).Free := by
  unfold addCustom
  split
  · exact h
  next shortcut hedit =>
    obtain ⟨huuid, hchord⟩ := editCustom_some hedit
    have hid : shortcut.id = .custom uuid := congrArg _ huuid
    have hadded : (s.addCustom { shortcut with sequence := [] }).Free := h.addCustom (by simpa [CustomShortcut.id, huuid] using hfresh) rfl
    have hassigned : (assign shortcut.id shortcut.sequence yes (s.addCustom { shortcut with sequence := [] })).1.Free :=
      free_assign hadded hchord yes
    dsimp only
    split
    · exact hassigned
    · exact hassigned.removeCustom uuid

theorem editSelectedCustom_free (h : s.Free) (id : ShortcutId) (fields : Option CustomShortcut) (yes : Bool) :
    (editSelectedCustom id fields yes s).Free := by
  unfold editSelectedCustom
  split
  · exact h
  next before hfound =>
    split
    · exact h
    next shortcut hedit =>
      obtain ⟨huuid, hchord⟩ := editCustom_some hedit
      obtain ⟨hid, hmem, -⟩ := find_id hfound
      obtain ⟨hkept, hregistered, hkeys⟩ := keeps_key h hfound huuid
      dsimp only
      split
      · exact hkept
      next hwanted =>
        split
        · exact free_assign hkept hchord yes
        next hnot =>
          have hrefused : Refused id shortcut.sequence yes (s.updateCustom { shortcut with sequence := before.sequence }) := by
            by_contra hdone
            exact hnot (assign_done hdone)
          rw [assign_refused hrefused]
          exact (restores_key hkept ((hregistered id).mpr (hid ▸ registered_of_mem hmem)) (h.single before hmem)
            ((hkeys id).trans (hid ▸ sequence_of_mem h.distinct hmem))).1

theorem free_step (h : s.Free) {event : Event} (hfresh : FreshId s event) : (step s event).Free := by
  cases event with
  | changeSelected id keys yes =>
    unfold step changeSelected
    dsimp only
    split
    · exact h
    next chosen hchosen =>
      obtain ⟨q, -, rfl⟩ := Option.map_eq_some_iff.mp hchosen
      exact free_assign h (firstChord_firstChord q) yes
  | clearSelected id => exact h.clear id
  | resetSelected id yes =>
    unfold step resetSelected
    dsimp only
    split
    · exact h
    next c hc =>
      cases id with
      | command name => exact free_assign h (firstChord_default c (mem_table_of_command hc).1) yes
      | custom uuid => cases hc
  | resetAll yes => exact free_resetAll h yes
  | addCustom uuid fields yes => exact free_addCustom h hfresh fields yes
  | editSelectedCustom id fields yes => exact editSelectedCustom_free h id fields yes
  | deleteSelectedCustom id yes =>
    unfold step deleteSelectedCustom
    dsimp only
    split
    · exact h
    · split
      · exact h.removeCustom _
      · exact h

theorem sequence_step_of_backsOut (h : s.Free) {event : Event} (hfresh : FreshId s event) (hout : BacksOut s event) (x : ShortcutId) :
    (step s event).sequence x = s.sequence x := by
  cases event with
  | changeSelected id keys yes =>
    unfold step changeSelected
    dsimp only
    split
    · rfl
    next chosen hchosen => rw [assign_refused (hout chosen hchosen)]
  | clearSelected id => exact absurd hout not_false
  | resetSelected id yes =>
    unfold step resetSelected
    dsimp only
    split
    · rfl
    next c hc => rw [assign_refused (hout c hc)]
  | resetAll yes =>
    have hno : yes = false := hout
    simp [step, resetAll, hno]
  | addCustom uuid fields yes =>
    unfold step addCustom
    dsimp only
    split
    · rfl
    next shortcut hedit =>
      obtain ⟨rfl, -⟩ := editCustom_some hedit
      rw [assign_refused (hout shortcut hedit)]
      have hback := removeCustom_addCustom (c := { shortcut with sequence := [] }) hfresh
      simp only [Bool.false_eq_true, if_false]
      rw [hback]
  | editSelectedCustom id fields yes =>
    unfold step editSelectedCustom
    dsimp only
    split
    · rfl
    next before hfound =>
      split
      · rfl
      next shortcut hedit =>
        obtain ⟨hid, hmem, -⟩ := find_id hfound
        obtain ⟨hkept, hregistered, hkeys⟩ := keeps_key h hfound (editCustom_some hedit).1
        split
        · exact hkeys x
        next hwanted =>
          rw [assign_refused (hout before shortcut hfound hedit hwanted)]
          have hrestored := (restores_key hkept ((hregistered id).mpr (hid ▸ registered_of_mem hmem)) (h.single before hmem)
            ((hkeys id).trans (hid ▸ sequence_of_mem h.distinct hmem))).2 x
          simpa using hrestored.trans (hkeys x)
  | deleteSelectedCustom id yes =>
    have hno : yes = false := hout
    unfold step deleteSelectedCustom
    cases id <;> simp [hno]

/-- No key is ever taken twice, and backing out of an operation changes no key. -/
theorem shortcuts_stay_free (events : List Event) {s : ShortcutManager} (h : s.Free) (hfresh : Along step FreshId events s) :
    (∀ done, done <+: events → (run step done s).Free) ∧
      Along step (fun s event => BacksOut s event → ∀ x, (step s event).sequence x = s.sequence x) events s := by
  have hstep (s : ShortcutManager) (event : Event) (hs : s.Free) (hf : FreshId s event) : (step s event).Free := free_step hs hf
  constructor
  · rintro done ⟨rest, rfl⟩
    exact run_invariant hstep done h ((along_append done rest s).mp hfresh).1
  · exact Along.imp hstep (fun s event hs hf hout => sequence_step_of_backsOut hs hf hout) h hfresh

/-- As after the first start: the defaults and nothing else. -/
theorem free_defaults : Free ⟨fun _ => none, []⟩ := by
  refine ⟨List.nodup_nil, by simp, fun x y hx hy hne hscope hbound => ?_⟩
  cases x with
  | custom uuid => simp [Registered] at hx
  | command name =>
    cases y with
    | custom uuid => simp [Registered] at hy
    | command name' => exact default_unique (fun hname => hne (congrArg _ hname)) hscope hbound

/-- A custom shortcut takes a default, and the defaults are put back. -/
theorem custom_then_reset : (run step [.addCustom 1 (some ⟨0, ['l', 's'], ctrl 'T', ['l', 's'], true⟩) true, .resetAll true]
    ⟨fun _ => none, []⟩).Free := by
  refine (shortcuts_stay_free [.addCustom 1 (some ⟨0, ['l', 's'], ctrl 'T', ['l', 's'], true⟩) true, .resetAll true] free_defaults
    ⟨?_, trivial, trivial⟩).1 _ (List.prefix_refl _)
  simp [FreshId, Registered]

end LvdTerm.Ui.ShortcutsPage
