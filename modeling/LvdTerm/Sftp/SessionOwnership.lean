import Mathlib.Data.List.Perm.Basic
import LvdTerm.Sftp.DroppedSession

/-!
# Who owns a session

Every session the dock has opened is active, or parked, or scheduled for deletion, and that once; also when signals come
in that nothing asked for. What is parked is under the key it was opened with, and never under that of the active
connection.
-/
namespace LvdTerm.Sftp

open LvdTerm.Lib.Paths
open LvdTerm.Core (SshConnectionSettings)
open LvdTerm.Lib.Runs (run run_keeps)
open LvdTerm.Lib.Association

namespace SftpDock

/-- `~SftpDock` -/
def destructor (d : SftpDock) : SftpDock :=
  let d := d.teardownSession
  { d.parked.foldl (fun d e => d.dropSession e.2.session) d with parked := [] }

/-- The places a session can be in. -/
structure Places where
  session : Option SessionId
  settings : Option SshConnectionSettings
  parked : List (Text × Parked)
  dying : List SessionId
  opened : List SshConnectionSettings

def places (d : SftpDock) : Places := ⟨d.session, d.settings, d.parked, d.dying, d.opened⟩

/-- The sessions in all places, each as often as it is there. -/
def Places.all (p : Places) : List SessionId := p.session.toList ++ (p.parked.map fun e => e.2.session) ++ p.dying

structure Owned (p : Places) : Prop where
  exactlyOnce : p.all.Perm (List.range p.opened.length)
  oneUnderKey : (p.parked.map Prod.fst).Nodup
  few : p.parked.length ≤ kMaxParked
  ownKey : ∀ e ∈ p.parked, ∃ s, p.opened[e.2.session]? = some s ∧ connectionKey s = e.1
  notActive : ∀ s, p.settings = some s → ∀ e ∈ p.parked, e.1 ≠ connectionKey s

/-- What the dock keeps besides: the active session has the key of the active connection. -/
structure Sorted (p : Places) : Prop extends Owned p where
  together : p.session.isSome = p.settings.isSome
  activeKey : ∀ id s, p.session = some id → p.settings = some s → ∃ own, p.opened[id]? = some own ∧ connectionKey own = connectionKey s

namespace Sorted

variable {p : Places}

/-- Parked sessions may go to their deletion. -/
theorem forget (h : Sorted p) {parked gone : List (Text × Parked)} (hsub : parked.Sublist p.parked)
    (hperm : (gone ++ parked).Perm p.parked) :
    Sorted { p with parked := parked, dying := (gone.map fun e => e.2.session) ++ p.dying } where
  exactlyOnce := by
    refine List.Perm.trans ?_ h.exactlyOnce
    have hsessions := (hperm.map fun e => e.2.session)
    rw [List.map_append] at hsessions
    simp only [Places.all, List.append_assoc]
    refine List.Perm.append_left _ ?_
    rw [← List.append_assoc]
    exact (List.perm_append_comm.trans hsessions).append_right _
  oneUnderKey := h.oneUnderKey.sublist (hsub.map _)
  few := hsub.length_le.trans h.few
  ownKey e he := h.ownKey e (hsub.subset he)
  notActive s hs e he := h.notActive s hs e (hsub.subset he)
  together := h.together
  activeKey := h.activeKey

/-- The active session goes, and its connection with it. -/
theorem leave (h : Sorted p) : Sorted { p with session := none, settings := none, dying := p.session.toList ++ p.dying } where
  exactlyOnce := by
    refine List.Perm.trans ?_ h.exactlyOnce
    simp only [Places.all, Option.toList_none, List.nil_append]
    rw [← List.append_assoc]
    exact List.perm_append_comm.append_right _
  oneUnderKey := h.oneUnderKey
  few := h.few
  ownKey := h.ownKey
  notActive _ hs := nomatch hs
  together := rfl
  activeKey _ _ hid := nomatch hid

/-- The active session is parked, where there is room. -/
theorem park (h : Sorted p) {id : SessionId} {settings : SshConnectionSettings} (hid : p.session = some id)
    (hs : p.settings = some settings) {q : Parked} (hq : q.session = id) (hroom : p.parked.length < kMaxParked) :
    Sorted { p with session := none, settings := none, parked := (connectionKey settings, q) :: p.parked } where
  exactlyOnce := by
    refine List.Perm.trans ?_ h.exactlyOnce
    simp [Places.all, hid, hq]
  oneUnderKey := by
    refine List.nodup_cons.mpr ⟨fun hmem => ?_, h.oneUnderKey⟩
    obtain ⟨e, he, hkey⟩ := List.mem_map.mp hmem
    exact h.notActive settings hs e he hkey
  few := hroom
  ownKey e he := by
    rcases List.mem_cons.mp he with rfl | he
    · obtain ⟨own, hown, hkey⟩ := h.activeKey id settings hid hs
      exact ⟨own, by rw [hq, hown], hkey⟩
    · exact h.ownKey e he
  notActive _ hs := nomatch hs
  together := rfl
  activeKey _ _ hid := nomatch hid

/-- A parked session becomes active with the connection of its key. -/
theorem resume (h : Sorted p) (hnone : p.session = none) {settings : SshConnectionSettings} {q : Parked}
    (hq : (connectionKey settings, q) ∈ p.parked) :
    Sorted { p with
      session := some q.session
      settings := some settings
      parked := p.parked.filter (·.1 ≠ connectionKey settings) } where
  exactlyOnce := by
    refine List.Perm.trans ?_ h.exactlyOnce
    have hsessions := ((perm_take h.oneUnderKey hq).map fun e => e.2.session)
    simp only [Places.all, hnone, Option.toList_none, Option.toList_some, List.nil_append]
    exact hsessions.append_right _
  oneUnderKey := h.oneUnderKey.sublist (List.filter_sublist.map _)
  few := (List.length_filter_le _ _).trans h.few
  ownKey e he := h.ownKey e (List.mem_filter.mp he).1
  notActive s hs e he := by
    cases hs
    exact of_decide_eq_true (List.mem_filter.mp he).2
  together := rfl
  activeKey id s hid hs := by
    cases hid
    cases hs
    exact h.ownKey _ hq

/-- A session is opened under a key that no parked one has. -/
theorem openNew (h : Sorted p) (hnone : p.session = none) {settings : SshConnectionSettings}
    (hfree : ∀ e ∈ p.parked, e.1 ≠ connectionKey settings) :
    Sorted { p with session := some p.opened.length, settings := some settings, opened := p.opened ++ [settings] } where
  exactlyOnce := by
    have hall := h.exactlyOnce
    simp only [Places.all, hnone, Option.toList_none, Option.toList_some, List.nil_append, List.cons_append,
      List.length_append, List.length_singleton, List.range_succ] at hall ⊢
    exact (hall.cons _).trans (List.perm_append_singleton _ _).symm
  oneUnderKey := h.oneUnderKey
  few := h.few
  ownKey e he := by
    obtain ⟨own, hown, hkey⟩ := h.ownKey e he
    exact ⟨own, by rw [List.getElem?_append_left (List.getElem?_eq_some_iff.mp hown).1, hown], hkey⟩
  notActive s hs e he := by
    cases hs
    exact hfree e he
  together := rfl
  activeKey id s hid hs := by
    cases hid
    cases hs
    exact ⟨settings, List.getElem?_concat_length, rfl⟩

end Sorted

/-! ## What the functions of the dock do to the places -/

section Places

variable {d : SftpDock}

theorem call_places (request : Request) : (d.call request).places = d.places := by
  unfold call
  split
  · rfl
  · rfl

theorem enterDirectory_places (navigating : Bool) (dir : SftpModel.Index) : (d.enterDirectory navigating dir).places = d.places := by
  dsimp only [enterDirectory]
  by_cases hnew : ¬ navigating ∧ dir ≠ d.currentIndex
  · simp only [if_pos hnew]
    split
    · rfl
    · exact call_places _
  · simp only [if_neg hnew]
    split
    · rfl
    · exact call_places _

theorem slot_places (id : SessionId) (signal : Signal) : (d.slot id signal).places = d.places := by
  cases signal with
  | connected homePath => exact enterDirectory_places _ _
  | operationFailed operation path message =>
    dsimp only [slot, onOperationFailed]
    split
    · rfl
    · rfl
  | operationSucceeded operation path =>
    dsimp only [slot, onOperationSucceeded]
    split
    · rfl
    · split
      · exact call_places _
      · rfl
  | transferProgress path bytesDone totalBytes =>
    dsimp only [slot]
    split
    · rfl
    · rfl
  | connectFailed | disconnected | directoryListed | transferStarted | transferFinished => rfl

theorem teardownSession_places :
    d.teardownSession.places = { d.places with session := none, dying := d.session.toList ++ d.dying } := by
  unfold teardownSession
  cases hid : d.session with
  | none => simp [places, clearHistory, hid]
  | some id => rfl

/-- Sessions that are dropped one after the other. -/
theorem dropAll_places (gone : List (Text × Parked)) (d : SftpDock) :
    (gone.foldl (fun d e => d.dropSession e.2.session) d).places =
      { d.places with dying := (gone.reverse.map fun e => e.2.session) ++ d.dying } := by
  induction gone generalizing d with
  | nil => rfl
  | cons e gone ih =>
    rw [List.foldl_cons, ih, List.reverse_cons, List.map_append, List.append_assoc]
    rfl

theorem makeRoom_sorted (h : Sorted d.places) (first : Nat) : Sorted (d.makeRoom first).places ∧
    (d.makeRoom first).parked.length < kMaxParked ∧ (d.makeRoom first).session = d.session ∧
    (d.makeRoom first).settings = d.settings := by
  unfold makeRoom
  split
  next hfull =>
    have hlt : first % d.parked.length < d.parked.length := Nat.mod_lt first (Nat.lt_of_lt_of_le (by decide) hfull)
    rw [List.getElem?_eq_getElem hlt]
    have hperm : ([d.parked[first % d.parked.length]] ++ d.parked.eraseIdx (first % d.parked.length)).Perm d.parked :=
      List.getElem_cons_eraseIdx_perm hlt
    have hforget := h.forget (List.eraseIdx_sublist d.parked (first % d.parked.length)) hperm
    refine ⟨hforget, ?_, rfl, rfl⟩
    have hfew : d.parked.length ≤ kMaxParked := h.few
    simp only [List.length_eraseIdx, if_pos hlt]
    omega
  next hroom => exact ⟨h, Nat.lt_of_not_le hroom, rfl, rfl⟩

/-- What was active is parked or goes, and the connection is left. -/
theorem parkSession_sorted (h : Sorted d.places) (first : Nat) :
    Sorted { (d.parkSession first).places with settings := none } ∧ (d.parkSession first).session = none := by
  rcases parkSession_cases first d with ⟨-, hpark⟩ | ⟨id, settings, hid, hset, -, hpark⟩
  · rw [hpark, teardownSession_places]
    exact ⟨h.leave, congrArg Places.session teardownSession_places⟩
  · have hfree : ∀ e ∈ (d.disconnect id).parked, e.1 ≠ connectionKey settings := h.notActive settings hset
    rw [hpark, replaceParked_free hfree]
    obtain ⟨hroom, hfew, hsession, hsettings⟩ := makeRoom_sorted (d := d.disconnect id) h first
    refine ⟨?_, rfl⟩
    exact hroom.park (hsession.trans hid) (hsettings.trans hset) rfl hfew

theorem setActiveConnection_sorted (h : Sorted d.places) (settings : Option SshConnectionSettings) (first : Nat) :
    Sorted (d.setActiveConnection settings first).places := by
  obtain ⟨hparked, hnone⟩ := parkSession_sorted h first
  unfold setActiveConnection
  split
  next => exact h
  next =>
    cases settings with
    | none => exact hparked
    | some settings =>
      simp only [setStatus, setRoot]
      cases hfound : (d.parkSession first).parked.lookup (connectionKey settings) with
      | some p =>
        simp only [onConnected]
        rw [enterDirectory_places]
        exact hparked.resume hnone (mem_of_lookup hfound)
      | none =>
        simp only
        rw [call_places]
        exact hparked.openNew hnone (free_of_lookup hfound)

theorem keepOnly_sorted (h : Sorted d.places) (inUse : List SshConnectionSettings) : Sorted (d.keepOnly inUse).places := by
  have hdropped := dropAll_places (d.parked.filter fun e => !(inUse.map connectionKey).contains e.1) d
  have hplaces : (d.keepOnly inUse).places = { d.places with
      parked := d.parked.filter fun e => (inUse.map connectionKey).contains e.1
      dying := ((d.parked.filter fun e => !(inUse.map connectionKey).contains e.1).reverse.map fun e => e.2.session) ++ d.dying } :=
    congrArg (fun p : Places => { p with parked := d.parked.filter fun e => (inUse.map connectionKey).contains e.1 }) hdropped
  rw [hplaces]
  have hperm := List.perm_append_comm.trans (List.filter_append_perm (fun e => (inUse.map connectionKey).contains e.1) d.parked)
  exact h.forget List.filter_sublist (((List.reverse_perm _).append_right _).trans hperm)

theorem parkedDisconnected_sorted (h : Sorted d.places) (id : SessionId) : Sorted (d.parkedDisconnected id).places := by
  unfold parkedDisconnected
  split
  next hany =>
    obtain ⟨e, he, hid⟩ := List.any_eq_true.mp hany
    obtain ⟨own, before, after, -, hown, hparked, herase⟩ := List.exists_of_eraseP (p := fun e : Text × Parked => decide (e.2.session = id)) he hid
    have hperm : ([own] ++ d.parked.eraseP fun e => decide (e.2.session = id)).Perm d.parked := by
      rw [herase, hparked, List.singleton_append]
      exact List.perm_middle.symm
    have hforget := h.forget List.eraseP_sublist hperm
    rw [List.map_singleton, of_decide_eq_true hown] at hforget
    exact hforget
  next => exact h

theorem deliver_sorted (h : Sorted d.places) (n : Nat) : Sorted (d.deliver n).places := by
  unfold deliver
  split
  next => exact h
  next id signal hq =>
    have hrest : Sorted { d with queue := d.queue.eraseIdx n }.places := h
    dsimp only
    split
    · split
      · exact parkedDisconnected_sorted hrest _
      · exact hrest
    · split
      · rw [slot_places]
        exact hrest
      · exact hrest

/-! ### Browsing -/

theorem goUp_places : d.goUp.places = d.places := by
  unfold goUp
  split
  · exact enterDirectory_places _ _
  · rfl

theorem goBack_places : d.goBack.places = d.places := by
  unfold goBack
  split
  · exact enterDirectory_places _ _
  · rfl

theorem goForward_places : d.goForward.places = d.places := by
  unfold goForward
  split
  · exact enterDirectory_places _ _
  · rfl

theorem doubleClicked_places (number : Nat) : (d.doubleClicked number).places = d.places := by
  unfold doubleClicked
  split
  · exact enterDirectory_places _ _
  · rfl

theorem navigateToPath_places (path : Text) : (d.navigateToPath path).places = d.places := by
  unfold navigateToPath
  split
  · rfl
  · split
    · exact enterDirectory_places _ _
    · split
      · exact enterDirectory_places _ _
      · exact enterDirectory_places _ _

theorem refresh_places : d.refresh.places = d.places := by
  dsimp only [refresh]
  split
  · rfl
  · exact call_places _

theorem newFolder_places (name : Text) : (d.newFolder name).places = d.places := by
  dsimp only [newFolder]
  split
  · rfl
  · exact call_places _

theorem command_places (request : Request) : (d.command request).places = d.places := by
  unfold command
  split
  · rfl
  · exact call_places _

theorem step_sorted (h : Sorted d.places) (e : DockEvent) : Sorted (d.step e).places := by
  cases e with
  | setActiveConnection settings first => exact setActiveConnection_sorted h settings first
  | keepOnly inUse => exact keepOnly_sorted h inUse
  | emitted id signal =>
    dsimp only [step]
    split
    · exact h
    · exact h
  | delivered n => exact deliver_sorted h n
  | destroyed id =>
    dsimp only [step, destroy]
    split
    · exact h
    · exact h
  | doubleClicked number => exact (doubleClicked_places number).symm ▸ h
  | goUp => exact goUp_places.symm ▸ h
  | goBack => exact goBack_places.symm ▸ h
  | goForward => exact goForward_places.symm ▸ h
  | navigateToPath path => exact (navigateToPath_places path).symm ▸ h
  | refresh => exact refresh_places.symm ▸ h
  | newFolder name => exact (newFolder_places name).symm ▸ h
  | command request => exact (command_places request).symm ▸ h

theorem start_sorted : Sorted start.places where
  exactlyOnce := List.Perm.nil
  oneUnderKey := List.nodup_nil
  few := Nat.zero_le _
  ownKey _ he := nomatch he
  notActive _ hs := nomatch hs
  together := rfl
  activeKey _ _ hid := nomatch hid

theorem sorted_run (es : List DockEvent) : Sorted (run step es start).places :=
  run_keeps (I := fun d : SftpDock => Sorted d.places) (fun _ e h => step_sorted h e) es start_sorted

/-! ## The claim -/

/-- `keepOnly` parks nothing, and keeps the keys that are in use. -/
theorem keepOnly_keys (inUse : List SshConnectionSettings) (key : Text) :
    key ∈ (d.keepOnly inUse).parked.map Prod.fst ↔ key ∈ d.parked.map Prod.fst ∧ key ∈ inUse.map connectionKey := by
  simp only [keepOnly, List.mem_map, List.mem_filter, List.contains_iff_mem]
  constructor
  · rintro ⟨e, ⟨he, hused⟩, rfl⟩
    exact ⟨⟨e, he, rfl⟩, hused⟩
  · rintro ⟨⟨e, he, rfl⟩, hused⟩
    exact ⟨e, ⟨he, hused⟩, rfl⟩

/-- With the dock every session goes. -/
theorem destructor_places (d : SftpDock) : d.destructor.places = { d.places with
    session := none
    parked := []
    dying := (d.parked.reverse.map fun e => e.2.session) ++ (d.session.toList ++ d.dying) } := by
  have hdropped := dropAll_places d.teardownSession.parked d.teardownSession
  rw [teardownSession_places] at hdropped
  have hparked : d.teardownSession.parked = d.parked := congrArg Places.parked teardownSession_places
  have hdying : d.teardownSession.dying = d.session.toList ++ d.dying := congrArg Places.dying teardownSession_places
  rw [hparked, hdying] at hdropped
  simp only [destructor, hparked]
  exact congrArg (fun p : Places => { p with parked := [] }) hdropped

theorem destructor_owned (h : Owned d.places) : Owned d.destructor.places := by
  rw [destructor_places]
  refine ⟨?_, List.nodup_nil, Nat.zero_le _, fun _ he => (nomatch he), fun _ _ _ he => (nomatch he)⟩
  refine List.Perm.trans ?_ h.exactlyOnce
  simp only [Places.all, Option.toList_none, List.map_nil, List.nil_append, ← List.append_assoc]
  refine List.Perm.append_right _ ?_
  exact (((List.reverse_perm _).map _).append_right _).trans List.perm_append_comm

/-- In every run every session is in one place, once; and when the dock goes, all are scheduled for deletion. -/
theorem sessions_owned (es : List DockEvent) : Owned (run step es start).places ∧
    (∀ inUse key, key ∈ ((run step es start).keepOnly inUse).parked.map Prod.fst ↔
      key ∈ (run step es start).parked.map Prod.fst ∧ key ∈ inUse.map connectionKey) ∧
    Owned (run step es start).destructor.places ∧ (run step es start).destructor.session = none ∧
    (run step es start).destructor.parked = [] := by
  have howned := (sorted_run es).toOwned
  have hplaces := destructor_places (run step es start)
  exact ⟨howned, fun inUse key => keepOnly_keys inUse key, destructor_owned howned,
    congrArg Places.session hplaces, congrArg Places.parked hplaces⟩

end Places

end SftpDock
end LvdTerm.Sftp
