import LvdTerm.Lib.Association
import LvdTerm.Lib.Runs
import LvdTerm.Sftp.Workers

/-!
# Sessions the server has closed

The dock forgets a parked session that emits `disconnected`, but a worker emits that only when the dock
itself has asked it to disconnect, and then the session is no longer parked. A session whose connection
the server has closed therefore stays where it is until something else removes it, and is taken back
with its connection.
-/
namespace LvdTerm.Sftp

open LvdTerm.Lib.Paths
open LvdTerm.Core (SshConnectionSettings)
open LvdTerm.Lib.Runs (run Along along_congr run_keeps)
open LvdTerm.Lib.Association

namespace SftpDock

/-! ## Parking -/

/-- The active session, if it is worth keeping. -/
def leaving (d : SftpDock) : Option (Text × Parked) :=
  match d.session, d.settings with
  | some id, some settings =>
    if d.model.rootPath ≠ [] then some (connectionKey settings, ⟨id, d.model.rootPath, d.sources⟩) else none
  | _, _ => none

/-- The parked sessions that stay when one more is parked. -/
def staying (first : Nat) (d : SftpDock) : List (Text × Parked) :=
  if d.parked.length ≥ kMaxParked then d.parked.eraseIdx (first % d.parked.length) else d.parked

/-- The session is parked under the key, once the active one has been left. -/
def Offered (d : SftpDock) (first : Nat) (key : Text) (p : Parked) : Prop :=
  match d.leaving with
  | none => (key, p) ∈ d.parked
  | some own => (key, p) = own ∨ (key, p) ∈ d.staying first

/-- The one that does not. -/
def crowdedOut (first : Nat) (d : SftpDock) : List SessionId :=
  if d.parked.length ≥ kMaxParked then d.parked[first % d.parked.length]?.toList.map fun e => e.2.session else []

/-- The sessions that were asked to disconnect. -/
def quits (d : SftpDock) : List SessionId := d.requests.filterMap fun r => if r.2 = .disconnectFromHost then some r.1 else none

/-- The sessions the dock holds, those it ever opened, and what is known of them. -/
structure Table where
  session : Option SessionId
  settings : Option SshConnectionSettings
  parked : List (Text × Parked)
  opened : List SshConnectionSettings
  quits : List SessionId
  queue : List (SessionId × Signal)

def table (d : SftpDock) : Table := ⟨d.session, d.settings, d.parked, d.opened, d.quits, d.queue⟩

/-- The session is active or parked, under the key. -/
def Holds (t : Table) (key : Text) (id : SessionId) : Prop :=
  (t.session = some id ∧ ∃ settings, t.settings = some settings ∧ connectionKey settings = key) ∨ ∃ p, (key, p) ∈ t.parked ∧ p.session = id

/-- Of all sessions opened under a key the last. -/
structure LastUnder (opened : List SshConnectionSettings) (key : Text) (id : SessionId) : Prop where
  own : ∃ s, opened[id]? = some s ∧ connectionKey s = key
  last : ∀ j s, id < j → opened[j]? = some s → connectionKey s ≠ key

/-- The sessions held are under different keys, and each is the last that was opened under its key. None of them was asked to
disconnect, and nothing else makes a session emit `disconnected`. -/
structure Keyed (t : Table) : Prop where
  set : t.session ≠ none → t.settings ≠ none
  once : (t.parked.map Prod.fst).Nodup
  apart : ∀ id settings, t.session = some id → t.settings = some settings → ∀ e ∈ t.parked, e.1 ≠ connectionKey settings
  last : ∀ key id, Holds t key id → LastUnder t.opened key id
  gone : ∀ id ∈ t.quits, id < t.opened.length ∧ ∀ key, ¬ Holds t key id
  asked : ∀ id, (id, .disconnected) ∈ t.queue → id ∈ t.quits

theorem Holds.active {t : Table} {id : SessionId} {settings : SshConnectionSettings} (hid : t.session = some id)
    (hs : t.settings = some settings) : Holds t (connectionKey settings) id := .inl ⟨hid, settings, hs, rfl⟩

theorem Holds.parked {t : Table} {e : Text × Parked} (he : e ∈ t.parked) : Holds t e.1 e.2.session := .inr ⟨e.2, he, rfl⟩

section Lists

variable {t : Table} {key : Text} {id : SessionId}

theorem LastUnder.known {opened : List SshConnectionSettings} (h : LastUnder opened key id) : id < opened.length := by
  obtain ⟨s, hs, -⟩ := h.own
  exact (List.getElem?_eq_some_iff.mp hs).1

/-- Only one session is the last under a key. -/
theorem LastUnder.unique {opened : List SshConnectionSettings} {id' : SessionId} (h : LastUnder opened key id)
    (h' : LastUnder opened key id') : id = id' := by
  obtain ⟨s, hs, hkey⟩ := h.own
  obtain ⟨s', hs', hkey'⟩ := h'.own
  rcases Nat.lt_trichotomy id id' with hlt | heq | hgt
  · exact absurd hkey' (h.last id' s' hlt hs')
  · exact heq
  · exact absurd hkey (h'.last id s hgt hs)

/-- A session opened under another key changes nothing. -/
theorem LastUnder.append {opened : List SshConnectionSettings} (h : LastUnder opened key id) {s : SshConnectionSettings}
    (hs : connectionKey s ≠ key) : LastUnder (opened ++ [s]) key id where
  own := by
    obtain ⟨own, hown, hkey⟩ := h.own
    exact ⟨own, by rw [List.getElem?_append_left h.known, hown], hkey⟩
  last j s' hj hs' := by
    by_cases hold : j < opened.length
    · rw [List.getElem?_append_left hold] at hs'
      exact h.last j s' hj hs'
    · rw [List.getElem?_append_right (Nat.le_of_not_lt hold)] at hs'
      obtain ⟨hlt, hmem⟩ := List.getElem?_eq_some_iff.mp hs'
      rw [List.getElem_singleton] at hmem
      exact hmem ▸ hs

theorem lastUnder_new (opened : List SshConnectionSettings) (s : SshConnectionSettings) :
    LastUnder (opened ++ [s]) (connectionKey s) opened.length where
  own := ⟨s, List.getElem?_concat_length, rfl⟩
  last j s' hj hs' := by
    obtain ⟨hlt, -⟩ := List.getElem?_eq_some_iff.mp hs'
    rw [List.length_append, List.length_singleton] at hlt
    exact absurd hlt (Nat.not_lt.mpr (Nat.succ_le_of_lt hj))

end Lists

namespace Keyed

variable {t : Table}

/-- A parked session is one under its key. -/
theorem parked_unique (h : Keyed t) {e e' : Text × Parked} (he : e ∈ t.parked) (he' : e' ∈ t.parked) (hid : e.2.session = e'.2.session) :
    e = e' := by
  obtain ⟨s, hs, hkey⟩ := (h.last _ _ (.parked he)).own
  obtain ⟨s', hs', hkey'⟩ := (h.last _ _ (.parked he')).own
  rw [hid, hs'] at hs
  cases hs
  exact List.inj_on_of_nodup_map h.once he he' (hkey.symm.trans hkey')

/-- The active session is not parked. -/
theorem active_unparked (h : Keyed t) {id : SessionId} (hid : t.session = some id) {e : Text × Parked} (he : e ∈ t.parked) :
    e.2.session ≠ id := by
  intro heq
  obtain ⟨settings, hset⟩ := Option.ne_none_iff_exists'.mp (h.set (by simp [hid]))
  obtain ⟨s, hs, hkey⟩ := (h.last _ _ (.active hid hset)).own
  obtain ⟨s', hs', hkey'⟩ := (h.last _ _ (.parked he)).own
  rw [heq, hs] at hs'
  cases hs'
  exact h.apart id settings hid hset e he (hkey'.symm.trans hkey)

theorem held_last (h : Keyed t) {t' : Table} (hholds : ∀ key id, Holds t' key id → Holds t key id) (hopened : t'.opened = t.opened) :
    ∀ key id, Holds t' key id → LastUnder t'.opened key id := fun key id hheld => hopened ▸ h.last key id (hholds key id hheld)

theorem held_gone (h : Keyed t) {t' : Table} (hholds : ∀ key id, Holds t' key id → Holds t key id) (hopened : t'.opened = t.opened) {id : SessionId}
    (hid : id ∈ t.quits) : id < t'.opened.length ∧ ∀ key, ¬ Holds t' key id :=
  ⟨hopened ▸ (h.gone id hid).1, fun key hheld => (h.gone id hid).2 key (hholds key id hheld)⟩

/-- Parked sessions may go, asked to disconnect or not. -/
theorem forget (h : Keyed t) {parked : List (Text × Parked)} (quits : List SessionId) (hsub : parked.Sublist t.parked)
    (hkept : ∀ id ∈ t.quits, id ∈ quits) (hquits : ∀ id ∈ quits, id ∈ t.quits ∨ ∃ e ∈ t.parked, e ∉ parked ∧ e.2.session = id) :
    Keyed { t with parked := parked, quits := quits } := by
  have hholds : ∀ key id, Holds { t with parked := parked, quits := quits } key id → Holds t key id := by
    rintro key id (hactive | ⟨p, hp, hid⟩)
    · exact .inl hactive
    · exact .inr ⟨p, hsub.subset hp, hid⟩
  refine ⟨h.set, h.once.sublist (hsub.map _), fun id settings hid hs e he => h.apart id settings hid hs e (hsub.subset he),
    h.held_last hholds rfl, fun id hid => ?_, fun id hid => hkept id (h.asked id hid)⟩
  rcases hquits id hid with hold | ⟨e, he, hnot, rfl⟩
  · exact h.held_gone hholds rfl hold
  · refine ⟨(h.last _ _ (.parked he)).known, ?_⟩
    rintro key (⟨hactive, -⟩ | ⟨p, hp, hsession⟩)
    · exact h.active_unparked hactive he rfl
    · exact hnot (h.parked_unique he (hsub.subset hp) hsession.symm ▸ hp)

/-- The active session is torn down. -/
theorem leave (h : Keyed t) : Keyed { t with session := none, quits := t.quits ++ t.session.toList } := by
  have hholds : ∀ key id, Holds { t with session := none, quits := t.quits ++ t.session.toList } key id → Holds t key id := by
    rintro key id (⟨hnone, -⟩ | hparked)
    · cases hnone
    · exact .inr hparked
  refine ⟨fun hne => absurd rfl hne, h.once, fun _ _ hnone => by (cases hnone), h.held_last hholds rfl, fun id hid => ?_,
    fun id hid => List.mem_append_left _ (h.asked id hid)⟩
  rcases List.mem_append.mp hid with hold | hactive
  · exact h.held_gone hholds rfl hold
  · have hid : t.session = some id := Option.mem_toList.mp hactive
    obtain ⟨settings, hset⟩ := Option.ne_none_iff_exists'.mp (h.set (by simp [hid]))
    refine ⟨(h.last _ _ (.active hid hset)).known, ?_⟩
    rintro key (⟨hnone, -⟩ | ⟨p, hp, hsession⟩)
    · cases hnone
    · exact h.active_unparked hid hp hsession

/-- Without an active session the settings do not matter. -/
theorem unset (h : Keyed t) (hnone : t.session = none) (settings : Option SshConnectionSettings) :
    Keyed { t with settings := settings } := by
  have hidle (id : SessionId) : t.session ≠ some id := by simp [hnone]
  have hholds : ∀ key id, Holds { t with settings := settings } key id → Holds t key id := by
    rintro key id (⟨hid, -⟩ | hparked)
    · exact absurd hid (hidle id)
    · exact .inr hparked
  exact ⟨fun hne => absurd hnone hne, h.once, fun id _ hid => absurd hid (hidle id), h.held_last hholds rfl,
    fun _ hid => h.held_gone hholds rfl hid, h.asked⟩

/-- The active session is parked. -/
theorem park (h : Keyed t) {id : SessionId} {settings : SshConnectionSettings} (hid : t.session = some id) (hs : t.settings = some settings)
    {p : Parked} (hp : p.session = id) :
    Keyed { t with session := none, parked := (connectionKey settings, p) :: t.parked } := by
  have hholds : ∀ key id, Holds { t with session := none, parked := (connectionKey settings, p) :: t.parked } key id → Holds t key id := by
    rintro key id' (⟨hnone, -⟩ | ⟨q, hq, hsession⟩)
    · cases hnone
    · rcases List.mem_cons.mp hq with heq | hq
      · cases heq
        exact .inl ⟨hid.trans (congrArg some (hp.symm.trans hsession)), settings, hs, rfl⟩
      · exact .inr ⟨q, hq, hsession⟩
  refine ⟨fun hne => absurd rfl hne, List.nodup_cons.mpr ⟨fun hmem => ?_, h.once⟩, fun _ _ hnone => by (cases hnone), h.held_last hholds rfl,
    fun _ hid => h.held_gone hholds rfl hid, h.asked⟩
  obtain ⟨e, he, hkey⟩ := List.mem_map.mp hmem
  exact h.apart id settings hid hs e he hkey

/-- A session is active again that is parked under the key. -/
theorem resume (h : Keyed t) {settings : SshConnectionSettings} {p : Parked} (hp : (connectionKey settings, p) ∈ t.parked) :
    Keyed { t with
      session := some p.session
      settings := some settings
      parked := t.parked.filter fun e => e.1 ≠ connectionKey settings } := by
  have hholds : ∀ key id, Holds { t with
      session := some p.session
      settings := some settings
      parked := t.parked.filter fun e => e.1 ≠ connectionKey settings } key id → Holds t key id := by
    rintro key id (⟨hid, s, hs, hkey⟩ | ⟨q, hq, hsession⟩)
    · cases hid
      cases hs
      exact .inr ⟨p, hkey ▸ hp, rfl⟩
    · exact .inr ⟨q, (List.mem_filter.mp hq).1, hsession⟩
  refine ⟨fun _ => by simp, h.once.sublist (List.filter_sublist.map _), fun id s _ hs e he => ?_, h.held_last hholds rfl,
    fun _ hid => h.held_gone hholds rfl hid, h.asked⟩
  cases hs
  exact of_decide_eq_true (List.mem_filter.mp he).2

/-- A session is opened under a key no parked one has. -/
theorem openNew (h : Keyed t) {settings : SshConnectionSettings} (hfree : ∀ e ∈ t.parked, e.1 ≠ connectionKey settings) :
    Keyed { t with session := some t.opened.length, settings := some settings, opened := t.opened ++ [settings] } where
  set _ := by simp
  once := h.once
  apart id s _ hs e he := by
    cases hs
    exact hfree e he
  last key id hheld := by
    rcases hheld with ⟨hid, s, hs, rfl⟩ | ⟨p, hp, hsession⟩
    · cases hid
      cases hs
      exact lastUnder_new _ _
    · exact (h.last _ _ (.inr ⟨p, hp, hsession⟩)).append (hfree _ hp).symm
  gone id hquit := by
    have hknown := (h.gone id hquit).1
    refine ⟨?_, ?_⟩
    · rw [List.length_append, List.length_singleton]
      exact Nat.lt_succ_of_lt hknown
    · rintro key (⟨hid, -⟩ | hparked)
      · cases hid
        exact Nat.lt_irrefl _ hknown
      · exact (h.gone _ hquit).2 _ (.inr hparked)
  asked := h.asked

/-- Signals may come that are not `disconnected`, or are from a session that was asked to disconnect. -/
theorem queued (h : Keyed t) {queue : List (SessionId × Signal)}
    (hqueue : ∀ id, (id, .disconnected) ∈ queue → (id, .disconnected) ∈ t.queue ∨ id ∈ t.quits) : Keyed { t with queue := queue } :=
  ⟨h.set, h.once, h.apart, h.last, h.gone, fun id hid => (hqueue id hid).elim (h.asked id) fun hquit => hquit⟩

end Keyed

/-! ## What the functions of the dock do to the table -/

section Tables

variable {d : SftpDock}

theorem call_table {request : Request} (hstays : request ≠ .disconnectFromHost) : (d.call request).table = d.table := by
  unfold call
  split
  · rfl
  · simp [table, quits, hstays]

theorem enterDirectory_table (navigating : Bool) (dir : SftpModel.Index) : (d.enterDirectory navigating dir).table = d.table := by
  dsimp only [enterDirectory]
  by_cases hnew : ¬ navigating ∧ dir ≠ d.currentIndex
  · simp only [if_pos hnew]
    split
    · rfl
    · exact call_table (by simp)
  · simp only [if_neg hnew]
    split
    · rfl
    · exact call_table (by simp)

theorem onConnected_table (sources : List SessionId) (homePath : Text) : (d.onConnected sources homePath).table = d.table :=
  enterDirectory_table _ _

theorem slot_table (id : SessionId) (signal : Signal) : (d.slot id signal).table = d.table := by
  cases signal with
  | connected homePath => exact onConnected_table _ _
  | operationFailed operation path message =>
    dsimp only [slot, onOperationFailed]
    split
    · rfl
    · rfl
  | operationSucceeded operation path =>
    dsimp only [slot, onOperationSucceeded]
    split
    · rfl
    · split
      · exact call_table (by simp)
      · rfl
  | transferProgress path bytesDone totalBytes =>
    dsimp only [slot]
    split
    · rfl
    · rfl
  | connectFailed | disconnected | directoryListed | transferStarted | transferFinished => rfl

theorem dropSession_quits (id : SessionId) : (d.dropSession id).quits = d.quits ++ [id] := by
  simp [dropSession, quits]

theorem teardownSession_table : d.teardownSession.table = { d.table with session := none, quits := d.quits ++ d.session.toList } := by
  unfold teardownSession
  cases hid : d.session with
  | none => simp [table, clearHistory, hid, quits]
  | some id =>
    have hquits := dropSession_quits (d := d) id
    simp only [quits, dropSession] at hquits
    simp [table, clearHistory, dropSession, quits, hquits]

theorem makeRoom_table (first : Nat) :
    (d.makeRoom first).table = { d.table with parked := d.staying first, quits := d.quits ++ d.crowdedOut first } := by
  unfold makeRoom staying crowdedOut
  split
  · next hfull =>
    have hpos : 0 < d.parked.length := Nat.lt_of_lt_of_le (by decide) hfull
    rw [List.getElem?_eq_getElem (Nat.mod_lt first hpos)]
    simp [table, dropSession, quits]
  · simp [table]

theorem makeRoom_keeps (first : Nat) : (d.makeRoom first).model = d.model ∧ (d.makeRoom first).sources = d.sources := by
  unfold makeRoom
  split
  · split
    · exact ⟨rfl, rfl⟩
    · exact ⟨rfl, rfl⟩
  · exact ⟨rfl, rfl⟩

/-- The key of the active session is not in the table, so nothing is replaced. -/
theorem replaceParked_free {key : Text} (hfree : ∀ e ∈ d.parked, e.1 ≠ key) (id : SessionId) : d.replaceParked key id = d := by
  unfold replaceParked
  rw [lookup_of_free hfree]

/-- A session without a root is torn down, any other is parked. -/
theorem parkSession_cases (first : Nat) (d : SftpDock) :
    (d.leaving = none ∧ d.parkSession first = d.teardownSession) ∨
      ∃ id settings, d.session = some id ∧ d.settings = some settings ∧
        d.leaving = some (connectionKey settings, ⟨id, d.model.rootPath, d.sources⟩) ∧
        d.parkSession first =
          (let r := ((d.disconnect id).replaceParked (connectionKey settings) id).makeRoom first
          { r with
            parked := (connectionKey settings, ⟨id, r.model.rootPath, r.sources⟩) :: r.parked
            watched := id :: r.watched
            session := none }.clearHistory) := by
  unfold leaving parkSession
  cases hid : d.session with
  | none => exact .inl ⟨rfl, rfl⟩
  | some id =>
    cases hset : d.settings with
    | none => exact .inl ⟨rfl, rfl⟩
    | some settings =>
      by_cases hroot : d.model.rootPath ≠ []
      · refine .inr ⟨id, settings, rfl, rfl, if_pos hroot, if_pos hroot⟩
      · exact .inl ⟨if_neg hroot, if_neg hroot⟩

theorem parkSession_table (h : Keyed d.table) (first : Nat) :
    (d.parkSession first).table = { d.table with
      session := none
      parked := match d.leaving with
        | none => d.parked
        | some own => own :: d.staying first
      quits := match d.leaving with
        | none => d.quits ++ d.session.toList
        | some _ => d.quits ++ d.crowdedOut first } := by
  rcases parkSession_cases first d with ⟨hleaving, hpark⟩ | ⟨id, settings, hid, hset, hleaving, hpark⟩
  · rw [hleaving, hpark]
    exact teardownSession_table
  · have hfree : ∀ e ∈ (d.disconnect id).parked, e.1 ≠ connectionKey settings := h.apart id settings hid hset
    rw [hleaving, hpark, replaceParked_free hfree]
    have hroom := makeRoom_table (d := d.disconnect id) first
    obtain ⟨hmodel, hsources⟩ := makeRoom_keeps (d := d.disconnect id) first
    have hset' : ((d.disconnect id).makeRoom first).settings = d.settings := congrArg Table.settings hroom
    have hparked : ((d.disconnect id).makeRoom first).parked = d.staying first := congrArg Table.parked hroom
    have hopened : ((d.disconnect id).makeRoom first).opened = d.opened := congrArg Table.opened hroom
    have hquits : ((d.disconnect id).makeRoom first).quits = d.quits ++ d.crowdedOut first := congrArg Table.quits hroom
    have hqueue : ((d.disconnect id).makeRoom first).queue = d.queue := congrArg Table.queue hroom
    unfold quits at hquits
    simp only [table, clearHistory, quits, hmodel, hsources, hset', hparked, hopened, hquits, hqueue]
    rfl

theorem staying_sublist (first : Nat) : (d.staying first).Sublist d.parked := by
  unfold staying
  split
  · exact List.eraseIdx_sublist _ _
  · exact List.Sublist.refl _

/-- The one that is crowded out is parked no more. -/
theorem crowdedOut_parked (h : Keyed d.table) {first : Nat} {id : SessionId} (hid : id ∈ d.crowdedOut first) :
    ∃ e ∈ d.parked, e ∉ d.staying first ∧ e.2.session = id := by
  unfold crowdedOut at hid
  unfold staying
  split at hid
  · next hfull =>
    have hlt : first % d.parked.length < d.parked.length := Nat.mod_lt first (Nat.lt_of_lt_of_le (by decide) hfull)
    rw [List.getElem?_eq_getElem hlt] at hid
    obtain rfl : id = (d.parked[first % d.parked.length]).2.session := by simpa using hid
    refine ⟨_, List.getElem_mem hlt, ?_, rfl⟩
    rw [if_pos hfull]
    exact not_mem_eraseIdx h.once hlt
  · cases hid

theorem parkSession_keyed (h : Keyed d.table) (first : Nat) : Keyed (d.parkSession first).table := by
  rw [parkSession_table h]
  rcases parkSession_cases first d with ⟨hleaving, -⟩ | ⟨id, settings, hid, hset, hleaving, -⟩
  · rw [hleaving]
    exact h.leave
  · rw [hleaving]
    have hroom := h.forget (d.quits ++ d.crowdedOut first) (staying_sublist first) (fun _ hid => List.mem_append_left _ hid)
      fun id hid => (List.mem_append.mp hid).imp_right (crowdedOut_parked h)
    exact hroom.park (p := ⟨id, d.model.rootPath, d.sources⟩) hid hset rfl

theorem offered_iff (h : Keyed d.table) {first : Nat} {key : Text} {p : Parked} :
    Offered d first key p ↔ (d.parkSession first).parked.lookup key = some p := by
  have hkeyed := parkSession_keyed h first
  have hparked := congrArg Table.parked (parkSession_table h first)
  have hmem : Offered d first key p ↔ (key, p) ∈ (d.parkSession first).parked := by
    change _ ↔ (key, p) ∈ (d.parkSession first).table.parked
    rw [hparked]
    unfold Offered
    cases d.leaving with
    | none => exact Iff.rfl
    | some own => exact List.mem_cons.symm
  exact hmem.trans ⟨lookup_of_mem hkeyed.once, mem_of_lookup⟩

/-! ### Another connection -/

section Activation

variable {settings : SshConnectionSettings} {first : Nat}

/-- A parked session is taken back. -/
theorem setActiveConnection_resumes (hsame : sameConnection (some settings) d.settings = false) {p : Parked}
    (hp : (d.parkSession first).parked.lookup (connectionKey settings) = some p) :
    (d.setActiveConnection (some settings) first).table = { (d.parkSession first).table with
      session := some p.session
      settings := some settings
      parked := (d.parkSession first).parked.filter fun e => e.1 ≠ connectionKey settings } := by
  unfold setActiveConnection
  rw [hsame]
  simp only [Bool.false_eq_true, if_false, setStatus, setRoot, hp]
  rw [onConnected_table]
  rfl

/-- A session is opened, and logs in. -/
theorem setActiveConnection_opens (h : Keyed d.table) (hsame : sameConnection (some settings) d.settings = false)
    (hp : (d.parkSession first).parked.lookup (connectionKey settings) = none) :
    (d.setActiveConnection (some settings) first).table = { (d.parkSession first).table with
      session := some d.opened.length
      settings := some settings
      opened := d.opened ++ [settings] } ∧
    (d.opened.length, .connectToHost) ∈ (d.setActiveConnection (some settings) first).requests := by
  have hopened : (d.parkSession first).opened = d.opened := congrArg Table.opened (parkSession_table h first)
  unfold setActiveConnection
  rw [hsame]
  simp only [Bool.false_eq_true, if_false, setStatus, setRoot, hp]
  refine ⟨?_, ?_⟩
  · rw [call_table (by simp)]
    simp only [attachSession, table, quits, hopened]
  · simp [attachSession, call, hopened]

theorem setActiveConnection_leaves (first : Nat) (hsame : sameConnection none d.settings = false) :
    (d.setActiveConnection none first).table = { (d.parkSession first).table with settings := none } := by
  unfold setActiveConnection
  rw [hsame]
  rfl

end Activation

theorem setActiveConnection_keyed (h : Keyed d.table) (settings : Option SshConnectionSettings) (first : Nat) :
    Keyed (d.setActiveConnection settings first).table := by
  have hparked := parkSession_keyed h first
  have htable := parkSession_table h first
  have hnone : (d.parkSession first).table.session = none := congrArg Table.session htable
  have hopened : (d.parkSession first).table.opened = d.opened := congrArg Table.opened htable
  cases hsame : sameConnection settings d.settings with
  | true =>
    unfold setActiveConnection
    rw [hsame]
    exact h
  | false =>
    cases settings with
    | none =>
      rw [setActiveConnection_leaves first hsame]
      exact hparked.unset hnone none
    | some settings =>
      cases hfound : (d.parkSession first).parked.lookup (connectionKey settings) with
      | some p =>
        rw [setActiveConnection_resumes hsame hfound]
        exact hparked.resume (mem_of_lookup hfound)
      | none =>
        have hnew := hparked.openNew (free_of_lookup hfound)
        rw [hopened] at hnew
        rw [(setActiveConnection_opens h hsame hfound).1]
        exact hnew

/-! ### The other events -/

theorem goUp_table : d.goUp.table = d.table := by
  unfold goUp
  split
  · exact enterDirectory_table _ _
  · rfl

theorem goBack_table : d.goBack.table = d.table := by
  unfold goBack
  split
  · exact enterDirectory_table _ _
  · rfl

theorem goForward_table : d.goForward.table = d.table := by
  unfold goForward
  split
  · exact enterDirectory_table _ _
  · rfl

theorem doubleClicked_table (number : Nat) : (d.doubleClicked number).table = d.table := by
  unfold doubleClicked
  split
  · exact enterDirectory_table _ _
  · rfl

theorem navigateToPath_table (path : Text) : (d.navigateToPath path).table = d.table := by
  unfold navigateToPath
  split
  · rfl
  · split
    · exact enterDirectory_table _ _
    · split
      · exact enterDirectory_table _ _
      · exact enterDirectory_table _ _

theorem refresh_table : d.refresh.table = d.table := by
  dsimp only [refresh]
  split
  · rfl
  · exact call_table (by simp)

theorem newFolder_table (name : Text) : (d.newFolder name).table = d.table := by
  dsimp only [newFolder]
  split
  · rfl
  · exact call_table (by simp)

theorem command_table {request : Request} (hstays : request ≠ .disconnectFromHost) : (d.command request).table = d.table := by
  unfold command
  split
  · rfl
  · exact call_table hstays

theorem dropAll_table (gone : List (Text × Parked)) (d : SftpDock) :
    (gone.foldl (fun d e => d.dropSession e.2.session) d).table = { d.table with quits := d.quits ++ gone.map fun e => e.2.session } := by
  induction gone generalizing d with
  | nil => simp [table]
  | cons e gone ih =>
    rw [List.foldl_cons, ih]
    simp [table, dropSession, quits]

theorem keepOnly_keyed (h : Keyed d.table) (inUse : List SshConnectionSettings) : Keyed (d.keepOnly inUse).table := by
  have hdropped := dropAll_table (d.parked.filter fun e => !(inUse.map connectionKey).contains e.1) d
  have htable : (d.keepOnly inUse).table = { d.table with
      parked := d.parked.filter fun e => (inUse.map connectionKey).contains e.1
      quits := d.quits ++ (d.parked.filter fun e => !(inUse.map connectionKey).contains e.1).map fun e => e.2.session } :=
    congrArg (fun t : Table => { t with parked := d.parked.filter fun e => (inUse.map connectionKey).contains e.1 }) hdropped
  rw [htable]
  refine h.forget _ List.filter_sublist (fun _ hid => List.mem_append_left _ hid) fun id hid => ?_
  refine (List.mem_append.mp hid).imp_right fun hgone => ?_
  obtain ⟨e, he, rfl⟩ := List.mem_map.mp hgone
  obtain ⟨hin, hunused⟩ := List.mem_filter.mp he
  refine ⟨e, hin, fun hstays => ?_, rfl⟩
  have hused := (List.mem_filter.mp hstays).2
  rw [hused] at hunused
  cases hunused

theorem destroy_keyed (h : Keyed d.table) (id : SessionId) : Keyed (d.destroy id).table := by
  unfold destroy
  split
  · exact h.queued fun _ hid => .inl (List.mem_filter.mp hid).1
  · exact h

theorem parkedDisconnected_keyed (h : Keyed d.table) (id : SessionId) : Keyed (d.parkedDisconnected id).table := by
  unfold parkedDisconnected
  split
  · exact h.forget _ List.eraseP_sublist (fun _ hid => hid) fun _ hid => .inl hid
  · exact h

theorem deliver_keyed (h : Keyed d.table) (n : Nat) : Keyed (d.deliver n).table := by
  unfold deliver
  split
  · exact h
  · have hrest : Keyed { d with queue := d.queue.eraseIdx n }.table := h.queued fun _ hid => .inl (List.mem_of_mem_eraseIdx hid)
    dsimp only
    split
    · split
      · exact parkedDisconnected_keyed hrest _
      · exact hrest
    · split
      · rw [slot_table]
        exact hrest
      · exact hrest

theorem step_keyed (h : Keyed d.table) {e : DockEvent} (hdock : Sessions.ofDock e = true) : Keyed (d.step e).table := by
  cases e with
  | setActiveConnection settings first => exact setActiveConnection_keyed h settings first
  | keepOnly inUse => exact keepOnly_keyed h inUse
  | emitted id signal => cases hdock
  | delivered n => exact deliver_keyed h n
  | destroyed id => exact destroy_keyed h id
  | doubleClicked number => exact (doubleClicked_table number).symm ▸ h
  | goUp => exact goUp_table.symm ▸ h
  | goBack => exact goBack_table.symm ▸ h
  | goForward => exact goForward_table.symm ▸ h
  | navigateToPath path => exact (navigateToPath_table path).symm ▸ h
  | refresh => exact refresh_table.symm ▸ h
  | newFolder name => exact (newFolder_table name).symm ▸ h
  | command request =>
    have hstays : request ≠ .disconnectFromHost := by
      rintro rfl
      cases hdock
    exact (command_table hstays).symm ▸ h

theorem deliver_opened (n : Nat) : (d.deliver n).opened = d.opened := by
  unfold deliver
  split
  · rfl
  · next id signal hq =>
    dsimp only
    split
    · split
      · unfold parkedDisconnected
        split
        · rfl
        · rfl
      · rfl
    · split
      · exact congrArg Table.opened (slot_table id signal)
      · rfl

theorem destroy_opened (id : SessionId) : (d.destroy id).opened = d.opened := by
  unfold destroy
  split
  · rfl
  · rfl

/-- What has been opened stays. -/
theorem step_opened (h : Keyed d.table) {e : DockEvent} (hdock : Sessions.ofDock e = true) : d.opened.length ≤ (d.step e).opened.length := by
  have hsame {d' : SftpDock} (htable : d'.opened = d.opened) : d.opened.length ≤ d'.opened.length := Nat.le_of_eq (congrArg List.length htable.symm)
  cases e with
  | setActiveConnection settings first =>
    have hparked : (d.parkSession first).table.opened = d.opened := congrArg Table.opened (parkSession_table h first)
    dsimp only [step]
    cases hactive : sameConnection settings d.settings with
    | true =>
      unfold setActiveConnection
      rw [hactive]
      exact Nat.le_refl _
    | false =>
      cases settings with
      | none => exact hsame ((congrArg Table.opened (setActiveConnection_leaves first hactive)).trans hparked)
      | some settings =>
        cases hfound : (d.parkSession first).parked.lookup (connectionKey settings) with
        | some p => exact hsame ((congrArg Table.opened (setActiveConnection_resumes hactive hfound)).trans hparked)
        | none =>
          have hopened : (d.setActiveConnection (some settings) first).opened = d.opened ++ [settings] :=
            congrArg Table.opened (setActiveConnection_opens h hactive hfound).1
          rw [hopened, List.length_append]
          exact Nat.le_add_right _ _
  | keepOnly inUse => exact hsame (congrArg Table.opened (dropAll_table _ d))
  | emitted id signal => cases hdock
  | delivered n => exact hsame (deliver_opened n)
  | destroyed id => exact hsame (destroy_opened id)
  | doubleClicked number => exact hsame (congrArg Table.opened (doubleClicked_table number))
  | goUp => exact hsame (congrArg Table.opened goUp_table)
  | goBack => exact hsame (congrArg Table.opened goBack_table)
  | goForward => exact hsame (congrArg Table.opened goForward_table)
  | navigateToPath path => exact hsame (congrArg Table.opened (navigateToPath_table path))
  | refresh => exact hsame (congrArg Table.opened refresh_table)
  | newFolder name => exact hsame (congrArg Table.opened (newFolder_table name))
  | command request =>
    have hstays : request ≠ .disconnectFromHost := by
      rintro rfl
      cases hdock
    exact hsame (congrArg Table.opened (command_table hstays))

/-- No signal takes a session out of the table. -/
theorem deliver_parked (h : Keyed d.table) (n : Nat) : (d.deliver n).parked = d.parked := by
  unfold deliver
  split
  · rfl
  · next id signal hq =>
    dsimp only
    split
    · next hsignal =>
      split
      · subst hsignal
        have hquit := h.asked id (List.mem_of_getElem? hq)
        unfold parkedDisconnected
        split
        · next hparked =>
          obtain ⟨e, he, hid⟩ := List.any_eq_true.mp hparked
          exact absurd (.inr ⟨e.2, he, of_decide_eq_true hid⟩) ((h.gone id hquit).2 e.1)
        · rfl
      · rfl
    · split
      · exact congrArg Table.parked (slot_table id signal)
      · rfl

end Tables

end SftpDock

open SftpDock (Offered LastUnder Keyed DockEvent)

/-- Only `disconnectFromHost` is answered with `disconnected`. -/
theorem Request.answeredBy_disconnected {sftp closed : Bool} {request : Request} {signals : List Signal}
    (h : request.answeredBy sftp closed signals = true) (hmem : Signal.disconnected ∈ signals) : request = .disconnectFromHost := by
  unfold answeredBy at h
  split at h
  · next operation path hoperation =>
    split at h
    · cases h
    · next last before hsignals =>
      rw [Bool.and_eq_true, Bool.and_eq_true, List.all_eq_true] at h
      obtain ⟨⟨hlast, hbefore⟩, -⟩ := h
      rcases List.mem_cons.mp (hsignals ▸ List.mem_reverse.mpr hmem) with rfl | hmem
      · cases hlast
      · cases hbefore _ hmem
  · split at h
    · next heq => exact heq
    · split at h
      · cases List.mem_singleton.mp hmem
      · cases List.mem_singleton.mp hmem
      · cases h

namespace Sessions

/-! ## The claim and its condition -/

/-- A connection that becomes active again does not get a session back whose connection the server has closed: where the last session
under its key is one, a new one is opened and logs in. -/
structure Afresh (s : Sessions) (e : Event) : Prop where
  not_reused : ∀ settings first, e = .dock (.setActiveConnection settings first) → sameConnection settings s.dock.settings = false →
    ∀ id ∈ s.closed, (s.step e).dock.session ≠ some id
  logs_in : ∀ settings first, e = .dock (.setActiveConnection (some settings) first) →
    sameConnection (some settings) s.dock.settings = false → ∀ id ∈ s.closed, LastUnder s.dock.opened (connectionKey settings) id →
    (s.step e).dock.session = some s.dock.opened.length ∧ (s.step e).dock.opened = s.dock.opened ++ [settings] ∧
      (s.dock.opened.length, .connectToHost) ∈ (s.step e).dock.requests

/-- No session whose connection the server has closed is parked under the key of the connection that becomes active. -/
def Fresh (s : Sessions) : Event → Prop
  | .dock (.setActiveConnection (some settings) first) =>
    sameConnection (some settings) s.dock.settings = false →
      ∀ p, Offered s.dock first (connectionKey settings) p → p.session ∉ s.closed
  | _ => True

/-! ## Every run -/

structure Sound (s : Sessions) : Prop where
  keyed : Keyed s.dock.table
  known : ∀ id ∈ s.closed, id < s.dock.opened.length

theorem start_sound : Sound start where
  keyed :=
    { set := fun hne => absurd rfl hne
      once := List.nodup_nil
      apart := fun _ _ hid => by cases hid
      last := by
        rintro key id (⟨hid, -⟩ | ⟨p, hp, -⟩)
        · cases hid
        · cases hp
      gone := fun _ hid => by cases hid
      asked := fun _ hid => by cases hid }
  known := fun _ hid => by cases hid

variable {s : Sessions}

/-- A session that takes up `disconnectFromHost` was asked to. -/
theorem next_quits {id : SessionId} (h : s.next id = some .disconnectFromHost) : id ∈ s.dock.quits := by
  obtain ⟨⟨id', request⟩, hmem, hrequest⟩ := List.mem_filterMap.mp (List.mem_of_getElem? h)
  split at hrequest
  · next heq =>
    cases hrequest
    subst heq
    exact List.mem_filterMap.mpr ⟨_, hmem, if_pos rfl⟩
  · cases hrequest

theorem emits_table (id : SessionId) (signals : List Signal) (d : SftpDock) :
    ∃ queue, (emits id signals d).table = { d.table with queue := queue } ∧
      ∀ i signal, (i, signal) ∈ queue → (i, signal) ∈ d.queue ∨ (i = id ∧ signal ∈ signals) := by
  induction signals generalizing d with
  | nil => exact ⟨d.queue, rfl, fun _ _ h => .inl h⟩
  | cons signal signals ih =>
    obtain ⟨queue, htable, hqueue⟩ := ih (d.step (.emitted id signal))
    unfold emits at htable ⊢
    rw [List.foldl_cons, htable]
    dsimp only [SftpDock.step] at hqueue ⊢
    by_cases hheard : id < d.opened.length ∧ id ∉ d.deleted
    · rw [if_pos hheard] at hqueue ⊢
      refine ⟨queue, rfl, fun i sig hmem => ?_⟩
      rcases hqueue i sig hmem with hold | ⟨rfl, hlater⟩
      · rcases List.mem_append.mp hold with hold | hnew
        · exact .inl hold
        · cases List.mem_singleton.mp hnew
          exact .inr ⟨rfl, List.mem_cons_self⟩
      · exact .inr ⟨rfl, List.mem_cons_of_mem _ hlater⟩
    · rw [if_neg hheard] at hqueue ⊢
      exact ⟨queue, rfl, fun i sig hmem => (hqueue i sig hmem).imp_right fun h => ⟨h.1, List.mem_cons_of_mem _ h.2⟩⟩

theorem works_sound (h : Sound s) (id : SessionId) (signals : List Signal) : Sound (s.works id signals) := by
  unfold works
  split
  · exact h
  · next request hnext =>
    split
    · next hanswer =>
      obtain ⟨queue, htable, hqueue⟩ := emits_table id signals s.dock
      refine ⟨?_, fun i hi => ?_⟩
      · dsimp only
        rw [htable]
        refine h.keyed.queued fun i hi => (hqueue i _ hi).imp_right ?_
        rintro ⟨rfl, hmem⟩
        exact next_quits (Request.answeredBy_disconnected hanswer hmem ▸ hnext)
      · have hopened : (emits id signals s.dock).opened = s.dock.opened := congrArg (fun t => t.opened) htable
        dsimp only
        rw [hopened]
        exact h.known i hi
    · exact h

theorem step_sound (h : Sound s) (e : Event) : Sound (s.step e) := by
  cases e with
  | dock e =>
    dsimp only [step]
    split
    · next hdock => exact ⟨SftpDock.step_keyed h.keyed hdock, fun id hid => Nat.lt_of_lt_of_le (h.known id hid) (SftpDock.step_opened h.keyed hdock)⟩
    · exact h
  | works id signals => exact works_sound h id signals
  | serverCloses id =>
    dsimp only [step]
    split
    · next hid =>
      refine ⟨h.keyed, fun i hi => ?_⟩
      rcases List.mem_cons.mp hi with rfl | hi
      · exact hid
      · exact h.known i hi
    · exact h

theorem sound_run (es : List Event) : Sound (run step es start) := run_keeps (I := Sound) (fun _ e h => step_sound h e) es start_sound

/-- In every run a session leaves the table because of the dock alone: no signal of its own makes the dock forget it. -/
theorem never_forgotten (es : List Event) (n : Nat) :
    ((run step es start).step (.dock (.delivered n))).dock.parked = (run step es start).dock.parked :=
  SftpDock.deliver_parked (sound_run es).keyed n

section Activation

variable {settings : SshConnectionSettings} {first : Nat}

theorem resumed_session (hsame : sameConnection (some settings) s.dock.settings = false) {p : Parked}
    (hfound : (s.dock.parkSession first).parked.lookup (connectionKey settings) = some p) :
    (s.step (.dock (.setActiveConnection (some settings) first))).dock.session = some p.session :=
  congrArg SftpDock.Table.session (SftpDock.setActiveConnection_resumes hsame hfound)

/-- A parked session is the last under its key. -/
theorem parked_last (h : Sound s) {key : Text} {p : Parked} (hfound : (s.dock.parkSession first).parked.lookup key = some p) :
    LastUnder s.dock.opened key p.session := by
  have hlast := (SftpDock.parkSession_keyed h.keyed first).last _ _ (.parked (mem_of_lookup hfound))
  have hopened : (s.dock.parkSession first).table.opened = s.dock.opened :=
    congrArg SftpDock.Table.opened (SftpDock.parkSession_table h.keyed first)
  rwa [hopened] at hlast

/-- What becomes active is the parked session, or a new one. -/
theorem activation_iff (h : Sound s) (hsame : sameConnection (some settings) s.dock.settings = false) :
     Afresh s (.dock (.setActiveConnection (some settings) first)) ↔
    ∀ p, Offered s.dock first (connectionKey settings) p → p.session ∉ s.closed := by
  constructor
  · intro hafresh p hoffered hclosed
    have hfound := (SftpDock.offered_iff h.keyed).mp hoffered
    exact hafresh.not_reused _ _ rfl hsame p.session hclosed (resumed_session hsame hfound)
  · intro hfresh
    cases hfound : (s.dock.parkSession first).parked.lookup (connectionKey settings) with
    | some p =>
      have hopen : p.session ∉ s.closed := hfresh p ((SftpDock.offered_iff h.keyed).mpr hfound)
      constructor
      · rintro _ _ ⟨rfl, rfl⟩ - id hclosed hid
        cases (resumed_session hsame hfound).symm.trans hid
        exact hopen hclosed
      · rintro _ _ ⟨rfl, rfl⟩ - id hclosed hlast
        exact absurd (hlast.unique (parked_last h hfound) ▸ hclosed) hopen
    | none =>
      obtain ⟨htable, hlogin⟩ := SftpDock.setActiveConnection_opens h.keyed hsame hfound
      constructor
      · rintro _ _ ⟨rfl, rfl⟩ - id hclosed hid
        cases (congrArg SftpDock.Table.session htable).symm.trans hid
        exact Nat.lt_irrefl _ (h.known _ hclosed)
      · rintro _ _ ⟨rfl, rfl⟩ - id _ _
        exact ⟨congrArg SftpDock.Table.session htable, congrArg SftpDock.Table.opened htable, hlogin⟩

end Activation

/-- An event that activates no connection meets both. -/
theorem afresh_of_idle {e : Event} (hidle : ∀ settings first, e ≠ .dock (.setActiveConnection settings first)) : Afresh s e :=
  ⟨fun _ _ he => absurd he (hidle _ _), fun _ _ he => absurd he (hidle _ _)⟩

theorem afresh_iff (h : Sound s) (e : Event) : Afresh s e ↔ Fresh s e := by
  cases e with
  | dock e =>
    cases e with
    | setActiveConnection settings first =>
      cases settings with
      | none =>
        refine iff_of_true ⟨?_, fun _ _ he => by (cases he)⟩ trivial
        rintro _ _ ⟨rfl, rfl⟩ hsame id - hid
        have htable := SftpDock.setActiveConnection_leaves first hsame
        have hnone := congrArg SftpDock.Table.session (htable.trans (congrArg (fun t : SftpDock.Table => { t with settings := none })
          (SftpDock.parkSession_table h.keyed first)))
        cases hnone.symm.trans hid
      | some settings =>
        cases hsame : sameConnection (some settings) s.dock.settings with
        | true =>
          refine iff_of_true ⟨?_, ?_⟩ fun hdiffers => ?_
          · rintro _ _ ⟨rfl, rfl⟩ hdiffers
            cases hsame.symm.trans hdiffers
          · rintro _ _ ⟨rfl, rfl⟩ hdiffers
            cases hsame.symm.trans hdiffers
          · cases hsame.symm.trans hdiffers
        | false => exact (activation_iff h hsame).trans ⟨fun hall _ => hall, fun hall => hall hsame⟩
    | _ => exact iff_of_true (afresh_of_idle (by simp)) trivial
  | works | serverCloses => exact iff_of_true (afresh_of_idle (by simp)) trivial

/-- Connections that become active again get a fresh session as long as no session that the server has closed is parked under their key. -/
theorem dropped_not_reused_iff (es : List Event) : Along step Afresh es start ↔ Along step Fresh es start :=
  along_congr (fun _ e h _ => step_sound h e) (fun _ e h => afresh_iff h e) start_sound

/-- A host is left while its session is connected, the server closes the connection, and the host is taken again. -/
def returning : List Event :=
  [.dock (.setActiveConnection (some { host := ['h'], username := ['a'] }) 0), .works 0 [.connected ['/', 'a']], .dock (.delivered 0),
    .dock (.setActiveConnection none 0), .serverCloses 0, .dock (.setActiveConnection (some { host := ['h'], username := ['a'] }) 0)]

theorem closed_session_reused : ¬ ∀ es, Along step Afresh es start := by
  intro h
  have hlast := (h returning).2.2.2.2.2.1
  exact hlast.not_reused _ _ rfl rfl 0 (by decide +kernel) (by decide +kernel)

end Sessions

end LvdTerm.Sftp
