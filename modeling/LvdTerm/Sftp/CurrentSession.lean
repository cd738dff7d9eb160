import Mathlib.Data.List.Nodup
import LvdTerm.Lib.Association
import LvdTerm.Lib.Runs
import LvdTerm.Sftp.Dock

/-!
# Results belong to the current session

What a session emits reaches the dock later, and the slots do not look at the sender. A parked
session was disconnected from them; one that was torn down, before its root folder was known, was
not, and until its deferred deletion it still speaks to a dock that shows another connection or none.
The other way to show one host's files for another is a key that two connections share.
-/
namespace LvdTerm.Sftp

open LvdTerm.Lib.Paths
open LvdTerm.Core (SshConnectionSettings)
open LvdTerm.Lib.Runs (run Along)
open LvdTerm.Lib.Association (mem_of_lookup)

namespace SftpDock

/-! ## The claim and its condition -/

/-- What the user sees, and what was asked of the sessions. -/
structure Shown where
  model : SftpModel
  rootIndex : SftpModel.Index
  backStack : List SftpModel.Index
  forwardStack : List SftpModel.Index
  session : Option SessionId
  settings : Option SshConnectionSettings
  status : String
  progressVisible : Bool
  progressValue : Int
  requests : List (SessionId × Request)

def shown (d : SftpDock) : Shown where
  model := d.model
  rootIndex := d.rootIndex
  backStack := d.backStack
  forwardStack := d.forwardStack
  session := d.session
  settings := d.settings
  status := d.status
  progressVisible := d.progressVisible
  progressValue := d.progressValue
  requests := d.requests

/-- The session was opened for the user, host and port of the active connection. -/
def ServesActive (d : SftpDock) (id : SessionId) : Prop :=
  ∃ s t, d.settings = some s ∧ d.opened[id]? = some t ∧ sameConnection (some t) (some s)

structure Current (d : SftpDock) (e : DockEvent) : Prop where
  alive : (d.step e).crashed = false
  active_only : ∀ n id signal, e = .delivered n → d.queue[n]? = some (id, signal) → d.session ≠ some id →
    (d.step e).shown = d.shown
  one_host : ∀ id ∈ (d.step e).sources, (d.step e).session = some id ∧ (d.step e).ServesActive id

/-- No session speaks that was torn down, and a parked session that is taken was opened for the
connection it is taken for. -/
def Separate (d : SftpDock) : DockEvent → Prop
  | .delivered n => ∀ id signal, d.queue[n]? = some (id, signal) → signal ≠ .disconnected → id ∉ d.tornDown
  | .setActiveConnection (some s) first =>
    sameConnection (some s) d.settings = false →
      ∀ p, (d.parkSession first).parked.lookup (connectionKey s) = some p →
        ∃ t, d.opened[p.session]? = some t ∧ sameConnection (some t) (some s)
  | _ => True

/-! ## Links -/

/-- The sessions the dock holds, hears and shows. -/
structure Links where
  session : Option SessionId
  settings : Option SshConnectionSettings
  parked : List (Text × Parked)
  opened : List SshConnectionSettings
  attached : List SessionId
  tornDown : List SessionId
  sources : List SessionId
  crashed : Bool

def links (d : SftpDock) : Links where
  session := d.session
  settings := d.settings
  parked := d.parked
  opened := d.opened
  attached := d.attached
  tornDown := d.tornDown
  sources := d.sources
  crashed := d.crashed

/-- The active, the parked and the torn down sessions are different ones, and only the first and the
last are heard. -/
structure Apart (l : Links) : Prop where
  alive : l.crashed = false
  parked_known : ∀ e ∈ l.parked, e.2.session < l.opened.length
  parked_once : (l.parked.map fun e => e.2.session).Nodup
  parked_own : ∀ e ∈ l.parked, ∀ id ∈ e.2.sources, id = e.2.session
  torn_known : ∀ id ∈ l.tornDown, id < l.opened.length
  torn_parked : ∀ e ∈ l.parked, e.2.session ∉ l.tornDown
  heard : ∀ id ∈ l.attached, l.session = some id ∨ id ∈ l.tornDown
  active_known : ∀ id, l.session = some id → id < l.opened.length
  active_torn : ∀ id, l.session = some id → id ∉ l.tornDown
  active_parked : ∀ id, l.session = some id → ∀ e ∈ l.parked, e.2.session ≠ id

structure Sound (d : SftpDock) : Prop where
  apart : Apart d.links
  serves : ∀ id, d.session = some id → d.ServesActive id
  sources_active : ∀ id ∈ d.sources, d.session = some id
  idle : d.session = none → d.rootIndex = none ∧ d.model.root.children = []

namespace Apart

variable {l : Links}

/-- Parked sessions may go. -/
theorem forget (h : Apart l) {parked : List (Text × Parked)} (hsub : parked.Sublist l.parked) :
    Apart { l with parked := parked } where
  alive := h.alive
  parked_known := fun e he => h.parked_known e (hsub.subset he)
  parked_once := h.parked_once.sublist (hsub.map _)
  parked_own := fun e he => h.parked_own e (hsub.subset he)
  torn_known := h.torn_known
  torn_parked := fun e he => h.torn_parked e (hsub.subset he)
  heard := h.heard
  active_known := h.active_known
  active_torn := h.active_torn
  active_parked := fun id hid e he => h.active_parked id hid e (hsub.subset he)

/-- Fewer sessions may be heard. -/
theorem mute (h : Apart l) {attached : List SessionId} (hsub : ∀ id ∈ attached, id ∈ l.attached) :
    Apart { l with attached := attached } :=
  { h with heard := fun id hid => h.heard id (hsub id hid) }

theorem shows (h : Apart l) (settings : Option SshConnectionSettings) (sources : List SessionId) :
    Apart { l with settings := settings, sources := sources } := { h with }

/-- The active session is torn down. -/
theorem tear (h : Apart l) {id : SessionId} (hid : l.session = some id) :
    Apart { l with session := none, tornDown := id :: l.tornDown } where
  alive := h.alive
  parked_known := h.parked_known
  parked_once := h.parked_once
  parked_own := h.parked_own
  torn_known := by
    intro x hx
    rcases List.mem_cons.mp hx with rfl | hx
    · exact h.active_known x hid
    · exact h.torn_known x hx
  torn_parked := by
    intro e he hmem
    rcases List.mem_cons.mp hmem with hx | hx
    · exact h.active_parked id hid e he hx
    · exact h.torn_parked e he hx
  heard := by
    intro x hx
    rcases h.heard x hx with hact | htorn
    · have hxid : x = id := Option.some.inj (hact.symm.trans hid)
      exact .inr (hxid ▸ List.mem_cons_self)
    · exact .inr (List.mem_cons_of_mem _ htorn)
  active_known := fun _ hx => by cases hx
  active_torn := fun _ hx => by cases hx
  active_parked := fun _ hx => by cases hx

/-- The active session is parked, and not heard. -/
theorem park (h : Apart l) {id : SessionId} (hid : l.session = some id) (hmute : id ∉ l.attached) {key home : Text}
    (hown : ∀ x ∈ l.sources, x = id) :
    Apart { l with session := none, parked := (key, ⟨id, home, l.sources⟩) :: l.parked } where
  alive := h.alive
  parked_known := by
    intro e he
    rcases List.mem_cons.mp he with rfl | he
    · exact h.active_known id hid
    · exact h.parked_known e he
  parked_once := by
    refine List.nodup_cons.mpr ⟨?_, h.parked_once⟩
    rintro hmem
    obtain ⟨e, he, heq⟩ := List.mem_map.mp hmem
    exact h.active_parked id hid e he heq
  parked_own := by
    intro e he
    rcases List.mem_cons.mp he with rfl | he
    · exact hown
    · exact h.parked_own e he
  torn_known := h.torn_known
  torn_parked := by
    intro e he
    rcases List.mem_cons.mp he with rfl | he
    · exact h.active_torn id hid
    · exact h.torn_parked e he
  heard := by
    intro x hx
    rcases h.heard x hx with hact | htorn
    · have hxid : x = id := Option.some.inj (hact.symm.trans hid)
      exact absurd (hxid ▸ hx) hmute
    · exact .inr htorn
  active_known := fun _ hx => by cases hx
  active_torn := fun _ hx => by cases hx
  active_parked := fun _ hx => by cases hx

/-- With no session active one becomes it that is known, neither parked nor torn down. -/
theorem activate (h : Apart l) (hnone : l.session = none) {id : SessionId} (hknown : id < l.opened.length)
    (htorn : id ∉ l.tornDown) (hparked : ∀ e ∈ l.parked, e.2.session ≠ id) :
    Apart { l with session := some id, attached := id :: l.attached } where
  alive := h.alive
  parked_known := h.parked_known
  parked_once := h.parked_once
  parked_own := h.parked_own
  torn_known := h.torn_known
  torn_parked := h.torn_parked
  heard := by
    intro x hx
    rcases List.mem_cons.mp hx with rfl | hx
    · exact .inl rfl
    · rcases h.heard x hx with hact | htorn
      · rw [hnone] at hact
        cases hact
      · exact .inr htorn
  active_known := fun _ hx => Option.some.inj hx ▸ hknown
  active_torn := fun _ hx => Option.some.inj hx ▸ htorn
  active_parked := fun _ hx => Option.some.inj hx ▸ hparked

/-- A new session gets a number no other has. -/
theorem openNew (h : Apart l) (s : SshConnectionSettings) : Apart { l with opened := l.opened ++ [s] } where
  alive := h.alive
  parked_known := fun e he => by simpa using Nat.lt_succ_of_lt (h.parked_known e he)
  parked_once := h.parked_once
  parked_own := h.parked_own
  torn_known := fun id hid => by simpa using Nat.lt_succ_of_lt (h.torn_known id hid)
  torn_parked := h.torn_parked
  heard := h.heard
  active_known := fun id hid => by simpa using Nat.lt_succ_of_lt (h.active_known id hid)
  active_torn := h.active_torn
  active_parked := h.active_parked

end Apart

/-! ## What the functions of the dock do to the links -/

section Links

variable {d : SftpDock} {id : SessionId}

theorem call_links (h : d.session = some id) (request : Request) : (d.call request).links = d.links := by
  unfold call
  split
  · next hnone => exact absurd (hnone.symm.trans h) (by simp)
  · rfl

theorem enterDirectory_links (h : d.session = some id) (navigating : Bool) (dir : SftpModel.Index) :
    (d.enterDirectory navigating dir).links = d.links := by
  dsimp only [enterDirectory]
  by_cases hnew : ¬ navigating ∧ dir ≠ d.currentIndex
  · simp only [if_pos hnew]
    split
    · rfl
    · exact call_links (by exact h) _
  · simp only [if_neg hnew]
    split
    · rfl
    · exact call_links (by exact h) _

theorem onConnected_links (h : d.session = some id) (sources : List SessionId) (homePath : Text) :
    (d.onConnected sources homePath).links = { d.links with sources := sources } :=
  enterDirectory_links (by exact h) _ _

theorem onOperationSucceeded_links (h : d.session = some id) (operation : String) (path : Text) :
    (d.onOperationSucceeded operation path).links = d.links := by
  unfold onOperationSucceeded
  split
  · rfl
  · split
    · exact call_links (by exact h) _
    · rfl

theorem slot_links (h : d.session = some id) (signal : Signal) :
    ∃ sources, (d.slot id signal).links = { d.links with sources := sources } ∧ ∀ x ∈ sources, x = id ∨ x ∈ d.sources := by
  cases signal with
  | connected homePath => exact ⟨[id], onConnected_links h _ _, fun x hx => .inl (List.mem_singleton.mp hx)⟩
  | directoryListed path entries => exact ⟨id :: d.sources, rfl, fun x hx => List.mem_cons.mp hx⟩
  | operationFailed operation path message =>
    refine ⟨d.sources, ?_, fun x hx => .inr hx⟩
    dsimp only [slot, onOperationFailed]
    split <;> rfl
  | operationSucceeded operation path =>
    exact ⟨d.sources, onOperationSucceeded_links h operation path, fun x hx => .inr hx⟩
  | transferProgress path bytesDone totalBytes =>
    refine ⟨d.sources, ?_, fun x hx => .inr hx⟩
    dsimp only [slot]
    split <;> rfl
  | connectFailed message => exact ⟨d.sources, rfl, fun x hx => .inr hx⟩
  | disconnected => exact ⟨d.sources, rfl, fun x hx => .inr hx⟩
  | transferStarted path totalBytes => exact ⟨d.sources, rfl, fun x hx => .inr hx⟩
  | transferFinished path ok => exact ⟨d.sources, rfl, fun x hx => .inr hx⟩

theorem replaceParked_links (key : Text) (id : SessionId) (d : SftpDock) :
    ∃ parked : List (Text × Parked), parked.Sublist d.parked ∧ (d.replaceParked key id).links = { d.links with parked := parked } := by
  unfold replaceParked
  split
  · exact ⟨d.parked, List.Sublist.refl _, rfl⟩
  · split
    · exact ⟨_, List.filter_sublist, rfl⟩
    · exact ⟨_, List.filter_sublist, rfl⟩

theorem makeRoom_links (first : Nat) (d : SftpDock) :
    ∃ parked : List (Text × Parked), parked.Sublist d.parked ∧ (d.makeRoom first).links = { d.links with parked := parked } := by
  unfold makeRoom
  split
  · split
    · exact ⟨d.parked, List.Sublist.refl _, rfl⟩
    · exact ⟨_, List.eraseIdx_sublist _ _, rfl⟩
  · exact ⟨d.parked, List.Sublist.refl _, rfl⟩

theorem replaceParked_makeRoom_links (key : Text) (id : SessionId) (first : Nat) (d : SftpDock) :
    ∃ parked : List (Text × Parked), parked.Sublist d.parked ∧
      ((d.replaceParked key id).makeRoom first).links = { d.links with parked := parked } := by
  obtain ⟨ps, hps, hreplaced⟩ := replaceParked_links key id d
  obtain ⟨qs, hqs, hroom⟩ := makeRoom_links first (d.replaceParked key id)
  have hparked : (d.replaceParked key id).parked = ps := congrArg Links.parked hreplaced
  rw [hreplaced] at hroom
  exact ⟨qs, (hparked ▸ hqs).trans hps, hroom⟩

end Links

/-! ## Leaving a connection -/

/-- No session is active, and nothing was opened. -/
structure Left (d d' : SftpDock) : Prop where
  apart : Apart d'.links
  session : d'.session = none
  opened : d'.opened = d.opened

theorem teardownSession_left {d : SftpDock} (h : Apart d.links) : Left d d.teardownSession := by
  unfold teardownSession
  cases hs : d.session with
  | none => exact ⟨h, hs, rfl⟩
  | some id => exact ⟨h.tear hs, rfl, rfl⟩

theorem parkSession_left {d : SftpDock} (h : Sound d) (first : Nat) : Left d (d.parkSession first) := by
  unfold parkSession
  split
  case h_2 => exact teardownSession_left h.apart
  case h_1 id settings hs hset =>
    split
    case isFalse => exact teardownSession_left h.apart
    case isTrue =>
      obtain ⟨ps, hps, hlinks⟩ := replaceParked_makeRoom_links (connectionKey settings) id first (d.disconnect id)
      have hmute : Apart (d.disconnect id).links := h.apart.mute fun x hx => (List.mem_filter.mp hx).1
      have hunheard : id ∉ (d.disconnect id).attached := by simp [disconnect]
      have hown : ∀ x ∈ (d.disconnect id).sources, x = id := fun x hx =>
        Option.some.inj ((h.sources_active x hx).symm.trans hs)
      have hrest := hmute.forget hps
      rw [← hlinks] at hrest
      exact ⟨hrest.park (by rw [hlinks]; exact hs) (by rw [hlinks]; exact hunheard) (by rw [hlinks]; exact hown),
        rfl, congrArg Links.opened hlinks⟩

/-! ## Another connection -/

/-- The dock shows nothing and waits for a session. -/
structure Waiting (d : SftpDock) (settings : Option SshConnectionSettings) : Prop where
  apart : Apart d.links
  session : d.session = none
  settings : d.settings = settings
  sources : d.sources = []

/-- A session is active that was opened for the connection the dock is set to. -/
theorem sound_of_links {d : SftpDock} {l : Links} (hl : d.links = l) (h : Apart l) {id : SessionId}
    {s t : SshConnectionSettings} (hid : l.session = some id) (hs : l.settings = some s) (ht : l.opened[id]? = some t)
    (hst : sameConnection (some t) (some s)) (hsources : ∀ x ∈ l.sources, x = id) : Sound d := by
  subst hl
  exact {
    apart := h
    serves := fun x hx => by
      cases hid.symm.trans hx
      exact ⟨s, t, hs, ht, hst⟩
    sources_active := fun x hx => (hsources x hx).symm ▸ hid
    idle := fun hnone => absurd (hnone.symm.trans hid) (by simp) }

/-- A parked session is taken back. -/
theorem resume_sound {d : SftpDock} {s : SshConnectionSettings} (h : Waiting d (some s)) {p : Parked}
    (hp : d.parked.lookup (connectionKey s) = some p)
    (hserves : ∃ t, d.opened[p.session]? = some t ∧ sameConnection (some t) (some s)) :
    Sound ((({ d.takeParked (connectionKey s) with session := some p.session }.attachSession p.session).onConnected
      p.sources p.home)) := by
  have hmem : (connectionKey s, p) ∈ d.parked := mem_of_lookup hp
  have hother : ∀ e ∈ d.parked.filter fun e => e.1 ≠ connectionKey s, e.2.session ≠ p.session := by
    intro e he heq
    obtain ⟨hin, hkey⟩ := List.mem_filter.mp he
    have hsame : e = (connectionKey s, p) := List.inj_on_of_nodup_map h.apart.parked_once hin hmem heq
    rw [hsame] at hkey
    simp at hkey
  have hactive := (h.apart.forget List.filter_sublist).activate h.session (h.apart.parked_known _ hmem)
    (h.apart.torn_parked _ hmem) hother
  obtain ⟨t, ht, hst⟩ := hserves
  exact sound_of_links (onConnected_links rfl p.sources p.home) (hactive.shows _ _) rfl h.settings ht hst
    (h.apart.parked_own _ hmem)

/-- A new session is opened. -/
theorem open_sound {d : SftpDock} {s : SshConnectionSettings} (h : Waiting d (some s)) :
    Sound (({ d with opened := d.opened ++ [s], session := some d.opened.length }.attachSession d.opened.length).call
      .connectToHost) := by
  have hknown : d.opened.length < (d.opened ++ [s]).length := by simp
  have hactive := (h.apart.openNew s).activate h.session hknown
    (fun htorn => Nat.lt_irrefl _ (h.apart.torn_known _ htorn))
    (fun e he heq => Nat.lt_irrefl _ (heq ▸ h.apart.parked_known e he))
  have hnone : ∀ x ∈ d.sources, x = d.opened.length := by simp [h.sources]
  exact sound_of_links (s := s) (t := s) (call_links rfl .connectToHost) hactive rfl h.settings
    List.getElem?_concat_length (by simp [sameConnection]) hnone

theorem setActiveConnection_sound {d : SftpDock} (h : Sound d) (settings : Option SshConnectionSettings) (first : Nat)
    (hsep : Separate d (.setActiveConnection settings first)) : Sound (d.setActiveConnection settings first) := by
  have hleft := parkSession_left h first
  dsimp only [setActiveConnection]
  cases hsame : sameConnection settings d.settings with
  | true => exact h
  | false =>
    cases settings with
    | none =>
      exact {
        apart := hleft.apart.shows none []
        serves := fun id hid => absurd (hleft.session.symm.trans hid) (by simp)
        sources_active := fun id hid => by cases hid
        idle := fun _ => ⟨rfl, rfl⟩ }
    | some s =>
      have hwait : Waiting (({ { d.parkSession first with settings := some s } with sources := [] }.setRoot []).setStatus
          "Connecting...") (some s) :=
        ⟨hleft.apart.shows (some s) [], hleft.session, rfl, rfl⟩
      simp only [Bool.false_eq_true, if_false]
      split
      · next p hp =>
        obtain ⟨t, ht, hst⟩ := hsep hsame p hp
        exact resume_sound hwait hp ⟨t, (congrArg (·[p.session]?) hleft.opened).trans ht, hst⟩
      · exact open_sound hwait

/-! ## The other events -/

/-- The links stay, and without a session nothing happens. -/
structure Keeps (d d' : SftpDock) : Prop where
  links : d'.links = d.links
  idle : d.session = none → d' = d

theorem Keeps.refl (d : SftpDock) : Keeps d d := ⟨rfl, fun _ => rfl⟩

theorem Keeps.of_session {d d' : SftpDock} {id : SessionId} (hs : d.session = some id) (hl : d'.links = d.links) :
    Keeps d d' := ⟨hl, fun hnone => absurd (hnone.symm.trans hs) (by simp)⟩

/-- Shared by the events after which the same sessions are held: sources may come from the active one. -/
theorem Sound.same_session {d d' : SftpDock} (h : Sound d) (hapart : Apart d'.links) (hs : d'.session = d.session)
    (hset : d'.settings = d.settings) (ho : d'.opened = d.opened) (hsrc : ∀ x ∈ d'.sources, d.session = some x)
    (hidle : d.session = none → d'.rootIndex = d.rootIndex ∧ d'.model = d.model) : Sound d' where
  apart := hapart
  serves := fun id hid => by
    obtain ⟨s, t, h1, h2, h3⟩ := h.serves id (hs ▸ hid)
    exact ⟨s, t, hset.trans h1, by rw [ho]; exact h2, h3⟩
  sources_active := fun id hid => hs.trans (hsrc id hid)
  idle := fun hnone => by
    have hnone' : d.session = none := hs ▸ hnone
    obtain ⟨hroot, hmodel⟩ := hidle hnone'
    rw [hroot, hmodel]
    exact h.idle hnone'

theorem Keeps.sound {d d' : SftpDock} (hk : Keeps d d') (h : Sound d) : Sound d' := by
  have hl := hk.links
  refine h.same_session (by rw [hl]; exact h.apart) (congrArg Links.session hl) (congrArg Links.settings hl)
    (congrArg Links.opened hl) ?_ ?_
  · intro x hx
    have hsrc : d'.sources = d.sources := congrArg Links.sources hl
    exact h.sources_active x (hsrc ▸ hx)
  · intro hnone
    rw [hk.idle hnone]
    exact ⟨rfl, rfl⟩

section Browsing

variable {d : SftpDock}

theorem enterDirectory_keeps (h : d.session = none → False) (navigating : Bool) (dir : SftpModel.Index) :
    Keeps d (d.enterDirectory navigating dir) := by
  cases hs : d.session with
  | none => exact (h hs).elim
  | some id => exact .of_session hs (enterDirectory_links hs navigating dir)

theorem goUp_keeps (h : Sound d) : Keeps d d.goUp := by
  unfold goUp
  split
  · next hsome =>
    refine enterDirectory_keeps (fun hnone => ?_) _ _
    simp [currentIndex, (h.idle hnone).1] at hsome
  · exact .refl d

/-- A root without children is the only node. -/
theorem holds_root {m : SftpModel} (h : m.root.children = []) {number : Nat} (hin : m.holds number) :
    number = m.root.info.number := by
  unfold SftpModel.holds at hin
  cases hroot : m.root with
  | mk info children =>
    rw [hroot] at h hin
    simp only [SftpModel.Node.children] at h
    subst h
    simpa [SftpModel.Node.all, SftpModel.Node.allOf, eq_comm] using hin

theorem doubleClicked_keeps (h : Sound d) (number : Nat) : Keeps d (d.doubleClicked number) := by
  unfold doubleClicked
  split
  · next hin =>
    refine enterDirectory_keeps (fun hnone => ?_) _ _
    exact hin.2.1 (holds_root (h.idle hnone).2 hin.1)
  · exact .refl d

theorem goBack_keeps : Keeps d d.goBack := by
  unfold goBack
  split
  · next id target hs hlast => exact .of_session hs (enterDirectory_links (by exact hs) true _)
  · exact .refl d

theorem goForward_keeps : Keeps d d.goForward := by
  unfold goForward
  split
  · next id target hs hlast => exact .of_session hs (enterDirectory_links (by exact hs) true _)
  · exact .refl d

theorem navigateToPath_keeps (path : Text) : Keeps d (d.navigateToPath path) := by
  unfold navigateToPath
  cases hs : d.session with
  | none => exact .refl d
  | some id =>
    refine .of_session hs ?_
    simp only [reduceCtorEq, if_false]
    split
    · exact enterDirectory_links hs _ _
    · split
      · exact enterDirectory_links hs _ _
      · exact enterDirectory_links (by exact hs) _ _

theorem refresh_keeps : Keeps d d.refresh := by
  dsimp only [refresh]
  split
  · exact .refl d
  · next hsome =>
    obtain ⟨id, hs⟩ := Option.ne_none_iff_exists'.mp hsome
    exact .of_session hs (call_links (by exact hs) _)

theorem newFolder_keeps (name : Text) : Keeps d (d.newFolder name) := by
  dsimp only [newFolder]
  split
  · exact .refl d
  · next hsome =>
    obtain ⟨id, hs⟩ := Option.ne_none_iff_exists'.mp hsome
    exact .of_session hs (call_links (by exact hs) _)

theorem command_keeps (request : Request) : Keeps d (d.command request) := by
  dsimp only [command]
  split
  · exact .refl d
  · next hsome =>
    obtain ⟨id, hs⟩ := Option.ne_none_iff_exists'.mp hsome
    exact .of_session hs (call_links (by exact hs) _)

end Browsing

theorem dropAll_keeps (gone : List (Text × Parked)) (d : SftpDock) :
    (gone.foldl (fun d e => d.dropSession e.2.session) d).links = d.links ∧
      (gone.foldl (fun d e => d.dropSession e.2.session) d).rootIndex = d.rootIndex ∧
      (gone.foldl (fun d e => d.dropSession e.2.session) d).model = d.model := by
  induction gone generalizing d with
  | nil => exact ⟨rfl, rfl, rfl⟩
  | cons e gone ih => exact ih (d.dropSession e.2.session)

theorem keepOnly_sound {d : SftpDock} (h : Sound d) (inUse : List SshConnectionSettings) : Sound (d.keepOnly inUse) := by
  obtain ⟨hdrop, hroot, hmodel⟩ := dropAll_keeps (d.parked.filter fun e => !(inUse.map connectionKey).contains e.1) d
  have hl : (d.keepOnly inUse).links
      = { d.links with parked := d.parked.filter fun e => (inUse.map connectionKey).contains e.1 } :=
    congrArg (fun l : Links => { l with parked := d.parked.filter fun e => (inUse.map connectionKey).contains e.1 }) hdrop
  have hsources : (d.keepOnly inUse).sources = d.sources := congrArg Links.sources hl
  exact h.same_session (by rw [hl]; exact h.apart.forget List.filter_sublist) (congrArg Links.session hl)
    (congrArg Links.settings hl) (congrArg Links.opened hl) (fun x hx => h.sources_active x (hsources ▸ hx))
    (fun _ => ⟨hroot, hmodel⟩)

theorem destroy_sound {d : SftpDock} (h : Sound d) (id : SessionId) : Sound (d.destroy id) := by
  unfold destroy
  split
  · exact h.same_session (h.apart.mute fun x hx => (List.mem_filter.mp hx).1) rfl rfl rfl h.sources_active
      (fun _ => ⟨rfl, rfl⟩)
  · exact h

theorem parkedDisconnected_sound {d : SftpDock} (h : Sound d) (id : SessionId) : Sound (d.parkedDisconnected id) := by
  unfold parkedDisconnected
  split
  · exact h.same_session (h.apart.forget List.eraseP_sublist) rfl rfl rfl h.sources_active (fun _ => ⟨rfl, rfl⟩)
  · exact h

theorem slot_sound {d : SftpDock} (h : Sound d) {id : SessionId} (hs : d.session = some id) (signal : Signal) :
    Sound (d.slot id signal) := by
  obtain ⟨sources, hl, hsub⟩ := slot_links hs signal
  refine h.same_session (by rw [hl]; exact h.apart.shows _ _) (congrArg Links.session hl) (congrArg Links.settings hl)
    (congrArg Links.opened hl) ?_ (fun hnone => absurd (hnone.symm.trans hs) (by simp))
  intro x hx
  have hsrc : (d.slot id signal).sources = sources := congrArg Links.sources hl
  rcases hsub x (hsrc ▸ hx) with rfl | hold
  · exact hs
  · exact h.sources_active x hold

/-- Whoever is heard and was not torn down is active. -/
theorem Sound.heard_active {d : SftpDock} (h : Sound d) {id : SessionId} (hid : id ∈ d.attached) (htorn : id ∉ d.tornDown) :
    d.session = some id := (h.apart.heard id hid).resolve_right htorn

theorem Sound.queue {d : SftpDock} (h : Sound d) (queue : List (SessionId × Signal)) : Sound { d with queue := queue } :=
  h.same_session h.apart rfl rfl rfl h.sources_active (fun _ => ⟨rfl, rfl⟩)

theorem deliver_sound {d : SftpDock} (h : Sound d) {n : Nat} (hsep : Separate d (.delivered n)) : Sound (d.deliver n) := by
  unfold deliver
  split
  · exact h
  · next id signal hq =>
    have hd := h.queue (d.queue.eraseIdx n)
    dsimp only
    split
    · split
      · exact parkedDisconnected_sound hd id
      · exact hd
    · next hsignal =>
      split
      · next hheard => exact slot_sound hd (h.heard_active hheard (hsep id signal hq hsignal)) signal
      · exact hd

theorem step_sound {d : SftpDock} (h : Sound d) {e : DockEvent} (hsep : Separate d e) : Sound (d.step e) := by
  cases e with
  | setActiveConnection settings first => exact setActiveConnection_sound h settings first hsep
  | keepOnly inUse => exact keepOnly_sound h inUse
  | emitted id signal =>
    dsimp only [step]
    split
    · exact h.queue _
    · exact h
  | delivered n => exact deliver_sound h hsep
  | destroyed id => exact destroy_sound h id
  | doubleClicked number => exact (doubleClicked_keeps h number).sound h
  | goUp => exact (goUp_keeps h).sound h
  | goBack => exact goBack_keeps.sound h
  | goForward => exact goForward_keeps.sound h
  | navigateToPath path => exact (navigateToPath_keeps path).sound h
  | refresh => exact refresh_keeps.sound h
  | newFolder name => exact (newFolder_keeps name).sound h
  | command request => exact (command_keeps request).sound h

/-- A session that is not active is not shown. -/
theorem deliver_shown {d : SftpDock} (h : Sound d) {n : Nat} {id : SessionId} {signal : Signal}
    (hq : d.queue[n]? = some (id, signal)) (hother : d.session ≠ some id)
    (hsep : signal ≠ .disconnected → id ∉ d.tornDown) : (d.deliver n).shown = d.shown := by
  unfold deliver
  rw [hq]
  dsimp only
  split
  · split
    · unfold parkedDisconnected
      split <;> rfl
    · rfl
  · next hsignal =>
    have hunheard : id ∉ d.attached := fun hheard => hother (h.heard_active hheard (hsep hsignal))
    rw [if_neg hunheard]
    rfl

theorem step_current {d : SftpDock} (h : Sound d) {e : DockEvent} (hsep : Separate d e) : Current d e := by
  have hnext := step_sound h hsep
  exact {
    alive := hnext.apart.alive
    active_only := by
      rintro n id signal rfl hq hother
      exact deliver_shown h hq hother (hsep id signal hq)
    one_host := fun id hid => ⟨hnext.sources_active id hid, hnext.serves id (hnext.sources_active id hid)⟩ }

theorem start_sound : Sound start where
  apart :=
    { alive := rfl
      parked_known := fun _ he => by cases he
      parked_once := List.nodup_nil
      parked_own := fun _ he => by cases he
      torn_known := fun _ hid => by cases hid
      torn_parked := fun _ he => by cases he
      heard := fun _ hid => by cases hid
      active_known := fun _ hid => by cases hid
      active_torn := fun _ hid => by cases hid
      active_parked := fun _ hid => by cases hid }
  serves := fun _ hid => by cases hid
  sources_active := fun _ hid => by cases hid
  idle := fun _ => ⟨rfl, rfl⟩

/-- As long as no session speaks that was torn down and a parked session is only taken for its own
connection, what reaches the dock belongs to the session it shows. -/
theorem results_of_current_session (es : List DockEvent) (h : Along step Separate es start) :
    Along step Current es start :=
  Along.imp (fun _ _ hs hsep => step_sound hs hsep) (fun _ _ hs hsep => step_current hs hsep) start_sound h

/-- Two connections of which the first is left for the second and taken again. -/
theorem parked_and_back :
    Along step Current
      [.setActiveConnection (some { host := ['h'], username := ['a'] }) 0, .emitted 0 (.connected ['/', 'a']), .delivered 0,
        .setActiveConnection (some { host := ['k'], username := ['b'] }) 0, .emitted 0 .disconnected,
        .setActiveConnection (some { host := ['h'], username := ['a'] }) 0] start := by
  apply results_of_current_session
  refine ⟨fun _ p hp => (by cases hp), trivial, fun _ _ _ _ htorn => (List.not_mem_nil htorn).elim,
    fun _ p hp => (by cases hp), trivial, fun _ p hp => ?_, trivial⟩
  have hparked : p = ⟨0, ['/', 'a'], [0]⟩ := Option.some.inj (hp.symm.trans rfl)
  subst hparked
  exact ⟨{ host := ['h'], username := ['a'] }, rfl, rfl⟩

/-- A pane is left for one without a connection while its session is still connecting. -/
theorem torn_down_session_speaks : ¬ ∀ es, Along step Current es start := by
  intro h
  have hlast := (h [.setActiveConnection (some { host := ['h'], username := ['a'] }) 0, .emitted 0 (.connected ['/', 'a']),
    .setActiveConnection none 0, .delivered 0]).2.2.2.1
  exact absurd hlast.alive (by decide)

end SftpDock

end LvdTerm.Sftp
