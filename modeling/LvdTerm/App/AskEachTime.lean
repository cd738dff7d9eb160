import LvdTerm.App.MainWindow
import LvdTerm.Core.ProfileSecrets
import LvdTerm.Lib.Runs

/-!
# A password that is asked for each time

Two runs of the same events, in which the user types the same user names and other passwords.
Only the snapshots of the panes and the profile store reach the disk, and a snapshot is the profile
as it was before the credentials were resolved; that of the SSH dialog is the exception.
-/
namespace LvdTerm.App

open LvdTerm.Core
open LvdTerm.Lib.Runs (run Along run_related)

/-! ## The claim and its condition -/

/-- The same answer but for the text of the password. -/
def SameButPassword (a b : Answer) : Prop := a.username = b.username ∧ a.password.isSome = b.password.isSome

/-- Where the SSH dialog is to ask for the password each time, the user cancels. -/
def Unasked (answers : Nat → Answer) (app : MainWindow) : MainWindow.Event → Prop
  | .newConnection _ (.ssh settings) _ =>
    complete settings → asksPassword settings → resolve (answers app.answered) settings = none
  | _ => True

/-! ## Results -/

/-- What goes on to the tabs and the session of a result. -/
def NewConnectionResult.kept (r : NewConnectionResult) : QString × Option ConnectionProfile := (r.title, r.snapshot)

section Results

variable {a b : Answer}

theorem resolveUsername_eq (h : SameButPassword a b) : resolveUsername a = resolveUsername b := by
  funext settings
  unfold resolveUsername
  rw [h.1]

theorem resolveUsername_asks {settings named : SshConnectionSettings} (h : resolveUsername a settings = some named) :
    asksPassword named = asksPassword settings := by
  unfold resolveUsername at h
  split at h
  · obtain ⟨value, -, rfl⟩ := Option.map_eq_some_iff.mp h
    rfl
  · rw [← Option.some.inj h]

theorem resolve_isSome (h : SameButPassword a b) (settings : SshConnectionSettings) :
    (resolve a settings).isSome = (resolve b settings).isSome := by
  unfold resolve
  rw [resolveUsername_eq h]
  cases resolveUsername b settings with
  | none => rfl
  | some named =>
    simp only [Option.bind_some, resolvePassword]
    split
    · simp [h.2]
    · rfl

/-- Without the prompt for it the password is not looked at. -/
theorem resolve_unasked (h : SameButPassword a b) {settings : SshConnectionSettings} (hno : asksPassword settings = false) :
    resolve a settings = resolve b settings := by
  unfold resolve
  rw [resolveUsername_eq h]
  cases hnamed : resolveUsername b settings with
  | none => rfl
  | some named => simp [resolvePassword, resolveUsername_asks hnamed, hno]

theorem resultForProfile_kept (h : SameButPassword a b) (profile : ConnectionProfile) :
    (resultForProfile a profile).map NewConnectionResult.kept = (resultForProfile b profile).map NewConnectionResult.kept := by
  have hsome := resolve_isSome h profile.ssh
  unfold resultForProfile
  cases profile.type with
  | ssh =>
    cases ha : resolve a profile.ssh with
    | none =>
      have hb : resolve b profile.ssh = none := by simpa [ha] using hsome
      rw [hb]
    | some s =>
      rw [ha] at hsome
      obtain ⟨t, ht⟩ := Option.isSome_iff_exists.mp hsome.symm
      rw [ht]
      rfl
  | serial => rfl
  | telnet => rfl
  | shell => rfl
  | vnc => rfl
  | rdp => rfl

theorem runSshDialog_kept (h : SameButPassword a b) (id : QUuid) (settings : SshConnectionSettings)
    (hun : complete settings → asksPassword settings → resolve a settings = none) :
    runSshDialog a id settings = runSshDialog b id settings := by
  unfold runSshDialog
  split
  · next hcomplete =>
    have hsame : resolve a settings = resolve b settings := by
      cases hasks : asksPassword settings with
      | false => exact resolve_unasked h hasks
      | true =>
        have hnone := hun hcomplete hasks
        have hsome := resolve_isSome h settings
        rw [hnone] at hsome ⊢
        exact (Option.not_isSome_iff_eq_none.mp (by simp [← hsome])).symm
    rw [hsame]
  · rfl

theorem newConnection_kept (h : SameButPassword a b) (id : QUuid) (connection : NewConnection)
    (hun : ∀ settings, connection = .ssh settings → complete settings → asksPassword settings → resolve a settings = none) :
    connection.result a id = connection.result b id := by
  cases connection with
  | ssh settings => exact runSshDialog_kept h id settings (hun settings rfl)
  | loopback => rfl
  | localTerminal => rfl
  | serial settings => rfl
  | telnet fields => rfl
  | vnc settings => rfl
  | rdp settings => rfl

end Results

/-! ## Two runs -/

namespace MainWindow

def snapshots (app : MainWindow) : List (Option ConnectionProfile) := app.views.map (·.sessionSnapshot)

/-- The two states differ in what the transports and the factories know, if at all. -/
structure Alike (x y : MainWindow) : Prop where
  snapshots : x.snapshots = y.snapshots
  windows : x.windows = y.windows
  answered : x.answered = y.answered
  profileStore : x.profileStore = y.profileStore
  connectionsJson : x.connectionsJson = y.connectionsJson
  sessionJson : x.sessionJson = y.sessionJson
  written : x.written = y.written

theorem map_modify {α β : Type} (g : α → β) {f : α → α} (k : β → β) (h : ∀ x, g (f x) = k (g x)) (l : List α) (i : Nat) :
    (l.modify i f).map g = (l.map g).modify i k := by
  induction l generalizing i with
  | nil => simp
  | cons x l ih =>
    cases i with
    | zero => simp [h]
    | succ i => simp [ih]

theorem join_snapshot (v : Option TerminalView) : (v.map (·.sessionSnapshot)).join = v.bind (·.sessionSnapshot) := by
  cases v <;> rfl

section Steps

variable {x y : MainWindow} {answers answers' : Nat → Answer}

theorem Alike.length (h : Alike x y) : x.views.length = y.views.length := by
  simpa [MainWindow.snapshots] using congrArg List.length h.snapshots

theorem Alike.answer (h : Alike x y) : Alike x.answer y.answer := { h with answered := congrArg (· + 1) h.answered }

/-- What happens to the views may not show in the snapshots. -/
theorem Alike.views (h : Alike x y) {vs ws : List TerminalView}
    (hs : vs.map (·.sessionSnapshot) = ws.map (·.sessionSnapshot)) :
    Alike { x with views := vs } { y with views := ws } := { h with snapshots := hs }

theorem Alike.makeView (h : Alike x y) {r r' : NewConnectionResult} (hr : r.kept = r'.kept) :
    Alike (x.makeView r) (y.makeView r') := by
  refine h.views ?_
  have hsnap : r.snapshot = r'.snapshot := (Prod.mk.inj hr).2
  have hviews : x.views.map (·.sessionSnapshot) = y.views.map (·.sessionSnapshot) := h.snapshots
  simpa [hsnap] using hviews

theorem Alike.place (h : Alike x y) (p : Place) {r r' : Option NewConnectionResult}
    (hr : r.map NewConnectionResult.kept = r'.map NewConnectionResult.kept) : Alike (x.place p r) (y.place p r') := by
  cases r with
  | none =>
    cases r' with
    | none => exact h
    | some r' => cases hr
  | some r =>
    cases r' with
    | none => cases hr
    | some r' =>
      have hkept : r.kept = r'.kept := Option.some.inj hr
      have htitle : r.title = r'.title := (Prod.mk.inj hkept).1
      cases p with
      | tab window =>
        exact { h.makeView hkept with
          windows := by simp only [MainWindow.place, addTerminalTab, h.windows, h.length, htitle] }
      | picker number =>
        exact { h.makeView hkept with
          windows := by simp only [MainWindow.place, finishSplitWithResult, h.windows, h.length] }

/-- The views are changed in a place, and not their snapshots. -/
theorem Alike.modify (h : Alike x y) {f g : TerminalView → TerminalView} (hf : ∀ v, (f v).sessionSnapshot = v.sessionSnapshot)
    (hg : ∀ v, (g v).sessionSnapshot = v.sessionSnapshot) (i : Nat) :
    Alike { x with views := x.views.modify i f } { y with views := y.views.modify i g } := by
  refine h.views ?_
  rw [map_modify _ id hf, map_modify _ id hg, List.modify_id, List.modify_id]
  exact h.snapshots

theorem Alike.reconfigure (h : Alike x y) (view : Nat) {r r' : NewConnectionResult} (hr : r.kept = r'.kept) :
    Alike (x.reconfigure view r) (y.reconfigure view r') := by
  refine h.views ?_
  have hsnap : r.snapshot = r'.snapshot := (Prod.mk.inj hr).2
  have hviews : x.views.map (·.sessionSnapshot) = y.views.map (·.sessionSnapshot) := h.snapshots
  rw [map_modify TerminalView.sessionSnapshot (fun _ => r.snapshot) fun _ => rfl,
    map_modify TerminalView.sessionSnapshot (fun _ => r'.snapshot) fun _ => rfl, hviews, hsnap]

theorem Alike.windows_eq (h : Alike x y) {ws ws' : List Window} (hw : ws = ws') :
    Alike { x with windows := ws } { y with windows := ws' } := { h with windows := hw }

/-- The snapshot of a pane. -/
theorem Alike.snapshot (h : Alike x y) (n : Nat) :
    x.views[n]?.bind (·.sessionSnapshot) = y.views[n]?.bind (·.sessionSnapshot) := by
  have hn := congrArg (fun l => l[n]?.join) h.snapshots
  rw [← join_snapshot, ← join_snapshot, ← List.getElem?_map, ← List.getElem?_map]
  exact hn

theorem Alike.openProfile (h : Alike x y) (ha : ∀ n, SameButPassword (answers n) (answers' n)) (i : Nat) (p : Place) :
    Alike (x.openProfile answers i p) (y.openProfile answers' i p) := by
  unfold MainWindow.openProfile
  rw [h.profileStore]
  split
  · exact h
  · rw [h.answered]
    exact h.answer.place p (resultForProfile_kept (ha _) _)

theorem Alike.duplicate (h : Alike x y) (existing picker : Nat) :
    Alike (x.duplicate existing picker) (y.duplicate existing picker) := by
  have hlen := h.length
  have hsnap := h.snapshot existing
  unfold MainWindow.duplicate
  cases hx : x.views[existing]? with
  | none =>
    have hy : y.views[existing]? = none := by
      rw [List.getElem?_eq_none_iff] at hx ⊢
      omega
    rw [hy]
    exact h
  | some v =>
    have hlt : existing < y.views.length := hlen ▸ (List.getElem?_eq_some_iff.mp hx).1
    have hy := List.getElem?_eq_getElem hlt
    rw [hx, hy] at hsnap
    have hkept : (some v.duplicateResult).map NewConnectionResult.kept
        = (some (y.views[existing]).duplicateResult).map NewConnectionResult.kept :=
      congrArg (fun snapshot => some ([], snapshot)) hsnap
    rw [hy]
    exact h.place (.picker picker) hkept

theorem Alike.changePaneSettings (h : Alike x y) (ha : ∀ n, SameButPassword (answers n) (answers' n)) (window view : Nat)
    (canRespawn canReconfigure : Bool) (edit : Edit) :
    Alike (x.changePaneSettings answers window view canRespawn canReconfigure edit)
      (y.changePaneSettings answers' window view canRespawn canReconfigure edit) := by
  unfold MainWindow.changePaneSettings
  rw [h.snapshot view]
  split
  · exact h
  · next old _ =>
    split
    · split
      · exact h
      · next edited _ =>
        rw [h.windows, h.answered]
        dsimp only
        set renamed := if autoName edited = [] then none else nameWasAuto window view old.name y.windows
        set profile := if renamed.isSome then { edited with name := autoName edited } else edited
        have hkept := resultForProfile_kept (ha y.answered) profile
        cases hx : resultForProfile (answers y.answered) profile with
        | none =>
          cases hy : resultForProfile (answers' y.answered) profile with
          | none => exact h.answer
          | some r' => simp [hx, hy] at hkept
        | some r =>
          cases hy : resultForProfile (answers' y.answered) profile with
          | none => simp [hx, hy] at hkept
          | some r' =>
            have hr : r.kept = r'.kept := by simpa [hx, hy] using hkept
            have hre := h.answer.reconfigure view hr
            cases canReconfigure with
            | false => exact h.answer
            | true =>
              cases renamed with
              | none => exact hre
              | some i => exact hre.windows_eq (congrArg (·.modify window (Window.setTabText i (autoName edited))) hre.windows)
    · exact h

mutual

theorem captureNode_congr {vs ws : List TerminalView}
    (h : ∀ n : Nat, vs[n]?.bind (·.sessionSnapshot) = ws[n]?.bind (·.sessionSnapshot)) :
    ∀ p : Pane, captureNode vs p = captureNode ws p
  | .view n => by simp only [captureNode, h n]
  | .picker _ => rfl
  | .welcome => rfl
  | .splitter orientation sizes children => by simp only [captureNode, captureNodes_congr h children]

theorem captureNodes_congr {vs ws : List TerminalView}
    (h : ∀ n : Nat, vs[n]?.bind (·.sessionSnapshot) = ws[n]?.bind (·.sessionSnapshot)) :
    ∀ ps : List Pane, captureNodes vs ps = captureNodes ws ps
  | [] => rfl
  | p :: ps => by simp only [captureNodes, captureNode_congr h p, captureNodes_congr h ps]

end

/-- What is saved is the same. -/
theorem Alike.captureSession (h : Alike x y) (geometry state : QByteArray) :
    x.captureSession geometry state = y.captureSession geometry state := by
  have htab : captureTab x.views = captureTab y.views := by
    funext tab
    simp only [captureTab, captureNode_congr h.snapshot tab.page]
  simp only [MainWindow.captureSession, h.windows, htab]

mutual

theorem buildNode_alike (ha : ∀ n, SameButPassword (answers n) (answers' n)) :
    ∀ (node : SessionNode) {x y : MainWindow}, Alike x y →
      (buildNode answers node x).1 = (buildNode answers' node y).1 ∧
        Alike (buildNode answers node x).2 (buildNode answers' node y).2
  | .leaf none, x, y, h => ⟨rfl, h⟩
  | .leaf (some profile), x, y, h => by
    have hkept := resultForProfile_kept (ha y.answered) profile
    simp only [buildNode, h.answered, h.length]
    cases hx : resultForProfile (answers y.answered) profile with
    | none =>
      cases hy : resultForProfile (answers' y.answered) profile with
      | none => exact ⟨rfl, h.answer⟩
      | some r' => simp [hx, hy] at hkept
    | some r =>
      cases hy : resultForProfile (answers' y.answered) profile with
      | none => simp [hx, hy] at hkept
      | some r' => exact ⟨rfl, h.answer.makeView (by simpa [hx, hy] using hkept)⟩
  | .splitter orientation sizes children, x, y, h => by
    obtain ⟨hpanes, halike⟩ := buildNodes_alike ha children h
    simp only [buildNode, hpanes]
    exact ⟨trivial, halike⟩

theorem buildNodes_alike (ha : ∀ n, SameButPassword (answers n) (answers' n)) :
    ∀ (nodes : List SessionNode) {x y : MainWindow}, Alike x y →
      (buildNodes answers nodes x).1 = (buildNodes answers' nodes y).1 ∧
        Alike (buildNodes answers nodes x).2 (buildNodes answers' nodes y).2
  | [], x, y, h => ⟨rfl, h⟩
  | node :: nodes, x, y, h => by
    obtain ⟨hpane, hnode⟩ := buildNode_alike ha node h
    obtain ⟨hpanes, hnodes⟩ := buildNodes_alike ha nodes hnode
    simp only [buildNodes, hpane, hpanes]
    exact ⟨trivial, hnodes⟩

end

theorem buildTabs_alike (ha : ∀ n, SameButPassword (answers n) (answers' n)) (tabs : List SessionTab) (h : Alike x y) :
    (buildTabs answers tabs x).1 = (buildTabs answers' tabs y).1 ∧
      Alike (buildTabs answers tabs x).2 (buildTabs answers' tabs y).2 := by
  induction tabs generalizing x y with
  | nil => exact ⟨rfl, h⟩
  | cons tab tabs ih =>
    obtain ⟨hpane, hroot⟩ := buildNode_alike ha tab.root h
    obtain ⟨hrest, htabs⟩ := ih hroot
    simp only [buildTabs, hpane, hrest]
    exact ⟨trivial, htabs⟩

theorem Alike.restoreSession (h : Alike x y) (ha : ∀ n, SameButPassword (answers n) (answers' n)) (state : SessionState) :
    Alike (x.restoreSession answers state) (y.restoreSession answers' state) := by
  obtain ⟨htabs, halike⟩ := buildTabs_alike ha state.tabs h
  unfold MainWindow.restoreSession
  simp only [htabs]
  exact halike.windows_eq rfl

variable {pl : Platform}

theorem Alike.launch (h : Alike x y) (ha : ∀ n, SameButPassword (answers n) (answers' n)) (profileCalls sessionCalls : StoreCalls) :
    Alike (x.launch pl answers profileCalls sessionCalls) (y.launch pl answers' profileCalls sessionCalls) := by
  have hsession : SessionState.load pl sessionCalls x.sessionJson = SessionState.load pl sessionCalls y.sessionJson := by
    rw [h.sessionJson]
  have hnew : Alike
      { x with
        views := []
        windows := [⟨false, [⟨"Welcome".toList, .welcome⟩], 0⟩]
        profileStore := ProfileStore.load pl profileCalls x.connectionsJson ⟨[], []⟩ }
      { y with
        views := []
        windows := [⟨false, [⟨"Welcome".toList, .welcome⟩], 0⟩]
        profileStore := ProfileStore.load pl profileCalls y.connectionsJson ⟨[], []⟩ } :=
    { h with snapshots := rfl, windows := rfl, profileStore := by rw [h.connectionsJson] }
  unfold MainWindow.launch
  rw [hsession]
  dsimp only
  split
  · exact hnew
  · exact hnew.restoreSession ha _

theorem Alike.saveSession (h : Alike x y) (geometry state : QByteArray) (c : StoreCalls) :
    Alike (x.saveSession pl geometry state c) (y.saveSession pl geometry state c) := by
  unfold MainWindow.saveSession
  rw [h.captureSession geometry state]
  exact { h with sessionJson := rfl, written := congrArg (· ++ _) h.written }

theorem Alike.changeStore (h : Alike x y) (change : StoreChange) (c : StoreCalls) :
    Alike (x.changeStore pl change c) (y.changeStore pl change c) := by
  unfold MainWindow.changeStore
  rw [h.profileStore]
  split
  · exact h
  · exact { h with profileStore := rfl, connectionsJson := rfl, written := congrArg (· ++ _) h.written }

theorem Alike.step (h : Alike x y) (ha : ∀ n, SameButPassword (answers n) (answers' n)) {e : Event} (hun : Unasked answers x e) :
    Alike (x.step pl answers e) (y.step pl answers' e) := by
  cases e with
  | launch profileCalls sessionCalls => exact h.launch ha profileCalls sessionCalls
  | newConnection id connection p =>
    dsimp only [MainWindow.step]
    rw [← h.answered, newConnection_kept (ha x.answered) id connection (fun settings hs => by subst hs; exact hun)]
    exact h.answer.place p rfl
  | openProfile i p => exact h.openProfile ha i p
  | duplicate existing picker => exact h.duplicate existing picker
  | changePaneSettings window view canRespawn canReconfigure edit =>
    exact h.changePaneSettings ha window view canRespawn canReconfigure edit
  | retried view => exact h.answer.modify (fun v => by split <;> rfl) (fun v => by split <;> rfl) view
  | reconnected view =>
    dsimp only [MainWindow.step, reconnect]
    exact h.modify (by intro v; rfl) (by intro v; rfl) view
  | arranged windows => exact h.windows_eq rfl
  | changeStore change c => exact h.changeStore change c
  | saveSession geometry state c => exact h.saveSession geometry state c

end Steps

/-- If the SSH dialog is never made to ask for a password each time, what is written does not depend on
the passwords that are typed. -/
theorem typed_passwords_not_written (pl : Platform) (answers answers' : Nat → Answer)
    (ha : ∀ n, SameButPassword (answers n) (answers' n)) (connectionsJson : ProfileFile) (sessionJson : Option QJsonValue)
    (events : List Event) (h : Along (step pl answers) (Unasked answers) events (start connectionsJson sessionJson)) :
    (run (step pl answers) events (start connectionsJson sessionJson)).written
      = (run (step pl answers') events (start connectionsJson sessionJson)).written := by
  have hstart : Alike (start connectionsJson sessionJson) (start connectionsJson sessionJson) :=
    ⟨rfl, rfl, rfl, rfl, rfl, rfl, rfl⟩
  have hstep : ∀ x y e, Alike x y → Unasked answers x e → Alike (x.step pl answers e) (y.step pl answers' e) :=
    fun _ _ _ halike hun => halike.step ha hun
  exact (run_related hstep events hstart h).written

/-- A saved connection that asks for its password each time, as the store writes it. -/
def askingProfiles : ProfileFile :=
  ProfileStore.save .ascii (callsWith (keyOf 1).val)
    ⟨[{ id := 1, type := .ssh, ssh := { host := ['h'], username := ['a'], promptForPassword := true } }], []⟩

/-- The pane that a saved connection was opened in, with a picker beside it. -/
def besidePicker : List Window := [⟨false, [⟨[], .splitter .horizontal [1, 1] [.view 0, .picker 0]⟩], 0⟩]

theorem saved_profile_keeps_nothing :
    (run (step .ascii fun _ => ⟨none, some ['x']⟩)
        [.launch (callsWith (keyOf 1).val) (callsWith (keyOf 1).val), .openProfile 0 (.tab 0), .arranged besidePicker,
          .duplicate 0 0, .retried 0, .saveSession [] [] (callsWith (keyOf 1).val)]
        (start askingProfiles none)).written
      = (run (step .ascii fun _ => ⟨none, some ['y', 'z']⟩)
          [.launch (callsWith (keyOf 1).val) (callsWith (keyOf 1).val), .openProfile 0 (.tab 0), .arranged besidePicker,
            .duplicate 0 0, .retried 0, .saveSession [] [] (callsWith (keyOf 1).val)]
          (start askingProfiles none)).written :=
  typed_passwords_not_written .ascii _ _ (fun _ => ⟨rfl, rfl⟩) askingProfiles none _
    ⟨trivial, trivial, trivial, trivial, trivial, trivial, trivial⟩

/-- The stored password of the first tab of a session document. -/
def firstPassword (document : QJsonObject) : QString :=
  let tab := ((document.value "tabs").toArray.headD .null).toObject
  let connection := (QJsonObject.value (QJsonObject.value tab "root").toObject "connection").toObject
  (QJsonObject.value (QJsonObject.value connection "ssh").toObject "passwordProtected").toString

/-- The SSH dialog keeps the password that was typed at its prompt. -/
theorem dialog_writes_typed_password : ¬ ∀ (pl : Platform) (answers answers' : Nat → Answer),
    (∀ n, SameButPassword (answers n) (answers' n)) → ∀ (connectionsJson : ProfileFile) (sessionJson : Option QJsonValue)
      (events : List Event), (run (step pl answers) events (start connectionsJson sessionJson)).written
        = (run (step pl answers') events (start connectionsJson sessionJson)).written := by
  intro h
  have hsame := h .ascii (fun _ => ⟨none, some ['x']⟩) (fun _ => ⟨none, some ['y']⟩) (fun _ => ⟨rfl, rfl⟩) none none
    [.launch (callsWith (keyOf 1).val) (callsWith (keyOf 1).val),
      .newConnection 1 (.ssh { host := ['h'], username := ['a'], promptForPassword := true }) (.tab 0),
      .saveSession [] [] (callsWith (keyOf 1).val)]
  exact absurd (congrArg (List.map firstPassword) hsame) (by decide +kernel)

end MainWindow

end LvdTerm.App
