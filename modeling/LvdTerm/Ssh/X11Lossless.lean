import LvdTerm.Ssh.X11Ledger

/-!
# X11Forwarder: which bytes are lost

`Lossless` is what the bridge should be: at both ends the bytes come out in order, and all of them
before the connection is removed. A pass that finds the end of either side removes the connection
without a look at its buffers, so `Spares` asks that these are empty then.
-/
namespace LvdTerm.Ssh

open LvdTerm.Core (QByteArray)
open Lib.Runs

/-- The connection may be removed: both ends have got everything. -/
structure Complete (x : Cookies) (b : Bridge) : Prop where
  toLocal : b.eof = true → b.handed = rewritten x b.read
  toRemote : b.written = b.sent

structure Lossless (x : Cookies) (s : X11Forwarder) : Prop where
  defined : s.undefined = false
  inOrder : ∀ b ∈ s.connections ++ s.removed, b.handed <+: rewritten x b.read ∧ b.written <+: b.sent
  complete : ∀ b ∈ s.removed, Complete x b

/-! ## The condition on a pass -/

/-- The stream begins with a request that does not show our cookie, or with none at all. -/
def Wrong (x : Cookies) (stream : QByteArray) : Prop :=
  (∃ r rest, SetupRequest.decode stream = some (r, rest) ∧ r.data.bytes ≠ x.fakeCookie.val) ∨
    (12 ≤ stream.length ∧ ByteOrder.ofMark (stream.getD 0 0) = none)

def Refused (x : Cookies) (b : Bridge) (calls : Calls) : Prop :=
  b.conn.setupDone = false ∧ Wrong x (b.read ++ calls.reads.flatten)

/-- The remote side is found to be at its end, or is refused. -/
def RemoteEnds (x : Cookies) (b : Bridge) (calls : Calls) : Prop :=
  Refused x b calls ∨ calls.ending = .error ∨ calls.ending = .eof

/-- How many of `n` bytes the writes leave behind, unless one fails before the end. -/
def left : Nat → List WriteResult → Option Nat
  | 0, _ => some 0
  | n + 1, [] => some (n + 1)
  | n + 1, .eagain :: _ => some (n + 1)
  | _ + 1, .error :: _ => none
  | n + 1, .accepted k :: results => left (n + 1 - k) results

/-- The bytes for the channel in this pass, if the remote side does not end. -/
def Bridge.outgoing (b : Bridge) (calls : Calls) : QByteArray :=
  if b.unconnected = false ∧ calls.isOpen = true then b.conn.toRemote ++ b.incoming else b.conn.toRemote

/-- The pass loses nothing: the end of file comes when the local server has all that came before;
a connection that ends has nothing left for the channel; and no write to the channel fails. -/
structure Spares (x : Cookies) (b : Bridge) (calls : Calls) : Prop where
  toLocal : calls.ending = .eof → b.conn.toLocal = [] ∧ rewritten x (b.read ++ calls.reads.flatten) = rewritten x b.read
  remoteEnds : RemoteEnds x b calls → b.conn.toRemote = [] ∧ b.incoming = []
  goesOn : ¬ RemoteEnds x b calls → left (b.outgoing calls).length calls.channelWrites ≠ none ∧
    (b.unconnected = true → left (b.outgoing calls).length calls.channelWrites = some 0 → b.incoming = [])

/-- The list of connections stays where it is while `pump` works on one of them, and the pass
loses nothing. -/
def VisitSpares (x : Cookies) (s : X11Forwarder × Nat) (p : Pass) : Prop :=
  match s.1.connections[s.2]? with
  | none => True
  | some b => (p.adopted ≠ [] → p.moves = false) ∧ Spares x b p.calls

def StepSpares (x : Cookies) (s : X11Forwarder) : ForwarderEvent → Prop
  | .pump passes => Along (visit x) (VisitSpares x) passes (s, 0)
  | _ => True

/-! ## The setup request -/

variable {x : Cookies}

theorem Wrong.append {stream : QByteArray} (h : Wrong x stream) (t : QByteArray) : Wrong x (stream ++ t) := by
  obtain ⟨r, rest, hdecode, hcookie⟩ | ⟨hlen, hmark⟩ := h
  · exact .inl ⟨r, rest ++ t, decode_append hdecode t, hcookie⟩
  · right
    have hget : (stream ++ t).getD 0 0 = stream.getD 0 0 := by
      cases stream with
      | nil => cases hlen
      | cons _ _ => rfl
    rw [hget, List.length_append]
    exact ⟨by omega, hmark⟩

theorem ofMark_of_decode {stream rest : QByteArray} {r : SetupRequest} (h : SetupRequest.decode stream = some (r, rest)) :
    ByteOrder.ofMark (stream.getD 0 0) = some r.order := by
  rw [SetupRequest.encode_of_decode h]
  exact ByteOrder.ofMark_mark r.order

theorem Authorized.not_wrong {stream : QByteArray} (h : Authorized x stream) : ¬ Wrong x stream := by
  obtain ⟨r, rest, hdecode, hcookie⟩ := h
  rintro (⟨r', rest', hdecode', hcookie'⟩ | ⟨_, hmark⟩)
  · rw [hdecode] at hdecode'
    cases hdecode'
    exact hcookie' hcookie
  · rw [ofMark_of_decode hdecode] at hmark
    cases hmark

theorem processSetup_none_iff (c : Connection) : processSetup x c = none ↔ Wrong x c.setup := by
  cases hdecode : SetupRequest.decode c.setup with
  | none =>
    rw [processSetup_incomplete x c hdecode]
    constructor
    · intro h
      split at h
      next hmark => exact .inr hmark
      next => cases h
    · rintro (⟨r, rest, hsome, _⟩ | hmark)
      · rw [hdecode] at hsome
        cases hsome
      · rw [if_pos hmark]
  | some p =>
    rw [processSetup_complete x c hdecode]
    constructor
    · intro h
      split at h
      next => cases h
      next hcookie => exact .inl ⟨p.1, p.2, hdecode, hcookie⟩
    · intro hwrong
      rw [if_neg]
      intro hcookie
      exact Authorized.not_wrong ⟨p.1, p.2, hdecode, hcookie⟩ hwrong

/-- A connection that still waits after `processSetup` has seen no complete request. -/
theorem not_authorized_of_waits {c : Connection} (h : processSetup x c = some c) (hwaits : c.setupDone = false) :
    ¬ Authorized x c.setup := by
  rintro ⟨r, rest, hdecode, hcookie⟩
  rw [processSetup_complete x c hdecode, if_pos hcookie] at h
  have hdone : true = c.setupDone := congrArg Connection.setupDone (Option.some.inj h)
  rw [hwaits] at hdone
  cases hdone

/-! ## The reading loop -/

/-- A connection in the list. -/
structure Live (x : Cookies) (b : Bridge) : Prop where
  ledger : Ledger x b
  eof : b.eof = false
  waits : b.conn.setupDone = false → ¬ Wrong x b.read ∧ ¬ Authorized x b.read

/-- What the reading loop leaves alone. -/
structure ReadFrame (b b' : Bridge) : Prop where
  toRemote : b'.conn.toRemote = b.conn.toRemote
  incoming : b'.incoming = b.incoming
  unconnected : b'.unconnected = b.unconnected
  handed : b'.handed = b.handed
  sent : b'.sent = b.sent
  written : b'.written = b.written

theorem readChannel_frame (reads : List QByteArray) (ending : ReadEnd) (b : Bridge) :
    ReadFrame b (readChannel x reads ending b).1 := by
  induction reads generalizing b with
  | nil => exact ⟨rfl, rfl, rfl, rfl, rfl, rfl⟩
  | cons bytes reads ih =>
    unfold readChannel
    split
    · obtain ⟨h1, h2, h3, h4, h5, h6⟩ := ih { b with
        read := b.read ++ bytes
        conn := { b.conn with toLocal := b.conn.toLocal ++ bytes } }
      exact ⟨h1, h2, h3, h4, h5, h6⟩
    · split
      · exact ⟨rfl, rfl, rfl, rfl, rfl, rfl⟩
      next conn hconn =>
        obtain ⟨h1, h2, h3, h4, h5, h6⟩ := ih { b with read := b.read ++ bytes, conn }
        have hsame : conn.toRemote = b.conn.toRemote := by
          obtain rfl | ⟨_, rfl⟩ := processSetup_some hconn <;> rfl
        exact ⟨h1.trans hsame, h2, h3, h4, h5, h6⟩

/-- The loop ends the connection exactly where the remote side ends, and reads everything unless
the connection is refused. -/
structure ReadSpec (x : Cookies) (b : Bridge) (reads : List QByteArray) (ending : ReadEnd) (r : Bridge × Bool) : Prop where
  dead : r.2 = true ↔ (b.conn.setupDone = false ∧ Wrong x (b.read ++ reads.flatten)) ∨ ending = .error ∨ ending = .eof
  eof : r.1.eof = true ↔ ¬ (b.conn.setupDone = false ∧ Wrong x (b.read ++ reads.flatten)) ∧ ending = .eof
  read : ¬ (b.conn.setupDone = false ∧ Wrong x (b.read ++ reads.flatten)) → r.1.read = b.read ++ reads.flatten
  waits : r.2 = false → r.1.conn.setupDone = false → ¬ Wrong x r.1.read ∧ ¬ Authorized x r.1.read

theorem ReadSpec.next {b b' : Bridge} {bytes : QByteArray} {reads : List QByteArray} {ending : ReadEnd} {r : Bridge × Bool}
    (h : ReadSpec x b' reads ending r) (hread : b'.read = b.read ++ bytes)
    (hrefused : (b'.conn.setupDone = false ∧ Wrong x (b.read ++ bytes ++ reads.flatten)) ↔
      (b.conn.setupDone = false ∧ Wrong x (b.read ++ bytes ++ reads.flatten))) : ReadSpec x b (bytes :: reads) ending r := by
  obtain ⟨hdead, heof, hall, hwaits⟩ := h
  rw [hread, hrefused] at hdead heof hall
  have hflatten : b.read ++ (bytes :: reads).flatten = b.read ++ bytes ++ reads.flatten := by
    rw [List.flatten_cons, List.append_assoc]
  constructor
  · rw [hflatten]
    exact hdead
  · rw [hflatten]
    exact heof
  · rw [hflatten]
    exact hall
  · exact hwaits

theorem readChannel_spec (reads : List QByteArray) (ending : ReadEnd) {b : Bridge} (h : Live x b) :
    ReadSpec x b reads ending (readChannel x reads ending b) := by
  induction reads generalizing b with
  | nil =>
    have hnot : ¬ (b.conn.setupDone = false ∧ Wrong x (b.read ++ [].flatten)) := by
      rintro ⟨hwaits, hwrong⟩
      rw [List.flatten_nil, List.append_nil] at hwrong
      exact (h.waits hwaits).1 hwrong
    constructor
    · rw [or_iff_right hnot]
      simp [readChannel]
    · rw [and_iff_right hnot]
      simp [readChannel]
    · intro _
      exact (List.append_nil b.read).symm
    · intro _ hwaits
      exact h.waits hwaits
  | cons bytes reads ih =>
    cases hdone : b.conn.setupDone with
    | true =>
      have hlive : Live x { b with
          read := b.read ++ bytes
          conn := { b.conn with toLocal := b.conn.toLocal ++ bytes } } := by
        obtain ⟨hauth, hlocal⟩ := h.ledger.done hdone
        refine ⟨⟨fun hnot => absurd (hdone.symm.trans hnot) (by decide), fun _ => ⟨hauth.append bytes, ?_⟩, h.ledger.remote⟩,
          h.eof, fun hnot => absurd (hdone.symm.trans hnot) (by decide)⟩
        rw [hauth.rewritten_append, ← hlocal, List.append_assoc]
      unfold readChannel
      rw [if_pos hdone]
      exact (ih hlive).next rfl Iff.rfl
    | false =>
      obtain ⟨hsetup, hlocal, hhanded, hcalls⟩ := h.ledger.waiting hdone
      unfold readChannel
      rw [if_neg (by rw [hdone]; exact Bool.false_ne_true)]
      split
      next hnone =>
        have hwrong : Wrong x (b.read ++ bytes) := by
          rw [processSetup_none_iff] at hnone
          dsimp only at hnone
          rwa [hsetup] at hnone
        have hrefused : b.conn.setupDone = false ∧ Wrong x (b.read ++ (bytes :: reads).flatten) := by
          rw [List.flatten_cons, ← List.append_assoc]
          exact ⟨hdone, hwrong.append _⟩
        constructor
        · exact iff_of_true rfl (.inl hrefused)
        · exact iff_of_false (Bool.eq_false_iff.mp h.eof) (fun hnot => hnot.1 hrefused)
        · intro hnot
          exact absurd hrefused hnot
        · intro hdead
          cases hdead
      next conn hconn =>
        have hnotWrong : ¬ Wrong x (b.read ++ bytes) := by
          intro hwrong
          have hnone : processSetup x { b.conn with setup := b.conn.setup ++ bytes } = none := by
            rw [processSetup_none_iff]
            dsimp only
            rwa [hsetup]
          rw [hnone] at hconn
          cases hconn
        obtain rfl | ⟨hauth, rfl⟩ := processSetup_some hconn
        · have hnotAuth := not_authorized_of_waits hconn hdone
          dsimp only at hnotAuth
          rw [hsetup] at hnotAuth
          have hlive : Live x { b with
              read := b.read ++ bytes
              conn := { b.conn with setup := b.conn.setup ++ bytes } } :=
            ⟨⟨fun _ => ⟨congrArg (· ++ bytes) hsetup, hlocal, hhanded, hcalls⟩,
              fun hnot => absurd (hdone.symm.trans hnot) (by decide), h.ledger.remote⟩, h.eof, fun _ => ⟨hnotWrong, hnotAuth⟩⟩
          exact (ih hlive).next rfl Iff.rfl
        · dsimp only at hauth
          rw [hsetup] at hauth
          have hlive : Live x { b with
              read := b.read ++ bytes
              conn := { b.conn with
                setup := []
                toLocal := b.conn.toLocal ++ rewritten x (b.conn.setup ++ bytes)
                setupDone := true } } := by
            refine ⟨⟨(fun h => by cases h), fun _ => ⟨hauth, ?_⟩, h.ledger.remote⟩, h.eof, (fun h => by cases h)⟩
            dsimp only
            rw [hhanded, hlocal, hsetup]
            rfl
          apply (ih hlive).next rfl
          constructor
          · rintro ⟨hnot, _⟩
            cases hnot
          · rintro ⟨_, hwrong⟩
            exact absurd hwrong (hauth.append _).not_wrong

/-! ## The writing loop -/

/-- The loop stops at a failing write with bytes left, or with as many as `left` says. -/
structure WriteSpec (b : Bridge) (results : List WriteResult) (r : Bridge × Bool) : Prop where
  failed : r.2 = true → left b.conn.toRemote.length results = none ∧ r.1.conn.toRemote ≠ []
  stopped : r.2 = false → left b.conn.toRemote.length results = some r.1.conn.toRemote.length
  incoming : r.1.incoming = b.incoming
  unconnected : r.1.unconnected = b.unconnected
  eof : r.1.eof = b.eof
  read : r.1.read = b.read
  setupDone : r.1.conn.setupDone = b.conn.setupDone

theorem writeChannel_spec (results : List WriteResult) (b : Bridge) : WriteSpec b results (writeChannel results b) := by
  induction results generalizing b with
  | nil =>
    have hleft : ∀ n, left n [] = some n := by
      intro n
      cases n <;> rfl
    exact ⟨(fun h => by cases h), fun _ => hleft _, rfl, rfl, rfl, rfl, rfl⟩
  | cons result results ih =>
    unfold writeChannel
    split
    next hnone =>
      refine ⟨(fun h => by cases h), fun _ => ?_, rfl, rfl, rfl, rfl, rfl⟩
      rw [hnone]
      rfl
    next hsome =>
      obtain ⟨n, hn⟩ := Nat.exists_eq_succ_of_ne_zero (mt List.eq_nil_of_length_eq_zero hsome)
      cases result with
      | eagain =>
        refine ⟨(fun h => by cases h), fun _ => ?_, rfl, rfl, rfl, rfl, rfl⟩
        rw [hn]
        rfl
      | error =>
        refine ⟨fun _ => ⟨?_, hsome⟩, (fun h => by cases h), rfl, rfl, rfl, rfl, rfl⟩
        rw [hn]
        rfl
      | accepted k =>
        obtain ⟨hfailed, hstopped, h1, h2, h3, h4, h5⟩ := ih { b with
          written := b.written ++ b.conn.toRemote.take k
          conn := { b.conn with toRemote := b.conn.toRemote.drop k } }
        have hleft : left b.conn.toRemote.length (.accepted k :: results) = left (b.conn.toRemote.drop k).length results := by
          rw [List.length_drop, hn]
          rfl
        exact ⟨fun h => ⟨hleft.trans (hfailed h).1, (hfailed h).2⟩, fun h => hleft.trans (hstopped h), h1, h2, h3, h4, h5⟩

/-! ## A pass -/

theorem Live.adopted (connects : Bool) : Live x (adopted connects) where
  ledger := adopted_ledger connects
  eof := rfl
  waits _ := by
    constructor
    · rintro (⟨r, rest, hdecode, _⟩ | ⟨hlen, _⟩)
      · cases hdecode
      · cases hlen
    · rintro ⟨r, rest, hdecode, _⟩
      cases hdecode

theorem Live.display {b : Bridge} (h : Live x b) (event : DisplayEvent) : Live x (b.display event) := by
  have hledger := display_ledger event h.ledger
  cases event with
  | closes => exact ⟨hledger, h.eof, h.waits⟩
  | sends bytes =>
    dsimp only [Bridge.display] at hledger ⊢
    split at hledger
    next hclosed =>
      rw [if_pos hclosed]
      exact h
    next hopen =>
      rw [if_neg hopen]
      exact ⟨hledger, h.eof, h.waits⟩

/-- All that was sent has been written where nothing is left in between. -/
theorem Ledger.written_iff {b : Bridge} (h : Ledger x b) :
    b.written = b.sent ↔ b.conn.toRemote = [] ∧ b.incoming = [] := by
  rw [← h.remote, List.append_assoc]
  constructor
  · intro hall
    exact List.append_eq_nil_iff.mp (List.self_eq_append_right.mp hall)
  · rintro ⟨h1, h2⟩
    rw [h1, h2, List.append_nil, List.append_nil]

theorem Live.handed_iff {b : Bridge} (h : Live x b) (bytes : QByteArray) :
    b.handed = rewritten x (b.read ++ bytes) ↔
      b.conn.toLocal = [] ∧ rewritten x (b.read ++ bytes) = rewritten x b.read := by
  cases hdone : b.conn.setupDone with
  | true =>
    obtain ⟨hauth, hlocal⟩ := h.ledger.done hdone
    rw [hauth.rewritten_append, ← hlocal, List.append_assoc]
    constructor
    · intro hall
      obtain ⟨h1, h2⟩ := List.append_eq_nil_iff.mp (List.self_eq_append_right.mp hall)
      rw [h1, h2]
      exact ⟨rfl, rfl⟩
    · rintro ⟨h1, h2⟩
      rw [h1] at h2 ⊢
      exact ((List.append_nil _).symm.trans h2.symm)
  | false =>
    obtain ⟨_, hlocal, hhanded, _⟩ := h.ledger.waiting hdone
    rw [hhanded, hlocal, rewritten_of_not_authorized (h.waits hdone).2]
    constructor
    · intro hnone
      exact ⟨rfl, hnone.symm⟩
    · intro hnone
      exact hnone.2.symm

/-- A pass that finds the remote side at its end removes the connection as it is. -/
theorem pass_of_remoteEnds {calls : Calls} {b : Bridge} (h : (readChannel x calls.reads calls.ending b).2 = true) :
    pass x calls b = ((readChannel x calls.reads calls.ending b).1, true) := by
  unfold pass
  simp only [h, Bool.not_true, Bool.false_and, Bool.false_eq_true, if_false, if_true, Bool.true_or]

/-- The connection before the writing loop, if the remote side goes on. -/
def afterSocket (x : Cookies) (calls : Calls) (b : Bridge) : Bridge :=
  if !(readChannel x calls.reads calls.ending b).1.unconnected && calls.isOpen then
    readSocket (writeSocket calls.socketWrite (readChannel x calls.reads calls.ending b).1)
  else (readChannel x calls.reads calls.ending b).1

theorem pass_of_goesOn {calls : Calls} {b : Bridge} (h : (readChannel x calls.reads calls.ending b).2 = false) :
    pass x calls b = ((writeChannel calls.channelWrites (afterSocket x calls b)).1,
      (writeChannel calls.channelWrites (afterSocket x calls b)).2 ||
        (b.unconnected && (writeChannel calls.channelWrites (afterSocket x calls b)).1.conn.toRemote.isEmpty)) := by
  have hunconnected := (readChannel_frame (x := x) calls.reads calls.ending b).unconnected
  unfold pass afterSocket
  simp only [h, hunconnected, Bool.not_false, Bool.true_and, Bool.false_or, Bool.false_eq_true, if_false]

structure SocketSpec (x : Cookies) (b b' : Bridge) (calls : Calls) : Prop where
  ledger : Ledger x b'
  toRemote : b'.conn.toRemote = b.outgoing calls
  incoming : b.unconnected = true → b'.incoming = b.incoming
  unconnected : b'.unconnected = b.unconnected
  eof : b'.eof = (readChannel x calls.reads calls.ending b).1.eof
  read : b'.read = (readChannel x calls.reads calls.ending b).1.read
  setupDone : b'.conn.setupDone = (readChannel x calls.reads calls.ending b).1.conn.setupDone

theorem writeSocket_frame (n : Nat) (b : Bridge) : (writeSocket n b).conn.toRemote = b.conn.toRemote ∧
    (writeSocket n b).incoming = b.incoming ∧ (writeSocket n b).unconnected = b.unconnected ∧ (writeSocket n b).eof = b.eof ∧
    (writeSocket n b).read = b.read ∧ (writeSocket n b).conn.setupDone = b.conn.setupDone := by
  unfold writeSocket
  split <;> exact ⟨rfl, rfl, rfl, rfl, rfl, rfl⟩

theorem afterSocket_spec (calls : Calls) {b : Bridge} (h : Ledger x b) : SocketSpec x b (afterSocket x calls b) calls := by
  have hread := readChannel_ledger calls.reads calls.ending h
  obtain ⟨htoRemote, hincoming, hunconnected, _, _, _⟩ := readChannel_frame (x := x) calls.reads calls.ending b
  unfold afterSocket
  rw [hunconnected]
  by_cases hsocket : b.unconnected = false ∧ calls.isOpen = true
  · obtain ⟨h1, h2, h3, h4, h5, h6⟩ := writeSocket_frame calls.socketWrite (readChannel x calls.reads calls.ending b).1
    rw [hsocket.1, hsocket.2, Bool.not_false, Bool.and_self, if_pos rfl]
    refine ⟨readSocket_ledger (writeSocket_ledger _ hread), ?_, ?_, h3.trans hunconnected, h4, h5, h6⟩
    · rw [Bridge.outgoing, if_pos hsocket]
      exact congrArg₂ List.append (h1.trans htoRemote) (h2.trans hincoming)
    · intro hclosed
      exact absurd (hsocket.1.symm.trans hclosed) Bool.false_ne_true
  · have hoff : (!b.unconnected && calls.isOpen) = false := by
      rw [Bool.eq_false_iff, ne_eq, Bool.and_eq_true, Bool.not_eq_true']
      exact hsocket
    rw [hoff, if_neg Bool.false_ne_true]
    refine ⟨hread, ?_, fun _ => hincoming, hunconnected, rfl, rfl, rfl⟩
    rw [Bridge.outgoing, if_neg hsocket]
    exact htoRemote

/-- A pass removes no connection that is not complete, exactly where it spares it. -/
theorem pass_complete_iff (calls : Calls) {b : Bridge} (h : Live x b) :
    ((pass x calls b).2 = true → Complete x (pass x calls b).1) ↔ Spares x b calls := by
  obtain ⟨hdead, heof, hread, _⟩ := readChannel_spec calls.reads calls.ending h
  obtain ⟨htoRemote, hincoming, hunconnected, hhanded, hsent, hwritten⟩ :=
    readChannel_frame (x := x) calls.reads calls.ending b
  cases hends : (readChannel x calls.reads calls.ending b).2 with
  | true =>
    have hremote : RemoteEnds x b calls := hdead.mp hends
    rw [pass_of_remoteEnds hends]
    constructor
    · intro hcomplete
      obtain ⟨hlocal, hall⟩ := hcomplete rfl
      dsimp only at hlocal hall
      rw [hwritten, hsent, h.ledger.written_iff] at hall
      refine ⟨fun hend => ?_, fun _ => hall, fun hnot => absurd hremote hnot⟩
      by_cases hrefused : Refused x b calls
      · obtain ⟨_, hempty, _, _⟩ := h.ledger.waiting hrefused.1
        refine ⟨hempty, ?_⟩
        rw [rewritten_of_not_authorized (h.waits hrefused.1).2, rewritten_of_not_authorized]
        exact fun hauth => hauth.not_wrong hrefused.2
      · have hlast := hlocal (heof.mpr ⟨hrefused, hend⟩)
        rw [hhanded, hread hrefused] at hlast
        exact (h.handed_iff _).mp hlast
    · intro hspares _
      constructor
      · intro hlast
        obtain ⟨hnot, hend⟩ := heof.mp hlast
        dsimp only
        rw [hhanded, hread hnot]
        exact (h.handed_iff _).mpr (hspares.toLocal hend)
      · dsimp only
        rw [hwritten, hsent, h.ledger.written_iff]
        exact hspares.remoteEnds hremote
  | false =>
    have hgoes : ¬ RemoteEnds x b calls := fun hremote => Bool.false_ne_true (hends.symm.trans (hdead.mpr hremote))
    have hnotEof : (readChannel x calls.reads calls.ending b).1.eof = false :=
      Bool.eq_false_iff.mpr fun hlast => hgoes (.inr (.inr (heof.mp hlast).2))
    obtain ⟨hledger, hout, hin, hclosed, heofSame, _, _⟩ := afterSocket_spec calls h.ledger
    obtain ⟨hfailed, hstopped, hwin, _, hweof, _, _⟩ := writeChannel_spec calls.channelWrites (afterSocket x calls b)
    have hfinal := writeChannel_ledger calls.channelWrites hledger
    rw [pass_of_goesOn hends]
    rw [hout] at hfailed hstopped
    constructor
    · intro hcomplete
      refine ⟨fun hend => absurd (.inr (.inr hend)) hgoes, fun hremote => absurd hremote hgoes, fun _ => ⟨?_, ?_⟩⟩
      · intro hnone
        cases hw : (writeChannel calls.channelWrites (afterSocket x calls b)).2 with
        | false =>
          rw [hstopped hw] at hnone
          cases hnone
        | true =>
          have hall := (hcomplete (by dsimp only; rw [hw, Bool.true_or])).toRemote
          exact (hfailed hw).2 (hfinal.written_iff.mp hall).1
      · intro hclosedNow hzero
        cases hw : (writeChannel calls.channelWrites (afterSocket x calls b)).2 with
        | true =>
          rw [(hfailed hw).1] at hzero
          cases hzero
        | false =>
          rw [hstopped hw, Option.some.injEq] at hzero
          have hempty := List.eq_nil_of_length_eq_zero hzero
          have hall := (hcomplete (by dsimp only; rw [hclosedNow, hempty, Bool.true_and, List.isEmpty_nil, Bool.or_true])).toRemote
          rw [← hin hclosedNow, ← hwin]
          exact (hfinal.written_iff.mp hall).2
    · intro hspares hremoved
      obtain ⟨hnotNone, hrest⟩ := hspares.goesOn hgoes
      constructor
      · intro hlast
        dsimp only at hlast
        rw [hweof, heofSame, hnotEof] at hlast
        cases hlast
      · dsimp only at hremoved ⊢
        cases hw : (writeChannel calls.channelWrites (afterSocket x calls b)).2 with
        | true => exact absurd (hfailed hw).1 hnotNone
        | false =>
          rw [hw, Bool.false_or, Bool.and_eq_true, List.isEmpty_iff] at hremoved
          rw [hfinal.written_iff]
          refine ⟨hremoved.2, ?_⟩
          rw [hwin, hin hremoved.1]
          apply hrest hremoved.1
          rw [hstopped hw, hremoved.2]
          rfl

theorem Live.pass {calls : Calls} {b : Bridge} (h : Live x b) (hstays : (pass x calls b).2 = false) :
    Live x (pass x calls b).1 := by
  obtain ⟨hdead, heof, hread, hwaits⟩ := readChannel_spec calls.reads calls.ending h
  cases hends : (readChannel x calls.reads calls.ending b).2 with
  | true =>
    rw [pass_of_remoteEnds hends] at hstays
    cases hstays
  | false =>
    have hledger := pass_ledger calls h.ledger
    obtain ⟨_, _, _, _, heofSame, hreadSame, hsetupSame⟩ := afterSocket_spec calls h.ledger
    obtain ⟨_, _, _, _, hweof, hwread, hwsetup⟩ := writeChannel_spec calls.channelWrites (afterSocket x calls b)
    rw [pass_of_goesOn hends] at hledger ⊢
    refine ⟨hledger, ?_, ?_⟩
    · dsimp only
      rw [hweof, heofSame]
      apply Bool.eq_false_iff.mpr
      intro hlast
      exact Bool.false_ne_true (hends.symm.trans (hdead.mpr (.inr (.inr (heof.mp hlast).2))))
    · dsimp only
      rw [hwread, hreadSame, hwsetup, hsetupSame]
      exact hwaits hends

/-! ## All connections -/

structure Books (x : Cookies) (s : X11Forwarder) : Prop where
  live : ∀ b ∈ s.connections, Live x b
  removed : ∀ b ∈ s.removed, Ledger x b

/-- What may have gone wrong is never undone. -/
structure Kept (x : Cookies) (s : X11Forwarder) : Prop where
  defined : s.undefined = false
  complete : ∀ b ∈ s.removed, Complete x b

theorem Ledger.inOrder {b : Bridge} (h : Ledger x b) : b.handed <+: rewritten x b.read ∧ b.written <+: b.sent := by
  constructor
  · cases hdone : b.conn.setupDone with
    | true =>
      rw [← (h.done hdone).2]
      exact List.prefix_append _ _
    | false =>
      rw [(h.waiting hdone).2.2.1]
      exact List.nil_prefix
  · rw [← h.remote, List.append_assoc]
    exact List.prefix_append _ _

theorem Books.lossless_iff {s : X11Forwarder} (h : Books x s) : Lossless x s ↔ Kept x s := by
  constructor
  · intro hs
    exact ⟨hs.defined, hs.complete⟩
  · intro hs
    refine ⟨hs.defined, ?_, hs.complete⟩
    intro b hb
    obtain hb | hb := List.mem_append.mp hb
    · exact (h.live b hb).ledger.inOrder
    · exact (h.removed b hb).inOrder

theorem Books.visit {s : X11Forwarder × Nat} (h : Books x s.1) (p : Pass) : Books x (visit x s p).1 := by
  unfold Ssh.visit
  cases hb : s.1.connections[s.2]? with
  | none => exact h
  | some b =>
    have hlive := h.live b (List.mem_of_getElem? hb)
    have hmore : ∀ b' ∈ p.adopted.map adopted, Live x b' := by
      intro b' hb'
      obtain ⟨connects, _, rfl⟩ := List.mem_map.mp hb'
      exact Live.adopted connects
    dsimp only
    cases hdead : (pass x p.calls b).2 with
    | true =>
      rw [if_pos rfl]
      constructor
      · intro b' hb'
        obtain hb' | hb' := List.mem_append.mp hb'
        · exact h.live b' (List.mem_of_mem_eraseIdx hb')
        · exact hmore b' hb'
      · intro b' hb'
        obtain hb' | hb' := List.mem_append.mp hb'
        · exact h.removed b' hb'
        · rw [List.mem_singleton.mp hb']
          exact pass_ledger p.calls hlive.ledger
    | false =>
      rw [if_neg Bool.false_ne_true]
      refine ⟨?_, h.removed⟩
      intro b' hb'
      obtain hb' | hb' := List.mem_append.mp hb'
      · obtain hb' | rfl := List.mem_or_eq_of_mem_set hb'
        · exact h.live b' hb'
        · exact hlive.pass hdead
      · exact hmore b' hb'

/-- A round loses nothing exactly where it spares its connection. -/
theorem visit_kept_iff {s : X11Forwarder × Nat} (h : Books x s.1) (hkept : Kept x s.1) (p : Pass) :
    Kept x (visit x s p).1 ↔ VisitSpares x s p := by
  unfold visit VisitSpares
  cases hb : s.1.connections[s.2]? with
  | none => exact iff_of_true hkept trivial
  | some b =>
    have hdefined : (s.1.undefined || (p.moves && !p.adopted.isEmpty)) = false ↔ (p.adopted ≠ [] → p.moves = false) := by
      rw [hkept.defined, Bool.false_or, Bool.and_eq_false_iff, Bool.not_eq_false', List.isEmpty_iff]
      tauto
    dsimp only
    rw [← pass_complete_iff p.calls (h.live b (List.mem_of_getElem? hb)), ← hdefined]
    cases hdead : (pass x p.calls b).2 with
    | true =>
      rw [if_pos rfl]
      constructor
      · intro hs
        exact ⟨hs.defined, fun _ => hs.complete _ (List.mem_append_right _ List.mem_cons_self)⟩
      · rintro ⟨hu, hcomplete⟩
        refine ⟨hu, fun b' hb' => ?_⟩
        obtain hb' | hb' := List.mem_append.mp hb'
        · exact hkept.complete b' hb'
        · rw [List.mem_singleton.mp hb']
          exact hcomplete rfl
    | false =>
      rw [if_neg Bool.false_ne_true]
      constructor
      · intro hs
        exact ⟨hs.defined, nofun⟩
      · rintro ⟨hu, _⟩
        exact ⟨hu, hkept.complete⟩

theorem kept_of_visit {s : X11Forwarder × Nat} {p : Pass} (h : Kept x (visit x s p).1) : Kept x s.1 := by
  unfold visit at h
  cases hb : s.1.connections[s.2]? with
  | none =>
    rw [hb] at h
    exact h
  | some b =>
    rw [hb] at h
    dsimp only at h
    split at h
    · exact ⟨(Bool.or_eq_false_iff.mp h.defined).1, fun b' hb' => h.complete b' (List.mem_append_left _ hb')⟩
    · exact ⟨(Bool.or_eq_false_iff.mp h.defined).1, h.complete⟩

theorem kept_of_run (passes : List Pass) {s : X11Forwarder × Nat} (h : Kept x (run (visit x) passes s).1) : Kept x s.1 := by
  induction passes generalizing s with
  | nil => exact h
  | cons p passes ih => exact kept_of_visit (ih h)

theorem rounds_kept_iff (passes : List Pass) {s : X11Forwarder × Nat} (h : Books x s.1) (hkept : Kept x s.1) :
    Kept x (run (visit x) passes s).1 ↔ Along (visit x) (VisitSpares x) passes s := by
  induction passes generalizing s with
  | nil => exact iff_of_true hkept trivial
  | cons p passes ih =>
    constructor
    · intro hrun
      have hvisit := kept_of_run passes hrun
      exact ⟨(visit_kept_iff h hkept p).mp hvisit, (ih (h.visit p) hvisit).mp hrun⟩
    · rintro ⟨hp, hrest⟩
      exact (ih (h.visit p) ((visit_kept_iff h hkept p).mpr hp)).mpr hrest

theorem Books.step {s : X11Forwarder} (h : Books x s) (event : ForwarderEvent) : Books x (s.step x event) := by
  cases event with
  | opened connects =>
    refine ⟨fun b hb => ?_, h.removed⟩
    obtain hb | hb := List.mem_append.mp hb
    · exact h.live b hb
    · rw [List.mem_singleton.mp hb]
      exact Live.adopted connects
  | display index event =>
    refine ⟨fun b hb => ?_, h.removed⟩
    have hmem : b ∈ s.connections.modify index (·.display event) := hb
    obtain ⟨i, hi, rfl⟩ := List.mem_iff_getElem.mp hmem
    rw [List.getElem_modify]
    rw [List.length_modify] at hi
    split
    · exact (h.live _ (List.getElem_mem hi)).display event
    · exact h.live _ (List.getElem_mem hi)
  | pump passes =>
    apply run_keeps _ passes (I := fun s : X11Forwarder × Nat => Books x s.1) h
    intro s p hs
    exact hs.visit p

theorem step_lossless_iff {s : X11Forwarder} (h : Books x s) (hkept : Kept x s) (event : ForwarderEvent) :
    Lossless x (s.step x event) ↔ StepSpares x s event := by
  rw [(h.step event).lossless_iff]
  cases event with
  | opened connects => exact iff_of_true ⟨hkept.defined, hkept.complete⟩ trivial
  | display index event => exact iff_of_true ⟨hkept.defined, hkept.complete⟩ trivial
  | pump passes => exact rounds_kept_iff passes h hkept

def zeroCookie : Cookies where
  fakeCookie := ⟨List.replicate kCookieLen 0, rfl⟩
  realCookie := []
  realCookie_size := .inl rfl

/-- A request without a name that shows the cookie, and one more byte. -/
def lastRequest : QByteArray := [108, 0, 11, 0, 0, 0, 0, 0, 16, 0, 0, 0] ++ List.replicate 16 0 ++ [7]

end LvdTerm.Ssh
