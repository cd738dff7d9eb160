import LvdTerm.Lib.Paths
import LvdTerm.Lib.PlaceMarkers

/-!
# SshConnectHelper: connecting

`connectSocket` on both platforms, over what the resolver returns and what comes of connecting to each address. The two
differ in `WSAStartup` and in what `select` reports when a connection fails that was in progress: winsock puts the socket
into the exception set, POSIX makes it writable and leaves the error to `SO_ERROR`. Both callers ask for the error.
-/
namespace LvdTerm.Ssh.ConnectSocket

open LvdTerm.Lib.Paths (Text)
open Lib.PlaceMarkers (arg)

inductive Platform where
  | posix | windows
  deriving DecidableEq, Repr

/-- `AF_INET`, `AF_INET6` -/
inductive Family where
  | inet | inet6
  deriving DecidableEq, Repr

/-- What comes of connecting to an address: at once, or after `connect` has returned with the connection in progress. -/
inductive Outcome where
  | accepts
  | acceptsLater
  | refuses
  | refusesLater
  | timesOut
  deriving DecidableEq, Repr

def Outcome.accepted : Outcome → Bool
  | .accepts | .acceptsLater => true
  | .refuses | .refusesLater | .timesOut => false

structure Address where
  family : Family
  outcome : Outcome
  deriving DecidableEq, Repr

/-- What the call finds: `WSAStartup`, `socket` and `getaddrinfo`. -/
structure Network where
  startup : Bool := true
  socketCreated : Bool := true
  resolved : Option (List Address)
  deriving DecidableEq, Repr

structure Sock where
  blocking : Bool := true
  connected : Bool := false
  /-- `SO_RCVTIMEO` and `SO_SNDTIMEO`, in milliseconds. -/
  timeout : Option Nat := none
  deriving DecidableEq, Repr

structure Result where
  returned : Option Sock
  /-- The sockets the call leaves open. -/
  opened : List Sock
  error : Text
  deriving DecidableEq, Repr

/-! ## The system -/

inductive ConnectReturn where
  | connected | inProgress | error
  deriving DecidableEq, Repr

/-- `::connect` of an `AF_INET` socket that does not block; an address of another family is an error. -/
def connect (address : Address) : ConnectReturn :=
  match address.family, address.outcome with
  | .inet6, _ => .error
  | .inet, .accepts => .connected
  | .inet, .refuses => .error
  | .inet, _ => .inProgress

structure Selected where
  count : Int
  /-- The socket is in the exception set. -/
  except : Bool

/-- `select` for writing and exceptions on a connection in progress. -/
def select (p : Platform) : Outcome → Selected
  | .timesOut => ⟨0, false⟩
  | .refusesLater => ⟨1, p = .windows⟩
  | _ => ⟨1, false⟩

/-! ## connectSocket -/

def couldNotConnect (host : Text) (port : UInt16) : Text :=
  arg (Nat.toDigits 10 port.toNat) (arg host "Could not connect to %1:%2".toList)

def timedOut (host : Text) (port : UInt16) : Text :=
  arg (Nat.toDigits 10 port.toNat) (arg host "Connection to %1:%2 timed out".toList)

/-- The socket was closed, or there is none. -/
def failed (error : Text) : Result := ⟨none, [], error⟩

/-- Back to blocking mode, with the timeouts set. -/
def finish (sock : Sock) : Result :=
  let sock := { sock with blocking := true, timeout := some 15000 }
  ⟨some sock, [sock], []⟩

/-- From `socket` on, the same on both platforms. -/
def connectFirst (p : Platform) (net : Network) (host : Text) (port : UInt16) : Result :=
  if ¬ net.socketCreated then failed "Could not create socket".toList
  else
    match net.resolved with
    | none | some [] => failed (arg host "Could not resolve host: %1".toList)
    | some (address :: _) =>
      let sock : Sock := { blocking := false }
      match connect address with
      | .error => failed (couldNotConnect host port)
      | .connected => finish { sock with connected := true }
      | .inProgress =>
        let selected := select p address.outcome
        if selected.count ≤ 0 ∨ selected.except then
          failed (if selected.count = 0 then timedOut host port else couldNotConnect host port)
        else finish { sock with connected := address.outcome.accepted }

def connectSocket : Platform → Network → Text → UInt16 → Result
  | .posix, net, host, port => connectFirst .posix net host port
  | .windows, net, host, port =>
    if ¬ net.startup then failed "WSAStartup failed".toList else connectFirst .windows net host port

/-! ## When it connects -/

/-- Some address accepts the connection. -/
def Network.Accepts (net : Network) : Prop := ∃ addresses, net.resolved = some addresses ∧ ∃ a ∈ addresses, a.outcome.accepted

/-- What `connectSocket` is for. -/
structure Connects (net : Network) (r : Result) : Prop where
  reaches : r.returned.isSome ↔ net.Accepts
  usable : ∀ sock, r.returned = some sock → sock.connected = true ∧ sock.blocking = true
  fails : r.returned = none → r.opened = [] ∧ r.error ≠ []

/-- There is a socket to connect. -/
def Network.Started (p : Platform) (net : Network) : Prop := (p = .windows → net.startup) ∧ net.socketCreated

/-- The first address is an IPv4 one, with this outcome. -/
def Network.First (net : Network) (outcome : Outcome) : Prop := ∃ rest, net.resolved = some (⟨.inet, outcome⟩ :: rest)

/-- If any address accepts, the first does, and it is an IPv4 one; and on POSIX the first is not an IPv4 address that
refuses after the connection was in progress. -/
def FirstDecides (p : Platform) (net : Network) : Prop :=
  (net.Accepts → net.Started p ∧ (net.First .accepts ∨ net.First .acceptsLater)) ∧
    ¬ (p = .posix ∧ net.Started p ∧ net.First .refusesLater)

/-! ### Errors -/

theorem arg_head {c : Char} (hc : c ≠ '%') (value rest : Text) : ∃ rest', arg value (c :: rest) = c :: rest' := by
  unfold arg
  split
  next => exact ⟨rest, rfl⟩
  next n _ =>
    unfold Lib.PlaceMarkers.replaceMarker
    split
    next m digits _ =>
      rw [if_neg (fun h => hc h.1)]
      exact ⟨_, rfl⟩
    next => exact ⟨_, rfl⟩

theorem couldNotConnect_ne_nil (host : Text) (port : UInt16) : couldNotConnect host port ≠ [] := by
  obtain ⟨rest, hrest⟩ := arg_head (c := 'C') (by decide) host "ould not connect to %1:%2".toList
  obtain ⟨rest', hrest'⟩ := arg_head (c := 'C') (by decide) (Nat.toDigits 10 port.toNat) rest
  have htext : couldNotConnect host port = 'C' :: rest' := by
    rw [← hrest', ← hrest]
    rfl
  simp [htext]

theorem timedOut_ne_nil (host : Text) (port : UInt16) : timedOut host port ≠ [] := by
  obtain ⟨rest, hrest⟩ := arg_head (c := 'C') (by decide) host "onnection to %1:%2 timed out".toList
  obtain ⟨rest', hrest'⟩ := arg_head (c := 'C') (by decide) (Nat.toDigits 10 port.toNat) rest
  have htext : timedOut host port = 'C' :: rest' := by
    rw [← hrest', ← hrest]
    rfl
  simp [htext]

/-- A call that fails connects if and only if no address accepts. -/
theorem connects_failed_iff (net : Network) {error : Text} (herror : error ≠ []) :
    Connects net (failed error) ↔ ¬ net.Accepts := by
  constructor
  · intro h haccepts
    exact nomatch h.reaches.mpr haccepts
  · intro hnone
    exact ⟨iff_of_false (by simp [failed]) hnone, fun _ h => (nomatch h), fun _ => ⟨rfl, herror⟩⟩

/-- A call that returns its socket connects if and only if that is connected and some address accepts. -/
theorem connects_finish_iff (net : Network) (sock : Sock) :
    Connects net (finish sock) ↔ sock.connected = true ∧ net.Accepts := by
  constructor
  · intro h
    exact ⟨(h.usable _ rfl).1, h.reaches.mp rfl⟩
  · rintro ⟨hconnected, haccepts⟩
    refine ⟨iff_of_true rfl haccepts, ?_, fun h => (nomatch h)⟩
    rintro _ ⟨rfl⟩
    exact ⟨hconnected, rfl⟩

/-! ### One address -/

theorem First.head {net : Network} {address : Address} {rest : List Address} (h : net.resolved = some (address :: rest))
    {outcome : Outcome} : net.First outcome ↔ address = ⟨.inet, outcome⟩ := by
  constructor
  · rintro ⟨rest', hrest'⟩
    rw [h] at hrest'
    exact (List.cons.inj (Option.some.inj hrest')).1
  · rintro rfl
    exact ⟨rest, h⟩

theorem accepts_of_first {net : Network} {outcome : Outcome} (h : net.First outcome) (haccepted : outcome.accepted = true) :
    net.Accepts := by
  obtain ⟨rest, hrest⟩ := h
  exact ⟨_, hrest, _, .head _, haccepted⟩

/-- Without a socket nothing is reached. -/
theorem firstDecides_unstarted {p : Platform} {net : Network} (h : ¬ net.Started p) : FirstDecides p net ↔ ¬ net.Accepts :=
  ⟨fun hd haccepts => h (hd.1 haccepts).1, fun hnone => ⟨fun haccepts => absurd haccepts hnone, fun hhalf => h hhalf.2.1⟩⟩

/-- The call fails, and the first address is no IPv4 one that accepts or stays half open: that is right if no address
accepts. -/
theorem failed_iff {p : Platform} {net : Network} {error : Text} (herror : error ≠ [])
    (hfirst : ∀ outcome, net.First outcome → outcome.accepted = false ∧ ¬ (p = .posix ∧ outcome = .refusesLater)) :
    Connects net (failed error) ↔ FirstDecides p net := by
  rw [connects_failed_iff net herror]
  constructor
  · exact fun hno => ⟨fun haccepts => absurd haccepts hno, fun hhalf => (hfirst _ hhalf.2.2).2 ⟨hhalf.1, rfl⟩⟩
  · intro hd haccepts
    rcases (hd.1 haccepts).2 with hnow | hlater
    · exact nomatch (hfirst _ hnow).1
    · exact nomatch (hfirst _ hlater).1

theorem First.unique {net : Network} {outcome outcome' : Outcome} (h : net.First outcome) (h' : net.First outcome') :
    outcome = outcome' := by
  obtain ⟨rest, hrest⟩ := h
  exact (Address.mk.inj ((First.head hrest).mp h')).2

/-- The first address accepts, and the call returns its socket connected. -/
theorem connected_iff {p : Platform} {net : Network} (hstarted : net.Started p) {outcome : Outcome} (hfirst : net.First outcome)
    (haccepted : outcome = .accepts ∨ outcome = .acceptsLater) {sock : Sock} (hconnected : sock.connected = true) :
    Connects net (finish sock) ↔ FirstDecides p net := by
  have haccepts : net.Accepts := accepts_of_first hfirst (by rcases haccepted with rfl | rfl <;> rfl)
  have hdecides : net.First .accepts ∨ net.First .acceptsLater := by
    rcases haccepted with rfl | rfl
    · exact .inl hfirst
    · exact .inr hfirst
  have hhalf : ¬ net.First .refusesLater := fun hrefuses => by
    have heq := First.unique hfirst hrefuses
    rcases haccepted with rfl | rfl
    · exact nomatch heq
    · exact nomatch heq
  rw [connects_finish_iff]
  exact iff_of_true ⟨hconnected, haccepts⟩ ⟨fun _ => ⟨hstarted, hdecides⟩, fun h => hhalf h.2.2⟩

theorem connectFirst_iff {p : Platform} {net : Network} (hstarted : net.Started p) (host : Text) (port : UInt16) :
    Connects net (connectFirst p net host port) ↔ FirstDecides p net := by
  have hunresolved : arg host "Could not resolve host: %1".toList ≠ [] := by
    obtain ⟨rest, hrest⟩ := arg_head (c := 'C') (by decide) host "ould not resolve host: %1".toList
    exact fun h => nomatch hrest.symm.trans h
  unfold connectFirst
  rw [if_neg (by simp [hstarted.2])]
  cases hresolved : net.resolved with
  | none => exact failed_iff hunresolved fun _ ⟨_, hrest⟩ => nomatch hresolved.symm.trans hrest
  | some addresses =>
    cases addresses with
    | nil => exact failed_iff hunresolved fun _ ⟨_, hrest⟩ => nomatch hresolved.symm.trans hrest
    | cons address rest =>
      obtain ⟨family, outcome⟩ := address
      cases family with
      | inet6 =>
        -- `connect` does not take the address
        exact failed_iff (couldNotConnect_ne_nil host port) fun _ hfirst => nomatch (First.head hresolved).mp hfirst
      | inet =>
        have hfirst : net.First outcome := (First.head hresolved).mpr rfl
        cases outcome with
        | accepts => exact connected_iff hstarted hfirst (.inl rfl) rfl
        | acceptsLater => exact connected_iff hstarted hfirst (.inr rfl) rfl
        | refuses =>
          refine failed_iff (couldNotConnect_ne_nil host port) fun outcome hother => ?_
          cases First.unique hfirst hother
          exact ⟨rfl, fun h => (nomatch h.2)⟩
        | refusesLater =>
          cases p with
          | posix =>
            -- the socket is writable, and not connected
            refine iff_of_false (fun h => ?_) fun hd => hd.2 ⟨rfl, hstarted, hfirst⟩
            exact nomatch (h.usable _ rfl).1
          | windows =>
            refine failed_iff (couldNotConnect_ne_nil host port) fun outcome hother => ?_
            cases First.unique hfirst hother
            exact ⟨rfl, fun h => (nomatch h.1)⟩
        | timesOut =>
          refine failed_iff (timedOut_ne_nil host port) fun outcome hother => ?_
          cases First.unique hfirst hother
          exact ⟨rfl, fun h => (nomatch h.2)⟩

theorem connects_iff (p : Platform) (net : Network) (host : Text) (port : UInt16) :
    Connects net (connectSocket p net host port) ↔ FirstDecides p net := by
  cases p with
  | posix =>
    by_cases hsocket : net.socketCreated = true
    · exact connectFirst_iff (p := .posix) ⟨fun h => (nomatch h), hsocket⟩ host port
    · have hfailed : connectSocket .posix net host port = failed "Could not create socket".toList := if_pos hsocket
      rw [hfailed, connects_failed_iff net (by decide), firstDecides_unstarted fun h => hsocket h.2]
  | windows =>
    by_cases hstartup : net.startup = true
    · have hcall : connectSocket .windows net host port = connectFirst .windows net host port := if_neg (by simp [hstartup])
      rw [hcall]
      by_cases hsocket : net.socketCreated = true
      · exact connectFirst_iff ⟨fun _ => hstartup, hsocket⟩ host port
      · have hfailed : connectFirst .windows net host port = failed "Could not create socket".toList := if_pos hsocket
        rw [hfailed, connects_failed_iff net (by decide), firstDecides_unstarted fun h => hsocket h.2]
    · have hfailed : connectSocket .windows net host port = failed "WSAStartup failed".toList := if_pos hstartup
      rw [hfailed, connects_failed_iff net (by decide), firstDecides_unstarted fun h => hstartup (h.1 rfl)]

/-- A name with an IPv6 address before an IPv4 one, both of which accept. -/
theorem ipv6_first_not_reached : ¬ ∀ p (net : Network) host port, Connects net (connectSocket p net host port) := by
  intro h
  have hcall := h .posix { resolved := some [⟨.inet6, .accepts⟩, ⟨.inet, .accepts⟩] } "localhost".toList 22
  exact nomatch hcall.reaches.mpr ⟨_, rfl, _, .head _, rfl⟩

end LvdTerm.Ssh.ConnectSocket
