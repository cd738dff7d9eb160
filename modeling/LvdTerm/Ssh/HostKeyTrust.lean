import LvdTerm.Ssh.KnownHostsRoundTrip

/-!
# Trust in a host key

The check asks for `[host]:port` and then for the plain host, and the accepted key is stored for the
plain host. So it is trusted on every other port too, and the only stores that this leaves alone are
those in which all other lookups of that name knew the key already.
-/
namespace LvdTerm.Ssh

open LvdTerm.Lib LvdTerm.Lib.CText

section Lookup

variable (hmacSha1 : CBytes → CBytes → CBytes)

/-! ## What the check finds -/

/-- The entry is for one of the two names of the host. -/
def answersFor (host : CBytes) (port : UInt16) (n : KnownHost) : Bool :=
  hostMatches hmacSha1 (bracketed host port) n || hostMatches hmacSha1 host n

/-- Some entry has a key of the type. -/
def knowsType (hosts : List KnownHost) (host : CBytes) (port : UInt16) (type : KeyType) : Bool :=
  hosts.any fun n => answersFor hmacSha1 host port n && n.keyType = type

/-- Some entry has the key. -/
def knows (hosts : List KnownHost) (host : CBytes) (port : UInt16) (type : KeyType) (key : CBytes) : Bool :=
  hosts.any fun n => answersFor hmacSha1 host port n && (n.keyType = type && n.key = key)

/-- `"[host]:port"` fits into the buffer of the check. -/
def fits (host : CBytes) (port : UInt16) : Prop := (bracketed host port).length < kHostbufSize

instance (host : CBytes) (port : UInt16) : Decidable (fits host port) := inferInstanceAs (Decidable (_ < _))

variable {hmacSha1} {host : CBytes} {type : KeyType} {key : CBytes}

theorem scan_found (h : type ≠ .unknown) (hosts : List KnownHost) (i : Nat) (badkey : Option Nat) :
    (scan hmacSha1 host type key hosts i badkey).1.isSome
      = hosts.any fun n => hostMatches hmacSha1 host n && (n.keyType = type && n.key = key) := by
  induction hosts generalizing i badkey with
  | nil => rfl
  | cons n hosts ih =>
    rw [scan, List.any_cons]
    by_cases hn : hostMatches hmacSha1 host n ∧ type ≠ .unknown ∧ type = n.keyType
    · rw [if_pos hn]
      by_cases hk : key = n.key
      · simp [hk, hn.1, hn.2.2]
      · rw [if_neg hk, ih]
        simp [Ne.symm hk]
    · rw [if_neg hn, ih]
      by_cases hm : hostMatches hmacSha1 host n
      · have ht : n.keyType ≠ type := fun ht => hn ⟨hm, h, ht.symm⟩
        simp [ht]
      · simp [hm]

/-- Where the key is not found, the first other entry for the host with a key of the type is. -/
theorem scan_badkey (h : type ≠ .unknown) (hosts : List KnownHost) (i : Nat) (badkey : Option Nat)
    (hnone : (scan hmacSha1 host type key hosts i badkey).1 = none) :
    (scan hmacSha1 host type key hosts i badkey).2
      = badkey.or ((hosts.findIdx? fun n => hostMatches hmacSha1 host n && n.keyType = type).map (· + i)) := by
  induction hosts generalizing i badkey with
  | nil => simp [scan]
  | cons n hosts ih =>
    rw [scan] at hnone ⊢
    rw [List.findIdx?_cons]
    by_cases hn : hostMatches hmacSha1 host n ∧ type ≠ .unknown ∧ type = n.keyType
    · rw [if_pos hn] at hnone ⊢
      by_cases hk : key = n.key
      · rw [if_pos hk] at hnone
        cases hnone
      · rw [if_neg hk] at hnone ⊢
        rw [ih _ _ hnone]
        simp [hn.1, ← hn.2.2]
    · rw [if_neg hn] at hnone ⊢
      rw [ih _ _ hnone]
      have hp : (hostMatches hmacSha1 host n && n.keyType = type) = false := by
        by_cases hm : hostMatches hmacSha1 host n
        · have ht : n.keyType ≠ type := fun ht => hn ⟨hm, h, ht.symm⟩
          simp [ht]
        · simp [hm]
      simp [hp, Function.comp_def, Nat.add_comm, Nat.add_left_comm]

/-- A key of an unknown type is never found. -/
theorem scan_unknown (hosts : List KnownHost) (i : Nat) (badkey : Option Nat) :
    scan hmacSha1 host .unknown key hosts i badkey = (none, badkey) := by
  induction hosts generalizing i badkey with
  | nil => rfl
  | cons n hosts ih => rw [scan, if_neg (by simp), ih]

variable {hosts : List KnownHost} {port : UInt16} {blob : CBytes}

theorem any_answersFor (p : KnownHost → Bool) :
    (hosts.any fun n => answersFor hmacSha1 host port n && p n)
      = ((hosts.any fun n => hostMatches hmacSha1 (bracketed host port) n && p n) ||
        hosts.any fun n => hostMatches hmacSha1 host n && p n) := by
  induction hosts with
  | nil => rfl
  | cons n hosts ih =>
    rw [List.any_cons, List.any_cons, List.any_cons, ih, answersFor]
    cases hostMatches hmacSha1 (bracketed host port) n <;> cases hostMatches hmacSha1 host n <;> cases p n <;> simp

theorem checkp_failure (h : ¬ (fits host port ∧ blob ≠ [])) : checkp hmacSha1 hosts host port blob = (.failure, none) := by
  unfold checkp
  rw [if_pos]
  unfold fits at h
  by_cases hb : blob = []
  · exact .inr hb
  · exact .inl (Nat.not_lt.mp fun hlt => h ⟨hlt, hb⟩)

theorem checkp_unknown (hfit : fits host port) (hb : blob ≠ []) (ht : hostkeyType blob = .unknown) :
    checkp hmacSha1 hosts host port blob = (.notFound, none) := by
  unfold checkp
  rw [if_neg (by unfold fits at hfit; simp [hb]; omega), ht]
  simp only [scan_unknown]

/-- The entry that a new key of the type replaces. -/
def stale (hmacSha1 : CBytes → CBytes → CBytes) (hosts : List KnownHost) (host : CBytes) (port : UInt16) (type : KeyType) :
    Option Nat :=
  (hosts.findIdx? fun n => hostMatches hmacSha1 (bracketed host port) n && n.keyType = type).or
    (hosts.findIdx? fun n => hostMatches hmacSha1 host n && n.keyType = type)

/-- What the check gives. -/
theorem checkp_eq (hmacSha1 : CBytes → CBytes → CBytes) (hosts : List KnownHost) (hfit : fits host port) (hb : blob ≠ []) (ht : hostkeyType blob ≠ .unknown) :
    (knows hmacSha1 hosts host port (hostkeyType blob) (Base64.encode blob) = true →
        (checkp hmacSha1 hosts host port blob).1 = .isMatch) ∧
      (knows hmacSha1 hosts host port (hostkeyType blob) (Base64.encode blob) = false →
        checkp hmacSha1 hosts host port blob
          = (if (stale hmacSha1 hosts host port (hostkeyType blob)).isSome then .mismatch else .notFound,
            stale hmacSha1 hosts host port (hostkeyType blob))) := by
  have hknows : knows hmacSha1 hosts host port (hostkeyType blob) (Base64.encode blob)
      = ((scan hmacSha1 (bracketed host port) (hostkeyType blob) (Base64.encode blob) hosts 0 none).1.isSome ||
        (scan hmacSha1 host (hostkeyType blob) (Base64.encode blob) hosts 0
          (scan hmacSha1 (bracketed host port) (hostkeyType blob) (Base64.encode blob) hosts 0 none).2).1.isSome) := by
    rw [scan_found ht, scan_found ht]
    exact any_answersFor _
  unfold checkp
  rw [if_neg (by unfold fits at hfit; simp [hb]; omega), hknows]
  cases h1 : scan hmacSha1 (bracketed host port) (hostkeyType blob) (Base64.encode blob) hosts 0 none with
  | mk found badkey =>
    cases found with
    | some i => simp [h1]
    | none =>
      have hbad1 := scan_badkey ht hosts 0 none (congrArg Prod.fst h1)
      cases h2 : scan hmacSha1 host (hostkeyType blob) (Base64.encode blob) hosts 0 badkey with
      | mk found2 badkey2 =>
        cases found2 with
        | some i => simp [h1, h2]
        | none =>
          have hbad2 := scan_badkey ht hosts 0 badkey (congrArg Prod.fst h2)
          have hstale : badkey2 = stale hmacSha1 hosts host port (hostkeyType blob) := by
            rw [h1, Option.none_or] at hbad1
            rw [h2] at hbad2
            unfold stale
            have hfirst : badkey = hosts.findIdx? fun n =>
                hostMatches hmacSha1 (bracketed host port) n && n.keyType = hostkeyType blob := by simpa using hbad1
            rw [← hfirst]
            simpa using hbad2
          rw [← hstale]
          cases badkey2 <;> simp [h1, h2]

theorem stale_isSome : (stale hmacSha1 hosts host port type).isSome = knowsType hmacSha1 hosts host port type := by
  unfold stale
  rw [Option.isSome_or, List.findIdx?_isSome, List.findIdx?_isSome]
  exact (any_answersFor _).symm

theorem checkp_verdict (hfit : fits host port) (hb : blob ≠ []) (ht : hostkeyType blob ≠ .unknown) :
    (checkp hmacSha1 hosts host port blob).1 =
      if knows hmacSha1 hosts host port (hostkeyType blob) (Base64.encode blob) then .isMatch
      else if knowsType hmacSha1 hosts host port (hostkeyType blob) then .mismatch
      else .notFound := by
  obtain ⟨hyes, hno⟩ := checkp_eq hmacSha1 hosts hfit hb ht
  cases hk : knows hmacSha1 hosts host port (hostkeyType blob) (Base64.encode blob) with
  | true => exact hyes hk
  | false =>
    rw [hno hk, stale_isSome]
    rfl

theorem knows_iff : knows hmacSha1 hosts host port type key = true ↔
    ∃ n ∈ hosts, answersFor hmacSha1 host port n ∧ n.keyType = type ∧ n.key = key := by
  simp [knows, List.any_eq_true]

theorem knowsType_iff : knowsType hmacSha1 hosts host port type = true ↔
    ∃ n ∈ hosts, answersFor hmacSha1 host port n ∧ n.keyType = type := by
  simp [knowsType, List.any_eq_true]

/-- A store that knows the same keys gives the same verdicts. -/
theorem checkp_congr {hosts' : List KnownHost}
    (hknows : hostkeyType blob ≠ .unknown → knows hmacSha1 hosts host port (hostkeyType blob) (Base64.encode blob)
      = knows hmacSha1 hosts' host port (hostkeyType blob) (Base64.encode blob))
    (htype : hostkeyType blob ≠ .unknown → knowsType hmacSha1 hosts host port (hostkeyType blob)
      = knowsType hmacSha1 hosts' host port (hostkeyType blob)) (hfit : fits host port) :
    (checkp hmacSha1 hosts host port blob).1 = (checkp hmacSha1 hosts' host port blob).1 := by
  by_cases hb : blob = []
  · rw [checkp_failure fun h => h.2 hb, checkp_failure fun h => h.2 hb]
  · by_cases ht : hostkeyType blob = .unknown
    · rw [checkp_unknown hfit hb ht, checkp_unknown hfit hb ht]
    · rw [checkp_verdict hfit hb ht, checkp_verdict hfit hb ht, hknows ht, htype ht]

/-! ## What accepting a key does to the store -/

/-- The entries that stay when a key of the type is stored. -/
def others (hmacSha1 : CBytes → CBytes → CBytes) (hosts : List KnownHost) (host : CBytes) (port : UInt16) (type : KeyType) :
    List KnownHost :=
  match stale hmacSha1 hosts host port type with
  | some i => hosts.eraseIdx i
  | none => hosts

/-- The entry that goes. -/
def replaced (hmacSha1 : CBytes → CBytes → CBytes) (hosts : List KnownHost) (host : CBytes) (port : UInt16) (type : KeyType) :
    Option KnownHost := (stale hmacSha1 hosts host port type).bind fun i => hosts[i]?

/-- The entry that comes. -/
def newEntry (host blob : CBytes) : KnownHost := ⟨.plain host, hostkeyType blob, Base64.encode blob, none, none⟩

/-- The entry for a host name that is a word, and a key of at most 2800 bytes. -/
theorem newEntry_roundTrips {host blob : CBytes} (hword : Word host) (hlength : 3 ≤ host.length ∧ host.length < 255)
    (hplain : 44 ∉ host ∧ host.head? ≠ some 35 ∧ host.take 3 ≠ hashMarker) (ht : hostkeyType blob ≠ .unknown)
    (hsize : blob.length ≤ 2800) : RoundTrips (newEntry host blob) := by
  obtain ⟨type, htype, hshort, hlong, hlast⟩ := namedType_hostkeyType ht
  have hblob : blob ≠ [] := List.ne_nil_of_length_pos (by omega)
  have hkey := Base64.length_encode blob
  have hbounds : 20 ≤ (type ++ 32 :: Base64.encode blob).length ∧
      host.length + type.length + (Base64.encode blob).length + 3 < kBufferSize := by
    simp only [List.length_append, List.length_cons, kBufferSize]
    omega
  have hordinary : Ordinary (newEntry host blob) host type :=
    ⟨rfl, hword, hlength, hplain, htype, word_encode hblob, hbounds, rfl, rfl⟩
  exact hordinary.roundTrips

theorem newEntry_roundTrips_ed25519 : RoundTrips (newEntry [104, 46, 97] (sshString ed25519Name ++ [1, 2, 3])) :=
  newEntry_roundTrips ⟨by decide, by simp [isBlank], by decide, by decide⟩ (by decide) (by decide) (by decide) (by decide)

theorem updated_eq (hfit : fits host port) (hb : blob ≠ []) (ht : hostkeyType blob ≠ .unknown)
    (hne : (checkp hmacSha1 hosts host port blob).1 ≠ .isMatch) :
    updated hmacSha1 hosts host port blob = others hmacSha1 hosts host port (hostkeyType blob) ++ [newEntry host blob] := by
  obtain ⟨hyes, hno⟩ := checkp_eq hmacSha1 hosts hfit hb ht
  have hk : knows hmacSha1 hosts host port (hostkeyType blob) (Base64.encode blob) = false := by
    cases hk : knows hmacSha1 hosts host port (hostkeyType blob) (Base64.encode blob) with
    | true => exact absurd (hyes hk) hne
    | false => rfl
  unfold updated others
  rw [hno hk]
  cases stale hmacSha1 hosts host port (hostkeyType blob) <;> rfl

theorem mem_iff_others (n : KnownHost) :
    n ∈ hosts ↔ n ∈ others hmacSha1 hosts host port type ∨ replaced hmacSha1 hosts host port type = some n := by
  unfold others replaced
  cases stale hmacSha1 hosts host port type with
  | none => simp
  | some i =>
    simp only [Option.bind_some, List.mem_eraseIdx_iff_getElem?]
    rw [List.mem_iff_getElem?]
    constructor
    · rintro ⟨j, hj⟩
      by_cases hij : j = i
      · exact .inr (hij ▸ hj)
      · exact .inl ⟨j, hij, hj⟩
    · rintro (⟨j, -, hj⟩ | hi)
      · exact ⟨j, hj⟩
      · exact ⟨i, hi⟩

theorem replaced_spec {n : KnownHost} (h : replaced hmacSha1 hosts host port type = some n) : n.keyType = type := by
  obtain ⟨i, hi, hn⟩ := Option.bind_eq_some_iff.mp h
  obtain ⟨hlt, rfl⟩ := List.getElem?_eq_some_iff.mp hn
  rcases Option.or_eq_some_iff.mp hi with hfirst | ⟨-, hsecond⟩
  · have hp := (List.findIdx?_eq_some_iff_getElem.mp hfirst).2.1
    simp at hp
    exact hp.2
  · have hp := (List.findIdx?_eq_some_iff_getElem.mp hsecond).2.1
    simp at hp
    exact hp.2

theorem checkp_isMatch : (checkp hmacSha1 hosts host port blob).1 = .isMatch ↔
    fits host port ∧ blob ≠ [] ∧ hostkeyType blob ≠ .unknown ∧
      knows hmacSha1 hosts host port (hostkeyType blob) (Base64.encode blob) = true := by
  by_cases hc : fits host port ∧ blob ≠ []
  · by_cases ht : hostkeyType blob = .unknown
    · simp [checkp_unknown hc.1 hc.2 ht, ht]
    · rw [checkp_verdict hc.1 hc.2 ht]
      cases knows hmacSha1 hosts host port (hostkeyType blob) (Base64.encode blob) with
      | true => simp [hc, ht]
      | false => cases knowsType hmacSha1 hosts host port (hostkeyType blob) <;> simp
  · rw [checkp_failure hc]
    simp only [reduceCtorEq, false_iff]
    exact fun h => hc ⟨h.1, h.2.1⟩

theorem checkp_notFound (hfit : fits host port) (hb : blob ≠ []) (ht : hostkeyType blob ≠ .unknown) :
    (checkp hmacSha1 hosts host port blob).1 = .notFound ↔ knowsType hmacSha1 hosts host port (hostkeyType blob) = false := by
  rw [checkp_verdict hfit hb ht]
  cases hk : knows hmacSha1 hosts host port (hostkeyType blob) (Base64.encode blob) with
  | true =>
    obtain ⟨n, hn, ha, hty, -⟩ := knows_iff.mp hk
    simp [knowsType_iff.mpr ⟨n, hn, ha, hty⟩]
  | false => cases knowsType hmacSha1 hosts host port (hostkeyType blob) <;> simp

end Lookup

/-! ## Isolation -/

section Isolation

variable (hmacSha1 : CBytes → CBytes → CBytes)

/-- What the next connection is told. -/
def verdict (file : CBytes) (host : CString) (port : UInt16) (blob : CBytes) : CheckResult :=
  (checkp hmacSha1 (readfile file) host.val port blob).1

structure TrustIsolated (file : CBytes) (host : CString) (port : UInt16) (blob : CBytes) (accepted : Bool) : Prop where
  accepted_matches : accepted = true → blob ≠ [] →
    verdict hmacSha1 (handshakeAndVerifyHostKey hmacSha1 file host port blob accepted).2 host port blob = .isMatch
  others_same : ∀ (host' : CString) (port' : UInt16) (blob' : CBytes), ¬ (accepted = true ∧ host' = host ∧ port' = port) →
    verdict hmacSha1 (handshakeAndVerifyHostKey hmacSha1 file host port blob accepted).2 host' port' blob'
      = verdict hmacSha1 file host' port' blob'

/-- The store is as good for every other pair with the key as without it. -/
structure Harmless (hosts : List KnownHost) (host : CString) (port : UInt16) (blob : CBytes) : Prop where
  known_type : hostkeyType blob ≠ .unknown
  name_fits : fits host.val port
  round_trip : ∀ n ∈ others hmacSha1 hosts host.val port (hostkeyType blob) ++ [newEntry host.val blob], RoundTrips n
  /-- The plain name is looked up for every port, and `"[host]:port"` may be a plain name. -/
  adds_nothing : ∀ (host' : CString) (port' : UInt16), ¬ (host' = host ∧ port' = port) → fits host'.val port' →
    host.val = bracketed host'.val port' ∨ host' = host →
    knows hmacSha1 hosts host'.val port' (hostkeyType blob) (Base64.encode blob) = true
  takes_nothing : ∀ n, replaced hmacSha1 hosts host.val port (hostkeyType blob) = some n →
    ∀ (host' : CString) (port' : UInt16), ¬ (host' = host ∧ port' = port) → fits host'.val port' →
      answersFor hmacSha1 host'.val port' n = true →
      knowsType hmacSha1 (others hmacSha1 hosts host.val port (hostkeyType blob) ++ [newEntry host.val blob])
          host'.val port' (hostkeyType blob) = true ∧
        ∀ blob', hostkeyType blob' = hostkeyType blob → Base64.encode blob' = n.key →
          knows hmacSha1 (others hmacSha1 hosts host.val port (hostkeyType blob) ++ [newEntry host.val blob])
            host'.val port' (hostkeyType blob) n.key = true

variable {hmacSha1} {file blob : CBytes} {host : CString} {port : UInt16}

theorem answersFor_newEntry {host' : CString} {port' : UInt16} :
    answersFor hmacSha1 host'.val port' (newEntry host.val blob) = true ↔ host.val = bracketed host'.val port' ∨ host' = host := by
  simp only [answersFor, newEntry, hostMatches, Bool.or_eq_true, decide_eq_true_eq]
  rw [eq_comm, Subtype.ext_iff]

/-- The file stays as it is unless a new key is accepted. -/
theorem handshakeAndVerifyHostKey_same {accepted : Bool}
    (h : accepted = true → blob ≠ [] → verdict hmacSha1 file host port blob = .isMatch) :
    (handshakeAndVerifyHostKey hmacSha1 file host port blob accepted).2 = file := by
  unfold handshakeAndVerifyHostKey
  by_cases hb : blob = []
  · rw [if_pos hb]
  · rw [if_neg hb]
    cases accepted with
    | true =>
      have hmatch := h rfl hb
      unfold verdict at hmatch
      rw [if_pos hmatch]
    | false => by_cases hm : (checkp hmacSha1 (readfile file) host.val port blob).1 = .isMatch <;> simp [hm]

theorem handshakeAndVerifyHostKey_accepted (hb : blob ≠ []) (hne : verdict hmacSha1 file host port blob ≠ .isMatch) :
    (handshakeAndVerifyHostKey hmacSha1 file host port blob true).2
      = writefile (updated hmacSha1 (readfile file) host.val port blob) := by
  unfold verdict at hne
  unfold handshakeAndVerifyHostKey
  rw [if_neg hb, if_neg hne]
  rfl

/-- The next check reads the new store. -/
theorem verdict_accepted (hb : blob ≠ []) (hne : verdict hmacSha1 file host port blob ≠ .isMatch)
    (ht : hostkeyType blob ≠ .unknown) (hfit : fits host.val port)
    (hround : ∀ n ∈ others hmacSha1 (readfile file) host.val port (hostkeyType blob) ++ [newEntry host.val blob], RoundTrips n)
    (host' : CString) (port' : UInt16) (blob' : CBytes) :
    verdict hmacSha1 (handshakeAndVerifyHostKey hmacSha1 file host port blob true).2 host' port' blob'
      = (checkp hmacSha1 (others hmacSha1 (readfile file) host.val port (hostkeyType blob) ++ [newEntry host.val blob])
          host'.val port' blob').1 := by
  rw [handshakeAndVerifyHostKey_accepted hb hne, updated_eq hfit hb ht hne]
  unfold verdict
  rw [readfile_writefile hround]

variable {host' : CString} {port' : UInt16} {hosts : List KnownHost}

/-- The new entry matches for everyone who looks up its name. -/
theorem checkp_newEntry (hb : blob ≠ []) (ht : hostkeyType blob ≠ .unknown) (hfit : fits host'.val port')
    (hname : host.val = bracketed host'.val port' ∨ host' = host) :
    (checkp hmacSha1 (hosts ++ [newEntry host.val blob]) host'.val port' blob).1 = .isMatch := by
  have hmem : newEntry host.val blob ∈ hosts ++ [newEntry host.val blob] := List.mem_append_right _ List.mem_cons_self
  exact checkp_isMatch.mpr ⟨hfit, hb, ht, knows_iff.mpr ⟨_, hmem, answersFor_newEntry.mpr hname, rfl, rfl⟩⟩

/-- The accepted key matches from then on. -/
theorem accepted_matches (hb : blob ≠ []) (hne : verdict hmacSha1 file host port blob ≠ .isMatch)
    (ht : hostkeyType blob ≠ .unknown) (hfit : fits host.val port)
    (hround : ∀ n ∈ others hmacSha1 (readfile file) host.val port (hostkeyType blob) ++ [newEntry host.val blob], RoundTrips n) :
    verdict hmacSha1 (handshakeAndVerifyHostKey hmacSha1 file host port blob true).2 host port blob = .isMatch := by
  rw [verdict_accepted hb hne ht hfit hround]
  exact checkp_newEntry hb ht hfit (.inr rfl)

/-! ## A harmless acceptance -/

theorem Harmless.knows_same (h : Harmless hmacSha1 hosts host port blob) (hother : ¬ (host' = host ∧ port' = port))
    (hfit : fits host'.val port') (blob' : CBytes) :
    knows hmacSha1 (others hmacSha1 hosts host.val port (hostkeyType blob) ++ [newEntry host.val blob]) host'.val port'
        (hostkeyType blob') (Base64.encode blob')
      = knows hmacSha1 hosts host'.val port' (hostkeyType blob') (Base64.encode blob') := by
  rw [Bool.eq_iff_iff]
  constructor
  · intro hafter
    obtain ⟨n, hn, hans, htype, hkey⟩ := knows_iff.mp hafter
    rcases List.mem_append.mp hn with hstays | hnew
    · exact knows_iff.mpr ⟨n, (mem_iff_others n).mpr (.inl hstays), hans, htype, hkey⟩
    · obtain rfl := List.mem_singleton.mp hnew
      have hadds := h.adds_nothing host' port' hother hfit (answersFor_newEntry.mp hans)
      rwa [← htype, ← hkey]
  · intro hbefore
    obtain ⟨n, hn, hans, htype, hkey⟩ := knows_iff.mp hbefore
    rcases (mem_iff_others n).mp hn with hstays | hgoes
    · exact knows_iff.mpr ⟨n, List.mem_append_left _ hstays, hans, htype, hkey⟩
    · have hsame : hostkeyType blob' = hostkeyType blob := htype.symm.trans (replaced_spec hgoes)
      have htakes := (h.takes_nothing n hgoes host' port' hother hfit hans).2 blob' hsame hkey.symm
      rwa [hsame, ← hkey]

theorem Harmless.knowsType_same (h : Harmless hmacSha1 hosts host port blob) (hother : ¬ (host' = host ∧ port' = port))
    (hfit : fits host'.val port') (type : KeyType) :
    knowsType hmacSha1 (others hmacSha1 hosts host.val port (hostkeyType blob) ++ [newEntry host.val blob]) host'.val port' type
      = knowsType hmacSha1 hosts host'.val port' type := by
  rw [Bool.eq_iff_iff]
  constructor
  · intro hafter
    obtain ⟨n, hn, hans, htype⟩ := knowsType_iff.mp hafter
    rcases List.mem_append.mp hn with hstays | hnew
    · exact knowsType_iff.mpr ⟨n, (mem_iff_others n).mpr (.inl hstays), hans, htype⟩
    · obtain rfl := List.mem_singleton.mp hnew
      have hadds := h.adds_nothing host' port' hother hfit (answersFor_newEntry.mp hans)
      obtain ⟨n, hn, hans, hty, -⟩ := knows_iff.mp hadds
      exact knowsType_iff.mpr ⟨n, hn, hans, hty.trans htype⟩
  · intro hbefore
    obtain ⟨n, hn, hans, htype⟩ := knowsType_iff.mp hbefore
    rcases (mem_iff_others n).mp hn with hstays | hgoes
    · exact knowsType_iff.mpr ⟨n, List.mem_append_left _ hstays, hans, htype⟩
    · have htakes := (h.takes_nothing n hgoes host' port' hother hfit hans).1
      rwa [← htype, replaced_spec hgoes]

theorem Harmless.isolated (hb : blob ≠ []) (hne : verdict hmacSha1 file host port blob ≠ .isMatch)
    (h : Harmless hmacSha1 (readfile file) host port blob) : TrustIsolated hmacSha1 file host port blob true where
  accepted_matches := by
    intro _ _
    exact LvdTerm.Ssh.accepted_matches hb hne h.known_type h.name_fits h.round_trip
  others_same := by
    intro host' port' blob' hother
    rw [verdict_accepted hb hne h.known_type h.name_fits h.round_trip]
    unfold verdict
    have hother' : ¬ (host' = host ∧ port' = port) := fun hs => hother ⟨rfl, hs⟩
    by_cases hfit : fits host'.val port'
    · exact checkp_congr (fun _ => h.knows_same hother' hfit blob') (fun _ => h.knowsType_same hother' hfit _) hfit
    · rw [checkp_failure fun hc => hfit hc.1, checkp_failure fun hc => hfit hc.1]

/-- Conversely, where the entries can be read back, an acceptance that keeps to its pair was harmless. -/
theorem TrustIsolated.harmless (hb : blob ≠ []) (hne : verdict hmacSha1 file host port blob ≠ .isMatch)
    (hround : ∀ n ∈ others hmacSha1 (readfile file) host.val port (hostkeyType blob) ++ [newEntry host.val blob], RoundTrips n)
    (h : TrustIsolated hmacSha1 file host port blob true) : Harmless hmacSha1 (readfile file) host port blob := by
  obtain ⟨hfit, -, ht, -⟩ := checkp_isMatch.mp (h.accepted_matches rfl hb)
  -- the accepted key is presented to another pair
  have hsame (host' : CString) (port' : UInt16) (hother : ¬ (host' = host ∧ port' = port)) (blob' : CBytes) :
      (checkp hmacSha1 (others hmacSha1 (readfile file) host.val port (hostkeyType blob) ++ [newEntry host.val blob])
          host'.val port' blob').1 = (checkp hmacSha1 (readfile file) host'.val port' blob').1 := by
    rw [← verdict_accepted hb hne ht hfit hround]
    exact h.others_same host' port' blob' fun hs => hother hs.2
  refine ⟨ht, hfit, hround, ?adds, ?takes⟩
  case adds =>
    intro host' port' hother hfit' hname
    have hbefore : (checkp hmacSha1 (readfile file) host'.val port' blob).1 = .isMatch := by
      rw [← hsame host' port' hother blob]
      exact checkp_newEntry hb ht hfit' hname
    exact (checkp_isMatch.mp hbefore).2.2.2
  case takes =>
    intro n hgoes host' port' hother hfit' hans
    have hmem : n ∈ readfile file := (mem_iff_others n).mpr (.inr hgoes)
    have htype : n.keyType = hostkeyType blob := replaced_spec hgoes
    constructor
    · have hbefore : knowsType hmacSha1 (readfile file) host'.val port' (hostkeyType blob) = true :=
        knowsType_iff.mpr ⟨n, hmem, hans, htype⟩
      by_contra hno
      have hafter := (checkp_notFound hfit' hb ht).mpr (Bool.eq_false_iff.mpr hno)
      rw [hsame host' port' hother blob, checkp_notFound hfit' hb ht, hbefore] at hafter
      cases hafter
    · intro blob' htype' hkey
      have ht' : hostkeyType blob' ≠ .unknown := htype' ▸ ht
      have hb' : blob' ≠ [] := by
        rintro rfl
        exact ht' rfl
      have hbefore := checkp_isMatch.mpr ⟨hfit', hb', ht', knows_iff.mpr ⟨n, hmem, hans, htype.trans htype'.symm, hkey.symm⟩⟩
      rw [← hsame host' port' hother blob'] at hbefore
      have hafter := (checkp_isMatch.mp hbefore).2.2.2
      rwa [htype', hkey] at hafter

/-- An acceptance keeps to its host and port where it stores nothing or does no harm, and only there as
far as the entries can be read back. -/
theorem trust_isolated (hmacSha1 : CBytes → CBytes → CBytes) (file : CBytes) (host : CString) (port : UInt16) (blob : CBytes)
    (accepted : Bool) :
    ((accepted = true → blob ≠ [] → verdict hmacSha1 file host port blob ≠ .isMatch →
          Harmless hmacSha1 (readfile file) host port blob) →
        TrustIsolated hmacSha1 file host port blob accepted) ∧
      ((∀ n ∈ others hmacSha1 (readfile file) host.val port (hostkeyType blob) ++ [newEntry host.val blob], RoundTrips n) →
        TrustIsolated hmacSha1 file host port blob accepted →
        accepted = true → blob ≠ [] → verdict hmacSha1 file host port blob ≠ .isMatch →
          Harmless hmacSha1 (readfile file) host port blob) := by
  constructor
  · intro h
    by_cases hstores : accepted = true ∧ blob ≠ [] ∧ verdict hmacSha1 file host port blob ≠ .isMatch
    · obtain ⟨rfl, hb, hne⟩ := hstores
      exact (h rfl hb hne).isolated hb hne
    · have hmatch (ha : accepted = true) (hb : blob ≠ []) : verdict hmacSha1 file host port blob = .isMatch :=
        Decidable.not_not.mp fun hne => hstores ⟨ha, hb, hne⟩
      constructor
      · intro ha hb
        rw [handshakeAndVerifyHostKey_same hmatch, hmatch ha hb]
      · intro host' port' blob' _
        rw [handshakeAndVerifyHostKey_same hmatch]
  · intro hround h ha hb hne
    subst ha
    exact h.harmless hb hne hround

/-- An ed25519 key as a server presents it. -/
def ed25519Key : CBytes := sshString ed25519Name ++ sshString (List.replicate 32 1)

/-- A key that was accepted for port 22 is trusted on port 2222 too. -/
theorem trusted_on_another_port : ∃ (file blob : CBytes) (host : CString) (port port' : UInt16),
    port' ≠ port ∧ verdict (fun _ _ => []) file host port' blob = .notFound ∧
      verdict (fun _ _ => []) (handshakeAndVerifyHostKey (fun _ _ => []) file host port blob true).2 host port' blob = .isMatch ∧
      ¬ TrustIsolated (fun _ _ => []) file host port blob true := by
  have hbefore : verdict (fun _ _ => []) [] ⟨ascii "host", by decide⟩ 2222 ed25519Key
      = .notFound := by decide +kernel
  have hafter : verdict (fun _ _ => []) (handshakeAndVerifyHostKey (fun _ _ => []) [] ⟨ascii "host", by decide⟩ 22
      ed25519Key true).2 ⟨ascii "host", by decide⟩ 2222
      ed25519Key = .isMatch := by decide +kernel
  refine ⟨[], ed25519Key, ⟨ascii "host", by decide⟩, 22, 2222, by decide, hbefore, hafter, ?_⟩
  intro h
  have hsame := h.others_same ⟨ascii "host", by decide⟩ 2222 ed25519Key (by decide)
  rw [hbefore, hafter] at hsame
  cases hsame

end Isolation

end LvdTerm.Ssh
