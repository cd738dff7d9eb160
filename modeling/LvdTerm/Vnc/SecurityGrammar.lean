import LvdTerm.Vnc.Framing

/-!
# VNC client: the handshake's grammar

What a server may say before a session begins, as predicates on the bytes to come. `inGrammar` is
the grammar of RFB 3.3, 3.7 and 3.8; the client's own language differs from it in one place, where
the 32-bit security type of 3.3 is narrowed to a byte. `Outlook` carries what the bytes to come
lead to along the steps of the handshake.
-/
namespace LvdTerm.Vnc

open Lib Lib.Action

variable {E : Env} {c c' : VncClient E}

/-! ## The grammar -/

/-- `ServerInit` with a desktop that is not empty, and its whole name. -/
def serverInitIn (data : List UInt8) : Prop :=
  24 ≤ data.length ∧ be32 data 20 ≤ kMaxStringLength ∧ 24 + be32 data 20 ≤ data.length ∧ be16 data 0 ≠ 0 ∧ be16 data 2 ≠ 0

/-- A successful `SecurityResult` in front of it. -/
def resultIn (data : List UInt8) : Prop := 4 ≤ data.length ∧ be32 data 0 = 0 ∧ serverInitIn (data.drop 4)

/-- A challenge, if there is a password to answer it with. -/
def challengeIn (answered : Prop) (data : List UInt8) : Prop := 16 ≤ data.length ∧ answered ∧ resultIn (data.drop 16)

/-- What follows the security type: a result for VNC authentication, and since 3.8 for None too. -/
def securityIn (answered : Prop) (minor type : Nat) (data : List UInt8) : Prop :=
  (type = 1 ∧ if minor ≥ 8 then resultIn data else serverInitIn data) ∨ (type = 2 ∧ challengeIn answered data)

/-- None if it is offered, else VNC authentication if that is. -/
def chosenFrom (types : List UInt8) : Nat := if types.contains 1 then 1 else if types.contains 2 then 2 else 0

/-- The security types, as far as they have come: the one to use, and what follows. `read` reads the type of 3.3. -/
def typeOf (read : Nat → Nat) (minor : Nat) (data : List UInt8) : Option (Nat × List UInt8) :=
  if minor = 3 then
    if 4 ≤ data.length then some (read (be32 data 0), data.drop 4) else none
  else
    let count := (data.getD 0 0).toNat
    if 1 ≤ data.length ∧ 1 + count ≤ data.length then some (chosenFrom ((data.drop 1).take count), data.drop (1 + count)) else none

def typesIn (read : Nat → Nat) (answered : Prop) (minor : Nat) (data : List UInt8) : Prop :=
  ∃ type rest, typeOf read minor data = some (type, rest) ∧ securityIn answered minor type rest

/-- The protocol to speak with a server of this version. -/
def minorOf (maxMinor : Nat) (data : List UInt8) : Nat :=
  negotiatedMinor (toInt ((data.drop 4).take 3)) (toInt ((data.drop 8).take 3)) maxMinor

def versionString (data : List UInt8) : Prop := 12 ≤ data.length ∧ data.take 4 = rfbMagic

instance (data : List UInt8) : Decidable (versionString data) := inferInstanceAs (Decidable (_ ∧ _))

def versionIn (read : Nat → Nat) (answered : Prop) (maxMinor : Nat) (data : List UInt8) : Prop :=
  versionString data ∧ typesIn read answered (minorOf maxMinor data) (data.drop 12)

/-- The server's bytes lead to a session. -/
def inGrammar (answered : Prop) (maxMinor : Nat) (data : List UInt8) : Prop := versionIn id answered maxMinor data

/-- The security type the server has settled or offered; 0 if there is none yet. -/
def securityTypeOf (read : Nat → Nat) (maxMinor : Nat) (data : List UInt8) : Nat :=
  if versionString data then ((typeOf read (minorOf maxMinor data) (data.drop 12)).map Prod.fst).getD 0 else 0

/-- `static_cast<quint8>` -/
def narrowed (type : Nat) : Nat := type % 256

/-! ## More data -/

section More

variable {data more : List UInt8}

theorem getD_append_left {off : Nat} (h : off < data.length) : (data ++ more).getD off 0 = data.getD off 0 := by
  rw [List.getD_eq_getElem?_getD, List.getD_eq_getElem?_getD, List.getElem?_append_left h]

theorem be16_append {off : Nat} (h : off + 2 ≤ data.length) : be16 (data ++ more) off = be16 data off := by
  unfold be16
  rw [getD_append_left (by omega), getD_append_left (by omega)]

theorem be32_append {off : Nat} (h : off + 4 ≤ data.length) : be32 (data ++ more) off = be32 data off := by
  unfold be32
  rw [be16_append (by omega), be16_append (by omega)]

theorem versionString_append (h : 12 ≤ data.length) : versionString (data ++ more) ↔ data.take 4 = rfbMagic := by
  unfold versionString
  rw [List.take_append_of_le_length (by omega), List.length_append]
  exact and_iff_right (by omega)

theorem minorOf_append (maxMinor : Nat) (h : 12 ≤ data.length) : minorOf maxMinor (data ++ more) = minorOf maxMinor data := by
  unfold minorOf
  rw [List.drop_append_of_le_length (by omega), List.drop_append_of_le_length (by omega),
    List.take_append_of_le_length (by rw [List.length_drop]; omega), List.take_append_of_le_length (by rw [List.length_drop]; omega)]

end More

/-! ## What is to come -/

/-- There is a password, or the user will give one. -/
def answered (c : VncClient E) : Prop := (passwordToUse c.password c.passwordProvider).isSome

/-- With `data` to come, a session begins. -/
def leads (c : VncClient E) (data : List UInt8) : Prop :=
  match c.stage with
  | .version => versionIn narrowed (answered c) c.maxMinor data
  | .securityTypes => typesIn narrowed (answered c) c.minor data
  | .authChallenge => challengeIn (answered c) data
  | .securityResult => resultIn data
  | .serverInit => serverInitIn data
  | .running => True
  | .idle | .securityReason => False

/-- With `data` to come, the security type there will be. -/
def typeAhead (c : VncClient E) (data : List UInt8) : Nat :=
  match c.stage with
  | .version => securityTypeOf narrowed c.maxMinor data
  | .securityTypes => ((typeOf narrowed c.minor data).map Prod.fst).getD 0
  | _ => c.securityType

/-- A step that returns, with what it makes of the bytes to come. -/
structure Outlook (c : VncClient E) (done : Bool) (c' : VncClient E) : Prop where
  leads : ∀ more, leads c (c.buf ++ more) ↔ leads c' (c'.buf ++ more)
  type : ∀ more, typeAhead c (c.buf ++ more) = typeAhead c' (c'.buf ++ more)
  waits : done = false → c'.stage ≠ .idle → ¬ Vnc.leads c c.buf ∧ typeAhead c c.buf = c.securityType

/-! ## Steps -/

section Steps

variable {done : Bool}

theorem write_ok {data : List UInt8} (h : write data c = .ok ((), c')) : c' = { c with events := c.events ++ [.write data] } := by
  unfold write at h
  split at h
  · cases h
    rfl
  · cases h

/-- Nothing has come of the data yet. -/
theorem Outlook.wait (hleads : ¬ Vnc.leads c c.buf) (htype : typeAhead c c.buf = c.securityType) : Outlook c false c :=
  ⟨fun _ => Iff.rfl, fun _ => rfl, fun _ _ => ⟨hleads, htype⟩⟩

/-- A failure, where the data leads nowhere. -/
theorem Outlook.failed {message : String} (done : Bool) (c' : VncClient E) (hleads : ∀ more, ¬ Vnc.leads c (c.buf ++ more))
    (htype : ∀ more, typeAhead c (c.buf ++ more) = c'.securityType) : Outlook c done (c'.failed message) :=
  ⟨fun more => iff_of_false (hleads more) (fun h => h), htype, fun _ hidle => absurd rfl hidle⟩

/-- A step that goes on. -/
theorem Outlook.goesOn (hleads : ∀ more, Vnc.leads c (c.buf ++ more) ↔ Vnc.leads c' (c'.buf ++ more))
    (htype : ∀ more, typeAhead c (c.buf ++ more) = typeAhead c' (c'.buf ++ more)) : Outlook c true c' :=
  ⟨hleads, htype, fun h => by cases h⟩

theorem stepVersion_outlook (he : Early c) (hs : c.stage = .version) (hzero : c.securityType = 0)
    (h : stepVersion c = .ok (done, c')) : Outlook c done c' := by
  have hleads (data : List UInt8) : Vnc.leads c data = versionIn narrowed (answered c) c.maxMinor data := by
    rw [Vnc.leads, hs]
  have htype (data : List UInt8) : typeAhead c data = securityTypeOf narrowed c.maxMinor data := by
    rw [typeAhead, hs]
  unfold stepVersion at h
  by_cases hlen : 12 ≤ c.buf.length
  · rw [need_enough hlen, bind_of_ok (bytes_apply (by omega)), List.drop_zero] at h
    by_cases hmagic : c.buf.take 4 = rfbMagic
    · rw [if_neg (not_not.mpr hmagic), bind_of_ok (bytes_apply (by omega)), bind_of_ok (bytes_apply (by omega)),
        bind_of_ok (consume_apply hlen), bind_of_ok (modify_apply _ _), bind_of_ok (gets_apply _ _)] at h
      obtain ⟨⟨⟩, c₁, hwrite, h⟩ := bind_eq_ok h
      obtain rfl := write_ok hwrite
      cases h
      have hversion (more : List UInt8) : versionString (c.buf ++ more) := (versionString_append hlen).mpr hmagic
      have hrest (more : List UInt8) : (c.buf ++ more).drop 12 = c.buf.drop 12 ++ more := List.drop_append_of_le_length hlen
      refine .goesOn (fun more => ?_) (fun more => ?_)
      · rw [hleads, versionIn, and_iff_right (hversion more), minorOf_append _ hlen, hrest]
        rfl
      · rw [htype, securityTypeOf, if_pos (hversion more), minorOf_append _ hlen, hrest]
        rfl
    · rw [if_pos hmagic, failStep_apply he.failed] at h
      cases h
      have hno (more : List UInt8) : ¬ versionString (c.buf ++ more) := fun hv => hmagic ((versionString_append hlen).mp hv)
      refine .failed false c (fun more hl => ?_) (fun more => ?_)
      · rw [hleads] at hl
        exact hno more hl.1
      · rw [htype, securityTypeOf, if_neg (hno more), hzero]
  · rw [need_short hlen] at h
    cases h
    have hno : ¬ versionString c.buf := fun hv => hlen hv.1
    refine .wait (fun hl => ?_) ?_
    · rw [hleads] at hl
      exact hno hl.1
    · rw [htype, securityTypeOf, if_neg hno, hzero]

theorem typesIn_of {read : Nat → Nat} {answered : Prop} {minor type : Nat} {data rest : List UInt8}
    (h : typeOf read minor data = some (type, rest)) : typesIn read answered minor data ↔ securityIn answered minor type rest := by
  simp [typesIn, h]

theorem not_typesIn_of {read : Nat → Nat} {answered : Prop} {minor : Nat} {data : List UInt8}
    (h : typeOf read minor data = none) : ¬ typesIn read answered minor data := by
  simp [typesIn, h]

theorem not_securityIn {answered : Prop} {minor type : Nat} {data : List UInt8} (h1 : type ≠ 1) (h2 : type ≠ 2) :
    ¬ securityIn answered minor type data := by
  simp [securityIn, h1, h2]

/-- Behind `beginSecurity` the data means what the security type makes of it. -/
theorem beginSecurity_outlook {type : Nat} (hf : c.failedAlready = false) (h : beginSecurity type c = .ok ((), c')) :
    c'.buf = c.buf ∧ ∀ data, (Vnc.leads c' data ↔ securityIn (answered c) c.minor type data) ∧ typeAhead c' data = type := by
  unfold beginSecurity at h
  rw [bind_of_ok (modify_apply _ _), bind_of_ok (gets_apply _ _)] at h
  by_cases h1 : type = 1
  · rw [if_pos h1] at h
    subst h1
    by_cases hminor : c.minor ≥ 8
    · rw [if_pos hminor] at h
      cases h
      exact ⟨rfl, fun data => ⟨by simp [Vnc.leads, securityIn, hminor], rfl⟩⟩
    · rw [if_neg hminor] at h
      obtain ⟨⟨⟩, c₁, hwrite, h⟩ := bind_eq_ok h
      obtain rfl := write_ok hwrite
      cases h
      exact ⟨rfl, fun data => ⟨by simp [Vnc.leads, securityIn, hminor], rfl⟩⟩
  · rw [if_neg h1] at h
    by_cases h2 : type = 2
    · rw [if_pos h2] at h
      subst h2
      cases h
      exact ⟨rfl, fun data => ⟨by simp [Vnc.leads, securityIn, answered], rfl⟩⟩
    · rw [if_neg h2, fail_apply _ (by exact hf)] at h
      cases h
      exact ⟨rfl, fun data => ⟨iff_of_false (fun h => h) (not_securityIn h1 h2), rfl⟩⟩

/-- The security types have come. -/
theorem Outlook.types {type n : Nat} (hs : c.stage = .securityTypes)
    (htype : ∀ more, typeOf narrowed c.minor (c.buf ++ more) = some (type, c.buf.drop n ++ more)) (hbuf : c'.buf = c.buf.drop n)
    (h : ∀ data, (Vnc.leads c' data ↔ securityIn (answered c) c.minor type data) ∧ typeAhead c' data = type) : Outlook c true c' := by
  refine .goesOn (fun more => ?_) (fun more => ?_)
  · rw [hbuf, (h _).1, Vnc.leads, hs]
    exact typesIn_of (htype more)
  · rw [hbuf, (h _).2, typeAhead, hs]
    simp [htype more]

theorem stepSecurityType_outlook (he : Early c) (hs : c.stage = .securityTypes) (hminor : c.minor = 3) (hzero : c.securityType = 0)
    (h : stepSecurityType c = .ok (done, c')) : Outlook c done c' := by
  unfold stepSecurityType at h
  by_cases hlen : 4 ≤ c.buf.length
  · have htype (more : List UInt8) : typeOf narrowed c.minor (c.buf ++ more) = some (narrowed (be32 c.buf 0), c.buf.drop 4 ++ more) := by
      rw [typeOf, if_pos hminor, if_pos (by rw [List.length_append]; omega), be32_append (by omega), List.drop_append_of_le_length hlen]
    rw [need_enough hlen, bind_of_ok (u32_apply (by omega)), bind_of_ok (consume_apply hlen)] at h
    by_cases h0 : be32 c.buf 0 = 0
    · rw [if_pos h0] at h
      cases h
      refine .types hs htype rfl fun data => ⟨?_, ?_⟩
      · rw [h0]
        exact iff_of_false (fun h => h) (not_securityIn (by decide) (by decide))
      · rw [h0]
        exact hzero
    · rw [if_neg h0] at h
      obtain ⟨⟨⟩, c₁, hbegin, h⟩ := bind_eq_ok h
      cases h
      obtain ⟨hbuf, hahead⟩ := beginSecurity_outlook (by exact he.failed) hbegin
      exact .types hs htype hbuf hahead
  · have hnone : typeOf narrowed c.minor c.buf = none := by
      rw [typeOf, if_pos hminor, if_neg hlen]
    rw [need_short hlen] at h
    cases h
    refine .wait (fun hl => ?_) ?_
    · rw [Vnc.leads, hs] at hl
      exact not_typesIn_of hnone hl
    · rw [typeAhead, hs, hzero]
      simp [hnone]

theorem stepSecurityList_outlook (he : Early c) (hs : c.stage = .securityTypes) (hminor : c.minor ≠ 3) (hzero : c.securityType = 0)
    (h : stepSecurityList c = .ok (done, c')) : Outlook c done c' := by
  unfold stepSecurityList at h
  set types := (c.buf.drop 1).take (c.buf.getD 0 0).toNat with htypes
  have hshort (hno : ¬ (1 ≤ c.buf.length ∧ 1 + (c.buf.getD 0 0).toNat ≤ c.buf.length)) : Outlook c false c := by
    have hnone : typeOf narrowed c.minor c.buf = none := by
      rw [typeOf, if_neg hminor]
      exact if_neg hno
    refine .wait (fun hl => ?_) ?_
    · rw [Vnc.leads, hs] at hl
      exact not_typesIn_of hnone hl
    · rw [typeAhead, hs, hzero]
      simp [hnone]
  by_cases hlen : 1 ≤ c.buf.length
  · have htype (hcount : 1 + (c.buf.getD 0 0).toNat ≤ c.buf.length) (more : List UInt8) : typeOf narrowed c.minor (c.buf ++ more) =
        some (chosenFrom types, c.buf.drop (1 + (c.buf.getD 0 0).toNat) ++ more) := by
      have henough : 1 ≤ (c.buf ++ more).length ∧ 1 + (c.buf.getD 0 0).toNat ≤ (c.buf ++ more).length := by
        rw [List.length_append]
        omega
      simp only [typeOf, if_neg hminor, getD_append_left (show 0 < c.buf.length by omega), if_pos henough]
      rw [List.drop_append_of_le_length hcount, List.drop_append_of_le_length hlen,
        List.take_append_of_le_length (by rw [List.length_drop]; omega)]
    rw [need_enough hlen, bind_of_ok (u8_apply (by omega))] at h
    by_cases h0 : c.buf.getD 0 0 = 0
    · rw [if_pos h0, bind_of_ok (consume_apply hlen)] at h
      cases h
      have hcount : (c.buf.getD 0 0).toNat = 0 := by
        rw [h0]
        rfl
      have hchosen : chosenFrom types = 0 := by
        rw [htypes, hcount, List.take_zero]
        rfl
      refine .types hs (htype (by omega)) (by rw [hcount]) fun data => ⟨?_, ?_⟩
      · rw [hchosen]
        exact iff_of_false (fun h => h) (not_securityIn (by decide) (by decide))
      · rw [hchosen]
        exact hzero
    · rw [if_neg h0] at h
      by_cases hcount : 1 + (c.buf.getD 0 0).toNat ≤ c.buf.length
      · rw [need_enough hcount, bind_of_ok (bytes_apply (by omega)), bind_of_ok (consume_apply hcount)] at h
        by_cases hnone : (!types.contains 1 && !types.contains 2) = true
        · rw [if_pos hnone, failStep_apply (by exact he.failed)] at h
          cases h
          have hchosen : chosenFrom types = 0 := by
            simp only [Bool.and_eq_true, Bool.not_eq_true'] at hnone
            rw [chosenFrom, hnone.1, hnone.2]
            rfl
          refine .failed false _ (fun more hl => ?_) (fun more => ?_)
          · rw [Vnc.leads, hs] at hl
            have hsecurity := (typesIn_of (htype hcount more)).mp hl
            rw [hchosen] at hsecurity
            exact not_securityIn (by decide) (by decide) hsecurity
          · rw [typeAhead, hs]
            simp only [htype hcount more, hchosen, Option.map_some, Option.getD_some]
            exact hzero.symm
        · rw [if_neg hnone] at h
          obtain ⟨⟨⟩, c₁, hwrite, h⟩ := bind_eq_ok h
          obtain rfl := write_ok hwrite
          obtain ⟨⟨⟩, c₂, hbegin, h⟩ := bind_eq_ok h
          cases h
          have hchosen : (if types.contains 1 then 1 else 2 : UInt8).toNat = chosenFrom types := by
            unfold chosenFrom
            split
            · rfl
            · rename_i h1
              have hno : 1 ∉ types := by simpa using h1
              rw [if_pos (by simpa [hno] using hnone)]
              rfl
          obtain ⟨hbuf, hahead⟩ := beginSecurity_outlook (by exact he.failed) hbegin
          rw [hchosen] at hahead
          exact .types hs (htype hcount) hbuf hahead
      · rw [need_short hcount] at h
        cases h
        exact hshort fun hno => hcount hno.2
  · rw [need_short hlen] at h
    cases h
    exact hshort fun hno => hlen hno.1

theorem stepSecurityTypes_outlook (he : Early c) (hs : c.stage = .securityTypes) (hzero : c.securityType = 0)
    (h : stepSecurityTypes c = .ok (done, c')) : Outlook c done c' := by
  unfold stepSecurityTypes at h
  rw [bind_of_ok (gets_apply _ _)] at h
  by_cases hminor : c.minor = 3
  · rw [if_pos hminor] at h
    exact stepSecurityType_outlook he hs hminor hzero h
  · rw [if_neg hminor] at h
    exact stepSecurityList_outlook he hs hminor hzero h

/-- In the stages behind the security type only the data matters. -/
theorem typeAhead_eq (h1 : c.stage ≠ .version) (h2 : c.stage ≠ .securityTypes) (data : List UInt8) :
    typeAhead c data = c.securityType := by
  unfold typeAhead
  split
  · exact absurd ‹_› h1
  · exact absurd ‹_› h2
  · rfl

theorem stepAuthChallenge_outlook (he : Early c) (hs : c.stage = .authChallenge) (h : stepAuthChallenge c = .ok (done, c')) :
    Outlook c done c' := by
  have hleads (data : List UInt8) : Vnc.leads c data = challengeIn (answered c) data := by
    rw [Vnc.leads, hs]
  have htype := typeAhead_eq (c := c) (by rw [hs]; decide) (by rw [hs]; decide)
  unfold stepAuthChallenge at h
  by_cases hlen : 16 ≤ c.buf.length
  · have hlong (more : List UInt8) : 16 ≤ (c.buf ++ more).length := by
      rw [List.length_append]
      omega
    rw [need_enough hlen, bind_of_ok (bytes_apply (by omega)), bind_of_ok (consume_apply hlen)] at h
    obtain ⟨entered, c₁, hentered, h⟩ := bind_eq_ok h
    unfold obtainPassword at hentered
    rw [bind_of_ok (gets_apply _ _), bind_of_ok (gets_apply _ _)] at hentered
    simp only at hentered
    cases hpassword : passwordToUse c.password c.passwordProvider with
    | none =>
      rw [hpassword] at hentered
      cases hentered
      rw [if_pos (show (!false) = true from rfl), failStep_apply (by exact he.failed)] at h
      cases h
      refine .failed false _ (fun more hl => ?_) fun _ => htype _
      rw [hleads, challengeIn, answered, hpassword] at hl
      cases hl.2.1
    | some password =>
      rw [hpassword] at hentered
      cases hentered
      rw [if_neg (show ¬ (!true) = true by decide), bind_of_ok (gets_apply _ _)] at h
      obtain ⟨⟨⟩, c₂, hwrite, h⟩ := bind_eq_ok h
      obtain rfl := write_ok hwrite
      cases h
      refine .goesOn (fun more => ?_) fun _ => htype _
      have hanswered : answered c := by
        rw [answered, hpassword]
        rfl
      rw [hleads, challengeIn, and_iff_right (hlong more), and_iff_right hanswered, List.drop_append_of_le_length hlen]
      rfl
  · rw [need_short hlen] at h
    cases h
    refine .wait (fun hl => ?_) (htype _)
    rw [hleads] at hl
    exact hlen hl.1

theorem stepSecurityResult_outlook (he : Early c) (hs : c.stage = .securityResult) (h : stepSecurityResult c = .ok (done, c')) :
    Outlook c done c' := by
  have hleads (data : List UInt8) : Vnc.leads c data = resultIn data := by
    rw [Vnc.leads, hs]
  have htype := typeAhead_eq (c := c) (by rw [hs]; decide) (by rw [hs]; decide)
  unfold stepSecurityResult at h
  by_cases hlen : 4 ≤ c.buf.length
  · have hlong (more : List UInt8) : 4 ≤ (c.buf ++ more).length := by
      rw [List.length_append]
      omega
    rw [need_enough hlen, bind_of_ok (u32_apply (by omega)), bind_of_ok (consume_apply hlen), bind_of_ok (gets_apply _ _)] at h
    by_cases hresult : be32 c.buf 0 = 0
    · rw [if_pos hresult] at h
      obtain ⟨⟨⟩, c₁, hinit, h⟩ := bind_eq_ok h
      obtain ⟨⟨⟩, c₂, hwrite, hinit⟩ := bind_eq_ok hinit
      obtain rfl := write_ok hwrite
      cases hinit
      cases h
      refine .goesOn (fun more => ?_) fun _ => htype _
      rw [hleads, resultIn, and_iff_right (hlong more), be32_append (by omega), and_iff_right hresult,
        List.drop_append_of_le_length hlen]
      rfl
    · have hno (more : List UInt8) : ¬ Vnc.leads c (c.buf ++ more) := by
        rw [hleads, resultIn, be32_append (by omega)]
        exact fun hl => hresult hl.2.1
      rw [if_neg hresult] at h
      by_cases hminor : c.minor ≥ 8
      · rw [if_pos hminor] at h
        cases h
        exact .goesOn (fun more => iff_of_false (hno more) fun h => h) fun _ => htype _
      · rw [if_neg hminor, failStep_apply (by exact he.failed)] at h
        cases h
        exact .failed false _ hno fun _ => htype _
  · rw [need_short hlen] at h
    cases h
    refine .wait (fun hl => ?_) (htype _)
    rw [hleads] at hl
    exact hlen hl.1

theorem stepSecurityReason_outlook (he : Early c) (hs : c.stage = .securityReason) (h : stepSecurityReason c = .ok (done, c')) :
    Outlook c done c' := by
  have hno (data : List UInt8) : ¬ Vnc.leads c data := by
    rw [Vnc.leads, hs]
    exact fun h => h
  have htype := typeAhead_eq (c := c) (by rw [hs]; decide) (by rw [hs]; decide)
  unfold stepSecurityReason at h
  by_cases hlen : 4 ≤ c.buf.length
  · rw [need_enough hlen, bind_of_ok (u32_apply (by omega))] at h
    by_cases hlong : be32 c.buf 0 > kMaxStringLength
    · rw [if_pos hlong, failStep_apply he.failed] at h
      cases h
      exact .failed false _ (fun more => hno _) fun _ => htype _
    · rw [if_neg hlong] at h
      by_cases hall : 4 + be32 c.buf 0 ≤ c.buf.length
      · rw [need_enough hall, bind_of_ok (bytes_apply hall), bind_of_ok (consume_apply hall), failStep_apply (by exact he.failed)] at h
        cases h
        exact .failed false _ (fun more => hno _) fun _ => htype _
      · rw [need_short hall] at h
        cases h
        exact .wait (hno _) (htype _)
  · rw [need_short hlen] at h
    cases h
    exact .wait (hno _) (htype _)

/-- The end of `stepServerInit`. -/
theorem begins_running {width height : Nat} (hsocket : c.socket = true)
    (h : (do
      allocFramebuffer width height
      sendPixelFormatAndEncodings
      setStage .running
      requestUpdate false
      emit .ready
      pure true : ClientM E Bool) c = .ok (done, c')) :
    done = true ∧ c'.stage = .running ∧ c'.securityType = c.securityType := by
  refine wp_ok (E := AnyFault) (Q := fun done c' => done = true ∧ c'.stage = .running ∧ c'.securityType = c.securityType) ?_ h
  unfold allocFramebuffer sendPixelFormatAndEncodings setStage emit requestUpdate
  simp only [wp_bind, wp_modify, wp_gets, wp_pure]
  refine wp_write (by exact hsocket) (wp_ite (fun _ => ?_) (fun _ => wp_write (by exact hsocket) ?_))
  all_goals exact ⟨trivial, rfl, rfl⟩

theorem stepServerInit_outlook (he : Early c) (hs : c.stage = .serverInit) (h : stepServerInit c = .ok (done, c')) :
    Outlook c done c' := by
  have hleads (data : List UInt8) : Vnc.leads c data = serverInitIn data := by
    rw [Vnc.leads, hs]
  have htype := typeAhead_eq (c := c) (by rw [hs]; decide) (by rw [hs]; decide)
  unfold stepServerInit at h
  by_cases hlen : 24 ≤ c.buf.length
  · rw [need_enough hlen, bind_of_ok (u32_apply (by omega))] at h
    by_cases hlong : be32 c.buf 20 > kMaxStringLength
    · rw [if_pos hlong, failStep_apply he.failed] at h
      cases h
      refine .failed false _ (fun more hl => ?_) fun _ => htype _
      rw [hleads, serverInitIn, be32_append (by omega)] at hl
      omega
    · rw [if_neg hlong] at h
      by_cases hall : 24 + be32 c.buf 20 ≤ c.buf.length
      · have hin (more : List UInt8) : serverInitIn (c.buf ++ more) ↔ be16 c.buf 0 ≠ 0 ∧ be16 c.buf 2 ≠ 0 := by
          rw [serverInitIn, be32_append (by omega), be16_append (by omega), be16_append (by omega), List.length_append]
          omega
        rw [need_enough hall, bind_of_ok (u16_apply (by omega)), bind_of_ok (u16_apply (by omega)), bind_of_ok (bytes_apply hall),
          bind_of_ok (modify_apply _ _), bind_of_ok (consume_apply (by exact hall))] at h
        by_cases hempty : be16 c.buf 0 = 0 ∨ be16 c.buf 2 = 0
        · rw [if_pos hempty, failStep_apply (by exact he.failed)] at h
          cases h
          refine .failed false _ (fun more hl => ?_) fun _ => htype _
          rw [hleads, hin] at hl
          exact hempty.elim hl.1 hl.2
        · rw [if_neg hempty] at h
          obtain ⟨rfl, hrunning, hsecurity⟩ := begins_running (by exact he.socket) h
          refine .goesOn (fun more => ?_) fun more => ?_
          · rw [hleads, hin, Vnc.leads, hrunning]
            exact iff_of_true ⟨fun h0 => hempty (.inl h0), fun h0 => hempty (.inr h0)⟩ trivial
          · rw [htype, typeAhead_eq (by rw [hrunning]; decide) (by rw [hrunning]; decide)]
            exact hsecurity.symm
      · rw [need_short hall] at h
        cases h
        refine .wait (fun hl => ?_) (htype _)
        rw [hleads] at hl
        exact hall hl.2.2.1
  · rw [need_short hlen] at h
    cases h
    refine .wait (fun hl => ?_) (htype _)
    rw [hleads] at hl
    exact hlen hl.1

/-- What a step of the handshake makes of the bytes to come. -/
theorem step_outlook (h : Inv c) (hidle : c.stage ≠ .idle) (hrun : c.stage ≠ .running)
    (hzero : c.stage = .version ∨ c.stage = .securityTypes → c.securityType = 0) (hstep : step c = .ok (done, c')) :
    Outlook c done c' := by
  have he := h.early_of hrun hidle
  unfold step at hstep
  rw [bind_of_ok (gets_apply _ _)] at hstep
  cases hs : c.stage with
  | idle => exact absurd hs hidle
  | running => exact absurd hs hrun
  | version =>
    rw [hs] at hstep
    exact stepVersion_outlook he hs (hzero (.inl hs)) hstep
  | securityTypes =>
    rw [hs] at hstep
    exact stepSecurityTypes_outlook he hs (hzero (.inr hs)) hstep
  | authChallenge =>
    rw [hs] at hstep
    exact stepAuthChallenge_outlook he hs hstep
  | securityResult =>
    rw [hs] at hstep
    exact stepSecurityResult_outlook he hs hstep
  | securityReason =>
    rw [hs] at hstep
    exact stepSecurityReason_outlook he hs hstep
  | serverInit =>
    rw [hs] at hstep
    exact stepServerInit_outlook he hs hstep

end Steps

end LvdTerm.Vnc
