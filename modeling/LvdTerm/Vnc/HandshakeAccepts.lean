import LvdTerm.Vnc.SecurityGrammar

/-!
# VNC client: which servers get a session

`Reading` follows one connection through the bytes it receives. Once they are used up, the client
runs a session exactly if the bytes are in the grammar, unless a 3.3 server's security type is one
that only its last byte makes None or VNC authentication.
-/
namespace LvdTerm.Vnc

open Lib Lib.Action

variable {E : Env} {c c' c₀ : VncClient E} {s : List UInt8}

/-- The client `c₀` has received `s` and made some steps. -/
inductive Reading (c₀ : VncClient E) : List UInt8 → VncClient E → Prop where
  | start : Reading c₀ [] c₀
  | arrive {s : List UInt8} {c : VncClient E} (h : Reading c₀ s c) (chunk : List UInt8) (hsocket : c.socket = true) :
      Reading c₀ (s ++ chunk) (appendChunk chunk c)
  | step {s : List UInt8} {c c' : VncClient E} {done : Bool} (h : Reading c₀ s c) (hidle : c.stage ≠ .idle)
      (hbuf : c.buf.length < 2 ^ 31) (hstep : step c = .ok (done, c')) : Reading c₀ s c'

/-- What the client has said and signalled since `c₀`. -/
def since (c₀ c : VncClient E) : List Event := c.events.drop c₀.events.length

/-- The handshake is over, or waits for more. -/
def HandshakeSettled (c : VncClient E) : Prop := c.stage = .idle ∨ c.stage = .running ∨ step c = .ok (false, c)

/-- The client has heard `s` and nothing else. -/
structure Accepts (c₀ : VncClient E) (s : List UInt8) (c : VncClient E) : Prop where
  running : .ready ∈ since c₀ c ↔ inGrammar (answered c₀) c₀.maxMinor s
  otherwise : .ready ∉ since c₀ c → (∃ message, .failed message ∈ since c₀ c) ∨ c.stage ≠ .idle ∧ step c = .ok (false, c)
  none : c.securityType = 1 → securityTypeOf id c₀.maxMinor s = 1

/-- A 3.3 server's security type is neither None nor VNC authentication, but its last byte says None, or says
VNC authentication with the rest of such a handshake behind it. -/
def Narrowed (c₀ : VncClient E) (s : List UInt8) : Prop :=
  versionString s ∧ minorOf c₀.maxMinor s = 3 ∧ 16 ≤ s.length ∧
    (be32 s 12 ≠ 1 ∧ be32 s 12 % 256 = 1 ∨ be32 s 12 ≠ 2 ∧ be32 s 12 % 256 = 2 ∧ challengeIn (answered c₀) (s.drop 16))

/-! ## What is kept while reading -/

/-- What the client has read, and what it makes of the rest. -/
structure Heard (c₀ : VncClient E) (s : List UInt8) (c : VncClient E) : Prop where
  inv : Inv c
  zero : c.stage = .version ∨ c.stage = .securityTypes → c.securityType = 0
  leads : ∀ more, versionIn narrowed (answered c₀) c₀.maxMinor (s ++ more) ↔ .ready ∈ since c₀ c ∨ leads c (c.buf ++ more)
  type : ∀ more, securityTypeOf narrowed c₀.maxMinor (s ++ more) = typeAhead c (c.buf ++ more)
  events : c₀.events <+: c.events
  ready : .ready ∈ since c₀ c → c.stage = .running ∨ c.stage = .idle
  running : c.stage = .running → .ready ∈ since c₀ c
  idle : c.stage = .idle → .ready ∈ since c₀ c ∨ ∃ message, .failed message ∈ since c₀ c

theorem since_append {new : List Event} (h : c₀.events <+: c.events) (he : c'.events = c.events ++ new) :
    since c₀ c' = since c₀ c ++ new := by
  unfold since
  rw [he, List.drop_append_of_le_length h.length_le]

theorem since_self (c₀ : VncClient E) : since c₀ c₀ = [] := List.drop_length

theorem Heard.start (hinv : Inv c₀) (hs : c₀.stage = .version) (hbuf : c₀.buf = []) (hzero : c₀.securityType = 0) : Heard c₀ [] c₀ where
  inv := hinv
  zero _ := hzero
  leads more := by simp [since_self, Vnc.leads, hs, hbuf]
  type more := by simp [typeAhead, hs, hbuf]
  events := List.prefix_rfl
  ready h := by simp [since_self] at h
  running h := by simp [hs] at h
  idle h := by simp [hs] at h

theorem Heard.arrive (h : Heard c₀ s c) (chunk : List UInt8) : Heard c₀ (s ++ chunk) (appendChunk chunk c) where
  inv := inv_append h.inv chunk
  zero := h.zero
  leads more := by
    rw [List.append_assoc, h.leads]
    simp only [appendChunk, List.append_assoc]
    rfl
  type more := by
    rw [List.append_assoc, h.type]
    simp only [appendChunk, List.append_assoc]
    rfl
  events := h.events
  ready := h.ready
  running := h.running
  idle := h.idle

/-! ### Steps -/

section Steps

variable {done : Bool}

theorem HandshakeStep.said (h : HandshakeStep c done c') (hidle : c.stage ≠ .idle) (hrun : c.stage ≠ .running) :
    ∃ new, c'.events = c.events ++ new ∧ (.ready ∈ new ↔ c'.stage = .running) ∧
      (c'.stage = .idle → ∃ message, .failed message ∈ new) := by
  cases h with
  | wait => exact ⟨[], by simp, by simp [hrun], fun hs => absurd hs hidle⟩
  | failed _ _ _ _ message => exact ⟨[.failed message, .closed], by simp [VncClient.failed], by simp [VncClient.failed], fun _ => ⟨message, by simp⟩⟩
  | version => exact ⟨_, rfl, by simp, fun hs => by cases hs⟩
  | advance _ _ _ _ _ hstage => exact ⟨_, rfl, by simp [hstage.2.2.2], fun hs => absurd hs hstage.1⟩
  | ready _ width height =>
    refine ⟨[.write (setPixelFormat ++ setEncodings (if c.encodings = [] then defaultEncodings else c.encodings)),
      .write (updateRequest false width height), .ready], by simp [started], by simp [started], fun hs => by cases hs⟩

theorem HandshakeStep.zero (h : HandshakeStep c done c') (hzero : c.stage = .version ∨ c.stage = .securityTypes → c.securityType = 0)
    (hs : c'.stage = .version ∨ c'.stage = .securityTypes) : c'.securityType = 0 := by
  cases h with
  | wait => exact hzero hs
  | version hv => exact hzero (.inl hv)
  | failed => simp [VncClient.failed] at hs
  | advance _ _ _ _ _ hstage => exact absurd hs (by simp [hstage.2.1, hstage.2.2.1])
  | ready => simp [started] at hs

theorem Ended.events (h : Ended c c') : c.events <+: c'.events := by
  cases h with
  | goesOn _ _ _ he => rw [he]
  | failed _ _ _ _ _ he => rw [he, List.append_assoc]; exact List.prefix_append _ _

theorem pending_session {c₁ : VncClient E} (hrect : pendingRect c = some c₁) :
    c₁.stage = c.stage ∧ agreed c₁ = agreed c ∧ c₁.events = c.events := by
  rcases pendingRect_cases hrect with ⟨-, rfl⟩ | ⟨-, rfl⟩ <;> exact ⟨rfl, rfl, rfl⟩

theorem rectFinished_session (hs : c.stage = .running) :
    (rectFinished c).stage = .running ∧ agreed (rectFinished c) = agreed c ∧ c.events <+: (rectFinished c).events := by
  obtain ⟨mode, left, heq⟩ := counted_eq c
  rw [rectFinished, heq]
  split
  · exact ⟨hs, rfl, by simp [finished]⟩
  · exact ⟨hs, rfl, List.prefix_rfl⟩

/-- A session goes on or ends, and what has been said stays said. -/
theorem RunningStep.session (h : RunningStep c done c') (hs : c.stage = .running) :
    (c'.stage = .running ∨ c'.stage = .idle) ∧ agreed c' = agreed c ∧ c.events <+: c'.events := by
  cases h with
  | message => exact ⟨.inl hs, rfl, List.prefix_append _ _⟩
  | refused => exact ⟨.inr rfl, rfl, by simp [VncClient.failed]⟩
  | update => exact ⟨.inl hs, rfl, List.prefix_rfl⟩
  | emptyUpdate => exact ⟨.inl hs, rfl, by simp [finished, announced]⟩
  | noHeader => exact ⟨.inl hs, rfl, List.prefix_rfl⟩
  | outside => exact ⟨.inr rfl, rfl, by simp [VncClient.failed, entered]⟩
  | partly hdue hrect hwait hdec =>
    have hpending := pending_session hrect
    refine ⟨?_, hdec.agreed.trans hpending.2.1, hpending.2.2 ▸ hdec.ended.events⟩
    cases hdec.ended with
    | goesOn hs' => exact .inl (hs'.trans (hpending.1.trans hs))
    | failed _ _ hs' => exact .inr hs'
  | complete hdue hrect hno hdone hdec hlive =>
    have hpending := pending_session hrect
    have hfinished := rectFinished_session hlive.stage
    exact ⟨.inl hfinished.1, hfinished.2.1.trans (hdec.agreed.trans hpending.2.1),
      (hpending.2.2 ▸ hdec.ended.events).trans hfinished.2.2⟩
  | @resize c₁ hdue hrect hsize hallowed hlive =>
    have hpending := pending_session hrect
    have hfinished := rectFinished_session hlive.stage
    have hsized : c₁.events <+: (desktopSized c₁).events := List.prefix_append _ _
    exact ⟨.inl hfinished.1, hfinished.2.1.trans hpending.2.1, (hpending.2.2 ▸ hsized).trans hfinished.2.2⟩

theorem Heard.handshakeStep (h : Heard c₀ s c) (hidle : c.stage ≠ .idle) (hrun : c.stage ≠ .running)
    (hbuf : c.buf.length < 2 ^ 31) (hstep : step c = .ok (done, c')) : Heard c₀ s c' := by
  have hcases := step_handshake_cases h.inv hidle hrun hstep
  have hout := step_outlook h.inv hidle hrun h.zero hstep
  obtain ⟨new, hevents, hready, hfailed⟩ := hcases.said hidle hrun
  have hsince := since_append h.events hevents
  have hnot : .ready ∉ since c₀ c := fun hr => (h.ready hr).elim hrun hidle
  have hready' : .ready ∈ since c₀ c' ↔ c'.stage = .running := by
    rw [hsince, List.mem_append, or_iff_right hnot, hready]
  refine ⟨(step_keeps h.inv hbuf hstep).1, hcases.zero h.zero, fun more => ?_, fun more => ?_, ?_, fun hr => .inl (hready'.mp hr),
    hready'.mpr, fun hs => .inr ?_⟩
  · rw [h.leads, or_iff_right hnot, hout.leads, hready']
    exact ⟨.inr, fun hl => hl.elim (fun hs => by rw [Vnc.leads, hs]; trivial) id⟩
  · rw [h.type, hout.type]
  · rw [hevents]
    exact h.events.trans (List.prefix_append _ _)
  · obtain ⟨message, hmessage⟩ := hfailed hs
    rw [hsince]
    exact ⟨message, List.mem_append_right _ hmessage⟩

theorem Heard.runningStep (h : Heard c₀ s c) (hs : c.stage = .running) (hbuf : c.buf.length < 2 ^ 31)
    (hstep : step c = .ok (done, c')) : Heard c₀ s c' := by
  obtain ⟨hstage, hagreed, new, hevents⟩ := (stepRunning_cases h.inv hs hstep).session hs
  have hready : .ready ∈ since c₀ c' := by
    rw [since_append h.events hevents.symm]
    exact List.mem_append_left _ (h.running hs)
  have hsecurity : c'.securityType = c.securityType := congrArg (fun a => a.2.2) hagreed
  have hno : c'.stage ≠ .version ∧ c'.stage ≠ .securityTypes := by
    rcases hstage with hs' | hs' <;> rw [hs'] <;> decide
  refine ⟨(step_keeps h.inv hbuf hstep).1, fun hs' => absurd hs' (by simp [hno.1, hno.2]), fun more => ?_, fun more => ?_, ?_,
    fun _ => hstage, fun _ => hready, fun _ => .inl hready⟩
  · rw [h.leads]
    exact iff_of_true (.inl (h.running hs)) (.inl hready)
  · rw [h.type, typeAhead_eq (by rw [hs]; decide) (by rw [hs]; decide), typeAhead_eq hno.1 hno.2, hsecurity]
  · rw [← hevents]
    exact h.events.trans (List.prefix_append _ _)

theorem Reading.heard (h : Reading c₀ s c) (hstart : Heard c₀ [] c₀) : Heard c₀ s c := by
  induction h with
  | start => exact hstart
  | arrive _ chunk _ ih => exact ih.arrive chunk
  | @step s c c' done _ hidle hbuf hstep ih =>
    by_cases hrun : c.stage = .running
    · exact ih.runningStep hrun hbuf hstep
    · exact ih.handshakeStep hidle hrun hbuf hstep

end Steps

/-! ### Where reading starts -/

theorem moves_zero {provider : Option (Option String)} {encodings : List Int} {password : String} {marks : List Mark}
    (hm : Moves (.connecting E provider encodings password) marks c) :
    c.stage = .version ∨ c.stage = .securityTypes → c.securityType = 0 := by
  refine moves_keep (P := fun _ c => c.stage = .version ∨ c.stage = .securityTypes → c.securityType = 0)
    (fun marks new c c' hinv hzero hmove hs => ?_) (inv_connecting E provider encodings password) (fun _ => rfl) hm
  cases hmove.effect hinv with
  | arrive => exact hzero hs
  | socket hstep =>
    cases hstep with
    | ignored => exact hzero hs
    | ended | failed => simp [VncClient.failed] at hs
    | retried htypes => exact hzero (.inr htypes)
  | handshake _ hstep => exact hstep.zero hzero hs
  | running hrun hstep => rcases (hstep.session hrun).1 with h | h <;> simp [h] at hs

theorem Moves.heard {provider : Option (Option String)} {encodings : List Int} {password : String} {marks : List Mark}
    (hm : Moves (.connecting E provider encodings password) marks c₀) (hs : c₀.stage = .version) (hbuf : c₀.buf = [])
    (hr : Reading c₀ s c) : Heard c₀ s c :=
  hr.heard (.start (hm.inv (inv_connecting E provider encodings password)) hs hbuf (moves_zero hm (.inl hs)))

/-! ## A settled client -/

/-- A settled client has made of the data what there is to make of it. -/
theorem Heard.settled (h : Heard c₀ s c) (hsettled : HandshakeSettled c) :
    (.ready ∈ since c₀ c ↔ versionIn narrowed (answered c₀) c₀.maxMinor s) ∧
      securityTypeOf narrowed c₀.maxMinor s = c.securityType ∧
      (.ready ∉ since c₀ c → (∃ message, .failed message ∈ since c₀ c) ∨ c.stage ≠ .idle ∧ step c = .ok (false, c)) := by
  have hleads := h.leads []
  have htype := h.type []
  rw [List.append_nil, List.append_nil] at hleads htype
  rw [hleads, htype]
  by_cases hidle : c.stage = .idle
  · refine ⟨(or_iff_left ?_).symm, typeAhead_eq (by simp [hidle]) (by simp [hidle]) _, fun hno => .inl ((h.idle hidle).resolve_left hno)⟩
    simp [Vnc.leads, hidle]
  by_cases hrun : c.stage = .running
  · refine ⟨iff_of_true (h.running hrun) (.inl (h.running hrun)), typeAhead_eq (by simp [hrun]) (by simp [hrun]) _, fun hno => ?_⟩
    exact absurd (h.running hrun) hno
  have hwait : step c = .ok (false, c) := (hsettled.resolve_left hidle).resolve_left hrun
  obtain ⟨hno, hahead⟩ := (step_outlook h.inv hidle hrun h.zero hwait).waits rfl hidle
  exact ⟨(or_iff_left hno).symm, hahead, fun _ => .inr ⟨hidle, hwait⟩⟩

/-- The security type of 3.3 has come. -/
def TypeCame (maxMinor : Nat) (s : List UInt8) : Prop := versionString s ∧ minorOf maxMinor s = 3 ∧ 16 ≤ s.length

theorem typeOf_came {maxMinor : Nat} (h : TypeCame maxMinor s) (read : Nat → Nat) :
    typeOf read (minorOf maxMinor s) (s.drop 12) = some (read (be32 s 12), s.drop 16) := by
  have hlength : 4 ≤ (s.drop 12).length := by
    rw [List.length_drop]
    have := h.2.2
    omega
  have htype : be32 (s.drop 12) 0 = be32 s 12 := by
    simp [be32, be16, List.getD_eq_getElem?_getD, List.getElem?_drop]
  rw [typeOf, if_pos h.2.1, if_pos hlength, htype, List.drop_drop]

/-- Elsewhere it does not matter how it is read. -/
theorem typeOf_other {maxMinor : Nat} (hv : versionString s) (h : ¬ TypeCame maxMinor s) (read read' : Nat → Nat) :
    typeOf read (minorOf maxMinor s) (s.drop 12) = typeOf read' (minorOf maxMinor s) (s.drop 12) := by
  unfold typeOf
  by_cases hminor : minorOf maxMinor s = 3
  · have hshort : ¬ 4 ≤ (s.drop 12).length := by
      rw [List.length_drop]
      exact fun hlen => h ⟨hv, hminor, by omega⟩
    rw [if_pos hminor, if_pos hminor, if_neg hshort, if_neg hshort]
  · rw [if_neg hminor, if_neg hminor]

theorem versionIn_other {answered : Prop} {maxMinor : Nat} (h : ¬ TypeCame maxMinor s) (read read' : Nat → Nat) :
    versionIn read answered maxMinor s ↔ versionIn read' answered maxMinor s := by
  refine and_congr_right fun hv => ?_
  unfold typesIn
  rw [typeOf_other hv h read read']

theorem securityTypeOf_other {maxMinor : Nat} (h : ¬ TypeCame maxMinor s) (read read' : Nat → Nat) :
    securityTypeOf read maxMinor s = securityTypeOf read' maxMinor s := by
  unfold securityTypeOf
  split
  · rw [typeOf_other ‹_› h read read']
  · rfl

theorem versionIn_came {answered : Prop} {maxMinor : Nat} (h : TypeCame maxMinor s) (read : Nat → Nat) :
    versionIn read answered maxMinor s ↔ read (be32 s 12) = 1 ∧ serverInitIn (s.drop 16) ∨ read (be32 s 12) = 2 ∧ challengeIn answered (s.drop 16) := by
  have hminor : ¬ minorOf maxMinor s ≥ 8 := by
    rw [h.2.1]
    decide
  rw [versionIn, and_iff_right h.1, typesIn_of (typeOf_came h read), securityIn, if_neg hminor]

theorem securityTypeOf_came {maxMinor : Nat} (h : TypeCame maxMinor s) (read : Nat → Nat) :
    securityTypeOf read maxMinor s = read (be32 s 12) := by
  rw [securityTypeOf, if_pos h.1, typeOf_came h read]
  rfl

/-- A server gets a session exactly if it keeps to the grammar, and None only if it says so, unless its type is narrowed. -/
theorem handshake_accepts_iff (E : Env) (provider : Option (Option String)) (encodings : List Int) (password : String)
    {marks : List Mark} {c₀ c : VncClient E} {s : List UInt8} (hm : Moves (.connecting E provider encodings password) marks c₀)
    (hs : c₀.stage = .version) (hbuf : c₀.buf = []) (hr : Reading c₀ s c) (hsettled : HandshakeSettled c) :
    Accepts c₀ s c ↔ ¬ Narrowed c₀ s := by
  obtain ⟨hready, htype, hotherwise⟩ := (hm.heard hs hbuf hr).settled hsettled
  by_cases hcame : TypeCame c₀.maxMinor s
  · rw [versionIn_came hcame] at hready
    rw [securityTypeOf_came hcame] at htype
    have hnarrowed : Narrowed c₀ s ↔ be32 s 12 ≠ 1 ∧ be32 s 12 % 256 = 1 ∨
        be32 s 12 ≠ 2 ∧ be32 s 12 % 256 = 2 ∧ challengeIn (answered c₀) (s.drop 16) := by
      rw [Narrowed, and_iff_right hcame.1, and_iff_right hcame.2.1, and_iff_right hcame.2.2]
    rw [hnarrowed]
    constructor
    · rintro haccepts (⟨h1, hlast⟩ | ⟨h2, hlast, hchallenge⟩)
      · have hnone := haccepts.none (htype.symm.trans hlast)
        rw [securityTypeOf_came hcame] at hnone
        exact h1 hnone
      · have hgrammar := haccepts.running.mp (hready.mpr (.inr ⟨hlast, hchallenge⟩))
        rw [inGrammar, versionIn_came hcame] at hgrammar
        rcases hgrammar with ⟨h1, -⟩ | ⟨h2', -⟩
        · rw [show be32 s 12 = 1 from h1] at hlast
          cases hlast
        · exact h2 h2'
    · intro hno
      refine ⟨?_, hotherwise, fun h1 => ?_⟩
      · rw [hready, inGrammar, versionIn_came hcame]
        constructor
        · rintro (⟨hlast, hinit⟩ | ⟨hlast, hchallenge⟩)
          · exact .inl ⟨by_contra fun h1 => hno (.inl ⟨h1, hlast⟩), hinit⟩
          · exact .inr ⟨by_contra fun h2 => hno (.inr ⟨h2, hlast, hchallenge⟩), hchallenge⟩
        · rintro (⟨h1, hinit⟩ | ⟨h2, hchallenge⟩)
          · exact .inl ⟨by rw [show be32 s 12 = 1 from h1]; rfl, hinit⟩
          · exact .inr ⟨by rw [show be32 s 12 = 2 from h2]; rfl, hchallenge⟩
      · rw [securityTypeOf_came hcame]
        exact by_contra fun h => hno (.inl ⟨h, htype.trans h1⟩)
  · have hno : ¬ Narrowed c₀ s := fun h => hcame ⟨h.1, h.2.1, h.2.2.1⟩
    refine iff_of_true ⟨?_, hotherwise, fun h1 => ?_⟩ hno
    · rw [hready]
      exact versionIn_other hcame _ _
    · rw [securityTypeOf_other hcame id narrowed, htype, h1]

/-! ## A security type of 257 -/

theorem stepWhile_reading (fuel : Nat) (h : Reading c₀ s c) (hinv : Inv c) (hbuf : c.buf.length < 2 ^ 31)
    (hr : stepWhile fuel c = .ok ((), c')) : Reading c₀ s c' := by
  induction fuel generalizing c with
  | zero => cases hr; exact h
  | succ fuel ih =>
    unfold stepWhile at hr
    rw [bind_of_ok (gets_apply _ _)] at hr
    by_cases hidle : c.stage = .idle
    · rw [if_pos hidle] at hr
      cases hr
      exact h
    · rw [if_neg hidle] at hr
      obtain ⟨more, c₁, hs, hr⟩ := bind_eq_ok hr
      obtain ⟨hinv₁, hbuf₁⟩ := step_keeps hinv hbuf hs
      cases more with
      | false => cases hr; exact h.step hidle hbuf hs
      | true => exact ih (h.step hidle hbuf hs) hinv₁ hbuf₁ hr

/-- A 3.3 server that settles on the type `256 * high + 1` and has a desktop of one pixel. -/
def server33 (high : UInt8) : List UInt8 :=
  [82, 70, 66, 32, 48, 48, 51, 46, 48, 48, 51, 10] ++ [0, 0, high, 1] ++ [0, 1, 0, 1] ++ List.replicate 16 0 ++ [0, 0, 0, 0]

def server33Read (high : UInt8) : VncClient .bare :=
  left (.connecting .bare none [] "") (onReadyRead (server33 high) (.connecting .bare none [] ""))

theorem server33_reading (high : UInt8) (hread : value (onReadyRead (server33 high) (.connecting .bare none [] "")) = some ()) :
    Reading (.connecting .bare none [] "") (server33 high) (server33Read high) := by
  have hr : onReadyRead (server33 high) (.connecting .bare none [] "") = .ok ((), server33Read high) := eq_ok_of_value _ hread
  have hbuf : (appendChunk (server33 high) (.connecting .bare none [] "")).buf.length < 2 ^ 31 := by
    simp [appendChunk, server33, VncClient.connecting, VncClient.new]
  rw [onReadyRead] at hr
  simp only [if_pos hbuf] at hr
  exact stepWhile_reading _ (Reading.start.arrive _ rfl) (inv_append (inv_connecting .bare none [] "") _) hbuf hr

theorem handshake_accepts_iff_server33 : Accepts (.connecting .bare none [] "") (server33 0) (server33Read 0) ↔
    ¬ Narrowed (.connecting .bare none [] "" : VncClient .bare) (server33 0) :=
  handshake_accepts_iff .bare none [] "" .refl rfl rfl (server33_reading 0 (by decide +kernel)) (.inr (.inl (by decide +kernel)))

/-- Everything that clients starting as `c₀` hear on one connection. -/
def AllAccepted (c₀ : VncClient E) : Prop :=
  ∀ marks c₁ s c, Moves c₀ marks c₁ → c₁.stage = .version → c₁.buf = [] → Reading c₁ s c → HandshakeSettled c → Accepts c₁ s c

/-- 257 is taken for None. -/
theorem type_257_accepted : ¬ AllAccepted (.connecting .bare none [] "") := by
  intro h
  have haccepts := h [] _ (server33 1) (server33Read 1) .refl rfl rfl (server33_reading 1 (by decide +kernel))
    (.inr (.inl (by decide +kernel)))
  exact absurd (haccepts.none (by decide +kernel)) (by decide +kernel)

end LvdTerm.Vnc
