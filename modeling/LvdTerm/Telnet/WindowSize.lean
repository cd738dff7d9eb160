import LvdTerm.Telnet.Protocol
import Mathlib.Data.List.Induction

/-!
# Telnet: when the window size is sent

The server asks for window sizes with `DO` and refuses them with `DONT`; `WILL` and `WONT` are about its own side. The
flag is cleared by `WONT`. That shows at a resize, unless since the last `DO` there was neither of the two, or both.
-/
namespace LvdTerm.Telnet

/-! ## Runs of calls -/

namespace TelnetTransport

def perform (t : TelnetTransport) : Call → TelnetTransport
  | .handleCommand command option => t.handleCommand command option
  | .handleSubnegotiation payload => t.handleSubnegotiation payload
  | .resize cols rows => t.resize cols rows

def performAll (calls : List Call) (t : TelnetTransport) : TelnetTransport := calls.foldl perform t

theorem performAll_append (calls more : List Call) (t : TelnetTransport) :
    t.performAll (calls ++ more) = (t.performAll calls).performAll more := List.foldl_append

/-- What arrives, and what the user does. -/
inductive Input where
  | received (chunk : List UInt8)
  | resized (cols rows : Int)

def input (t : TelnetTransport) : Input → TelnetTransport
  | .received chunk => t.processIncoming chunk
  | .resized cols rows => t.resize cols rows

/-- The part of the state that the window size depends on, and what is written. -/
structure SameWindow (t t' : TelnetTransport) : Prop where
  nawsEnabled : t'.nawsEnabled = t.nawsEnabled
  cols : t'.cols = t.cols
  rows : t'.rows = t.rows
  written : t'.written = t.written

variable {t t' : TelnetTransport}

theorem SameWindow.refl (t : TelnetTransport) : SameWindow t t := ⟨rfl, rfl, rfl, rfl⟩

theorem SameWindow.trans {t'' : TelnetTransport} (h : SameWindow t t') (h' : SameWindow t' t'') : SameWindow t t'' :=
  ⟨h'.nawsEnabled.trans h.nawsEnabled, h'.cols.trans h.cols, h'.rows.trans h.rows, h'.written.trans h.written⟩

theorem SameWindow.sendWindowSize (h : SameWindow t t') : SameWindow t.sendWindowSize t'.sendWindowSize := by
  have henabled := h.nawsEnabled
  unfold TelnetTransport.sendWindowSize
  rw [henabled, h.cols, h.rows]
  split
  · exact ⟨henabled, h.cols, h.rows, congrArg (· ++ [_]) h.written⟩
  · exact h

theorem SameWindow.answer (h : SameWindow t t') (command option : UInt8) :
    SameWindow (t.answer command option) (t'.answer command option) := by
  have hsend (data : List UInt8) : SameWindow (t.socketWrite data) (t'.socketWrite data) :=
    ⟨h.nawsEnabled, h.cols, h.rows, congrArg (· ++ [data]) h.written⟩
  unfold TelnetTransport.answer
  split
  · split <;> exact hsend _
  · split
    · split
      · exact SameWindow.sendWindowSize ⟨rfl, h.cols, h.rows, congrArg (· ++ [_]) h.written⟩
      · split <;> exact hsend _
    · split
      · split
        · exact ⟨rfl, h.cols, h.rows, h.written⟩
        · exact h
      · exact h

theorem SameWindow.report (h : SameWindow t t') (payload : List UInt8) : SameWindow (t.report payload) (t'.report payload) := by
  unfold TelnetTransport.report
  split
  · split
    · exact ⟨h.nawsEnabled, h.cols, h.rows, congrArg (· ++ [_]) h.written⟩
    · exact h
  · exact h

theorem SameWindow.perform (h : SameWindow t t') (call : Call) : SameWindow (t.perform call) (t'.perform call) := by
  cases call with
  | handleCommand command option =>
    have hcalled : SameWindow { t with calls := t.calls ++ [Call.handleCommand command option] }
        { t' with calls := t'.calls ++ [Call.handleCommand command option] } := ⟨h.nawsEnabled, h.cols, h.rows, h.written⟩
    exact hcalled.answer command option
  | handleSubnegotiation payload =>
    have hcalled : SameWindow { t with calls := t.calls ++ [Call.handleSubnegotiation payload] }
        { t' with calls := t'.calls ++ [Call.handleSubnegotiation payload] } := ⟨h.nawsEnabled, h.cols, h.rows, h.written⟩
    exact hcalled.report payload
  | resize cols rows => exact SameWindow.sendWindowSize ⟨h.nawsEnabled, rfl, rfl, h.written⟩

theorem SameWindow.performAll (h : SameWindow t t') (calls : List Call) : SameWindow (t.performAll calls) (t'.performAll calls) := by
  induction calls generalizing t t' with
  | nil => exact h
  | cons call calls ih => exact ih (h.perform call)

/-- To the window size a run of the transport is a run of the calls it makes. -/
def Performs (t t' : TelnetTransport) : Prop := ∃ new, t'.calls = t.calls ++ new ∧ SameWindow (t.performAll new) t'

theorem Performs.of_same (hcalls : t'.calls = t.calls) (h : SameWindow t t') : Performs t t' :=
  ⟨[], hcalls.trans (List.append_nil _).symm, h⟩

theorem Performs.trans {t'' : TelnetTransport} (h : Performs t t') (h' : Performs t' t'') : Performs t t'' := by
  obtain ⟨new, hcalls, hsame⟩ := h
  obtain ⟨more, hcalls', hsame'⟩ := h'
  refine ⟨new ++ more, by rw [hcalls', hcalls, List.append_assoc], ?_⟩
  rw [performAll_append]
  exact (hsame.performAll more).trans hsame'

theorem receiveByte_performs (b : UInt8) (t : TelnetTransport) : Performs t (t.receiveByte b) := by
  unfold receiveByte
  cases t.parseState with
  | data =>
    simp only
    split <;> exact .of_same rfl ⟨rfl, rfl, rfl, rfl⟩
  | iacSeen =>
    simp only
    split
    · exact .of_same rfl ⟨rfl, rfl, rfl, rfl⟩
    · split
      · exact .of_same rfl ⟨rfl, rfl, rfl, rfl⟩
      · split <;> exact .of_same rfl ⟨rfl, rfl, rfl, rfl⟩
  | negotiate => exact ⟨[.handleCommand t.pendingCommand b], (answer_frame _ _ _).calls, ⟨rfl, rfl, rfl, rfl⟩⟩
  | subNegData =>
    simp only
    split <;> exact .of_same rfl ⟨rfl, rfl, rfl, rfl⟩
  | subNegIacSeen =>
    simp only
    split
    · exact ⟨[.handleSubnegotiation t.subNegBuffer], (report_frame _ _).calls, ⟨rfl, rfl, rfl, rfl⟩⟩
    · split <;> exact .of_same rfl ⟨rfl, rfl, rfl, rfl⟩

theorem receive_performs (bytes : List UInt8) (t : TelnetTransport) : Performs t (t.receive bytes) := by
  induction bytes generalizing t with
  | nil => exact .of_same rfl (.refl t)
  | cons b bytes ih => exact (receiveByte_performs b t).trans (ih _)

theorem flush_performs (t : TelnetTransport) : Performs t t.flush := by
  unfold flush
  split
  · exact .of_same rfl (.refl t)
  · exact .of_same rfl ⟨rfl, rfl, rfl, rfl⟩

/-- Bytes and resizes in any order come down to the calls they make. -/
theorem inputs_perform (inputs : List Input) (t : TelnetTransport) : Performs t (inputs.foldl input t) := by
  induction inputs generalizing t with
  | nil => exact .of_same rfl (.refl t)
  | cons i inputs ih =>
    refine Performs.trans ?_ (ih (t.input i))
    cases i with
    | received chunk => exact (receive_performs chunk t).trans (flush_performs _)
    | resized cols rows => exact ⟨[.resize cols rows], (sendWindowSize_frame _).calls, .refl _⟩

end TelnetTransport

/-! ## What the server asked for -/

/-- Of `DO` and a refusal, both of NAWS, the last one is `DO`. -/
def lastIsDo (refusal : UInt8) (calls : List Call) : Prop :=
  (calls.filter fun call => call = .handleCommand DO OPT_NAWS ∨ call = .handleCommand refusal OPT_NAWS).getLast? =
    some (.handleCommand DO OPT_NAWS)

instance (refusal : UInt8) (calls : List Call) : Decidable (lastIsDo refusal calls) := inferInstanceAs (Decidable (_ = _))

def latestSize (size : Int × Int) (calls : List Call) : Int × Int :=
  calls.foldl (fun size call => match call with
    | .resize cols rows => (cols, rows)
    | _ => size) size

theorem latestSize_append (size : Int × Int) (calls more : List Call) :
    latestSize size (calls ++ more) = latestSize (latestSize size calls) more := List.foldl_append

/-- The subnegotiation that carries a size. -/
def windowSize (size : Int × Int) : List UInt8 :=
  TelnetTransport.subnegotiation OPT_NAWS (TelnetTransport.putInt16 size.1 ++ TelnetTransport.putInt16 size.2)

/-- The window sizes that are due at a call, `before` being the calls before it. -/
def nawsDue (size : Int × Int) (before : List Call) : Call → List (List UInt8)
  | .resize cols rows => if lastIsDo DONT before then [windowSize (cols, rows)] else []
  | .handleCommand command option => if command = DO ∧ option = OPT_NAWS then [windowSize (latestSize size before)] else []
  | .handleSubnegotiation _ => []

def isNaws (data : List UInt8) : Bool := data.take 3 = [IAC, SB, OPT_NAWS]

/-- What a call sends of window sizes is what is due. -/
def SentAsDue (t : TelnetTransport) (before : List Call) (call : Call) : Prop :=
  ((t.performAll before).perform call).written.filter isNaws =
    (t.performAll before).written.filter isNaws ++ nawsDue (t.cols, t.rows) before call

instance (t : TelnetTransport) (before : List Call) (call : Call) : Decidable (SentAsDue t before call) :=
  inferInstanceAs (Decidable (_ = _))

/-- The calls since the last `DO` of NAWS. -/
def sinceDo (calls : List Call) : List Call := calls.reverse.takeWhile fun call => call ≠ .handleCommand DO OPT_NAWS

/-- There was no `DO`; or since the last one neither `WONT` nor `DONT`, or both. -/
def unconfused (calls : List Call) : Prop :=
  .handleCommand DO OPT_NAWS ∈ calls →
    (.handleCommand WONT OPT_NAWS ∈ sinceDo calls ↔ .handleCommand DONT OPT_NAWS ∈ sinceDo calls)

instance (calls : List Call) : Decidable (unconfused calls) := inferInstanceAs (Decidable (_ → _))

/-! ## The last one -/

section Last

variable {refusal : UInt8} {calls : List Call}

theorem lastIsDo_nil : ¬ lastIsDo refusal [] := nofun

theorem lastIsDo_do (calls : List Call) : lastIsDo refusal (calls ++ [.handleCommand DO OPT_NAWS]) := by
  unfold lastIsDo
  rw [List.filter_append]
  simp

theorem not_lastIsDo_refusal (h : refusal ≠ DO) (calls : List Call) :
    ¬ lastIsDo refusal (calls ++ [.handleCommand refusal OPT_NAWS]) := by
  unfold lastIsDo
  rw [List.filter_append]
  simp [h]

theorem lastIsDo_other {call : Call} (hdo : call ≠ .handleCommand DO OPT_NAWS) (hno : call ≠ .handleCommand refusal OPT_NAWS) :
    lastIsDo refusal (calls ++ [call]) ↔ lastIsDo refusal calls := by
  unfold lastIsDo
  rw [List.filter_append]
  simp [hdo, hno]

theorem sinceDo_do (calls : List Call) : sinceDo (calls ++ [.handleCommand DO OPT_NAWS]) = [] := by
  simp [sinceDo]

theorem sinceDo_other {call : Call} (h : call ≠ .handleCommand DO OPT_NAWS) : sinceDo (calls ++ [call]) = call :: sinceDo calls := by
  simp [sinceDo, h]

theorem lastIsDo_iff (h : refusal ≠ DO) :
    lastIsDo refusal calls ↔ .handleCommand DO OPT_NAWS ∈ calls ∧ .handleCommand refusal OPT_NAWS ∉ sinceDo calls := by
  induction calls using List.reverseRecOn with
  | nil => exact iff_of_false lastIsDo_nil fun hin => by cases hin.1
  | append_singleton calls call ih =>
    by_cases hdo : call = .handleCommand DO OPT_NAWS
    · subst hdo
      rw [sinceDo_do]
      exact iff_of_true (lastIsDo_do calls) ⟨List.mem_append_right _ (List.mem_singleton_self _), List.not_mem_nil⟩
    · rw [sinceDo_other hdo]
      by_cases hno : call = .handleCommand refusal OPT_NAWS
      · subst hno
        exact iff_of_false (not_lastIsDo_refusal h calls) fun hin => hin.2 (List.mem_cons_self ..)
      · rw [lastIsDo_other hdo hno, ih, List.mem_append, List.mem_singleton, List.mem_cons]
        simp [Ne.symm hdo, Ne.symm hno]

/-- Cleared by `WONT` or by `DONT`, the flag is the same exactly when the calls are not confused. -/
theorem unconfused_iff (calls : List Call) : unconfused calls ↔ (lastIsDo WONT calls ↔ lastIsDo DONT calls) := by
  rw [lastIsDo_iff (by decide), lastIsDo_iff (by decide)]
  unfold unconfused
  by_cases hdo : Call.handleCommand DO OPT_NAWS ∈ calls
  · simp only [hdo, true_implies, true_and, not_iff_not]
  · simp only [hdo, false_implies, false_and]

end Last

/-! ## What is sent -/

namespace TelnetTransport

variable {t : TelnetTransport}

theorem isNaws_windowSize (size : Int × Int) : isNaws (windowSize size) = true := rfl

theorem isNaws_command {command : UInt8} (h : command ≠ SB) (option : UInt8) : isNaws [IAC, command, option] = false := by
  simp [isNaws, h]

theorem sendWindowSize_naws (t : TelnetTransport) :
    t.sendWindowSize.written.filter isNaws =
      t.written.filter isNaws ++ if t.nawsEnabled then [windowSize (t.cols, t.rows)] else [] := by
  unfold sendWindowSize
  split
  · rename_i h
    rw [sendSubnegotiation, socketWrite, List.filter_append, ← windowSize.eq_1 (t.cols, t.rows),
      List.filter_cons_of_pos (isNaws_windowSize _), List.filter_nil]
  · exact (List.append_nil _).symm

theorem sendCommand_naws {command : UInt8} (h : command ≠ SB) (option : UInt8) (t : TelnetTransport) :
    (t.sendCommand command option).written.filter isNaws = t.written.filter isNaws := by
  rw [sendCommand, socketWrite, List.filter_append, List.filter_cons_of_neg (by rw [isNaws_command h]; decide),
    List.filter_nil, List.append_nil]

/-- A command other than `DO` of NAWS sends no window size. -/
theorem answer_naws (command option : UInt8) (t : TelnetTransport) :
    (t.answer command option).written.filter isNaws =
      t.written.filter isNaws ++ if command = DO ∧ option = OPT_NAWS then [windowSize (t.cols, t.rows)] else [] := by
  unfold answer
  by_cases hwill : command = WILL
  · subst hwill
    rw [if_pos rfl, if_neg (show ¬ (WILL = DO ∧ option = OPT_NAWS) from fun h => absurd h.1 (by decide)), List.append_nil]
    split
    · exact sendCommand_naws (by decide) _ _
    · exact sendCommand_naws (by decide) _ _
  · rw [if_neg hwill]
    by_cases hdo : command = DO
    · subst hdo
      rw [if_pos rfl]
      by_cases hnaws : option = OPT_NAWS
      · subst hnaws
        rw [if_pos rfl, if_pos ⟨rfl, rfl⟩, sendWindowSize_naws, if_pos rfl]
        exact congrArg (· ++ _) (sendCommand_naws (by decide) OPT_NAWS t)
      · rw [if_neg hnaws, if_neg (show ¬ (DO = DO ∧ option = OPT_NAWS) from fun h => hnaws h.2), List.append_nil]
        split
        · exact sendCommand_naws (by decide) _ _
        · exact sendCommand_naws (by decide) _ _
    · rw [if_neg hdo, if_neg (show ¬ (command = DO ∧ option = OPT_NAWS) from fun h => hdo h.1), List.append_nil]
      split
      · split <;> rfl
      · rfl

theorem report_naws (payload : List UInt8) (t : TelnetTransport) :
    (t.report payload).written.filter isNaws = t.written.filter isNaws := by
  unfold report
  split
  · split
    · rw [sendSubnegotiation, socketWrite, List.filter_append, List.filter_cons_of_neg (by decide), List.filter_nil, List.append_nil]
    · rfl
  · rfl

/-! ## The flag and the size -/

theorem sendWindowSize_keeps (t : TelnetTransport) :
    t.sendWindowSize.nawsEnabled = t.nawsEnabled ∧ t.sendWindowSize.cols = t.cols ∧ t.sendWindowSize.rows = t.rows := by
  unfold sendWindowSize
  split <;> exact ⟨rfl, rfl, rfl⟩

theorem answer_size (command option : UInt8) (t : TelnetTransport) :
    (t.answer command option).cols = t.cols ∧ (t.answer command option).rows = t.rows := by
  unfold answer
  split
  · split <;> exact ⟨rfl, rfl⟩
  · split
    · split
      · exact (sendWindowSize_keeps _).2
      · split <;> exact ⟨rfl, rfl⟩
    · split
      · split <;> exact ⟨rfl, rfl⟩
      · exact ⟨rfl, rfl⟩

theorem answer_flag (command option : UInt8) (t : TelnetTransport) :
    (t.answer command option).nawsEnabled =
      if option = OPT_NAWS then if command = DO then true else if command = WONT then false else t.nawsEnabled
      else t.nawsEnabled := by
  unfold answer
  by_cases hwill : command = WILL
  · subst hwill
    rw [if_pos rfl, if_neg (show WILL ≠ DO by decide), if_neg (show WILL ≠ WONT by decide), ite_self]
    split <;> rfl
  · rw [if_neg hwill]
    by_cases hdo : command = DO
    · rw [if_pos hdo, if_pos hdo]
      split
      · exact (sendWindowSize_keeps _).1
      · split <;> rfl
    · rw [if_neg hdo, if_neg hdo]
      by_cases hwont : command = WONT
      · rw [if_pos hwont, if_pos hwont]
        split <;> rfl
      · rw [if_neg hwont, if_neg hwont, ite_self]

theorem report_keeps (payload : List UInt8) (t : TelnetTransport) :
    (t.report payload).nawsEnabled = t.nawsEnabled ∧ (t.report payload).cols = t.cols ∧ (t.report payload).rows = t.rows := by
  unfold report
  split
  · split <;> exact ⟨rfl, rfl, rfl⟩
  · exact ⟨rfl, rfl, rfl⟩

/-- After any calls on a fresh connection the flag is set if the last of `DO` and `WONT` is `DO`, and the size is the latest. -/
theorem performAll_state (calls : List Call) (h : t.nawsEnabled = false) :
    ((t.performAll calls).nawsEnabled = true ↔ lastIsDo WONT calls) ∧
      ((t.performAll calls).cols, (t.performAll calls).rows) = latestSize (t.cols, t.rows) calls := by
  induction calls using List.reverseRecOn with
  | nil => exact ⟨iff_of_false (by rw [show t.performAll [] = t from rfl, h]; decide) lastIsDo_nil, rfl⟩
  | append_singleton calls call ih =>
    obtain ⟨hflag, hsize⟩ := ih
    rw [performAll_append, latestSize_append, ← hsize]
    cases call with
    | handleCommand command option =>
      have hkeeps := answer_size command option { t.performAll calls with
        calls := (t.performAll calls).calls ++ [Call.handleCommand command option] }
      refine ⟨?_, Prod.ext hkeeps.1 hkeeps.2⟩
      refine (iff_of_eq (congrArg (· = true) (answer_flag command option _))).trans ?_
      by_cases hnaws : option = OPT_NAWS
      · subst hnaws
        rw [if_pos rfl]
        by_cases hdo : command = DO
        · subst hdo
          rw [if_pos rfl]
          exact iff_of_true rfl (lastIsDo_do calls)
        · rw [if_neg hdo]
          by_cases hwont : command = WONT
          · subst hwont
            rw [if_pos rfl]
            exact iff_of_false (by decide) (not_lastIsDo_refusal (by decide) calls)
          · rw [if_neg hwont, lastIsDo_other (by simpa using hdo) (by simpa using hwont)]
            exact hflag
      · rw [if_neg hnaws, lastIsDo_other (by simp [hnaws]) (by simp [hnaws])]
        exact hflag
    | handleSubnegotiation payload =>
      have hkeeps := report_keeps payload { t.performAll calls with
        calls := (t.performAll calls).calls ++ [Call.handleSubnegotiation payload] }
      refine ⟨?_, Prod.ext hkeeps.2.1 hkeeps.2.2⟩
      have hdo : Call.handleSubnegotiation payload ≠ .handleCommand DO OPT_NAWS := nofun
      have hwont : Call.handleSubnegotiation payload ≠ .handleCommand WONT OPT_NAWS := nofun
      rw [lastIsDo_other hdo hwont]
      exact (iff_of_eq (congrArg (· = true) hkeeps.1)).trans hflag
    | resize cols rows =>
      have hkeeps := sendWindowSize_keeps { t.performAll calls with
        calls := (t.performAll calls).calls ++ [Call.resize cols rows], cols := cols, rows := rows }
      refine ⟨?_, Prod.ext hkeeps.2.1 hkeeps.2.2⟩
      have hdo : Call.resize cols rows ≠ .handleCommand DO OPT_NAWS := nofun
      have hwont : Call.resize cols rows ≠ .handleCommand WONT OPT_NAWS := nofun
      rw [lastIsDo_other hdo hwont]
      exact (iff_of_eq (congrArg (· = true) hkeeps.1)).trans hflag

end TelnetTransport

/-- One call: it sends what is due, unless it is a resize and the calls before it are confused. -/
theorem sentAsDue_iff (t : TelnetTransport) (h : t.nawsEnabled = false) (before : List Call) (call : Call) :
    SentAsDue t before call ↔ ∀ cols rows, call = .resize cols rows → unconfused before := by
  obtain ⟨hflag, hsize⟩ := TelnetTransport.performAll_state (t := t) before h
  unfold SentAsDue
  cases call with
  | handleCommand command option =>
    refine iff_of_true ?_ nofun
    refine (TelnetTransport.answer_naws command option _).trans ?_
    rw [nawsDue, ← hsize]
  | handleSubnegotiation payload =>
    refine iff_of_true ?_ nofun
    exact (TelnetTransport.report_naws payload _).trans (List.append_nil _).symm
  | resize cols rows =>
    have hsent := TelnetTransport.sendWindowSize_naws { t.performAll before with
      calls := (t.performAll before).calls ++ [Call.resize cols rows], cols := cols, rows := rows }
    refine (iff_of_eq (congrArg (· = _) hsent)).trans ?_
    simp only [nawsDue, List.append_cancel_left_eq, hflag, Call.resize.injEq]
    rw [unconfused_iff]
    by_cases hwont : lastIsDo WONT before <;> by_cases hdont : lastIsDo DONT before <;> simp [hwont, hdont]

/-- On a connection window sizes are sent when they are due, if and only if at every resize the calls before it are not
confused. -/
theorem window_size_sent_iff (t : TelnetTransport) (calls : List Call) :
    (∀ before call, before ++ [call] <+: calls → SentAsDue t.connectToHost before call) ↔
      ∀ before cols rows, before ++ [.resize cols rows] <+: calls → unconfused before := by
  constructor
  · intro hall before cols rows hprefix
    exact (sentAsDue_iff _ rfl before (.resize cols rows)).mp (hall before _ hprefix) cols rows rfl
  · intro hunconfused before call hprefix
    refine (sentAsDue_iff _ rfl before call).mpr fun cols rows hcall => ?_
    subst hcall
    exact hunconfused before cols rows hprefix

/-- The server refuses window sizes and goes on getting them; after a `WONT`, which is not about them, it gets none. -/
theorem dont_does_not_stop_sizes :
    ¬ SentAsDue ({} : TelnetTransport).connectToHost [.handleCommand DO OPT_NAWS, .handleCommand DONT OPT_NAWS] (.resize 100 30) ∧
      ¬ SentAsDue ({} : TelnetTransport).connectToHost [.handleCommand DO OPT_NAWS, .handleCommand WONT OPT_NAWS] (.resize 100 30) := by
  decide

end LvdTerm.Telnet
