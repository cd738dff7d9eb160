import LvdTerm.Telnet.TelnetTransport

/-!
# Telnet: the parser undoes the protocol

What one side sends is a sequence of items. The parser takes each of them back however the bytes are cut into chunks,
except for a subnegotiation of option 255: `sendSubnegotiation` escapes the payload, not the option.
-/
namespace LvdTerm.Telnet

/-! ## Items -/

def negotiates (command : UInt8) : Prop := command = WILL ∨ command = WONT ∨ command = DO ∨ command = DONT

inductive Item where
  | data (bytes : List UInt8)
  | command (command : UInt8) (plain : ¬ negotiates command ∧ command ≠ SB ∧ command ≠ IAC)
  | negotiation (command option : UInt8) (negotiating : negotiates command)
  | subnegotiation (option : UInt8) (payload : List UInt8)

namespace Item

/-- As `write`, `sendCommand` and `sendSubnegotiation` send it. -/
def encode : Item → List UInt8
  | data bytes => escape bytes
  | command c _ => [IAC, c]
  | negotiation c option _ => [IAC, c, option]
  | subnegotiation option payload => TelnetTransport.subnegotiation option payload

def bytes : Item → List UInt8
  | data bytes => bytes
  | _ => []

/-- The call of a handler. -/
def calls : Item → List Call
  | negotiation c option _ => [.handleCommand c option]
  | subnegotiation option payload => [.handleSubnegotiation (option :: payload)]
  | _ => []

/-- A subnegotiation of option 255. -/
def unescaped : Item → Prop
  | subnegotiation option _ => option = IAC
  | _ => False

end Item

/-- Fed with the items' bytes, the transport emits their data, calls the handlers and is back in its first state. -/
def Decodes (items : List Item) (chunks : List (List UInt8)) (t : TelnetTransport) : Prop :=
  (t.processAll chunks).readyReads.flatten = t.readyReads.flatten ++ items.flatMap Item.bytes ∧
    (t.processAll chunks).calls = t.calls ++ items.flatMap Item.calls ∧ (t.processAll chunks).parseState = .data

instance (items : List Item) (chunks : List (List UInt8)) (t : TelnetTransport) : Decidable (Decodes items chunks t) :=
  inferInstanceAs (Decidable (_ ∧ _))

namespace TelnetTransport

variable {t t' : TelnetTransport}

/-! ## Chunks -/

@[simp] theorem receive_nil (t : TelnetTransport) : t.receive [] = t := rfl

@[simp] theorem receive_cons (b : UInt8) (bytes : List UInt8) (t : TelnetTransport) :
    t.receive (b :: bytes) = (t.receiveByte b).receive bytes := rfl

theorem receive_append (bytes more : List UInt8) (t : TelnetTransport) :
    t.receive (bytes ++ more) = (t.receive bytes).receive more := List.foldl_append

/-- The transport with everything it has emitted still in `plainBuffer`. -/
def gather (t : TelnetTransport) : TelnetTransport :=
  { t with readyReads := [], plainBuffer := t.readyReads.flatten ++ t.plainBuffer }

theorem sendWindowSize_gather (t : TelnetTransport) : t.sendWindowSize.gather = t.gather.sendWindowSize := by
  unfold sendWindowSize
  rw [show t.gather.nawsEnabled = t.nawsEnabled from rfl]
  split <;> rfl

theorem handleCommand_gather (command option : UInt8) (t : TelnetTransport) :
    (t.handleCommand command option).gather = t.gather.handleCommand command option := by
  unfold handleCommand answer
  split
  · split <;> rfl
  · split
    · split
      · exact sendWindowSize_gather _
      · split <;> rfl
    · split
      · split <;> rfl
      · rfl

theorem handleSubnegotiation_gather (payload : List UInt8) (t : TelnetTransport) :
    (t.handleSubnegotiation payload).gather = t.gather.handleSubnegotiation payload := by
  unfold handleSubnegotiation report
  split
  · split <;> rfl
  · rfl

theorem receiveByte_gather (b : UInt8) (t : TelnetTransport) : (t.receiveByte b).gather = t.gather.receiveByte b := by
  unfold receiveByte
  rw [show t.gather.parseState = t.parseState from rfl]
  cases t.parseState with
  | data =>
    simp only
    split
    · rfl
    · simp [gather]
  | iacSeen =>
    simp only
    split
    · simp [gather]
    · split
      · rfl
      · split <;> rfl
  | negotiate => exact congrArg (fun u => { u with parseState := .data }) (handleCommand_gather t.pendingCommand b t)
  | subNegData =>
    simp only
    split <;> rfl
  | subNegIacSeen =>
    simp only
    split
    · exact congrArg (fun u => { u with parseState := .data }) (handleSubnegotiation_gather t.subNegBuffer t)
    · split <;> rfl

theorem receive_gather (bytes : List UInt8) (t : TelnetTransport) : (t.receive bytes).gather = t.gather.receive bytes := by
  induction bytes generalizing t with
  | nil => rfl
  | cons b bytes ih => rw [receive_cons, receive_cons, ih, receiveByte_gather]

theorem flush_gather (t : TelnetTransport) : t.flush.gather = t.gather := by
  unfold flush
  split
  · rfl
  · simp [gather]

theorem flush_plainBuffer (t : TelnetTransport) : t.flush.plainBuffer = [] := by
  unfold flush
  split
  · assumption
  · rfl

/-- The chunks make no difference but in how the data is emitted. -/
theorem processAll_gather (chunks : List (List UInt8)) (t : TelnetTransport) :
    (t.processAll chunks).gather = t.gather.receive chunks.flatten := by
  induction chunks generalizing t with
  | nil => rfl
  | cons chunk chunks ih =>
    calc (processAll (chunk :: chunks) t).gather = ((t.processIncoming chunk).processAll chunks).gather := rfl
      _ = (t.processIncoming chunk).gather.receive chunks.flatten := ih _
      _ = (t.gather.receive chunk).receive chunks.flatten := by rw [processIncoming, flush_gather, receive_gather]
      _ = t.gather.receive (chunk :: chunks).flatten := (receive_append _ _ _).symm

theorem processAll_plainBuffer (chunks : List (List UInt8)) (h : t.plainBuffer = []) : (t.processAll chunks).plainBuffer = [] := by
  induction chunks generalizing t with
  | nil => exact h
  | cons chunk chunks ih => exact ih (flush_plainBuffer _)

/-! ## What the handlers leave alone -/

/-- The handlers write to the socket and set the flag, nothing else. -/
structure Frame (t t' : TelnetTransport) : Prop where
  parseState : t'.parseState = t.parseState
  plainBuffer : t'.plainBuffer = t.plainBuffer
  calls : t'.calls = t.calls

theorem sendWindowSize_frame (t : TelnetTransport) : Frame t t.sendWindowSize := by
  unfold sendWindowSize
  split <;> exact ⟨rfl, rfl, rfl⟩

theorem answer_frame (command option : UInt8) (t : TelnetTransport) : Frame t (t.answer command option) := by
  unfold answer
  split
  · split <;> exact ⟨rfl, rfl, rfl⟩
  · split
    · split
      · obtain ⟨hstate, hplain, hcalls⟩ := sendWindowSize_frame { t.sendCommand WILL option with nawsEnabled := true }
        exact ⟨hstate, hplain, hcalls⟩
      · split <;> exact ⟨rfl, rfl, rfl⟩
    · split
      · split <;> exact ⟨rfl, rfl, rfl⟩
      · exact ⟨rfl, rfl, rfl⟩

theorem report_frame (payload : List UInt8) (t : TelnetTransport) : Frame t (t.report payload) := by
  unfold report
  split
  · split <;> exact ⟨rfl, rfl, rfl⟩
  · exact ⟨rfl, rfl, rfl⟩

/-! ## One item -/

/-- From one resting state to another, with data and calls in between. -/
structure Took (data : List UInt8) (calls : List Call) (t t' : TelnetTransport) : Prop where
  parseState : t'.parseState = .data
  plainBuffer : t'.plainBuffer = t.plainBuffer ++ data
  calls : t'.calls = t.calls ++ calls

theorem Took.refl (h : t.parseState = .data) : Took [] [] t t := ⟨h, (List.append_nil _).symm, (List.append_nil _).symm⟩

theorem Took.trans {t'' : TelnetTransport} {data data' : List UInt8} {calls calls' : List Call} (h : Took data calls t t')
    (h' : Took data' calls' t' t'') : Took (data ++ data') (calls ++ calls') t t'' where
  parseState := h'.parseState
  plainBuffer := by rw [h'.plainBuffer, h.plainBuffer, List.append_assoc]
  calls := by rw [h'.calls, h.calls, List.append_assoc]

@[simp] theorem escape_nil : escape [] = [] := rfl

theorem escape_cons (b : UInt8) (data : List UInt8) : escape (b :: data) = (if b = IAC then [b, IAC] else [b]) ++ escape data := rfl

theorem receive_data (h : t.parseState = .data) (data : List UInt8) : Took data [] t (t.receive (escape data)) := by
  induction data generalizing t with
  | nil => exact .refl h
  | cons b data ih =>
    rw [escape_cons, receive_append]
    have hone : Took [b] [] t (t.receive (if b = IAC then [b, IAC] else [b])) := by
      split
      · rename_i hb
        subst hb
        simp only [receive_cons, receive_nil, receiveByte, h, if_true]
        exact ⟨rfl, rfl, (List.append_nil _).symm⟩
      · rename_i hb
        simp only [receive_cons, receive_nil, receiveByte, h, if_neg hb]
        exact ⟨rfl, rfl, (List.append_nil _).symm⟩
    exact hone.trans (ih hone.parseState)

theorem receive_command (h : t.parseState = .data) {c : UInt8} (hc : ¬ negotiates c ∧ c ≠ SB ∧ c ≠ IAC) :
    Took [] [] t (t.receive [IAC, c]) := by
  obtain ⟨hno, hsb, hiac⟩ := hc
  unfold negotiates at hno
  simp only [receive_cons, receive_nil, receiveByte, h, if_true, if_neg hiac, if_neg hno, if_neg hsb]
  exact ⟨rfl, (List.append_nil _).symm, (List.append_nil _).symm⟩

theorem receive_negotiation (h : t.parseState = .data) {c : UInt8} (hc : negotiates c) (option : UInt8) :
    Took [] [.handleCommand c option] t (t.receive [IAC, c, option]) := by
  have hiac : c ≠ IAC := by
    rintro rfl
    exact absurd hc (by unfold negotiates; decide)
  unfold negotiates at hc
  simp only [receive_cons, receive_nil, receiveByte, h, if_true, if_neg hiac, if_pos hc]
  obtain ⟨-, hplain, hcalls⟩ := answer_frame c option { t with
    pendingCommand := c, parseState := .negotiate, calls := t.calls ++ [Call.handleCommand c option] }
  exact ⟨rfl, hplain.trans (List.append_nil _).symm, hcalls⟩

/-- The payload is unescaped into the buffer. -/
theorem receive_payload (h : t.parseState = .subNegData) (payload : List UInt8) :
    t.receive (escape payload) = { t with subNegBuffer := t.subNegBuffer ++ payload } := by
  induction payload generalizing t with
  | nil => simp
  | cons b payload ih =>
    have hone : t.receive (if b = IAC then [b, IAC] else [b]) = { t with subNegBuffer := t.subNegBuffer ++ [b] } := by
      split
      · rename_i hb
        subst hb
        simp only [receive_cons, receive_nil, receiveByte, h, if_true]
        rw [if_neg (by decide)]
      · rename_i hb
        simp only [receive_cons, receive_nil, receiveByte, h, if_neg hb]
    rw [escape_cons, receive_append, hone]
    refine (ih (t := { t with subNegBuffer := t.subNegBuffer ++ [b] }) h).trans ?_
    simp

theorem receive_subnegotiation (h : t.parseState = .data) {option : UInt8} (hoption : option ≠ IAC) (payload : List UInt8) :
    Took [] [.handleSubnegotiation (option :: payload)] t (t.receive (subnegotiation option payload)) := by
  have hopened : t.receive [IAC, SB, option] = { t with subNegBuffer := [option], parseState := .subNegData } := by
    simp only [receive_cons, receive_nil, receiveByte, h, if_true, if_neg hoption]
    rfl
  rw [subnegotiation, receive_append, receive_append, hopened, receive_payload rfl]
  simp only [receive_cons, receive_nil, receiveByte, if_true]
  obtain ⟨-, hplain, hcalls⟩ := report_frame (option :: payload) { t with
    subNegBuffer := option :: payload, parseState := .subNegIacSeen,
    calls := t.calls ++ [Call.handleSubnegotiation (option :: payload)] }
  exact ⟨rfl, hplain.trans (List.append_nil _).symm, hcalls⟩

theorem receive_item (h : t.parseState = .data) {item : Item} (hitem : ¬ item.unescaped) :
    Took item.bytes item.calls t (t.receive item.encode) := by
  cases item with
  | data bytes => exact receive_data h bytes
  | command c hc => exact receive_command h hc
  | negotiation c option hc => exact receive_negotiation h hc option
  | subnegotiation option payload => exact receive_subnegotiation h hitem payload

theorem receive_items (h : t.parseState = .data) {items : List Item} (hitems : ∀ item ∈ items, ¬ item.unescaped) :
    Took (items.flatMap Item.bytes) (items.flatMap Item.calls) t (t.receive (items.flatMap Item.encode)) := by
  induction items generalizing t with
  | nil => exact .refl h
  | cons item items ih =>
    have hone := receive_item h (hitems item (List.mem_cons_self ..))
    have hlater := ih hone.parseState fun item hitem => hitems item (List.mem_cons_of_mem _ hitem)
    rw [List.flatMap_cons, List.flatMap_cons, List.flatMap_cons, receive_append]
    exact hone.trans hlater

/-- Whatever arrives, the calls made stay made. -/
theorem receiveByte_calls (b : UInt8) (t : TelnetTransport) : ∃ new, (t.receiveByte b).calls = t.calls ++ new := by
  have hsame : ∃ new, t.calls = t.calls ++ new := ⟨[], (List.append_nil _).symm⟩
  unfold receiveByte
  cases t.parseState with
  | data =>
    simp only
    split <;> exact hsame
  | iacSeen =>
    simp only
    split
    · exact hsame
    · split
      · exact hsame
      · split <;> exact hsame
  | negotiate => exact ⟨_, (answer_frame _ _ _).calls⟩
  | subNegData =>
    simp only
    split <;> exact hsame
  | subNegIacSeen =>
    simp only
    split
    · exact ⟨_, (report_frame _ _).calls⟩
    · split <;> exact hsame

theorem receive_calls (bytes : List UInt8) (t : TelnetTransport) : ∃ new, (t.receive bytes).calls = t.calls ++ new := by
  induction bytes generalizing t with
  | nil => exact ⟨[], (List.append_nil _).symm⟩
  | cons b bytes ih =>
    obtain ⟨new, hnew⟩ := receiveByte_calls b t
    obtain ⟨more, hmore⟩ := ih (t.receiveByte b)
    exact ⟨new ++ more, by rw [receive_cons, hmore, hnew, List.append_assoc]⟩

/-! ## Option 255 -/

/-- Behind an option that is taken for an escape, the subnegotiation is not the one that was sent. -/
theorem receive_behind_iac (h : t.parseState = .subNegIacSeen) (payload : List UInt8) :
    ¬ ((t.receive (escape payload ++ [IAC, SE])).calls = t.calls ++ [.handleSubnegotiation (t.subNegBuffer ++ IAC :: payload)] ∧
      (t.receive (escape payload ++ [IAC, SE])).parseState = .data) := by
  rintro ⟨hcalls, hdata⟩
  induction payload generalizing t with
  | nil =>
    have hend : (t.receive (escape [] ++ [IAC, SE])).parseState = .subNegData := by
      simp only [escape_nil, List.nil_append, receive_cons, receive_nil, receiveByte, h, if_true]
      rw [if_neg (show IAC ≠ SE by decide)]
      simp only
      rw [if_neg (show SE ≠ IAC by decide)]
    rw [hend] at hdata
    cases hdata
  | cons b payload ih =>
    by_cases hiac : b = IAC
    · -- the pair is taken apart: the first byte ends an escape, the second begins one
      subst hiac
      have hpair : t.receive [IAC, IAC] = { t with
          subNegBuffer := t.subNegBuffer ++ [IAC], parseState := .subNegIacSeen } := by
        simp only [receive_cons, receive_nil, receiveByte, h, if_true]
        rw [if_neg (show IAC ≠ SE by decide)]
      rw [escape_cons, if_pos rfl, List.append_assoc, receive_append, hpair] at hcalls hdata
      exact ih rfl (by simpa using hcalls) hdata
    · rw [escape_cons, if_neg hiac, List.append_assoc, receive_append, receive_cons, receive_nil] at hcalls hdata
      by_cases hse : b = SE
      · subst hse
        have hcall : (t.receiveByte SE).calls = t.calls ++ [.handleSubnegotiation t.subNegBuffer] := by
          simp only [receiveByte, h, if_true]
          exact (report_frame _ _).calls
        obtain ⟨new, hnew⟩ := receive_calls (escape payload ++ [IAC, SE]) (t.receiveByte SE)
        rw [hnew, hcall, List.append_assoc, List.append_cancel_left_eq, List.singleton_append, List.cons.injEq,
          Call.handleSubnegotiation.injEq] at hcalls
        have hlen := congrArg List.length hcalls.1
        simp only [List.length_append, List.length_cons] at hlen
        omega
      · have hreset : t.receiveByte b = { t with parseState := .data } := by
          simp only [receiveByte, h, if_neg hse, if_neg hiac]
        have hplain : Took [] [] _ _ := receive_command (receive_data (t := { t with parseState := .data }) rfl payload).parseState
          (show ¬ negotiates SE ∧ SE ≠ SB ∧ SE ≠ IAC by unfold negotiates; decide)
        have hsame := ((receive_data (t := { t with parseState := .data }) rfl payload).trans hplain).calls
        rw [hreset, receive_append, hsame] at hcalls
        simp at hcalls

theorem receive_unescaped (h : t.parseState = .data) (payload : List UInt8) :
    ¬ ((t.receive (subnegotiation IAC payload)).calls = t.calls ++ [.handleSubnegotiation (IAC :: payload)] ∧
      (t.receive (subnegotiation IAC payload)).parseState = .data) := by
  have hopened : t.receive [IAC, SB, IAC] = { t with subNegBuffer := [], parseState := .subNegIacSeen } := by
    simp only [receive_cons, receive_nil, receiveByte, h, if_true]
    rfl
  have hbehind := receive_behind_iac (t := { t with subNegBuffer := [], parseState := .subNegIacSeen }) rfl payload
  rw [subnegotiation, List.append_assoc, receive_append, hopened]
  exact hbehind

/-! ## All items -/

theorem decodes_of_took {items : List Item} {chunks : List (List UInt8)} (hplain : t.plainBuffer = [])
    (hchunks : chunks.flatten = items.flatMap Item.encode)
    (h : Took (items.flatMap Item.bytes) (items.flatMap Item.calls) t.gather (t.gather.receive (items.flatMap Item.encode))) :
    Decodes items chunks t := by
  have hgather := processAll_gather chunks t
  rw [hchunks] at hgather
  rw [← hgather] at h
  have hbuffer := h.plainBuffer
  simp only [gather, hplain, processAll_plainBuffer chunks hplain, List.append_nil] at hbuffer
  exact ⟨hbuffer, h.calls, h.parseState⟩

/-- Up to the first subnegotiation of option 255, that one included. -/
theorem exists_first {items : List Item} (h : ∃ item ∈ items, item.unescaped) :
    ∃ before payload, before ++ [Item.subnegotiation IAC payload] <+: items ∧ ∀ item ∈ before, ¬ item.unescaped := by
  induction items with
  | nil =>
    obtain ⟨item, hitem, -⟩ := h
    cases hitem
  | cons first items ih =>
    by_cases hfirst : first.unescaped
    · cases first with
      | subnegotiation option payload =>
        obtain rfl : option = IAC := hfirst
        exact ⟨[], payload, ⟨items, rfl⟩, List.forall_mem_nil _⟩
      | data | command | negotiation => exact absurd hfirst (fun h => h)
    · have hlater : ∃ item ∈ items, item.unescaped := by
        obtain ⟨item, hitem, hbad⟩ := h
        rcases List.mem_cons.mp hitem with rfl | hitem
        · exact absurd hbad hfirst
        · exact ⟨item, hitem, hbad⟩
      obtain ⟨before, payload, hprefix, hbefore⟩ := ih hlater
      exact ⟨first :: before, payload, List.prefix_cons_inj first |>.mpr hprefix, List.forall_mem_cons.mpr ⟨hfirst, hbefore⟩⟩

end TelnetTransport

/-- At the end of every item and however the bytes are cut, the parser has undone the protocol, if and only if no
subnegotiation is of option 255. -/
theorem decodes_iff (t : TelnetTransport) (items : List Item) :
    (∀ sent, sent <+: items → ∀ chunks, chunks.flatten = sent.flatMap Item.encode → Decodes sent chunks t.connectToHost) ↔
      ∀ item ∈ items, ¬ item.unescaped := by
  constructor
  · intro hall item hitem hbad
    obtain ⟨before, payload, hprefix, hbefore⟩ := TelnetTransport.exists_first ⟨item, hitem, hbad⟩
    have hdecodes := hall _ hprefix [(before ++ [Item.subnegotiation IAC payload]).flatMap Item.encode] (by simp)
    have hgather := TelnetTransport.processAll_gather [(before ++ [Item.subnegotiation IAC payload]).flatMap Item.encode] t.connectToHost
    have htook := TelnetTransport.receive_items (t := t.connectToHost.gather) rfl hbefore
    simp only [List.flatten_singleton, List.flatMap_append, List.flatMap_singleton, TelnetTransport.receive_append] at hgather
    obtain ⟨-, hcalls, hstate⟩ := hdecodes
    refine TelnetTransport.receive_unescaped htook.parseState payload ⟨?_, ?_⟩
    · rw [htook.calls, List.append_assoc]
      have hsame := congrArg TelnetTransport.calls hgather
      simp only [List.flatMap_append, List.flatMap_singleton] at hcalls
      exact hsame.symm.trans hcalls
    · have hsame := congrArg TelnetTransport.parseState hgather
      simp only [List.flatMap_append, List.flatMap_singleton] at hstate
      exact hsame.symm.trans hstate
  · intro hitems sent hsent chunks hchunks
    refine TelnetTransport.decodes_of_took rfl hchunks (TelnetTransport.receive_items rfl fun item hitem => ?_)
    exact hitems item (hsent.subset hitem)

/-- The option is taken for the escape of the byte behind it, and the parser waits for an end that has passed. -/
theorem option_255_not_decoded :
    ¬ Decodes [.subnegotiation 255 []] [Item.encode (.subnegotiation 255 [])] ({} : TelnetTransport).connectToHost := by
  decide

end LvdTerm.Telnet
