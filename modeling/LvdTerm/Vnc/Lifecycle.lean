import LvdTerm.Vnc.HandshakeAccepts

/-!
# VNC client: the life of a connection

From `connectToHost` to `closed()`: the sockets that are opened, the versions that are answered on
them, and what the client says in the end. A retry lowers `m_maxMinor` below the version that was
answered, so there are two of them at most.
-/
namespace LvdTerm.Vnc

open Lib Lib.Action

variable {E : Env} {c c' c₀ : VncClient E} {n : Nat} {ms : List Nat}

/-- `startConnection` opens a socket, and nothing else leads back to `Stage::Version`. -/
def opened (c c' : VncClient E) : Nat := if c.stage ≠ .version ∧ c'.stage = .version then 1 else 0

/-- The minor version a move has answered. -/
def answeredBy (c c' : VncClient E) : List Nat := if c.stage = .version ∧ c'.stage = .securityTypes then [c'.minor] else []

/-- What happens to `c₀`, with the sockets opened and the minor versions answered. -/
inductive Life (c₀ : VncClient E) : Nat → List Nat → VncClient E → Prop where
  | connected : Life c₀ 1 [] c₀
  | move {n : Nat} {ms : List Nat} {c c' : VncClient E} {new : List Mark} (h : Life c₀ n ms c) (hm : Move c new c') :
      Life c₀ (n + opened c c') (ms ++ answeredBy c c') c'

def Event.isFailed : Event → Bool
  | .failed _ => true
  | _ => false

/-- The life of a client that starts as `c₀`. -/
structure Lifecycle (c₀ : VncClient E) : Prop where
  sockets : ∀ n ms c, Life c₀ n ms c → n ≤ 3
  versions : ∀ n ms c, Life c₀ n ms c → ms.Pairwise (· > ·) ∧ (∀ m ∈ ms, m ∈ [8, 7, 3]) ∧ ms.length ≤ n
  replies : ∀ n ms c new c', Life c₀ n ms c → Move c new c' → c.stage = .version → c'.stage = .securityTypes →
    c'.events = c.events ++ [.write (versionReply c'.minor)]
  failedOnce : ∀ n ms c, Life c₀ n ms c → c.events.countP Event.isFailed ≤ 1
  closedLast : ∀ n ms c before after, Life c₀ n ms c → c.events = before ++ .closed :: after → .closed ∉ before ∧ after = []

/-! ## What a move says -/

/-- Neither `failed` nor `closed`. -/
def Calm (events : List Event) : Prop := ∀ event ∈ events, event.isFailed = false ∧ event ≠ .closed

/-- A client that goes on says neither `failed` nor `closed`, one that ends says `closed` last. -/
inductive Says (c c' : VncClient E) : Prop where
  | goesOn (new : List Event) (hs : c'.stage ≠ .idle) (he : c'.events = c.events ++ new) (hcalm : Calm new)
  | failed (message : String) (hs : c'.stage = .idle) (he : c'.events = c.events ++ [.failed message] ++ [.closed])
  | ended (hs : c'.stage = .idle) (he : c'.events = c.events ++ [.closed])

theorem calm_nil : Calm [] := by simp [Calm]

theorem calm_append {a b : List Event} (ha : Calm a) (hb : Calm b) : Calm (a ++ b) := by
  simp only [Calm, List.mem_append]
  rintro event (h | h)
  · exact ha event h
  · exact hb event h

theorem calm_writes (answers : List (List UInt8)) : Calm (answers.map .write) := by
  intro event h
  obtain ⟨data, -, rfl⟩ := List.mem_map.mp h
  exact ⟨rfl, by simp⟩

theorem Quiet.calm {events : List Event} (h : Quiet events) : Calm events := by
  cases h <;> simp [Calm, Event.isFailed]

theorem requestEvents_calm (incremental : Bool) (c : VncClient E) : Calm (requestEvents incremental c) := by
  unfold requestEvents
  split <;> simp [Calm, Event.isFailed]

theorem finished_calm (c : VncClient E) : ∃ new, (finished c).events = c.events ++ new ∧ Calm new := by
  refine ⟨(if (toShow c).isValid then [.framebufferChanged (toShow c)] else []) ++ requestEvents (!c.resized) c, ?_, ?_⟩
  · simp [finished]
  · refine calm_append ?_ (requestEvents_calm _ _)
    split <;> simp [Calm, Event.isFailed]

theorem rectFinished_calm (c : VncClient E) : ∃ new, (rectFinished c).events = c.events ++ new ∧ Calm new := by
  obtain ⟨mode, left, heq⟩ := counted_eq c
  rw [rectFinished, heq]
  split
  · exact finished_calm _
  · exact ⟨[], by simp, calm_nil⟩

theorem HandshakeStep.tells {done : Bool} (h : HandshakeStep c done c') (hidle : c.stage ≠ .idle) : Says c c' := by
  cases h with
  | wait => exact .goesOn [] hidle (by simp) calm_nil
  | failed _ _ _ _ message => exact .failed message rfl rfl
  | version => exact .goesOn _ (by simp) rfl (by simp [Calm, Event.isFailed])
  | advance _ _ _ _ _ hstage answers => exact .goesOn _ hstage.1 rfl (calm_writes answers)
  | ready _ width height =>
    refine .goesOn [.write (setPixelFormat ++ setEncodings (if c.encodings = [] then defaultEncodings else c.encodings)),
      .write (updateRequest false width height), .ready] (by simp [started]) (by simp [started]) (by simp [Calm, Event.isFailed])

theorem Ended.tells (h : Ended c c') (hidle : c.stage ≠ .idle) : Says c c' := by
  cases h with
  | goesOn hs _ _ he => exact .goesOn [] (by rw [hs]; exact hidle) (by simp [he]) calm_nil
  | failed message _ hs _ _ he => exact .failed message hs he

/-- A rectangle that has been decoded without a failure, and its end. -/
theorem tells_rectFinished {c₂ : VncClient E} (hs : c₂.stage = .running) {new : List Event} (he : c₂.events = c.events ++ new)
    (hcalm : Calm new) : Says c (rectFinished c₂) := by
  obtain ⟨more, hmore, hcalm'⟩ := rectFinished_calm c₂
  refine .goesOn (new ++ more) ?_ ?_ (calm_append hcalm hcalm')
  · rw [(rectFinished_session hs).1]
    decide
  · rw [hmore, he, List.append_assoc]

theorem RunningStep.tells {done : Bool} (h : RunningStep c done c') (hs : c.stage = .running) : Says c c' := by
  have hidle : c.stage ≠ .idle := by
    rw [hs]
    decide
  cases h with
  | message _ _ _ _ hquiet => exact .goesOn _ hidle rfl hquiet.calm
  | refused message => exact .failed message rfl rfl
  | update => exact .goesOn [] hidle (by simp [announced]) calm_nil
  | emptyUpdate =>
    obtain ⟨new, he, hcalm⟩ := finished_calm (announced 0 c)
    exact .goesOn new hidle he hcalm
  | noHeader => exact .goesOn [] hidle (by simp) calm_nil
  | outside message => exact .failed message rfl rfl
  | partly hdue hrect hwait hdec =>
    obtain ⟨hs₁, -, he⟩ := pending_session hrect
    cases hdec.ended with
    | goesOn hs' _ _ he' => exact .goesOn [] (by rw [hs', hs₁]; exact hidle) (by rw [he', he, List.append_nil]) calm_nil
    | failed message _ hs' _ _ he' => exact .failed message hs' (by rw [he', he])
  | complete hdue hrect hno hdone hdec hlive =>
    obtain ⟨-, -, he⟩ := pending_session hrect
    cases hdec.ended with
    | goesOn _ _ _ he' => exact tells_rectFinished hlive.stage (by rw [he', he, List.append_nil]) calm_nil
    | failed _ _ hs' =>
      rw [hlive.stage] at hs'
      cases hs'
  | @resize c₁ hdue hrect hsize hallowed hlive =>
    obtain ⟨-, -, he⟩ := pending_session hrect
    have he' : (desktopSized c₁).events = c.events ++ [.framebufferResized c₁.rect.w c₁.rect.h] := by
      simp [desktopSized, he]
    exact tells_rectFinished hlive.stage he' (by simp [Calm, Event.isFailed])

theorem SocketStep.tells (h : SocketStep c c') (hidle : c.stage ≠ .idle) : Says c c' := by
  cases h with
  | ignored => exact .goesOn [] hidle (by simp) calm_nil
  | ended => exact .ended rfl rfl
  | failed _ message => exact .failed message rfl rfl
  | retried => exact .goesOn [] (by simp) (by simp) calm_nil

theorem Move.live {new : List Mark} (hinv : Inv c) (h : Move c new c') : c.stage ≠ .idle := by
  intro hidle
  have hsocket := hinv.idle hidle
  cases h with
  | arrive _ hyes | closed hyes | error _ _ hyes =>
    rw [hsocket] at hyes
    cases hyes
  | step hno => exact hno hidle

theorem Move.tells {new : List Mark} (hinv : Inv c) (h : Move c new c') : Says c c' := by
  have hidle := h.live hinv
  cases h.effect hinv with
  | arrive chunk => exact .goesOn [] hidle (by simp [appendChunk]) calm_nil
  | socket hstep => exact hstep.tells hidle
  | handshake _ hstep => exact hstep.tells hidle
  | running hs hstep => exact hstep.tells hs

/-! ## Retries -/

/-- The retries that are left below a version. -/
def retriesBelow (maxMinor : Nat) : Nat := if maxMinor = 8 then 2 else if maxMinor = 7 then 1 else 0

theorem negotiatedMinor_le (major minor : Int) {maxMinor : Nat} (h : maxMinor ∈ [8, 7, 3]) :
    negotiatedMinor major minor maxMinor ≤ maxMinor ∧ negotiatedMinor major minor maxMinor ∈ [8, 7, 3] := by
  unfold negotiatedMinor
  simp only [List.mem_cons, List.not_mem_nil, or_false] at h ⊢
  refine ⟨Nat.min_le_right _ _, ?_⟩
  split
  · omega
  · split <;> omega

/-- Neither `failed` nor `closed` yet; or the client is idle, and `closed` was the last it said. -/
def Said (c : VncClient E) : Prop :=
  (c.stage ≠ .idle ∧ Calm c.events) ∨
    (c.stage = .idle ∧ ∃ before, c.events = before ++ [.closed] ∧ .closed ∉ before ∧ before.countP Event.isFailed ≤ 1)

/-- How a client has come to where it is. -/
structure Lived (n : Nat) (ms : List Nat) (c : VncClient E) : Prop where
  inv : Inv c
  decreasing : ms.Pairwise (· > ·)
  known : ∀ m ∈ ms, m ∈ [8, 7, 3]
  sockets : n ≤ 3
  version : c.stage = .version → c.maxMinor ∈ [8, 7, 3] ∧ n + retriesBelow c.maxMinor ≤ 3 ∧ (∀ m ∈ ms, c.maxMinor < m) ∧ ms.length < n
  answered : c.stage = .securityTypes → c.minor ∈ [8, 7, 3] ∧ n + retriesBelow c.minor ≤ 3 ∧ (∀ m ∈ ms, c.minor ≤ m)
  length : ms.length ≤ n
  said : Said c

/-- What has been said, after one more move. -/
theorem Lived.tells (h : Lived n ms c) (hidle : c.stage ≠ .idle) (htells : Says c c') : Said c' := by
  have hcalm : Calm c.events := h.said.elim (·.2) fun hs => absurd hs.1 hidle
  have hclosed : .closed ∉ c.events := fun hc => (hcalm _ hc).2 rfl
  have hfailed : c.events.countP Event.isFailed = 0 := by
    refine List.countP_eq_zero.mpr fun event hevent => ?_
    rw [(hcalm event hevent).1]
    decide
  cases htells with
  | goesOn new hs he hnew => exact .inl ⟨hs, he ▸ calm_append hcalm hnew⟩
  | failed message hs he =>
    refine .inr ⟨hs, c.events ++ [.failed message], he, by simp [hclosed], ?_⟩
    rw [List.countP_append, hfailed]
    simp [Event.isFailed]
  | ended hs he => exact .inr ⟨hs, c.events, he, hclosed, by rw [hfailed]; decide⟩

/-- A move that neither opens a socket nor answers a version, to a stage behind both. -/
theorem Lived.later (h : Lived n ms c) {new : List Mark} (hm : Move c new c') (h1 : c'.stage ≠ .version) (h2 : c'.stage ≠ .securityTypes) :
    Lived (n + opened c c') (ms ++ answeredBy c c') c' := by
  have hopened : opened c c' = 0 := if_neg fun ho => h1 ho.2
  have hanswered : answeredBy c c' = [] := if_neg fun ha => h2 ha.2
  rw [hopened, hanswered, Nat.add_zero, List.append_nil]
  exact ⟨hm.inv h.inv, h.decreasing, h.known, h.sockets, fun hs => absurd hs h1, fun hs => absurd hs h2, h.length,
    h.tells (hm.live h.inv) (hm.tells h.inv)⟩

/-- A move that changes neither stage nor versions. -/
theorem Lived.same (h : Lived n ms c) {new : List Mark} (hm : Move c new c') (hs : c'.stage = c.stage) (hminor : c'.minor = c.minor)
    (hmax : c'.maxMinor = c.maxMinor) : Lived (n + opened c c') (ms ++ answeredBy c c') c' := by
  have hopened : opened c c' = 0 := if_neg fun ho => ho.1 (hs ▸ ho.2)
  have hanswered : answeredBy c c' = [] := by
    refine if_neg fun ha => ?_
    rw [hs, ha.1] at ha
    cases ha.2
  rw [hopened, hanswered, Nat.add_zero, List.append_nil]
  refine ⟨hm.inv h.inv, h.decreasing, h.known, h.sockets, ?_, ?_, h.length, h.tells (hm.live h.inv) (hm.tells h.inv)⟩
  · rw [hs, hmax]
    exact h.version
  · rw [hs, hminor]
    exact h.answered

/-- A retry: one more socket, and a lower version to answer on it. -/
theorem Lived.retried (h : Lived n ms c) {new : List Mark} (hm : Move c new c') (hs : c.stage = .securityTypes) (hminor : 3 < c.minor)
    (hs' : c'.stage = .version) (hmax : c'.maxMinor = if c.minor ≥ 8 then 7 else 3)
    (hsaid : Said c') : Lived (n + opened c c') (ms ++ answeredBy c c') c' := by
  obtain ⟨hknown, hleft, hle⟩ := h.answered hs
  have hopened : opened c c' = 1 := if_pos ⟨by rw [hs]; decide, hs'⟩
  have hanswered : answeredBy c c' = [] := by
    refine if_neg fun ha => ?_
    rw [hs] at ha
    cases ha.1
  rw [hopened, hanswered, List.append_nil]
  have hlower : c'.maxMinor ∈ [8, 7, 3] ∧ c'.maxMinor < c.minor ∧ n + 1 + retriesBelow c'.maxMinor ≤ 3 := by
    simp only [List.mem_cons, List.not_mem_nil, or_false] at hknown
    rcases hknown with h8 | h7 | h3
    · rw [h8] at hleft ⊢
      simp only [hmax, h8, retriesBelow] at hleft ⊢
      simp at hleft ⊢
      omega
    · rw [h7] at hleft ⊢
      simp only [hmax, h7, retriesBelow] at hleft ⊢
      simp at hleft ⊢
      omega
    · omega
  refine ⟨hm.inv h.inv, h.decreasing, h.known, by omega, fun _ => ?_, fun h2 => ?_, by have := h.length; omega, hsaid⟩
  · have hlength := h.length
    exact ⟨hlower.1, hlower.2.2, fun m hm => Nat.lt_of_lt_of_le hlower.2.1 (hle m hm), by omega⟩
  · rw [hs'] at h2
    cases h2

/-- A version is answered: a new one, below all before it. -/
theorem Lived.replied (h : Lived n ms c) {new : List Mark} (hm : Move c new c') (hs : c.stage = .version) {major minor : Int}
    (hs' : c'.stage = .securityTypes) (hminor : c'.minor = negotiatedMinor major minor c.maxMinor)
    (hsaid : Said c') : Lived (n + opened c c') (ms ++ answeredBy c c') c' := by
  obtain ⟨hmax, hleft, hlt, hlength⟩ := h.version hs
  obtain ⟨hle, hknown⟩ := negotiatedMinor_le major minor hmax
  rw [← hminor] at hle hknown
  have hopened : opened c c' = 0 := if_neg fun ho => ho.1 hs
  have hanswered : answeredBy c c' = [c'.minor] := if_pos ⟨hs, hs'⟩
  rw [hopened, hanswered, Nat.add_zero]
  have hbelow : retriesBelow c'.minor ≤ retriesBelow c.maxMinor := by
    simp only [List.mem_cons, List.not_mem_nil, or_false] at hmax hknown
    unfold retriesBelow
    split <;> split <;> (try split) <;> (try split) <;> omega
  refine ⟨hm.inv h.inv, ?_, ?_, h.sockets, fun h1 => ?_, fun _ => ⟨hknown, by omega, ?_⟩, by rw [List.length_append]; exact hlength, hsaid⟩
  · refine List.pairwise_append.mpr ⟨h.decreasing, List.pairwise_singleton _ _, fun m hm k hk => ?_⟩
    rw [List.mem_singleton.mp hk]
    exact Nat.lt_of_le_of_lt hle (hlt m hm)
  · intro m hm
    rcases List.mem_append.mp hm with hm | hm
    · exact h.known m hm
    · rw [List.mem_singleton.mp hm]
      exact hknown
  · rw [hs'] at h1
    cases h1
  · intro m hm
    rcases List.mem_append.mp hm with hm | hm
    · exact Nat.le_trans hle (Nat.le_of_lt (hlt m hm))
    · exact Nat.le_of_eq (List.mem_singleton.mp hm).symm

theorem Lived.move (h : Lived n ms c) {new : List Mark} (hm : Move c new c') : Lived (n + opened c c') (ms ++ answeredBy c c') c' := by
  have hsaid := h.tells (hm.live h.inv) (hm.tells h.inv)
  cases heffect : hm.effect h.inv with
  | arrive => exact h.same hm rfl rfl rfl
  | running hs hstep =>
    have hstage := (hstep.session hs).1
    refine h.later hm ?_ ?_
    all_goals rcases hstage with hs' | hs' <;> rw [hs'] <;> decide
  | socket hstep =>
    cases hstep with
    | ignored => exact h.same hm rfl rfl rfl
    | ended | failed => exact h.later hm (by simp [VncClient.failed]) (by simp [VncClient.failed])
    | retried hs hbuf hminor => exact h.retried hm hs hminor rfl rfl hsaid
  | handshake hs hstep =>
    cases hstep with
    | wait => exact h.same hm rfl rfl rfl
    | failed => exact h.later hm (by simp [VncClient.failed]) (by simp [VncClient.failed])
    | advance _ _ _ _ _ hstage => exact h.later hm hstage.2.1 hstage.2.2.1
    | ready => exact h.later hm (by simp [started]) (by simp [started])
    | version hv buf major minor => exact h.replied hm hv rfl rfl hsaid

theorem Life.lived (h : Life c₀ n ms c) (hstart : Lived 1 [] c₀) : Lived n ms c := by
  induction h with
  | connected => exact hstart
  | move _ hm ih => exact ih.move hm

theorem lived_connecting (E : Env) (provider : Option (Option String)) (encodings : List Int) (password : String) :
    Lived 1 [] (.connecting E provider encodings password) where
  inv := inv_connecting E provider encodings password
  decreasing := .nil
  known := by simp
  sockets := by decide
  version _ := ⟨by simp [VncClient.connecting, VncClient.new], by simp [VncClient.connecting, VncClient.new, retriesBelow], by simp, by decide⟩
  answered hs := by cases hs
  length := by decide
  said := .inl ⟨by simp [VncClient.connecting], calm_nil⟩

/-- A move that answers a version says nothing else. -/
theorem Move.reply {new : List Mark} (hinv : Inv c) (hm : Move c new c') (hs : c.stage = .version) (hs' : c'.stage = .securityTypes) :
    c'.events = c.events ++ [.write (versionReply c'.minor)] := by
  have hne : c'.stage ≠ c.stage := by
    rw [hs, hs']
    decide
  cases hm.effect hinv with
  | arrive => exact absurd rfl hne
  | socket hstep =>
    cases hstep with
    | ignored => exact absurd rfl hne
    | ended | failed | retried => cases hs'
  | handshake _ hstep =>
    cases hstep with
    | wait => exact absurd rfl hne
    | failed => cases hs'
    | version => rfl
    | advance hno => exact absurd hs hno
    | ready => cases hs'
  | running hrun => rw [hs] at hrun; cases hrun

/-- At most three sockets, versions that decrease, one failure at most, and `closed` once and last. -/
theorem connection_lifecycle (E : Env) (provider : Option (Option String)) (encodings : List Int) (password : String) :
    Lifecycle (.connecting E provider encodings password) := by
  have hlived {n : Nat} {ms : List Nat} {c : VncClient E} (h : Life (.connecting E provider encodings password) n ms c) : Lived n ms c :=
    h.lived (lived_connecting E provider encodings password)
  refine ⟨fun n ms c h => (hlived h).sockets, fun n ms c h => ?_, fun n ms c new c' h hm => hm.reply (hlived h).inv, ?_, ?_⟩
  · exact ⟨(hlived h).decreasing, (hlived h).known, (hlived h).length⟩
  · intro n ms c h
    rcases (hlived h).said with ⟨-, hcalm⟩ | ⟨-, before, he, -, hcount⟩
    · have hnone : c.events.countP Event.isFailed = 0 := by
        refine List.countP_eq_zero.mpr fun event hevent => ?_
        simp [(hcalm event hevent).1]
      omega
    · rw [he, List.countP_append]
      exact hcount
  · intro n ms c before after h he
    rcases (hlived h).said with ⟨-, hcalm⟩ | ⟨-, calm, he', hno, -⟩
    · exact absurd rfl (hcalm .closed (by rw [he]; simp)).2
    · rw [he] at he'
      rcases List.eq_nil_or_concat after with rfl | ⟨rest, last, rfl⟩
      · obtain rfl : before = calm := List.append_inj_left' he' rfl
        exact ⟨hno, rfl⟩
      · rw [List.concat_eq_append, ← List.cons_append, ← List.append_assoc] at he'
        have hcalm := List.append_inj_left' he' rfl
        exact absurd (by rw [← hcalm]; simp) hno

end LvdTerm.Vnc
