import LvdTerm.Lib.Resume

/-!
# Draining an inbox

`drain` runs units until one returns `false` or the decoder halts; `receive` is the
handler of one arriving chunk. Every unit that returns `true` makes `size` smaller,
so `size + 1` rounds always suffice (`drain_fuel`).
-/
namespace LvdTerm.Lib.Inbox

variable {ε σ β : Type} (I : Inbox σ β) (unit : Action ε σ Bool) (size : σ → Nat)

/-- `while (!halted && unit()) {}` with an explicit number of rounds. -/
def drain : Nat → Action ε σ Unit
  | 0, s => .ok ((), s)
  | n + 1, s =>
    if I.halted s then .ok ((), s)
    else match unit s with
      | .error e => .error e
      | .ok (false, s') => .ok ((), s')
      | .ok (true, s') => drain n s'

/-- A chunk arrives; a halted decoder is no longer told. -/
def receive (x : List β) : Action ε σ Unit := fun s =>
  if I.halted s then .ok ((), s)
  else I.drain unit (size (I.append x s) + 1) (I.append x s)

def receiveAll : List (List β) → Action ε σ Unit
  | [] => pure ()
  | x :: xs => I.receive unit size x >>= fun _ => receiveAll xs

/-- A unit that keeps `P` and, when it completes, brings the end of the loop closer. -/
def Keeps (E : ε → Prop) (P : σ → Prop) : Prop :=
  ∀ s, P s → I.halted s = false →
    Action.wp E unit (fun done s' => P s' ∧ (done = true → size s' < size s)) s

variable {I unit size}

theorem drain_halted {s : σ} (h : I.halted s = true) (n : Nat) :
    I.drain unit n s = .ok ((), s) := by
  cases n with
  | zero => rfl
  | succ n => rw [drain, if_pos h]

theorem drain_succ {s : σ} (h : I.halted s = false) (n : Nat) :
    I.drain unit (n + 1) s = match unit s with
      | .error e => .error e
      | .ok (false, s') => .ok ((), s')
      | .ok (true, s') => I.drain unit n s' := by
  rw [drain, h]
  rfl

section Invariant

variable {E : ε → Prop} {P : σ → Prop}

theorem Keeps.ok (hk : I.Keeps unit size E P) {s s' : σ} {done : Bool} (hP : P s)
    (hh : I.halted s = false) (h : unit s = .ok (done, s')) :
    P s' ∧ (done = true → size s' < size s) := by
  have hu := hk s hP hh
  unfold Action.wp at hu
  rwa [h] at hu

theorem drain_fuel (hk : I.Keeps unit size E P) {n m : Nat} {s : σ} (hP : P s)
    (hn : size s < n) (hm : size s < m) : I.drain unit n s = I.drain unit m s := by
  induction n generalizing m s with
  | zero => omega
  | succ n ih =>
    cases m with
    | zero => omega
    | succ m =>
      cases hh : I.halted s with
      | true => rw [drain_halted hh, drain_halted hh]
      | false =>
        rw [drain_succ hh, drain_succ hh]
        cases hu : unit s with
        | error e => rfl
        | ok r =>
          obtain ⟨b, s'⟩ := r
          cases b with
          | false => rfl
          | true =>
            obtain ⟨hP', hlt⟩ := hk.ok hP hh hu
            have hlt := hlt rfl
            exact ih hP' (by omega) (by omega)

/-- What one unit preserves, the loop preserves. -/
theorem wp_drain (hk : I.Keeps unit size E P) (n : Nat) {s : σ} (h : P s) :
    Action.wp E (I.drain unit n) (fun _ s' => P s') s := by
  induction n generalizing s with
  | zero => exact h
  | succ n ih =>
    cases hh : I.halted s with
    | true =>
      unfold Action.wp
      rw [drain_halted hh]
      exact h
    | false =>
      have hu := hk s h hh
      unfold Action.wp at hu ⊢
      rw [drain_succ hh]
      cases hs : unit s with
      | error e => rw [hs] at hu; exact hu
      | ok r =>
        obtain ⟨b, s'⟩ := r
        rw [hs] at hu
        cases b with
        | false => exact hu.1
        | true => exact ih hu.1

end Invariant

section Cut

variable {starved : ε → Prop} {P P' : σ → Prop}

/-- The outcome of a loop on part of the data, and on that data with more behind it. -/
def Extends (I : Inbox σ β) (x : List β) (short long : Except ε (Unit × σ)) (rest : σ → Except ε (Unit × σ)) :
    Prop :=
  match short with
  | .error e => long = .error e
  | .ok ((), s) => long = if I.halted s then .ok ((), I.append x s) else rest (I.append x s)

/-- Running dry and going on later is the same as never having run dry. -/
theorem drain_append (hr : I.Resumes starved unit)
    (hk : I.Keeps unit size (fun e => ¬ starved e) P) (hk' : I.Keeps unit size (fun e => ¬ starved e) P')
    (x : List β) (hext : ∀ s, P s → P' (I.append x s)) (n : Nat) {s : σ} (hP : P s)
    (hn : size s < n) {m : Nat} (hm : size (I.append x s) < m) :
    I.Extends x (I.drain unit n s) (I.drain unit m (I.append x s))
      (fun t => I.drain unit (size t + 1) t) := by
  induction n generalizing s m with
  | zero => omega
  | succ n ih =>
    cases hh : I.halted s with
    | true =>
      have hx : I.halted (I.append x s) = true := by rw [I.halted_append, hh]
      rw [drain_halted hh, drain_halted hx, Extends, if_pos hh]
    | false =>
      have hx : I.halted (I.append x s) = false := by rw [I.halted_append, hh]
      cases m with
      | zero => omega
      | succ m =>
        have hu := hk s hP hh
        rw [drain_succ hh]
        cases hs : unit s with
        | error e =>
          have hne : ¬ starved e := Action.wp_error (E := fun e => ¬ starved e) hu hs
          rw [drain_succ hx, hr.fault hs hne x]
          rfl
        | ok r =>
          obtain ⟨b, s'⟩ := r
          obtain ⟨hP', hlt⟩ := hk.ok hP hh hs
          cases b with
          | true =>
            have hd := hr.done hs x
            have hlt := hlt rfl
            have hlt' := (hk'.ok (hext s hP) hx hd).2 rfl
            rw [drain_succ hx, hd]
            exact ih hP' (by omega) (by omega)
          | false =>
            cases hh' : I.halted s' with
            | true =>
              rw [drain_succ hx, hr.halt hh hs hh' x]
              simp [Extends, hh']
            | false =>
              have hx' : I.halted (I.append x s') = false := by rw [I.halted_append, hh']
              have hw := hr.wait hs hh' x
              simp only [Extends, hh', Bool.false_eq_true, if_false]
              -- both loops make the same next step
              rw [drain_succ hx, drain_succ hx', hw]
              cases hl : unit (I.append x s) with
              | error e => rfl
              | ok r =>
                obtain ⟨b, t⟩ := r
                cases b with
                | false => rfl
                | true =>
                  obtain ⟨hPt, h1⟩ := hk'.ok (hext s hP) hx hl
                  have h1 := h1 rfl
                  have h2 := (hk'.ok (hext s' hP') hx' (hw.trans hl)).2 rfl
                  exact drain_fuel hk' hPt (by omega) (by omega)

end Cut

/-! ## Cutting a stream into chunks -/

section Chunks

variable {starved : ε → Prop} {Q : σ → Prop} {bound : Nat}

/-- What is compared: a halted decoder's left-over data is not. -/
def outcome (I : Inbox σ β) (clear : σ → σ) (r : Except ε (Unit × σ)) : Except ε σ :=
  r.map fun p => if I.halted p.2 then clear p.2 else p.2

/-- What a chunk theorem needs to know about a unit: it can be resumed, and on less than
`bound` items of data it keeps `Q`, makes progress and never reads ahead. -/
structure Sound (I : Inbox σ β) (starved : ε → Prop) (unit : Action ε σ Bool) (size : σ → Nat)
    (Q : σ → Prop) (bound : Nat) : Prop where
  resumes : I.Resumes starved unit
  keeps : ∀ s, Q s → I.avail s < bound → I.halted s = false →
    Action.wp (fun e => ¬ starved e) unit
      (fun done s' => Q s' ∧ I.avail s' ≤ I.avail s ∧ (done = true → size s' < size s)) s
  append : ∀ x s, Q s → Q (I.append x s)

theorem Sound.keeps_below (h : I.Sound starved unit size Q bound) {n : Nat} (hn : n < bound) :
    I.Keeps unit size (fun e => ¬ starved e) (fun s => Q s ∧ I.avail s ≤ n) := by
  intro s hs hh
  refine Action.wp_mono (h.keeps s hs.1 (by omega) hh) ?_
  rintro done s' ⟨hq, hle, hlt⟩
  exact ⟨⟨hq, Nat.le_trans hle hs.2⟩, hlt⟩

theorem Sound.receive_keeps (h : I.Sound starved unit size Q bound) {x : List β} {s s' : σ}
    (hq : Q s) (hlt : I.avail s + x.length < bound)
    (hr : I.receive unit size x s = .ok ((), s')) :
    Q s' ∧ I.avail s' ≤ I.avail s + x.length := by
  unfold receive at hr
  split at hr
  · cases hr
    exact ⟨hq, by omega⟩
  · have hd := wp_drain (h.keeps_below hlt) (size (I.append x s) + 1)
      (s := I.append x s) ⟨h.append x s hq, Nat.le_of_eq (I.avail_append x s)⟩
    have hpost := Action.wp_ok hd hr
    exact hpost

/-- Two chunks in a row are one. -/
theorem Sound.receive_append (h : I.Sound starved unit size Q bound) {clear : σ → σ}
    (hclear : ∀ x s, clear (I.append x s) = clear s) (x y : List β) {s : σ} (hq : Q s)
    (hlt : I.avail s + x.length + y.length < bound) :
    I.outcome clear ((I.receive unit size x >>= fun _ => I.receive unit size y) s) =
      I.outcome clear (I.receive unit size (x ++ y) s) := by
  cases hh : I.halted s with
  | true =>
    have hx : I.receive unit size x s = .ok ((), s) := by rw [receive, if_pos hh]
    rw [Action.bind_of_ok hx, receive, receive, if_pos hh, if_pos hh]
  | false =>
    have hrun : ∀ z, I.receive unit size z s =
        I.drain unit (size (I.append z s) + 1) (I.append z s) := by
      intro z
      rw [receive, hh]
      rfl
    have hext : ∀ t, Q t ∧ I.avail t ≤ I.avail s + x.length →
        Q (I.append y t) ∧ I.avail (I.append y t) ≤ I.avail s + x.length + y.length := by
      intro t ht
      rw [I.avail_append]
      exact ⟨h.append y t ht.1, by omega⟩
    have hcut := drain_append h.resumes (h.keeps_below (n := I.avail s + x.length) (by omega))
      (h.keeps_below hlt) y hext (size (I.append x s) + 1)
      (s := I.append x s) ⟨h.append x s hq, Nat.le_of_eq (I.avail_append x s)⟩ (by omega)
      (m := size (I.append (x ++ y) s) + 1) (by rw [I.append_append]; omega)
    rw [I.append_append] at hcut
    cases hd : I.drain unit (size (I.append x s) + 1) (I.append x s) with
    | error e =>
      rw [hd] at hcut
      rw [Action.bind_of_error ((hrun x).trans hd), hrun, show _ = Except.error e from hcut]
    | ok r =>
      obtain ⟨⟨⟩, t⟩ := r
      rw [hd] at hcut
      rw [Action.bind_of_ok ((hrun x).trans hd), hrun (x ++ y)]
      cases ht : I.halted t with
      | true =>
        have hxt : I.halted (I.append y t) = true := by rw [I.halted_append, ht]
        simp only [Extends, ht, if_true] at hcut
        rw [hcut, receive, if_pos ht]
        simp [outcome, Except.map, ht, hxt, hclear]
      | false =>
        simp only [Extends, ht, Bool.false_eq_true, if_false] at hcut
        rw [hcut, receive, ht]
        rfl

/-- Receiving a list of chunks is receiving their concatenation. -/
theorem Sound.receiveAll_flatten (h : I.Sound starved unit size Q bound) {clear : σ → σ}
    (hclear : ∀ x s, clear (I.append x s) = clear s) (xs : List (List β)) {s : σ} (hq : Q s)
    (hsettled : I.receive unit size [] s = .ok ((), s))
    (hlt : I.avail s + xs.flatten.length < bound) :
    I.outcome clear (I.receiveAll unit size xs s) =
      I.outcome clear (I.receive unit size xs.flatten s) := by
  cases xs with
  | nil => rw [List.flatten_nil, hsettled]; rfl
  | cons x xs =>
    clear hsettled
    induction xs generalizing x s with
    | nil =>
      rw [List.flatten_singleton]
      simp only [receiveAll]
      cases hx : I.receive unit size x s with
      | error e => rw [Action.bind_of_error hx]
      | ok r => rw [Action.bind_of_ok hx]; rfl
    | cons y ys ih =>
      rw [List.flatten_cons, List.length_append] at hlt
      rw [List.flatten_cons, ← h.receive_append hclear x (y :: ys).flatten hq (by omega), receiveAll]
      cases hx : I.receive unit size x s with
      | error e => rw [Action.bind_of_error hx, Action.bind_of_error hx]
      | ok r =>
        obtain ⟨⟨⟩, t⟩ := r
        obtain ⟨hqt, hle⟩ := h.receive_keeps hq (by omega) hx
        rw [Action.bind_of_ok hx, Action.bind_of_ok hx]
        rw [List.flatten_cons, List.length_append] at hlt
        exact ih hqt y (by rw [List.flatten_cons, List.length_append]; omega)

end Chunks

end LvdTerm.Lib.Inbox
