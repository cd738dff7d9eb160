import LvdTerm.Terminal.Logging

/-!
# The session log is independent of chunking

What a log with timestamps holds is its stream with a stamp before each line, whichever way the stream was cut, as long
as no line end lies so far into its chunk that the position behind it is not an `int`: `chunking_irrelevant`.
-/
namespace LvdTerm.Terminal.Logging

open Lib.LineMarks

/-! ## Positions that fit -/

/-- The position behind each line end is an `int`. -/
def FitsInt (chunk : List UInt8) : Prop := ∀ i, chunk[i]? = some newline → i + 1 < 2 ^ 31

theorem fitsInt_of_length {chunk : List UInt8} (h : chunk.length < 2 ^ 31) : FitsInt chunk := by
  intro i hi
  have hlen : i < chunk.length := (List.getElem?_eq_some_iff.mp hi).1
  omega

theorem narrow_of_fits {n : Int} (hlo : -2 ^ 31 ≤ n) (hhi : n < 2 ^ 31) : narrow n = n :=
  Int.bmod_eq_of_le (by omega) (by omega)

theorem checked_of_fits {n : Int} (hlo : -2 ^ 31 ≤ n) (hhi : n < 2 ^ 31) : checked n = .ok n := if_pos ⟨hlo, hhi⟩

theorem ok_bind {α β : Type} (a : α) (f : α → Except Fault β) : (Except.ok a >>= f) = f a := rfl

theorem FitsInt.line_end {before line rest : List UInt8} (h : FitsInt (before ++ line ++ newline :: rest)) :
    before.length + line.length + 1 < 2 ^ 31 := by
  apply h
  simp

/-- What lies behind a position is one line without an end, or a line with its end and more. -/
theorem line_or_rest (rest : List UInt8) :
    (∀ b ∈ rest, b ≠ newline) ∨ ∃ line more, rest = line ++ newline :: more ∧ ∀ b ∈ line, b ≠ newline := by
  by_cases h : newline ∈ rest
  · obtain ⟨line, more, rfl, hline⟩ := List.eq_append_cons_of_mem h
    exact .inr ⟨line, more, rfl, fun b hb heq => hline (heq ▸ hb)⟩
  · exact .inl fun b hb heq => h (heq ▸ hb)

theorem indexOf_natCast (data : List UInt8) (ch : UInt8) (n : Nat) :
    indexOf data ch n = ((data.drop n).findIdx? (· == ch)).elim (-1) fun i => (n : Int) + i := by
  have h : ¬ (n : Int) < 0 := by omega
  simp only [indexOf, h, if_false, Int.toNat_natCast]
  cases (data.drop n).findIdx? (· == ch) <;> rfl

theorem mid_natCast (data : List UInt8) (n len : Nat) : mid data n len = (data.drop n).take len := by
  have hn : ¬ (n : Int) < 0 := by omega
  have hlen : ¬ (len : Int) < 0 := by omega
  simp only [mid, hn, hlen, if_false, Int.toNat_natCast]

theorem indexOf_of_line (before : List UInt8) {line : List UInt8} (hline : ∀ b ∈ line, b ≠ newline) (more : List UInt8) :
    indexOf (before ++ line ++ newline :: more) newline before.length = before.length + line.length := by
  have hfind : (line ++ newline :: more).findIdx? (· == newline) = some line.length := by
    rw [List.findIdx?_append, List.findIdx?_eq_none_iff.mpr (by simpa using hline)]
    simp [List.findIdx?_cons]
  rw [indexOf_natCast, List.append_assoc, List.drop_left, hfind, Option.elim_some]

theorem indexOf_of_none (before : List UInt8) {rest : List UInt8} (hrest : ∀ b ∈ rest, b ≠ newline) :
    indexOf (before ++ rest) newline before.length = -1 := by
  have hfind : rest.findIdx? (· == newline) = none := List.findIdx?_eq_none_iff.mpr (by simpa using hrest)
  rw [indexOf_natCast, List.drop_left, hfind, Option.elim_none]

theorem mid_rest (before rest : List UInt8) : mid (before ++ rest) before.length (-1) = rest := by
  have hn : ¬ (before.length : Int) < 0 := by omega
  simp [mid, hn]

theorem mid_line (before line more : List UInt8) :
    mid (before ++ line ++ newline :: more) before.length (line.length + 1 : Nat) = line ++ [newline] := by
  rw [mid_natCast, List.append_assoc, List.drop_left, List.take_append, List.take_of_length_le (Nat.le_succ _)]
  simp

/-! ## The loop -/

namespace LogView

variable (clock : Nat → Time)

def isNewline (b : UInt8) : Bool := b == newline

def place (v : LogView) : Place := ⟨v.clockReads, v.logAtLineStart⟩

def lineStamp (n : Nat) : List UInt8 := (clock n).stamp

/-- How `bytes` appear in the log, written at the view's place. -/
def inLog (v : LogView) (bytes : List UInt8) : List UInt8 := marked isNewline (lineStamp clock) v.place bytes

/-- `v'` is `v` after more went into the log. -/
structure Logged (v : LogView) (text : List UInt8) (v' : LogView) : Prop where
  timestamps : v'.logIncludeTimestamps = v.logIncludeTimestamps
  writes : ∀ writes, v.logFile = some writes → ∃ writes', v'.logFile = some writes' ∧
    writes'.flatten = writes.flatten ++ text

variable {clock}

theorem Logged.refl (v : LogView) : v.Logged [] v where
  timestamps := rfl
  writes writes h := ⟨writes, h, by simp⟩

theorem Logged.trans {v v₁ v₂ : LogView} {xs ys : List UInt8} (h₁ : v.Logged xs v₁) (h₂ : v₁.Logged ys v₂) :
    v.Logged (xs ++ ys) v₂ where
  timestamps := by rw [h₂.timestamps, h₁.timestamps]
  writes writes h := by
    obtain ⟨writes₁, hw₁, ht₁⟩ := h₁.writes writes h
    obtain ⟨writes₂, hw₂, ht₂⟩ := h₂.writes writes₁ hw₁
    exact ⟨writes₂, hw₂, by rw [ht₂, ht₁, List.append_assoc]⟩

theorem Logged.write (v : LogView) (bytes : List UInt8) : v.Logged bytes (v.write bytes) where
  timestamps := rfl
  writes writes h := ⟨writes ++ [bytes], by simp [LogView.write, h], by simp⟩

theorem Logged.then_at_line_start {v v' : LogView} {text : List UInt8} (h : v.Logged text v') :
    v.Logged text { v' with logAtLineStart := true } := ⟨h.timestamps, h.writes⟩

/-- The stamp that is due, if any, is written. -/
theorem logged_writeStamp (clock : Nat → Time) (v : LogView) :
    v.Logged (if v.place.atLineStart then lineStamp clock v.place.marks else []) (v.writeStamp clock) ∧
      (v.writeStamp clock).place = v.place.begun := by
  by_cases h : v.logAtLineStart
  · have hv : v.writeStamp clock =
        { v.write (clock v.clockReads).stamp with logAtLineStart := false, clockReads := v.clockReads + 1 } := if_pos h
    have hw := Logged.write v (clock v.clockReads).stamp
    rw [hv]
    refine ⟨?_, by simp [place, Place.begun, h]⟩
    simp only [place, h, if_true]
    exact ⟨hw.timestamps, hw.writes⟩
  · have hv : v.writeStamp clock = v := if_neg h
    rw [hv]
    refine ⟨?_, by simp [place, Place.begun, h]⟩
    simpa [place, h] using Logged.refl v

/-- From a place in a chunk on, the loop logs what is left of it. -/
theorem logLines_from (clock : Nat → Time) (before : List UInt8) {rest : List UInt8} (hfits : FitsInt (before ++ rest))
    (hbefore : before.length < 2 ^ 31)
    {rounds : Nat} (hrounds : rest.length < rounds) (v : LogView) :
    ∃ v', logLines clock (before ++ rest) rounds before.length v = .ok v' ∧ v.Logged (v.inLog clock rest) v' ∧
      v'.place = v.place.after isNewline rest := by
  induction rounds generalizing before rest v with
  | zero => omega
  | succ rounds ih =>
    by_cases hne : rest = []
    · subst hne
      refine ⟨v, ?_, Logged.refl v, rfl⟩
      simp [logLines]
    have hstart : (before.length : Int) < (before ++ rest).length := by
      have := List.length_pos_iff.mpr hne
      simp only [List.length_append]
      omega
    obtain ⟨hstamp, hplace⟩ := logged_writeStamp clock v
    have hin : v.inLog clock rest = (if v.place.atLineStart then lineStamp clock v.place.marks else []) ++
        marked isNewline (lineStamp clock) v.place.begun rest := marked_begun v.place hne
    rw [logLines, if_pos hstart, hin, ← v.place.after_begun hne]
    generalize v.writeStamp clock = w at hstamp hplace
    obtain hrest | ⟨line, more, rfl, hline⟩ := line_or_rest rest
    · -- the last line of the chunk, without an end
      have hlog := hstamp.trans (Logged.write w rest)
      have hfree : ∀ b ∈ rest, isNewline b = false := fun b hb => by simpa [isNewline] using hrest b hb
      rw [indexOf_of_none before hrest, mid_rest]
      refine ⟨w.write rest, rfl, ?_, ?_⟩
      · rwa [Place.begun, marked_rest_of_line hfree]
      · rw [Place.begun, after_rest_of_line hfree, ← Place.begun, ← hplace]
        rfl
    · -- a line with its end, and what the next round starts from
      have hfree : ∀ b ∈ line, isNewline b = false := fun b hb => by simpa [isNewline] using hline b hb
      rw [← List.append_assoc] at hfits ⊢
      have hend := hfits.line_end
      rw [indexOf_of_line before hline more, narrow_of_fits (by omega) (by omega), if_neg (by omega),
        show (before.length : Int) + line.length - before.length = line.length from by omega,
        checked_of_fits (by omega) (by omega), ok_bind, checked_of_fits (by omega) (by omega), ok_bind,
        checked_of_fits (by omega) (by omega), ok_bind,
        show (line.length : Int) + 1 = (line.length + 1 : Nat) from by omega, mid_line,
        show (before.length : Int) + line.length + 1 = (before ++ line ++ [newline]).length from by
          simp only [List.length_append, List.length_singleton]; omega]
      have hsplit : before ++ line ++ newline :: more = before ++ line ++ [newline] ++ more := by simp
      have hshort : more.length < rounds := by
        simp only [List.length_append, List.length_cons] at hrounds
        omega
      rw [hsplit] at hfits ⊢
      have hbehind : (before ++ line ++ [newline]).length < 2 ^ 31 := by
        simp only [List.length_append, List.length_singleton]
        omega
      have hreads : w.clockReads = v.place.begun.marks := congrArg Place.marks hplace
      have hnext : (v.place.begun).after isNewline (line ++ [newline]) = ⟨w.clockReads, true⟩ := by
        rw [hreads]
        exact after_line_end hfree _ rfl
      have hline : marked isNewline (lineStamp clock) v.place.begun (line ++ [newline]) = line ++ [newline] :=
        marked_to_line_end hfree _ newline
      obtain ⟨v', hrun, hlog, hplace'⟩ := ih _ hfits hbehind hshort
        { w.write (line ++ [newline]) with logAtLineStart := true }
      refine ⟨v', hrun, ?_, ?_⟩
      · have hall := hstamp.trans ((Logged.write w (line ++ [newline])).then_at_line_start.trans hlog)
        rw [List.append_cons line, marked_append, hline, hnext]
        exact hall
      · rw [hplace', List.append_cons line newline more, Place.after_append _ (line ++ [newline]), hnext]
        rfl

theorem onDataForLogging_spec (clock : Nat → Time) {chunk : List UInt8} (hfits : FitsInt chunk) {rounds : Nat}
    (hrounds : chunk.length < rounds)
    {v : LogView} (hopen : v.logFile.isSome) (hstamps : v.logIncludeTimestamps = true) :
    ∃ v', v.onDataForLogging clock rounds chunk = .ok v' ∧ v.Logged (v.inLog clock chunk) v' ∧
      v'.place = v.place.after isNewline chunk := by
  have hnone : ¬ v.logFile.isNone = true := by simpa [Option.isSome_iff_ne_none] using hopen
  rw [onDataForLogging, if_neg hnone, if_neg (by simp [hstamps])]
  exact logLines_from clock [] hfits (by simp) hrounds v

/-- Chunk by chunk, the log gets what the whole stream would give it. -/
theorem receive_spec (clock : Nat → Time) {chunks : List (List UInt8)} (hfits : ∀ chunk ∈ chunks, FitsInt chunk) {rounds : Nat}
    (hrounds : ∀ chunk ∈ chunks, chunk.length < rounds) {v : LogView} (hopen : v.logFile.isSome)
    (hstamps : v.logIncludeTimestamps = true) :
    ∃ v', v.receive clock rounds chunks = .ok v' ∧ v.Logged (v.inLog clock chunks.flatten) v' := by
  induction chunks generalizing v with
  | nil => exact ⟨v, rfl, Logged.refl v⟩
  | cons chunk chunks ih =>
    obtain ⟨v₁, hrun₁, hlog₁, hplace⟩ :=
      onDataForLogging_spec clock (hfits chunk (.head _)) (hrounds chunk (.head _)) hopen hstamps
    obtain ⟨writes, hwrites⟩ := Option.isSome_iff_exists.mp hopen
    obtain ⟨writes₁, hwrites₁, -⟩ := hlog₁.writes writes hwrites
    obtain ⟨v', hrun, hlog⟩ := ih (fun c hc => hfits c (.tail _ hc)) (fun c hc => hrounds c (.tail _ hc))
      (Option.isSome_iff_exists.mpr ⟨writes₁, hwrites₁⟩) (hlog₁.timestamps.trans hstamps)
    refine ⟨v', ?_, ?_⟩
    · rw [receive, List.foldlM_cons, hrun₁]
      exact hrun
    · have hall := hlog₁.trans hlog
      rwa [inLog, inLog, hplace, ← marked_append] at hall

/-! ## Logs -/

variable (clock)

/-- A log that is started with timestamps and gets the chunks holds `text`, once the loops have had rounds enough. -/
def Holds (v : LogView) (chunks : List (List UInt8)) (text : List UInt8) : Prop :=
  ∃ enough, ∀ rounds, enough ≤ rounds → ∃ v' writes,
    (v.startLogging true true).receive clock rounds chunks = .ok v' ∧ v'.logFile = some writes ∧ writes.flatten = text

/-- The stream with a stamp before the first byte of each line: the readings of the clock in order, from the next one on. -/
def stamped (v : LogView) (stream : List UInt8) : List UInt8 := marked isNewline (lineStamp clock) ⟨v.clockReads, true⟩ stream

variable {clock}

theorem holds_stamped (clock : Nat → Time) (v : LogView) {chunks : List (List UInt8)} (hfits : ∀ chunk ∈ chunks, FitsInt chunk) :
    v.Holds clock chunks (v.stamped clock chunks.flatten) := by
  refine ⟨chunks.flatten.length + 1, fun rounds henough => ?_⟩
  have hrounds : ∀ chunk ∈ chunks, chunk.length < rounds := by
    intro chunk hmem
    have := (List.sublist_flatten_of_mem hmem).length_le
    omega
  obtain ⟨v', hrun, hlog⟩ := receive_spec clock hfits hrounds (v := v.startLogging true true) rfl rfl
  obtain ⟨writes, hwrites, htext⟩ := hlog.writes [] rfl
  exact ⟨v', writes, hrun, hwrites, htext⟩

end LogView

open LogView

/-- However a stream is cut, its log is the stream with a stamp before each line. -/
theorem chunking_irrelevant {stream : List UInt8} {chunks chunks' : List (List UInt8)} (hchunks : chunks.flatten = stream)
    (hchunks' : chunks'.flatten = stream) (hfits : ∀ chunk ∈ chunks, FitsInt chunk)
    (hfits' : ∀ chunk ∈ chunks', FitsInt chunk) (clock clock' : Nat → Time) (v v' : LogView) :
    v.Holds clock chunks (v.stamped clock stream) ∧ v'.Holds clock' chunks' (v'.stamped clock' stream) := by
  subst hchunks
  have h' := holds_stamped clock' v' hfits'
  rw [hchunks'] at h'
  exact ⟨holds_stamped clock v hfits, h'⟩

theorem chunking_irrelevant_two_lines :
    let noon : Nat → Time := fun _ => ⟨12, 0, 0, 0⟩
    LogView.Holds noon {} [[97], [10, 98]] (LogView.stamped noon {} [97, 10, 98]) ∧
      LogView.Holds noon {} [[97, 10], [], [98]] (LogView.stamped noon {} [97, 10, 98]) := by
  have hshort : ∀ chunks : List (List UInt8), (∀ chunk ∈ chunks, chunk.length ≤ 2) → ∀ chunk ∈ chunks, FitsInt chunk :=
    fun chunks h chunk hmem => fitsInt_of_length (by have := h chunk hmem; omega)
  have hcut : [[97], [10, 98]].flatten = ([97, 10, 98] : List UInt8) := rfl
  have hcut' : [[97, 10], [], [98]].flatten = ([97, 10, 98] : List UInt8) := rfl
  exact chunking_irrelevant hcut hcut' (hshort _ (by decide)) (hshort _ (by decide)) _ _ _ _

/-! ## A line end beyond `int` -/

/-- A chunk of one line and one byte more. -/
def longChunk (n : Nat) : List UInt8 := List.replicate n 97 ++ newline :: [98]

theorem length_longChunk (n : Nat) : (longChunk n).length = n + 2 := by
  simp only [longChunk, List.length_append, List.length_replicate, List.length_cons, List.length_nil]

theorem findIdx_longChunk {n k : Nat} (hk : k ≤ n) : ((longChunk n).drop k).findIdx? (· == newline) = some (n - k) := by
  have hdrop : (longChunk n).drop k = List.replicate (n - k) 97 ++ newline :: [98] := by
    rw [longChunk, List.drop_append_of_le_length (by simpa using hk), List.drop_replicate]
  have hline : (List.replicate (n - k) (97 : UInt8)).findIdx? (· == newline) = none := by
    rw [List.findIdx?_eq_none_iff]
    intro b hb
    rw [List.eq_of_mem_replicate hb]
    decide
  rw [hdrop, List.findIdx?_append, hline, List.length_replicate]
  simp [List.findIdx?_cons]

section
variable {n : Nat} (hn : n = 2 ^ 31)
include hn

/-- Where the line end is found from the start, and from the position the loop goes on at. -/
theorem indexOf_longChunk : narrow (indexOf (longChunk n) newline 0) = -2 ^ 31 ∧
    narrow (indexOf (longChunk n) newline (-2 ^ 31 + 1)) = -2 ^ 31 := by
  have hstart : indexOf (longChunk n) newline 0 = n := by
    rw [show (0 : Int) = (0 : Nat) from rfl, indexOf_natCast, findIdx_longChunk (by omega), Option.elim_some]
    omega
  have hagain : indexOf (longChunk n) newline (-2 ^ 31 + 1) = n := by
    have hpos : max ((-2 ^ 31 + 1 : Int) + (n + 2 : Nat)) 0 = (3 : Nat) := by omega
    rw [indexOf, if_pos (by omega), length_longChunk, hpos, Int.toNat_natCast, findIdx_longChunk (by omega)]
    simp only
    omega
  have hnarrow : narrow (2 ^ 31 : Nat) = -2 ^ 31 := by decide
  rw [hstart, hagain, hn]
  exact ⟨hnarrow, hnarrow⟩

/-- Behind the narrowed position of that line end the loop finds the same line end again. -/
theorem longChunk_endless (clock : Nat → Time) (rounds : Nat) (v : LogView) :
    v.logLines clock (longChunk n) rounds (-2 ^ 31 + 1) = .error .unfinished := by
  induction rounds generalizing v with
  | zero => rfl
  | succ rounds ih =>
    rw [LogView.logLines, if_pos (by rw [length_longChunk]; omega), (indexOf_longChunk hn).2, if_neg (by omega),
      checked_of_fits (by omega) (by omega), ok_bind, checked_of_fits (by omega) (by omega), ok_bind,
      checked_of_fits (by omega) (by omega), ok_bind]
    exact ih _

theorem longChunk_from_start (clock : Nat → Time) (rounds : Nat) (v : LogView) :
    v.logLines clock (longChunk n) rounds 0 = .error .unfinished := by
  cases rounds with
  | zero => rfl
  | succ rounds =>
    rw [LogView.logLines, if_pos (by rw [length_longChunk]; omega), (indexOf_longChunk hn).1, if_neg (by omega),
      checked_of_fits (by omega) (by omega), ok_bind, checked_of_fits (by omega) (by omega), ok_bind,
      checked_of_fits (by omega) (by omega), ok_bind]
    exact longChunk_endless hn _ _ _

end

/-- Two gigabytes before the line end: the log is never done. -/
theorem huge_chunk_not_logged : ¬ ∀ (stream : List UInt8) (chunks : List (List UInt8)), chunks.flatten = stream →
    ∀ (clock : Nat → Time) (v : LogView), v.Holds clock chunks (v.stamped clock stream) := by
  intro hall
  obtain ⟨n, hn⟩ : ∃ n, n = 2 ^ 31 := ⟨_, rfl⟩
  have clock : Nat → Time := fun _ => ⟨0, 0, 0, 0⟩
  obtain ⟨enough, hruns⟩ := hall (longChunk n) [longChunk n] (List.append_nil _) clock {}
  obtain ⟨v', writes, hrun, -, -⟩ := hruns enough (Nat.le_refl _)
  have hnever := longChunk_from_start hn clock enough (LogView.startLogging true true {})
  rw [LogView.receive, List.foldlM_cons, LogView.onDataForLogging, if_neg (by decide), if_neg (by decide), hnever] at hrun
  exact nomatch hrun

end LvdTerm.Terminal.Logging
