import LvdTerm.Sftp.FileEditor

/-!
# SftpFileEditor: the bytes of an unchanged file

A file that is opened and saved without an edit is written with one kind of line end, without a
byte order mark and with what `toPlainText` makes of some characters. The files that come back as
they were are those in which nothing of this changes anything (`KeepsBytes`).
-/
namespace LvdTerm.Sftp

open Lib LineEnds QTextDocument

/-- The characters `toPlainText` does not give back. -/
def Replaced (c : Char) : Prop := c = lineSeparator ∨ c = paragraphSeparator ∨ c = noBreakSpace

instance : DecidablePred Replaced := fun _ => instDecidableOr

/-- The line ends are all of one kind: no `\r` at all, or `\r\n` throughout. -/
structure KeepsText (text : List Char) : Prop where
  noneReplaced : ∀ c ∈ text, ¬ Replaced c
  lineEnds : '\r' ∉ text ∨ Paired '\r' '\n' text

structure KeepsBytes (bytes : List UInt8) : Prop where
  noMark : ¬ byteOrderMark <+: bytes
  keepsText : ∀ text, Utf8.decode bytes = some text → KeepsText text

/-! ## What the editor shows -/

/-- A character of the document's text, for one of the file. -/
def shownChar (c : Char) : Char :=
  if c = '\r' ∨ c = lineSeparator ∨ c = paragraphSeparator then '\n' else if c = noBreakSpace then ' ' else c

theorem shownChar_ne_cr (c : Char) : shownChar c ≠ '\r' := by
  unfold shownChar
  split
  · decide
  · split
    · decide
    · simp_all

theorem shownChar_not_replaced (c : Char) : ¬ Replaced (shownChar c) := by
  unfold shownChar
  split
  · decide
  · split
    · decide
    · simp_all [Replaced]

theorem shownChar_kept {c : Char} (hcr : c ≠ '\r') (h : ¬ Replaced c) : shownChar c = c := by
  simp only [Replaced, not_or] at h
  simp [shownChar, hcr, h]

/-- The byte order mark as a character. -/
def markChar : Char := Char.ofNat 0xFEFF

theorem shownChar_eq_mark (c : Char) : shownChar c = markChar ↔ c = markChar := by
  constructor
  · unfold shownChar
    split
    · intro h
      exact absurd h (by decide)
    · split
      · intro h
        exact absurd h (by decide)
      · exact id
  · rintro rfl
    decide

def shown (text : List Char) : List Char := toPlainText (blocks text)

theorem shown_eq (text : List Char) : shown text = (collapse '\r' '\n' text).map shownChar := by
  unfold shown toPlainText blocks
  rw [List.map_map]
  congr 1
  funext c
  by_cases hcr : c = '\r'
  · subst hcr
    decide
  · by_cases hp : c = paragraphSeparator
    · subst hp
      decide
    · simp [shownChar, hcr, hp]

theorem mem_shown {text : List Char} {c : Char} (h : c ∈ shown text) : c ≠ '\r' ∧ ¬ Replaced c := by
  rw [shown_eq, List.mem_map] at h
  obtain ⟨a, -, rfl⟩ := h
  exact ⟨shownChar_ne_cr a, shownChar_not_replaced a⟩

theorem cr_not_mem_shown (text : List Char) : '\r' ∉ shown text := fun h => (mem_shown h).1 rfl

theorem shown_kept {text : List Char} (hcr : '\r' ∉ text) (h : ∀ c ∈ text, ¬ Replaced c) : shown text = text := by
  rw [shown_eq, collapse_of_not_infix (not_infix_of_not_mem hcr)]
  have hchar : ∀ c ∈ text, shownChar c = c := fun c hc => shownChar_kept (ne_of_mem_of_not_mem hc hcr) (h c hc)
  rw [List.map_congr_left hchar, List.map_id']

theorem count_shown_mark (text : List Char) : (shown text).count markChar = text.count markChar := by
  have hcollapse : (collapse '\r' '\n' text).count markChar = text.count markChar := count_collapse (by decide)
  rw [shown_eq, ← hcollapse]
  induction collapse '\r' '\n' text with
  | nil => rfl
  | cons c rest ih => simp [List.count_cons, ih, shownChar_eq_mark]

/-! ## The text that is saved -/

/-- The text Save writes for the text of the file. -/
def savedText (text : List Char) : List Char :=
  if ['\r', '\n'] <:+: text then expand '\r' '\n' (shown (collapse '\r' '\n' text)) else shown text

theorem KeepsText.savedText_eq {text : List Char} (h : KeepsText text) : savedText text = text := by
  unfold savedText
  split
  next hpair =>
    have hpaired : Paired '\r' '\n' text := h.lineEnds.resolve_left fun hcr => not_infix_of_not_mem hcr hpair
    have hkept : ∀ c ∈ collapse '\r' '\n' text, ¬ Replaced c := fun c hc => h.noneReplaced c (mem_collapse hc)
    rw [shown_kept (hpaired.not_mem_collapse (by decide)) hkept, hpaired.expand_collapse]
  next hpair =>
    have hcr : '\r' ∉ text := h.lineEnds.elim id fun hpaired => hpaired.not_mem hpair
    exact shown_kept hcr h.noneReplaced

theorem keepsText_savedText (text : List Char) : KeepsText (savedText text) := by
  unfold savedText
  split
  next =>
    refine ⟨fun c hc => ?_, .inr (expand_paired (cr_not_mem_shown _))⟩
    by_cases hcr : c = '\r'
    · subst hcr
      decide
    · exact (mem_shown ((mem_expand hcr).mp hc)).2
  next => exact ⟨fun c hc => (mem_shown hc).2, .inl (cr_not_mem_shown _)⟩

theorem savedText_eq_iff (text : List Char) : savedText text = text ↔ KeepsText text := by
  constructor
  · intro h
    rw [← h]
    exact keepsText_savedText text
  · exact KeepsText.savedText_eq

theorem count_savedText_mark (text : List Char) : (savedText text).count markChar = text.count markChar := by
  have hmark : markChar ≠ '\r' := by decide
  unfold savedText
  split
  next => rw [count_expand hmark, count_shown_mark, count_collapse hmark]
  next => exact count_shown_mark text

/-! ## The bytes -/

theorem pair_infix_bytes (text : List Char) : [13, 10] <:+: Utf8.encode text ↔ ['\r', '\n'] <:+: text :=
  Utf8.pair_infix_encode (a := '\r') (b := '\n') (by decide) (by decide) text

theorem pair_infix_mark (bytes : List UInt8) : [13, 10] <:+: byteOrderMark ++ bytes ↔ [13, 10] <:+: bytes := by
  constructor
  · exact Utf8.infix_of_append (by decide)
  · exact fun h => h.trans (List.suffix_append byteOrderMark bytes).isInfix

/-- What was accepted is the text of the file, behind a mark or not. -/
theorem readText_ok {bytes : List UInt8} {normalized : List Char} {crlf : Bool}
    (h : readText bytes = .ok (normalized, crlf)) :
    ∃ text, (bytes = Utf8.encode text ∧ ¬ byteOrderMark <+: bytes ∨ bytes = byteOrderMark ++ Utf8.encode text) ∧
      writeText crlf (shown normalized) = Utf8.encode (savedText text) := by
  unfold readText at h
  split at h
  · cases h
  split at h
  · cases h
  split at h
  · cases h
  next text hdecoder =>
    have hbytes : bytes = Utf8.encode text ∧ ¬ byteOrderMark <+: bytes ∨ bytes = byteOrderMark ++ Utf8.encode text := by
      unfold decoder at hdecoder
      split at hdecoder
      next hmark =>
        obtain ⟨rest, rfl⟩ := hmark
        have hrest : (byteOrderMark ++ rest).drop 3 = rest := rfl
        rw [hrest, Utf8.decode_eq_some] at hdecoder
        exact .inr (by rw [hdecoder])
      next hmark => exact .inl ⟨Utf8.decode_eq_some.mp hdecoder, hmark⟩
    have hpair : [13, 10] <:+: bytes ↔ ['\r', '\n'] <:+: text := by
      obtain ⟨hb, -⟩ | hb := hbytes
      · rw [hb, pair_infix_bytes]
      · rw [hb, pair_infix_mark, pair_infix_bytes]
    refine ⟨text, hbytes, ?_⟩
    unfold savedText writeText
    split at h
    next hb =>
      cases h
      rw [if_pos (hpair.mp hb)]
      rfl
    next hb =>
      cases h
      rw [if_neg (fun ht => hb (hpair.mpr ht))]
      rfl

theorem saved_bytes_eq_iff {bytes : List UInt8} {normalized : List Char} {crlf : Bool}
    (h : readText bytes = .ok (normalized, crlf)) : writeText crlf (shown normalized) = bytes ↔ KeepsBytes bytes := by
  obtain ⟨text, hbytes, hwrite⟩ := readText_ok h
  rw [hwrite]
  obtain ⟨hb, hmark⟩ | hb := hbytes
  · constructor
    · intro heq
      rw [hb] at heq
      have hkeeps := (savedText_eq_iff text).mp (Utf8.encode_injective heq)
      refine ⟨hmark, fun t ht => ?_⟩
      rw [Utf8.decode_eq_some, hb] at ht
      rw [← Utf8.encode_injective ht]
      exact hkeeps
    · intro hkeeps
      have htext := hkeeps.keepsText text (Utf8.decode_eq_some.mpr hb)
      rw [htext.savedText_eq, hb]
  · constructor
    · intro heq
      -- the mark is one character more than the text has
      have hencode : byteOrderMark ++ Utf8.encode text = Utf8.encode (markChar :: text) := rfl
      rw [hb, hencode] at heq
      have hcount := congrArg (List.count markChar) (Utf8.encode_injective heq)
      rw [count_savedText_mark, List.count_cons_self] at hcount
      omega
    · intro hkeeps
      rw [hb] at hkeeps
      exact absurd (List.prefix_append _ _) hkeeps.noMark

/-! ## Open and save -/

variable {remotePath : String}

def opened (remotePath : String) (bytes : List UInt8) : SftpFileEditor :=
  { SftpFileEditor.fresh remotePath with workingCopy := .ok bytes }

/-- The editor after a file with this text was loaded. -/
def showing (remotePath : String) (bytes : List UInt8) (crlf : Bool) (normalized : List Char) : SftpFileEditor :=
  { opened remotePath bytes with loaded := true, crlf := crlf, document := (setPlainText normalized).setUnmodified }

theorem load_opened {bytes : List UInt8} {e : SftpFileEditor} :
    (opened remotePath bytes).loadDownloadedFile = .ok e ↔
      ∃ normalized crlf, readText bytes = .ok (normalized, crlf) ∧ e = showing remotePath bytes crlf normalized := by
  constructor
  · intro h
    obtain ⟨_, normalized, crlf, hcopy, hread, he⟩ := SftpFileEditor.loadDownloadedFile_ok.mp h
    cases hcopy
    exact ⟨normalized, crlf, hread, he⟩
  · rintro ⟨normalized, crlf, hread, he⟩
    exact SftpFileEditor.loadDownloadedFile_ok.mpr ⟨bytes, normalized, crlf, rfl, hread, he⟩

theorem startSave_showing (remotePath : String) (bytes : List UInt8) (crlf : Bool) (normalized : List Char) :
    (showing remotePath bytes crlf normalized).startSave (.written none) =
      ({ showing remotePath bytes crlf normalized with workingCopy := .ok (writeText crlf (shown normalized)), saving := true }, true) := rfl

/-- Opening a file and saving it at once uploads the bytes that were downloaded iff the file keeps
its bytes. -/
theorem unchanged_file_same_bytes (remotePath : String) (bytes : List UInt8) (e : SftpFileEditor)
    (h : (opened remotePath bytes).loadDownloadedFile = .ok e) :
    e.startSave (.written none) = ({ e with workingCopy := .ok bytes, saving := true }, true) ↔ KeepsBytes bytes := by
  obtain ⟨normalized, crlf, hread, rfl⟩ := load_opened.mp h
  rw [startSave_showing, ← saved_bytes_eq_iff hread]
  constructor
  · intro hsave
    have hcopy := congrArg (fun r => r.1.workingCopy) hsave
    exact Except.ok.inj hcopy
  · intro hbytes
    rw [hbytes]

theorem readText_encode {text : List Char} (hlen : (Utf8.encode text).length ≤ kMaxBytes)
    (hnul : 0 ∉ (Utf8.encode text).take 8192) (hmark : ¬ byteOrderMark <+: Utf8.encode text) :
    readText (Utf8.encode text) =
      if ['\r', '\n'] <:+: text then .ok (collapse '\r' '\n' text, true) else .ok (text, false) := by
  have hdecoder : decoder (Utf8.encode text) = some text := by
    unfold decoder
    rw [if_neg hmark, Utf8.decode_encode]
  unfold readText
  rw [if_neg (by omega), if_neg hnul, hdecoder]
  simp only [pair_infix_bytes]

theorem crlf_file_same_bytes :
    (showing "notes.txt" [97, 13, 10, 98, 13, 10] true ['a', '\n', 'b', '\n']).startSave (.written none) =
      ({ showing "notes.txt" [97, 13, 10, 98, 13, 10] true ['a', '\n', 'b', '\n'] with
        workingCopy := .ok [97, 13, 10, 98, 13, 10], saving := true }, true) := by
  have hread : readText [97, 13, 10, 98, 13, 10] = .ok (['a', '\n', 'b', '\n'], true) :=
    @readText_encode ['a', '\r', '\n', 'b', '\r', '\n'] (by decide) (by decide) (by decide)
  have hpaired : Paired '\r' '\n' ['a', '\r', '\n', 'b', '\r', '\n'] :=
    .other (by decide) (by decide) (.pair (.other (by decide) (by decide) (.pair .nil)))
  have hkeeps : KeepsBytes [97, 13, 10, 98, 13, 10] := by
    refine ⟨by decide, fun text htext => ?_⟩
    have hbytes : Utf8.encode ['a', '\r', '\n', 'b', '\r', '\n'] = [97, 13, 10, 98, 13, 10] := rfl
    rw [← hbytes, Utf8.decode_encode, Option.some.injEq] at htext
    rw [← htext]
    refine ⟨fun c hc => ?_, .inr hpaired⟩
    simp only [List.mem_cons, List.not_mem_nil, or_false] at hc
    rcases hc with rfl | rfl | rfl | rfl | rfl | rfl <;> decide
  exact (unchanged_file_same_bytes _ _ _ (load_opened.mpr ⟨_, _, hread, rfl⟩)).mpr hkeeps

/-- The last line of this file ends in `\n` alone. -/
theorem mixed_line_ends_change : ¬ ∀ (remotePath : String) (bytes : List UInt8) (e : SftpFileEditor),
    (opened remotePath bytes).loadDownloadedFile = .ok e →
      e.startSave (.written none) = ({ e with workingCopy := .ok bytes, saving := true }, true) := by
  intro h
  have hread : readText [97, 13, 10, 98, 10] = .ok (['a', '\n', 'b', '\n'], true) :=
    @readText_encode ['a', '\r', '\n', 'b', '\n'] (by decide) (by decide) (by decide)
  have hsave := h "notes.txt" _ _ (load_opened.mpr ⟨_, _, hread, rfl⟩)
  have hcopy := congrArg (fun r => r.1.workingCopy) hsave
  exact absurd (Except.ok.inj hcopy) (by decide)

end LvdTerm.Sftp
