import LvdTerm.Lib.LineEnds
import LvdTerm.Lib.Utf8

/-!
# SftpFileEditor

One remote file as text: a downloaded working copy is decoded, shown in a plain text editor, and
written and uploaded again on Save. The document is a `QTextDocument` with its undo history, as far
as `isModified` depends on it; the status line, the window and the find bar are left out.
-/
namespace LvdTerm.Sftp

open Lib

/-! ## The document -/

def lineSeparator : Char := Char.ofNat 0x2028
def paragraphSeparator : Char := Char.ofNat 0x2029
def noBreakSpace : Char := Char.ofNat 0xA0

/-- What a text is as blocks, with `'\n'` between them. -/
def blocks (text : List Char) : List Char :=
  (LineEnds.collapse '\r' '\n' text).map fun c => if c = '\r' ∨ c = paragraphSeparator then '\n' else c

/-- One state of the document in its undo history; `clean` is the one `setModified(false)` was
called in. -/
structure Revision where
  raw : List Char
  clean : Bool
  deriving DecidableEq

structure QTextDocument where
  undo : List Revision
  now : Revision
  redo : List Revision

namespace QTextDocument

def isModified (d : QTextDocument) : Bool := !d.now.clean

def toPlainText (raw : List Char) : List Char :=
  raw.map fun c => if c = lineSeparator ∨ c = paragraphSeparator then '\n' else if c = noBreakSpace then ' ' else c

def text (d : QTextDocument) : List Char := toPlainText d.now.raw

/-- The history is gone. -/
def setPlainText (text : List Char) : QTextDocument := ⟨[], ⟨blocks text, false⟩, []⟩

def forget (r : Revision) : Revision := { r with clean := false }

/-- `setModified(false)`. -/
def setUnmodified (d : QTextDocument) : QTextDocument :=
  ⟨d.undo.map forget, { d.now with clean := true }, d.redo.map forget⟩

end QTextDocument

/-- What the user does to the document. `merges` is for an edit that may join the last one in the
undo history; it never joins one the document is clean after. -/
inductive Edit where
  | change (text : List Char) (merges : Bool)
  | undo
  | redo

def Edit.apply (d : QTextDocument) : Edit → QTextDocument
  | .change text merges =>
    if merges && d.isModified then ⟨d.undo, ⟨blocks text, false⟩, []⟩
    else ⟨d.now :: d.undo, ⟨blocks text, false⟩, []⟩
  | .undo =>
    match d.undo with
    | [] => d
    | r :: rest => ⟨rest, r, d.now :: d.redo⟩
  | .redo =>
    match d.redo with
    | [] => d
    | r :: rest => ⟨d.now :: d.undo, r, rest⟩

/-! ## Reading and writing the file -/

def kMaxBytes : Nat := 5 * 1024 * 1024

def byteOrderMark : List UInt8 := [0xEF, 0xBB, 0xBF]

/-- The stateless `QStringDecoder`: a byte order mark at the start is no part of the text. -/
def decoder (bytes : List UInt8) : Option (List Char) :=
  Utf8.decode (if byteOrderMark <+: bytes then bytes.drop 3 else bytes)

/-- The text for the editor and `m_crlf`, or what the status line says instead. -/
def readText (bytes : List UInt8) : Except String (List Char × Bool) :=
  if bytes.length > kMaxBytes then .error "Too large to edit here - use Download instead."
  else if 0 ∈ bytes.take 8192 then .error "This looks like a binary file - not opened. Use Download instead."
  else
    match decoder bytes with
    | none =>
      .error "Not valid UTF-8 text - not opened (editing it here could corrupt it). Use Download instead."
    | some text =>
      if [13, 10] <:+: bytes then .ok (LineEnds.collapse '\r' '\n' text, true) else .ok (text, false)

/-- The bytes Save writes for a text. -/
def writeText (crlf : Bool) (text : List Char) : List UInt8 :=
  Utf8.encode (if crlf then LineEnds.expand '\r' '\n' text else text)

/-! ## The editor -/

structure SftpFileEditor where
  remotePath : String
  loaded : Bool
  saving : Bool
  /-- The original used `\r\n`. -/
  crlf : Bool
  lastSaveOk : Bool
  document : QTextDocument
  /-- The file at `m_localPath`, or why it cannot be opened. -/
  workingCopy : Except String (List UInt8)

/-- How writing the working copy goes. `write` may report a failure after some of the bytes. What
is still buffered then goes to the disk when the file is closed, and nobody looks how that ends:
of the bytes of a `written` file some may be missing. -/
inductive WriteReply where
  | cannotOpen
  | fails (left : Nat)
  | written (kept : Option Nat)

namespace SftpFileEditor

def fresh (remotePath : String) : SftpFileEditor := ⟨remotePath, false, false, false, false, .setPlainText [], .error ""⟩

def text (e : SftpFileEditor) : List Char := e.document.text

def isModified (e : SftpFileEditor) : Bool := e.document.isModified

def loadDownloadedFile (e : SftpFileEditor) : Except String SftpFileEditor := do
  let bytes ← e.workingCopy.mapError ("Could not read the downloaded copy: " ++ ·)
  let (normalized, crlf) ← readText bytes
  return { e with loaded := true, crlf := crlf, document := (QTextDocument.setPlainText normalized).setUnmodified }

theorem loadDownloadedFile_ok {e e' : SftpFileEditor} :
    e.loadDownloadedFile = .ok e' ↔ ∃ bytes normalized crlf, e.workingCopy = .ok bytes ∧ readText bytes = .ok (normalized, crlf) ∧
      e' = { e with loaded := true, crlf := crlf, document := (QTextDocument.setPlainText normalized).setUnmodified } := by
  unfold loadDownloadedFile
  cases hcopy : e.workingCopy with
  | error message => simp [bind, Except.bind, Except.mapError]
  | ok bytes =>
    cases hread : readText bytes with
    | error message => simp [bind, Except.bind, Except.mapError, hread]
    | ok accepted =>
      obtain ⟨normalized, crlf⟩ := accepted
      simp only [bind, Except.bind, Except.mapError, hread, pure, Except.pure, Except.ok.injEq]
      constructor
      · intro he
        exact ⟨bytes, normalized, crlf, rfl, hread, he.symm⟩
      · rintro ⟨_, _, _, rfl, hread', rfl⟩
        rw [hread] at hread'
        cases hread'
        rfl

/-- The result is whether an upload was started. -/
def startSave (reply : WriteReply) (e : SftpFileEditor) : SftpFileEditor × Bool :=
  if ¬ e.loaded ∨ e.saving then (e, false)
  else
    let bytes := writeText e.crlf e.text
    match reply with
    | .cannotOpen => (e, false)
    | .fails left => ({ e with workingCopy := .ok (bytes.take left) }, false)
    | .written none => ({ e with workingCopy := .ok bytes, saving := true }, true)
    | .written (some kept) => ({ e with workingCopy := .ok (bytes.take kept), saving := true }, true)

/-- Saving does nothing to the document. -/
theorem startSave_frame (reply : WriteReply) (e : SftpFileEditor) :
    ∃ copy saving, (e.startSave reply).1 = { e with workingCopy := copy, saving := saving } ∧
      (saving = true → e.saving = true ∨ e.loaded = true) := by
  unfold startSave
  split
  · exact ⟨e.workingCopy, e.saving, rfl, .inl⟩
  next h =>
    have hloaded : e.loaded = true := by simp_all
    cases reply with
    | cannotOpen => exact ⟨e.workingCopy, e.saving, rfl, .inl⟩
    | fails left => exact ⟨_, e.saving, rfl, .inl⟩
    | written kept =>
      cases kept with
      | none => exact ⟨_, true, rfl, fun _ => .inr hloaded⟩
      | some n => exact ⟨_, true, rfl, fun _ => .inr hloaded⟩

/-- With `saveFinished(true)` if it is emitted. -/
def onOperationSucceeded (operation path : String) (e : SftpFileEditor) : SftpFileEditor × Option Bool :=
  if path ≠ e.remotePath then (e, none)
  else if operation = "download" ∧ ¬ e.loaded then (e.loadDownloadedFile.toOption.getD e, none)
  else if operation = "upload" ∧ e.saving then
    ({ e with saving := false, document := e.document.setUnmodified, lastSaveOk := true }, some true)
  else (e, none)

/-- Up to the warning, and whether it is shown. -/
def onOperationFailed (operation path : String) (e : SftpFileEditor) : SftpFileEditor × Bool :=
  if path ≠ e.remotePath then (e, false)
  else if operation = "upload" ∧ e.saving then ({ e with saving := false }, true)
  else (e, false)

/-- The rest of `onOperationFailed`, with `saveFinished(false)`. -/
def warningClosed (e : SftpFileEditor) : SftpFileEditor × Option Bool := ({ e with lastSaveOk := false }, some false)

end SftpFileEditor

/-! ## Closing -/

inductive Answer where
  | save (reply : WriteReply)
  | discard
  | cancel

/-- How a call of `requestClose` ends. -/
inductive CloseResult where
  | unasked
  | saved (ok : Bool)
  | discarded
  | cancelled
  deriving DecidableEq

def CloseResult.value : CloseResult → Bool
  | .unasked => true
  | .saved ok => ok
  | .discarded => true
  | .cancelled => false

namespace SftpFileEditor

/-- No result if the question is asked. -/
def requestClose (e : SftpFileEditor) : Option CloseResult :=
  if ¬ e.loaded ∨ ¬ e.isModified then some .unasked else none

/-- No result if it waits for `saveFinished`. -/
def saveAndWait (reply : WriteReply) (e : SftpFileEditor) : SftpFileEditor × Option Bool :=
  let (e', started) := e.startSave reply
  (e', if started then none else some false)

/-- `requestClose` from the answer on. -/
def answered (e : SftpFileEditor) : Answer → SftpFileEditor × Option CloseResult
  | .save reply =>
    let (e', ok) := e.saveAndWait reply
    (e', ok.map .saved)
  | .discard => (e, some .discarded)
  | .cancel => (e, some .cancelled)

end SftpFileEditor

end LvdTerm.Sftp
