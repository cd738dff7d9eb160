import LvdTerm.Sftp.Confinement
import LvdTerm.Sftp.Upload

/-!
# What a failed transfer leaves behind

A transfer truncates its destination before the first byte arrives and removes it after a
failure. That is the destination's old content only if there was none (`Harmless`).
-/
namespace LvdTerm.Sftp

open Lib.Paths

variable {st : Storage} {fs : Disk}

/-! ## What reaches the destination -/

/-- The chunks a download hands to the local file. -/
def deliveredChunks : List Chunk → List (List UInt8)
  | [] => []
  | c :: cs => c.data :: if c.written then deliveredChunks cs else []

theorem writeChunks_ops (localPath : Text) (chunks : List Chunk) :
    (writeChunks localPath chunks).ops = (deliveredChunks chunks).map (.write localPath) := by
  induction chunks with
  | nil => rfl
  | cons c cs ih =>
    unfold writeChunks Work.andThen deliveredChunks
    cases c.written with
    | true => simpa using ih
    | false => rfl

theorem downloadFileInternal_eq (localPath : Text) (reply : FileReply) :
    downloadFileInternal localPath reply =
      if reply.opens then .intoFile localPath (deliveredChunks reply.chunks) reply.succeeds else ⟨[], false⟩ := by
  have hok := @downloadFileInternal_ok localPath reply
  unfold downloadFileInternal FileReply.opens at *
  cases hr : reply.remoteHandle with
  | false => simp
  | true =>
    cases hl : reply.localOpens with
    | false => simp
    | true =>
      simp only [hr, hl, not_true_eq_false, if_false] at hok
      simp only [not_true_eq_false, if_false, Bool.and_self, if_true, Work.intoFile, ← hok, writeChunks_ops]

/-- The data of the write calls for one chunk, and whether they cover it. -/
def sentPieces (landed : Nat) (data : List UInt8) : List Nat → List (List UInt8) × Bool
  | [] => if data = [] then ([], true) else ([data.take landed], false)
  | n :: accepted =>
    if data = [] then ([], true)
    else
      let (pieces, ok) := sentPieces landed (data.drop n) accepted
      (data.take n :: pieces, ok)

def sentChunks : List UploadChunk → List (List UInt8) × Bool
  | [] => ([], true)
  | .readFails :: _ => ([], false)
  | .read data accepted landed :: chunks =>
    let (pieces, ok) := sentPieces landed data accepted
    if ok then
      let (more, okMore) := sentChunks chunks
      (pieces ++ more, okMore)
    else (pieces, false)

theorem writeAll_eq (remotePath : Text) (landed : Nat) (accepted : List Nat) (data : List UInt8) :
    writeAll remotePath landed data accepted =
      ⟨(sentPieces landed data accepted).1.map (.write remotePath), (sentPieces landed data accepted).2⟩ := by
  induction accepted generalizing data with
  | nil =>
    unfold writeAll sentPieces
    split <;> rfl
  | cons n accepted ih =>
    unfold writeAll sentPieces
    split
    · rfl
    · rw [ih]
      rfl

theorem uploadChunks_eq (remotePath : Text) (chunks : List UploadChunk) :
    uploadChunks remotePath chunks = ⟨(sentChunks chunks).1.map (.write remotePath), (sentChunks chunks).2⟩ := by
  induction chunks with
  | nil => rfl
  | cons chunk chunks ih =>
    cases chunk with
    | readFails => rfl
    | read data accepted landed =>
      unfold uploadChunks sentChunks Work.andThen
      rw [writeAll_eq, ih]
      cases h : (sentPieces landed data accepted).2 with
      | true => simp [h]
      | false => simp [h]

def UploadReply.opens (reply : UploadReply) : Bool := reply.localOpens && reply.remoteHandle

def UploadReply.succeeds (reply : UploadReply) : Bool := reply.opens && (sentChunks reply.chunks).2

theorem uploadFileInternal_eq (remotePath : Text) (reply : UploadReply) :
    uploadFileInternal remotePath reply =
      if reply.opens then .intoFile remotePath (sentChunks reply.chunks).1 reply.succeeds else ⟨[], false⟩ := by
  unfold uploadFileInternal UploadReply.succeeds UploadReply.opens
  cases reply.localOpens with
  | false => simp
  | true =>
    cases reply.remoteHandle with
    | false => simp
    | true => simp [uploadChunks_eq, Work.intoFile]

/-! ## Both directions -/

inductive Transfer where
  | download (reply : FileReply)
  | upload (reply : UploadReply)

namespace Transfer

def work (connected : Bool) (path : Text) : Transfer → Work
  | .download reply => downloadFile connected path reply
  | .upload reply => uploadFile connected path reply

/-- Both ends could be opened: the destination is empty now. -/
def opens : Transfer → Bool
  | .download reply => reply.opens
  | .upload reply => reply.opens

def succeeds : Transfer → Bool
  | .download reply => reply.succeeds
  | .upload reply => reply.succeeds

/-- The bytes that were handed to the destination. -/
def written : Transfer → List UInt8
  | .download reply => (deliveredChunks reply.chunks).flatten
  | .upload reply => (sentChunks reply.chunks).1.flatten

end Transfer

theorem work_ok {path : Text} {t : Transfer} (hopens : t.opens = true) :
    (t.work true path).ok = t.succeeds := by
  cases t with
  | download reply =>
    exact downloadFileInternal_ok reply
  | upload reply =>
    have hu : (Transfer.upload reply).work true path = uploadFileInternal path reply := rfl
    have ho : reply.opens = true := hopens
    rw [hu, uploadFileInternal_eq, if_pos ho]
    rfl

theorem work_run {path : Text} {t : Transfer} (hopens : t.opens = true) :
    (t.work true path).run st fs (resolve path) =
      if t.succeeds || !st.removes (resolve path) then some (.file (st.kept (resolve path) t.written)) else none := by
  cases t with
  | download reply =>
    have hd : (Transfer.download reply).work true path = downloadFileInternal path reply := rfl
    have ho : reply.opens = true := hopens
    rw [hd, downloadFileInternal_eq, if_pos ho, intoFile_run]
    rfl
  | upload reply =>
    have hu : (Transfer.upload reply).work true path = uploadFileInternal path reply := rfl
    have ho : reply.opens = true := hopens
    rw [hu, uploadFileInternal_eq, if_pos ho, intoFile_run]
    rfl

theorem work_closed {connected : Bool} {path : Text} {t : Transfer} (h : connected = false ∨ t.opens = false) :
    t.work connected path = ⟨[], false⟩ := by
  cases connected with
  | false => cases t <;> rfl
  | true =>
    obtain h | h := h
    · cases h
    · cases t with
      | download reply =>
        have hd : (Transfer.download reply).work true path = downloadFileInternal path reply := rfl
        have ho : ¬ reply.opens = true := Bool.eq_false_iff.mp h
        rw [hd, downloadFileInternal_eq, if_neg ho]
      | upload reply =>
        have hu : (Transfer.upload reply).work true path = uploadFileInternal path reply := rfl
        have ho : ¬ reply.opens = true := Bool.eq_false_iff.mp h
        rw [hu, uploadFileInternal_eq, if_neg ho]

/-- A failure is reported, and the destination is as it was. -/
def RestoredOnFailure (st : Storage) (fs : Disk) (connected : Bool) (path : Text) (t : Transfer) : Prop :=
  (t.work connected path).ok = false → (t.work connected path).run st fs (resolve path) = fs (resolve path)

/-- A failure comes before the destination is opened, or finds nothing to destroy: no file was
there and the new one can be removed, or what cannot be removed is what was there. -/
def Harmless (st : Storage) (fs : Disk) (connected : Bool) (path : Text) (t : Transfer) : Prop :=
  connected = true → t.opens = true → t.succeeds = false →
    fs (resolve path) = if st.removes (resolve path) then none else some (.file (st.kept (resolve path) t.written))

end LvdTerm.Sftp
