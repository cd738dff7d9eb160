import LvdTerm.Sftp.FailedTransfer
import LvdTerm.Sftp.Trees

/-!
# Uploading a whole directory

`uploadDirectory` copies what `QDir::entryInfoList` lists of a local tree to a server whose
file system is a disk. Hidden entries are not listed, a listing that cannot be read is an
empty one, and the close of a remote file is not looked at: a successful upload is complete
exactly where none of this matters (`Uploaded`).
-/
namespace LvdTerm.Sftp

open Lib.Paths

def joinPath (dir name : Text) : Text := if dir.getLast? = some '/' then dir ++ name else dir ++ '/' :: name

/-- What fails, by the place an entry has on the server. -/
structure UploadFaults where
  mkdir : Place → Bool
  /-- `libssh2_sftp_stat` answers, with permissions. -/
  stat : Place → Bool
  /-- The listing of the local directory breaks off after this many entries. -/
  listing : Place → Option Nat
  localOpens : Place → Bool
  remoteOpens : Place → Bool
  /-- The sizes of the reads, each with what becomes of its writes. -/
  reads : Place → List (Nat × List Nat × Nat)

def cutUploads : List (Nat × List Nat × Nat) → List UInt8 → List UploadChunk
  | [], data => if data = [] then [] else [.readFails]
  | (n, accepted, landed) :: reads, data =>
    if data = [] then [] else .read (data.take n) accepted landed :: cutUploads reads (data.drop n)

/-- The local file has this data. -/
def UploadFaults.fileReply (f : UploadFaults) (place : Place) (data : List UInt8) : UploadReply :=
  ⟨f.localOpens place, f.remoteOpens place, cutUploads (f.reads place) data⟩

/-- `libssh2_sftp_mkdir`, and the `stat` after it that accepts a directory that is there. -/
def UploadFaults.makeRemote (f : UploadFaults) (fs : Disk) (place : Place) : Option Disk :=
  if f.mkdir place ∧ fs place = none then some (Function.update fs place (some .dir))
  else if f.stat place ∧ fs place = some .dir then some fs
  else none

/-- `QDir::Hidden` is not among the filters. -/
def hidden (name : Text) : Bool := name.head? == some '.'

def intoRemote (f : UploadFaults) (fs : Disk) (place : Place) (children : Disk → Disk × Bool) : Disk × Bool :=
  match f.makeRemote fs place with
  | none => (fs, false)
  | some made => children made

def uploadEntries (f : UploadFaults) (st : Storage) (remotePath : Text) (limit : Option Nat) (fs : Disk) :
    Entries → Disk × Bool
  | .nil => (fs, true)
  | .cons name (.file data) rest =>
    if limit = some 0 then (fs, true)
    else if hidden name then uploadEntries f st remotePath (limit.map (· - 1)) fs rest
    else
      let childRemote := joinPath remotePath name
      let w := uploadFileInternal childRemote (f.fileReply (resolve childRemote) data)
      if w.ok then uploadEntries f st remotePath (limit.map (· - 1)) (w.run st fs) rest else (w.run st fs, false)
  | .cons name (.dir sub) rest =>
    if limit = some 0 then (fs, true)
    else if hidden name then uploadEntries f st remotePath (limit.map (· - 1)) fs rest
    else
      let childRemote := joinPath remotePath name
      let (fs', ok) := intoRemote f fs (resolve childRemote)
        (fun made => uploadEntries f st childRemote (f.listing (resolve childRemote)) made sub)
      if ok then uploadEntries f st remotePath (limit.map (· - 1)) fs' rest else (fs', false)

def uploadDirectoryRecursive (f : UploadFaults) (st : Storage) (remotePath : Text) (fs : Disk) (entries : Entries) :
    Disk × Bool :=
  intoRemote f fs (resolve remotePath) (fun made => uploadEntries f st remotePath (f.listing (resolve remotePath)) made entries)

/-- The flag is which of `operationSucceeded` and `operationFailed` is emitted. -/
def uploadDirectory (connected : Bool) (f : UploadFaults) (st : Storage) (remotePath : Text) (fs : Disk)
    (entries : Entries) : Disk × Bool :=
  if ¬ connected then (fs, false) else uploadDirectoryRecursive f st remotePath fs entries

/-! ## Where joined paths lead -/

/-- The directory in which `joinPath` puts the entries of a path; the empty path is joined like the root. -/
def joinBase (path : Text) : Place := if path = [] then ⟨true, []⟩ else resolve path

theorem joinPath_ne_nil (dir : Text) {name : Text} (hn : ValidName name) : joinPath dir name ≠ [] := by
  unfold joinPath
  split
  · exact List.append_ne_nil_of_right_ne_nil _ hn.ne_nil
  · exact List.append_ne_nil_of_right_ne_nil _ (List.cons_ne_nil _ _)

theorem resolve_root (name : Text) : resolve ('/' :: name) = Place.walk ⟨true, []⟩ name := by
  unfold resolve Place.walk
  have hsplit : ('/' :: name).splitOn '/' = [] :: name.splitOn '/' := List.splitOn_append_cons_self [] name
  rw [hsplit]
  rfl

theorem resolve_joinPath (dir : Text) {name : Text} (hn : ValidName name) :
    resolve (joinPath dir name) = (joinBase dir).child name := by
  unfold joinPath joinBase
  by_cases hd : dir = []
  · subst hd
    rw [if_pos rfl]
    exact (resolve_root name).trans (hn.walk _)
  · rw [if_neg hd]
    split
    next hlast =>
      obtain ⟨init, rfl⟩ := List.getLast?_eq_some_iff.mp hlast
      rw [List.append_assoc, List.singleton_append]
      by_cases hi : init = []
      · subst hi
        exact (resolve_root name).trans (hn.walk _)
      · rw [resolve_append_slash hi]
        exact hn.resolve_join hi
    next => exact hn.resolve_join hd

theorem joinBase_joinPath (dir : Text) {name : Text} (hn : ValidName name) :
    joinBase (joinPath dir name) = resolve (joinPath dir name) := if_neg (joinPath_ne_nil dir hn)

/-! ## What an upload changes -/

variable {f : UploadFaults} {st : Storage} {fs : Disk}

theorem uploadFile_other {path : Text} {q : Place} {reply : UploadReply} (h : resolve path ≠ q) :
    (uploadFileInternal path reply).run st fs q = fs q := by
  rw [uploadFileInternal_eq]
  split
  · apply run_other
    intro op hop
    unfold Work.intoFile at hop
    simp only [List.cons_append, List.mem_cons, List.mem_append, List.mem_map] at hop
    obtain rfl | ⟨_, _, rfl⟩ | hop := hop
    · exact h
    · exact h
    · split at hop
      · cases hop
      · rw [List.mem_singleton.mp hop]
        exact h
  · rfl

theorem makeRemote_some {place : Place} {made : Disk} (h : f.makeRemote fs place = some made) :
    made place = some .dir ∧ ∀ q, q ≠ place → made q = fs q := by
  unfold UploadFaults.makeRemote at h
  split at h
  · cases h
    exact ⟨Function.update_self _ _ _, fun q hq => Function.update_of_ne hq _ _⟩
  · split at h
    next hdir =>
      cases h
      exact ⟨hdir.2, fun _ _ => rfl⟩
    next => cases h

theorem intoRemote_other {place q : Place} {children : Disk → Disk × Bool} (hq : ¬ place.Under q)
    (hc : ∀ made : Disk, (children made).1 q = made q) : (intoRemote f fs place children).1 q = fs q := by
  unfold intoRemote
  cases hm : f.makeRemote fs place with
  | none => rfl
  | some made =>
    have hne : q ≠ place := by
      rintro rfl
      exact hq (Place.Under.refl q)
    exact (hc made).trans ((makeRemote_some hm).2 q hne)

/-- Only what is below the entries changes. -/
theorem uploadEntries_other : (es : Entries) → ∀ (dir : Text) (fs : Disk) (limit : Option Nat) (q : Place),
    es.WellFormed → (∀ n ∈ es.names, ¬ ((joinBase dir).child n).Under q) →
    (uploadEntries f st dir limit fs es).1 q = fs q
  | .nil, _, _, _, _, _, _ => by
    rw [uploadEntries]
  | .cons name (.file data) rest, dir, fs, limit, q, hw, hq => by
    obtain ⟨hn, _, _, hrest⟩ := hw
    have hrestq : ∀ n ∈ rest.names, ¬ ((joinBase dir).child n).Under q := fun n hmem => hq n (List.mem_cons_of_mem name hmem)
    unfold uploadEntries
    split
    · rfl
    · split
      · exact uploadEntries_other rest dir fs _ q hrest hrestq
      · have hne : resolve (joinPath dir name) ≠ q := by
          intro he
          apply hq name List.mem_cons_self
          rw [← resolve_joinPath dir hn, he]
          exact Place.Under.refl q
        dsimp only
        split
        · rw [uploadEntries_other rest dir _ _ q hrest hrestq]
          exact uploadFile_other hne
        · exact uploadFile_other hne
  | .cons name (.dir sub) rest, dir, fs, limit, q, hw, hq => by
    obtain ⟨hn, _, hsub, hrest⟩ := hw
    have hrestq : ∀ n ∈ rest.names, ¬ ((joinBase dir).child n).Under q := fun n hmem => hq n (List.mem_cons_of_mem name hmem)
    unfold uploadEntries
    split
    · rfl
    · split
      · exact uploadEntries_other rest dir fs _ q hrest hrestq
      · have hnot : ¬ (resolve (joinPath dir name)).Under q := by
          rw [resolve_joinPath dir hn]
          exact hq name List.mem_cons_self
        have hsubq : ∀ made : Disk, (uploadEntries f st (joinPath dir name) (f.listing (resolve (joinPath dir name))) made sub).1 q =
            made q := by
          intro made
          apply uploadEntries_other sub (joinPath dir name) made _ q hsub
          intro n hmem hu
          rw [joinBase_joinPath dir hn] at hu
          exact hnot (((Entries.valid_of_mem hsub hmem).under_child _).trans hu)
        have hinto := @intoRemote_other f fs _ _ _ hnot hsubq
        dsimp only
        split
        · rw [uploadEntries_other rest dir _ _ q hrest hrestq]
          exact hinto
        · exact hinto

/-! ## What a successful upload has copied -/

theorem sentPieces_all (landed : Nat) (accepted : List Nat) (data : List UInt8)
    (h : (sentPieces landed data accepted).2 = true) : (sentPieces landed data accepted).1.flatten = data := by
  induction accepted generalizing data with
  | nil =>
    unfold sentPieces at h ⊢
    split at h
    next hd =>
      rw [if_pos hd, hd]
      rfl
    next => cases h
  | cons n accepted ih =>
    unfold sentPieces at h ⊢
    split at h
    next hd =>
      rw [if_pos hd, hd]
      rfl
    next hd =>
      rw [if_neg hd]
      dsimp only at h ⊢
      rw [List.flatten_cons, ih (data.drop n) h, List.take_append_drop]

theorem cutUploads_all (reads : List (Nat × List Nat × Nat)) (data : List UInt8)
    (h : (sentChunks (cutUploads reads data)).2 = true) : (sentChunks (cutUploads reads data)).1.flatten = data := by
  induction reads generalizing data with
  | nil =>
    unfold cutUploads at h ⊢
    split at h
    next hd =>
      rw [if_pos hd, hd]
      rfl
    next => cases h
  | cons read reads ih =>
    obtain ⟨n, accepted, landed⟩ := read
    unfold cutUploads at h ⊢
    split at h
    next hd =>
      rw [if_pos hd, hd]
      rfl
    next hd =>
      rw [if_neg hd]
      unfold sentChunks at h ⊢
      cases hs : (sentPieces landed (data.take n) accepted).2 with
      | false =>
        simp only [hs, Bool.false_eq_true, if_false] at h
      | true =>
        simp only [hs, if_true] at h ⊢
        rw [List.flatten_append, sentPieces_all landed accepted (data.take n) hs, ih (data.drop n) h, List.take_append_drop]

theorem uploadFile_held {path : Text} {data : List UInt8}
    (h : (uploadFileInternal path (f.fileReply (resolve path) data)).ok = true) :
    (uploadFileInternal path (f.fileReply (resolve path) data)).run st fs (resolve path) =
      some (.file (st.kept (resolve path) data)) := by
  rw [uploadFileInternal_eq] at h ⊢
  split at h
  next hopens =>
    rw [if_pos hopens]
    have hs : (f.fileReply (resolve path) data).succeeds = true := h
    have hsent := (Bool.and_eq_true_iff.mp hs).2
    have hdata := cutUploads_all (f.reads (resolve path)) data hsent
    rw [intoFile_run, hs]
    exact congrArg (fun d => some (Node.file (st.kept (resolve path) d))) hdata
  next => cases h

/-- Each local listing was complete and held nothing hidden, or what was left out is on the
server already; and all that was sent of a file is there after it was closed. -/
def Entries.Uploaded (f : UploadFaults) (st : Storage) (fs : Disk) (place : Place) (limit : Option Nat) : Entries → Prop
  | .nil => True
  | .cons name (.file data) rest =>
    if limit = some 0 then (Entries.cons name (.file data) rest).HeldIn fs place
    else (if hidden name then (Tree.file data).HeldAt fs (place.child name) else st.kept (place.child name) data = data) ∧
      rest.Uploaded f st fs place (limit.map (· - 1))
  | .cons name (.dir sub) rest =>
    if limit = some 0 then (Entries.cons name (.dir sub) rest).HeldIn fs place
    else (if hidden name then (Tree.dir sub).HeldAt fs (place.child name)
      else sub.Uploaded f st fs (place.child name) (f.listing (place.child name))) ∧
      rest.Uploaded f st fs place (limit.map (· - 1))

variable {dir name : Text} {sub : Entries}

theorem sub_other (hn : ValidName name) (hsub : sub.WellFormed) (q : Place) (hq : ¬ ((joinBase dir).child name).Under q) :
    (intoRemote f fs (resolve (joinPath dir name)) (fun made =>
      uploadEntries f st (joinPath dir name) (f.listing (resolve (joinPath dir name))) made sub)).1 q = fs q := by
  rw [← resolve_joinPath dir hn] at hq
  apply intoRemote_other hq
  intro made
  apply uploadEntries_other sub (joinPath dir name) made _ q hsub
  intro n hmem hu
  rw [joinBase_joinPath dir hn] at hu
  exact hq (((Entries.valid_of_mem hsub hmem).under_child _).trans hu)

theorem sub_agreeIn {rest : Entries} {fs₀ made : Disk} (hn : ValidName name) (hsub : sub.WellFormed)
    (hagree : (Entries.cons name (.dir sub) rest).AgreeIn fs fs₀ (joinBase dir))
    (hmade : ∀ q, q ≠ resolve (joinPath dir name) → made q = fs q) : sub.AgreeIn made fs₀ (joinBase (joinPath dir name)) := by
  intro n hmem q hq
  rw [joinBase_joinPath dir hn] at hq
  have hne : q ≠ resolve (joinPath dir name) := by
    rintro rfl
    exact Place.child_not_under _ _ hq
  rw [hmade q hne]
  apply hagree name List.mem_cons_self
  rw [resolve_joinPath dir hn] at hq
  exact ((Entries.valid_of_mem hsub hmem).under_child _).trans hq

/-- A directory that was uploaded is there, with what was listed of it. -/
theorem intoRemote_held {path : Text} {sub : Entries} {limit : Option Nat} {fs₀ : Disk} (hsub : sub.WellFormed)
    (hbase : ∀ n ∈ sub.names, ¬ ((joinBase path).child n).Under (resolve path))
    (hspec : ∀ made : Disk, (∀ q, q ≠ resolve path → made q = fs q) → (uploadEntries f st path limit made sub).2 = true →
      (sub.HeldIn (uploadEntries f st path limit made sub).1 (joinBase path) ↔ sub.Uploaded f st fs₀ (joinBase path) limit))
    (hok : (intoRemote f fs (resolve path) (fun made => uploadEntries f st path limit made sub)).2 = true) :
    (intoRemote f fs (resolve path) (fun made => uploadEntries f st path limit made sub)).1 (resolve path) = some .dir ∧
      sub.HeldIn (intoRemote f fs (resolve path) (fun made => uploadEntries f st path limit made sub)).1 (joinBase path) ↔
      sub.Uploaded f st fs₀ (joinBase path) limit := by
  unfold intoRemote at hok ⊢
  cases hm : f.makeRemote fs (resolve path) with
  | none =>
    rw [hm] at hok
    cases hok
  | some made =>
    rw [hm] at hok
    obtain ⟨hdir, hothers⟩ := makeRemote_some hm
    have hsame := @uploadEntries_other f st sub path made limit (resolve path) hsub hbase
    dsimp only
    rw [hsame, hspec made hothers hok]
    exact and_iff_right hdir

/-- The local entries are all on the server exactly where the upload got all of them. -/
theorem uploadEntries_held : (es : Entries) → ∀ (dir : Text) (fs fs₀ : Disk) (limit : Option Nat),
    es.WellFormed → es.AgreeIn fs fs₀ (joinBase dir) → (uploadEntries f st dir limit fs es).2 = true →
    (es.HeldIn (uploadEntries f st dir limit fs es).1 (joinBase dir) ↔ es.Uploaded f st fs₀ (joinBase dir) limit)
  | .nil, _, _, _, _, _, _, _ => by
    unfold Entries.HeldIn Entries.Uploaded
    exact Iff.rfl
  | .cons name (.file data) rest, dir, fs, fs₀, limit, hw, hagree, hok => by
    obtain ⟨hn, hfresh, hwell, hrest⟩ := id hw
    have hchild := resolve_joinPath dir hn
    have hframe := fun (fs' : Disk) (q : Place) (hq : ((joinBase dir).child name).Under q) =>
      @uploadEntries_other f st rest dir fs' (limit.map (· - 1)) q hrest (Entries.siblings_not_under hfresh hq)
    unfold uploadEntries at hok ⊢
    unfold Entries.Uploaded
    split
    · exact Entries.heldIn_congr _ _ hw hagree
    next hl =>
      rw [if_neg hl] at hok
      split
      next hh =>
        rw [if_pos hh] at hok
        have hrestHeld := uploadEntries_held rest dir fs fs₀ (limit.map (· - 1)) hrest hagree.rest hok
        have hsame := Tree.heldAt_congr (.file data) _ hwell (fun q hq => (hframe fs q hq).trans (hagree name List.mem_cons_self q hq))
        rw [Entries.HeldIn, hrestHeld, hsame]
      next hh =>
        rw [if_neg hh] at hok
        dsimp only at hok ⊢
        split at hok
        next hfile =>
          rw [if_pos hfile]
          have hother : ∀ q, ¬ ((joinBase dir).child name).Under q → (uploadFileInternal (joinPath dir name)
              (f.fileReply (resolve (joinPath dir name)) data)).run st fs q = fs q := by
            intro q hq
            apply uploadFile_other
            intro he
            rw [← hchild, he] at hq
            exact hq (Place.Under.refl q)
          have hagree' := fun n hmem q hq => (Entries.agreeIn_of_child hfresh hother n hmem q hq).trans (hagree.rest n hmem q hq)
          have hrestHeld := uploadEntries_held rest dir _ fs₀ (limit.map (· - 1)) hrest hagree' hok
          have hsame := hframe ((uploadFileInternal (joinPath dir name)
            (f.fileReply (resolve (joinPath dir name)) data)).run st fs) _ (Place.Under.refl _)
          have hdata := @uploadFile_held f st fs _ _ hfile
          rw [hchild] at hdata hsame hrestHeld ⊢
          unfold Entries.HeldIn Tree.HeldAt
          rw [hrestHeld, hsame, hdata, Option.some.injEq, Node.file.injEq]
        next => cases hok
  | .cons name (.dir sub) rest, dir, fs, fs₀, limit, hw, hagree, hok => by
    obtain ⟨hn, hfresh, hsub, hrest⟩ := id hw
    have hchild := resolve_joinPath dir hn
    have hframe := fun (fs' : Disk) (q : Place) (hq : ((joinBase dir).child name).Under q) =>
      @uploadEntries_other f st rest dir fs' (limit.map (· - 1)) q hrest (Entries.siblings_not_under hfresh hq)
    unfold uploadEntries at hok ⊢
    unfold Entries.Uploaded
    split
    · exact Entries.heldIn_congr _ _ hw hagree
    next hl =>
      rw [if_neg hl] at hok
      split
      next hh =>
        rw [if_pos hh] at hok
        have hrestHeld := uploadEntries_held rest dir fs fs₀ (limit.map (· - 1)) hrest hagree.rest hok
        have hsame := Tree.heldAt_congr (.dir sub) _ hsub (fun q hq => (hframe fs q hq).trans (hagree name List.mem_cons_self q hq))
        rw [Entries.HeldIn, hrestHeld, hsame]
      next hh =>
        rw [if_neg hh] at hok
        dsimp only at hok ⊢
        split at hok
        next hinto =>
          rw [if_pos hinto]
          have hother := @sub_other f st fs dir _ _ hn hsub
          have hagree' := fun n hmem q hq => (Entries.agreeIn_of_child hfresh hother n hmem q hq).trans (hagree.rest n hmem q hq)
          have hrestHeld := uploadEntries_held rest dir _ fs₀ (limit.map (· - 1)) hrest hagree' hok
          have hsame := Tree.heldAt_congr (.dir sub) ((joinBase dir).child name) hsub (hframe (intoRemote f fs (resolve (joinPath dir name))
            (fun made => uploadEntries f st (joinPath dir name) (f.listing (resolve (joinPath dir name))) made sub)).1)
          rw [Entries.HeldIn, hrestHeld, hsame]
          have hsubHeld := @intoRemote_held f st fs (joinPath dir name) sub
            (f.listing (resolve (joinPath dir name))) fs₀ hsub
            (fun n _ => by
              rw [joinBase_joinPath dir hn]
              exact Place.child_not_under _ n)
            (fun made hmade hc => uploadEntries_held sub (joinPath dir name) made fs₀ _ hsub
              (sub_agreeIn hn hsub hagree hmade) hc)
            hinto
          rw [joinBase_joinPath dir hn, hchild] at hsubHeld
          rw [hchild]
          exact and_congr_left' hsubHeld
        next => cases hok

/-! ## The whole upload -/

/-- Reported success means that the whole tree is on the server, where its names are joined to. -/
def UploadCompleteOnSuccess (d : Directory) (f : UploadFaults) (st : Storage) (fs : Disk) (connected : Bool)
    (remotePath : Text) : Prop :=
  (uploadDirectory connected f st remotePath fs d.entries).2 = true →
    (uploadDirectory connected f st remotePath fs d.entries).1 (resolve remotePath) = some .dir ∧
      d.entries.HeldIn (uploadDirectory connected f st remotePath fs d.entries).1 (joinBase remotePath)

/-- Every operation whose failure the upload notices succeeds: each directory is made or found,
each file opened, read and written. -/
def Entries.sent (f : UploadFaults) (fs : Disk) (place : Place) (limit : Option Nat) : Entries → Bool
  | .nil => true
  | .cons name (.file data) rest =>
    if limit = some 0 then true
    else (hidden name || (f.fileReply (place.child name) data).succeeds) && rest.sent f fs place (limit.map (· - 1))
  | .cons name (.dir sub) rest =>
    if limit = some 0 then true
    else (hidden name || ((f.makeRemote fs (place.child name)).isSome &&
      sub.sent f fs (place.child name) (f.listing (place.child name)))) && rest.sent f fs place (limit.map (· - 1))

theorem makeRemote_isSome {fs fs' : Disk} {place : Place} (h : fs place = fs' place) :
    (f.makeRemote fs place).isSome = (f.makeRemote fs' place).isSome := by
  unfold UploadFaults.makeRemote
  rw [h]
  split
  · rfl
  · split <;> rfl

theorem uploadFileInternal_ok {path : Text} (reply : UploadReply) : (uploadFileInternal path reply).ok = reply.succeeds := by
  rw [uploadFileInternal_eq]
  split
  · rfl
  next h =>
    unfold UploadReply.succeeds
    rw [Bool.eq_false_iff.mpr h]
    rfl

theorem intoRemote_ok {place : Place} (children : Disk → Disk × Bool) {ok : Bool}
    (h : ∀ made : Disk, (∀ q, q ≠ place → made q = fs q) → (children made).2 = ok) :
    (intoRemote f fs place children).2 = ((f.makeRemote fs place).isSome && ok) := by
  unfold intoRemote
  cases hm : f.makeRemote fs place with
  | none => rfl
  | some made => exact h made (makeRemote_some hm).2

theorem uploadEntries_ok : (es : Entries) → ∀ (dir : Text) (fs fs₀ : Disk) (limit : Option Nat),
    es.WellFormed → es.AgreeIn fs fs₀ (joinBase dir) →
    (uploadEntries f st dir limit fs es).2 = es.sent f fs₀ (joinBase dir) limit
  | .nil, _, _, _, _, _, _ => by
    rw [uploadEntries, Entries.sent]
  | .cons name (.file data) rest, dir, fs, fs₀, limit, hw, hagree => by
    obtain ⟨hn, hfresh, _, hrest⟩ := hw
    have hchild := resolve_joinPath dir hn
    unfold uploadEntries Entries.sent
    split
    · rfl
    · split
      next hh =>
        rw [hh, Bool.true_or, Bool.true_and]
        exact uploadEntries_ok rest dir fs fs₀ _ hrest hagree.rest
      next hh =>
        have hother : ∀ q, ¬ ((joinBase dir).child name).Under q → (uploadFileInternal (joinPath dir name)
            (f.fileReply (resolve (joinPath dir name)) data)).run st fs q = fs q := by
          intro q hq
          apply uploadFile_other
          intro he
          rw [← hchild, he] at hq
          exact hq (Place.Under.refl q)
        have hagree' := fun n hmem q hq => (Entries.agreeIn_of_child hfresh hother n hmem q hq).trans (hagree.rest n hmem q hq)
        dsimp only
        rw [Bool.eq_false_iff.mpr hh, Bool.false_or, ← hchild, ← uploadFileInternal_ok]
        cases (uploadFileInternal (joinPath dir name) (f.fileReply (resolve (joinPath dir name)) data)).ok with
        | false => rfl
        | true => exact uploadEntries_ok rest dir _ fs₀ _ hrest hagree'
  | .cons name (.dir sub) rest, dir, fs, fs₀, limit, hw, hagree => by
    obtain ⟨hn, hfresh, hsub, hrest⟩ := hw
    have hchild := resolve_joinPath dir hn
    unfold uploadEntries Entries.sent
    split
    · rfl
    · split
      next hh =>
        rw [hh, Bool.true_or, Bool.true_and]
        exact uploadEntries_ok rest dir fs fs₀ _ hrest hagree.rest
      next hh =>
        have hagree' := fun n hmem q hq => (Entries.agreeIn_of_child hfresh
          (@sub_other f st fs dir _ _ hn hsub) n hmem q hq).trans (hagree.rest n hmem q hq)
        have hsubOk : (intoRemote f fs (resolve (joinPath dir name)) (fun made =>
            uploadEntries f st (joinPath dir name) (f.listing (resolve (joinPath dir name))) made sub)).2 =
            ((f.makeRemote fs (resolve (joinPath dir name))).isSome &&
              sub.sent f fs₀ (resolve (joinPath dir name)) (f.listing (resolve (joinPath dir name)))) := by
          apply intoRemote_ok
          intro made hmade
          rw [← joinBase_joinPath dir hn]
          exact uploadEntries_ok sub (joinPath dir name) made fs₀ _ hsub (sub_agreeIn hn hsub hagree hmade)
        rw [makeRemote_isSome (hagree name List.mem_cons_self _ (by rw [hchild]; exact Place.Under.refl _))] at hsubOk
        dsimp only
        rw [Bool.eq_false_iff.mpr hh, Bool.false_or, ← hchild, ← hsubOk]
        cases (intoRemote f fs (resolve (joinPath dir name)) (fun made =>
            uploadEntries f st (joinPath dir name) (f.listing (resolve (joinPath dir name))) made sub)).2 with
        | false => rfl
        | true => exact uploadEntries_ok rest dir _ fs₀ _ hrest hagree'

theorem joinBase_child_not_under (path : Text) (name : Text) : ¬ ((joinBase path).child name).Under (resolve path) := by
  unfold joinBase
  split
  next h =>
    subst h
    intro hu
    have habs : false = true := hu.1
    cases habs
  next => exact Place.child_not_under _ name

/-- An upload is complete exactly where something it notices fails, or nothing it overlooks
does: no entry is hidden, no local listing breaks off, no file loses data when it is closed. -/
theorem upload_complete_on_success_iff (d : Directory) (f : UploadFaults) (st : Storage) (fs : Disk) (connected : Bool)
    (remotePath : Text) :
    UploadCompleteOnSuccess d f st fs connected remotePath ↔
      (connected = true → (f.makeRemote fs (resolve remotePath)).isSome = true →
        d.entries.sent f fs (joinBase remotePath) (f.listing (resolve remotePath)) = true →
        d.entries.Uploaded f st fs (joinBase remotePath) (f.listing (resolve remotePath))) := by
  unfold UploadCompleteOnSuccess uploadDirectory uploadDirectoryRecursive
  cases connected with
  | false =>
    constructor
    · intro _ h
      cases h
    · intro _ h
      cases h
  | true =>
    rw [if_neg (not_not.mpr rfl)]
    have hagree : ∀ made : Disk, (∀ q, q ≠ resolve remotePath → made q = fs q) →
        d.entries.AgreeIn made fs (joinBase remotePath) := by
      intro made hmade n _ q hq
      apply hmade q
      rintro rfl
      exact joinBase_child_not_under remotePath n hq
    have hok := @intoRemote_ok f fs (resolve remotePath)
      (fun made => uploadEntries f st remotePath (f.listing (resolve remotePath)) made d.entries)
      _ (fun made hmade => uploadEntries_ok d.entries remotePath made fs _ d.wellFormed (hagree made hmade))
    have hheld := @intoRemote_held f st fs remotePath d.entries
      (f.listing (resolve remotePath)) fs d.wellFormed (fun n _ => joinBase_child_not_under remotePath n)
      (fun made hmade hc => uploadEntries_held d.entries remotePath made fs _ d.wellFormed (hagree made hmade) hc)
    rw [hok, Bool.and_eq_true] at hheld
    rw [hok, Bool.and_eq_true]
    constructor
    · intro h _ hm hs
      exact (hheld ⟨hm, hs⟩).mp (h ⟨hm, hs⟩)
    · intro h hs
      exact (hheld hs).mpr (h rfl hs.1 hs.2)

def nothingFails : UploadFaults where
  mkdir _ := true
  stat _ := true
  listing _ := none
  localOpens _ := true
  remoteOpens _ := true
  reads _ := [(1, [1], 0)]

def oneDotFile : Directory :=
  ⟨.cons ['.', 'f'] (.file [1]) .nil, ⟨⟨by decide, by decide⟩, by decide, by decide⟩, List.not_mem_nil, trivial, trivial⟩

/-- Nothing fails, and a file whose name starts with a dot stays behind. -/
theorem hidden_file_left_behind : ¬ ∀ (d : Directory) (f : UploadFaults) (st : Storage) (fs : Disk) (connected : Bool)
    (remotePath : Text), UploadCompleteOnSuccess d f st fs connected remotePath := by
  intro h
  have hheld := h oneDotFile nothingFails ⟨fun _ => none, fun _ => true⟩ (fun _ => none) true "/d".toList (by decide +kernel)
  have hfile : (uploadDirectory true nothingFails ⟨fun _ => none, fun _ => true⟩ "/d".toList (fun _ => none) oneDotFile.entries).1
      ((joinBase "/d".toList).child ['.', 'f']) = some (.file [1]) := hheld.2.1
  exact absurd hfile (by decide +kernel)

end LvdTerm.Sftp
