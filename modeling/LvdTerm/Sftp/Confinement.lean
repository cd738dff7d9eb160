import LvdTerm.Sftp.Download

/-!
# Where a directory download writes

A download is `Confined` to a base when everything it makes, opens, writes or removes is at
the base or below it. The name of an entry is only compared with `.` and `..` and then joined
as it is, so this depends on the server: `StaysInside` follows the entries that the download gets
to and asks of each name that walking it leads back under the base. A server whose names
are plain can do no harm (`confined_of_plain`).
-/
namespace LvdTerm.Sftp

open Lib.Paths

def Work.Confined (base : Text) (w : Work) : Prop := ∀ op ∈ w.ops, Below base op.path

instance (base : Text) (w : Work) : Decidable (w.Confined base) := by
  unfold Work.Confined
  infer_instance

variable {base localPath : Text}

/-! ## What the replies let happen -/

def FileReply.opens (reply : FileReply) : Bool := reply.remoteHandle && reply.localOpens

def FileReply.succeeds (reply : FileReply) : Bool :=
  reply.opens && reply.chunks.all (·.written) && !reply.readFails

mutual

def DirReply.succeeds (localPath : Text) : DirReply → Bool
  | .dir missing made handle children =>
    (mkpath localPath missing made).2 && handle && children.succeeds localPath

def Listing.succeeds (localPath : Text) : Listing → Bool
  | .done => true
  | .file name reply rest =>
    if name = dot ∨ name = dotdot then rest.succeeds localPath
    else reply.succeeds && rest.succeeds localPath
  | .dir name reply rest =>
    if name = dot ∨ name = dotdot then rest.succeeds localPath
    else reply.succeeds (localPath ++ '/' :: name) && rest.succeeds localPath

end

/-- The directories that `mkpath` makes for `localPath` are at or below the base. -/
def MakesInside (base localPath : Text) (missing made : Nat) : Prop :=
  ∀ dir ∈ (mkpath localPath missing made).1, Below base dir

mutual

/-- Each entry that the download gets to has a name that leads from `localPath` to a place at
or below the base. An entry after one that fails is never reached. -/
def DirReply.StaysInside (base localPath : Text) : DirReply → Prop
  | .dir missing made handle children => MakesInside base localPath missing made ∧
    ((mkpath localPath missing made).2 = true → handle = true → children.StaysInside base localPath)

def Listing.StaysInside (base localPath : Text) : Listing → Prop
  | .done => True
  | .file name reply rest =>
    if name = dot ∨ name = dotdot then rest.StaysInside base localPath
    else (reply.opens = true → (resolve base).Under ((resolve localPath).walk name)) ∧
      (reply.succeeds = true → rest.StaysInside base localPath)
  | .dir name reply rest =>
    if name = dot ∨ name = dotdot then rest.StaysInside base localPath
    else reply.StaysInside base (localPath ++ '/' :: name) ∧
      (reply.succeeds (localPath ++ '/' :: name) = true → rest.StaysInside base localPath)

end

/-! ## One file -/

theorem Work.andThen_ok (w next : Work) : (w.andThen next).ok = (w.ok && next.ok) := by
  unfold Work.andThen
  cases hw : w.ok with
  | true => rfl
  | false => simpa using hw

theorem Work.confined_andThen (w next : Work) :
    (w.andThen next).Confined base ↔ w.Confined base ∧ (w.ok = true → next.Confined base) := by
  unfold Work.andThen
  cases hw : w.ok with
  | true => simp [Work.Confined, or_imp, forall_and]
  | false => simp

theorem writeChunks_ok (chunks : List Chunk) : (writeChunks localPath chunks).ok = chunks.all (·.written) := by
  induction chunks with
  | nil => rfl
  | cons c cs ih => rw [writeChunks, Work.andThen_ok, ih, List.all_cons]

theorem writeChunks_path (chunks : List Chunk) : ∀ op ∈ (writeChunks localPath chunks).ops, op.path = localPath := by
  induction chunks with
  | nil =>
    intro op hop
    cases hop
  | cons c cs ih =>
    intro op hop
    unfold writeChunks Work.andThen at hop
    split at hop
    · obtain hop | hop := List.mem_append.mp hop
      · rw [List.mem_singleton.mp hop]
        rfl
      · exact ih op hop
    · rw [List.mem_singleton.mp hop]
      rfl

theorem downloadFileInternal_ok (reply : FileReply) :
    (downloadFileInternal localPath reply).ok = reply.succeeds := by
  unfold downloadFileInternal FileReply.succeeds FileReply.opens
  cases reply.remoteHandle with
  | false => rfl
  | true =>
    cases reply.localOpens with
    | false => rfl
    | true => simp [writeChunks_ok]

/-- Everything that is done for one file is done at its path. -/
theorem downloadFileInternal_path (reply : FileReply) :
    ∀ op ∈ (downloadFileInternal localPath reply).ops, op.path = localPath := by
  intro op hop
  unfold downloadFileInternal at hop
  split at hop
  · cases hop
  · split at hop
    · cases hop
    · simp only [List.cons_append, List.mem_cons, List.mem_append] at hop
      obtain rfl | hop | hop := hop
      · rfl
      · exact writeChunks_path reply.chunks op hop
      · split at hop
        · cases hop
        · rw [List.mem_singleton.mp hop]
          rfl

theorem downloadFileInternal_confined (reply : FileReply) :
    (downloadFileInternal localPath reply).Confined base ↔ (reply.opens = true → Below base localPath) := by
  constructor
  · intro h ho
    obtain ⟨hr, hl⟩ := Bool.and_eq_true_iff.mp ho
    apply h (.openTruncate localPath)
    unfold downloadFileInternal
    rw [if_neg (not_not.mpr hr), if_neg (not_not.mpr hl)]
    exact List.mem_append_left _ List.mem_cons_self
  · intro h op hop
    rw [downloadFileInternal_path reply op hop]
    apply h
    unfold downloadFileInternal at hop
    unfold FileReply.opens
    split at hop
    · cases hop
    · split at hop
      · cases hop
      · simp_all

/-! ## Directories -/

theorem made_confined (dirs : List Text) (ok : Bool) :
    (Work.mk (dirs.map .makeDir) ok).Confined base ↔ ∀ dir ∈ dirs, Below base dir := by
  unfold Work.Confined
  simp [LocalOp.path]

theorem mkpath_ne_nil {missing made : Nat} (h : (mkpath localPath missing made).2 = true) : localPath ≠ [] := by
  rintro rfl
  cases h

mutual

theorem downloadDirectoryRecursive_ok (localPath : Text) : (reply : DirReply) →
    (downloadDirectoryRecursive localPath reply).ok = reply.succeeds localPath
  | .dir missing made handle children => by
    unfold downloadDirectoryRecursive DirReply.succeeds
    cases hm : (mkpath localPath missing made).2 with
    | false => simp [hm]
    | true =>
      cases handle with
      | false => simp [hm]
      | true => simp [hm, Work.andThen_ok, downloadChildren_ok localPath children]

theorem downloadChildren_ok (localPath : Text) : (children : Listing) →
    (downloadChildren localPath children).ok = children.succeeds localPath
  | .done => by rw [downloadChildren, Listing.succeeds]
  | .file name reply rest => by
    unfold downloadChildren Listing.succeeds
    split
    · exact downloadChildren_ok localPath rest
    · rw [Work.andThen_ok, downloadFileInternal_ok, downloadChildren_ok localPath rest]
  | .dir name reply rest => by
    unfold downloadChildren Listing.succeeds
    split
    · exact downloadChildren_ok localPath rest
    · rw [Work.andThen_ok, downloadDirectoryRecursive_ok _ reply, downloadChildren_ok localPath rest]

end

mutual

theorem downloadDirectoryRecursive_confined (localPath : Text) : (reply : DirReply) →
    ((downloadDirectoryRecursive localPath reply).Confined base ↔ reply.StaysInside base localPath)
  | .dir missing made handle children => by
    unfold downloadDirectoryRecursive DirReply.StaysInside MakesInside
    cases hm : (mkpath localPath missing made).2 with
    | false => simp [hm, made_confined]
    | true =>
      cases handle with
      | false => simp [hm, made_confined]
      | true =>
        simp only [hm, not_true_eq_false, if_false, Work.confined_andThen, made_confined, forall_const]
        rw [downloadChildren_confined localPath (mkpath_ne_nil hm) children]

theorem downloadChildren_confined (localPath : Text) (hne : localPath ≠ []) : (children : Listing) →
    ((downloadChildren localPath children).Confined base ↔ children.StaysInside base localPath)
  | .done => by
    rw [downloadChildren, Listing.StaysInside]
    exact iff_true_intro (fun op hop => by cases hop)
  | .file name reply rest => by
    unfold downloadChildren Listing.StaysInside
    split
    · exact downloadChildren_confined localPath hne rest
    · rw [Work.confined_andThen, downloadFileInternal_ok, downloadFileInternal_confined,
        downloadChildren_confined localPath hne rest, Below, resolve_join hne]
  | .dir name reply rest => by
    unfold downloadChildren Listing.StaysInside
    split
    · exact downloadChildren_confined localPath hne rest
    · rw [Work.confined_andThen, downloadDirectoryRecursive_ok, downloadDirectoryRecursive_confined _ reply,
        downloadChildren_confined localPath hne rest]

end

theorem resolve_append_slash {path : Text} (h : path ≠ []) : resolve (path ++ ['/']) = resolve path := by
  rw [resolve_join h []]
  rfl

theorem resolve_rdropWhile (path : Text) (h : path.rdropWhile (· == '/') ≠ []) :
    resolve (path.rdropWhile (· == '/')) = resolve path := by
  induction path using List.reverseRecOn with
  | nil => rfl
  | append_singleton cs c ih =>
    rw [List.rdropWhile_concat] at h ⊢
    split
    next hc =>
      rw [if_pos hc] at h
      have hne : cs ≠ [] := by
        rintro rfl
        exact h rfl
      rw [ih h, eq_of_beq hc, resolve_append_slash hne]
    next => rfl

theorem resolve_slashes (cs : Text) (h : ∀ c ∈ cs, c = '/') : resolve ('/' :: cs) = resolve ['/'] := by
  induction cs using List.reverseRecOn with
  | nil => rfl
  | append_singleton cs c ih =>
    have hc : c = '/' := h c List.mem_concat_self
    have hcs := ih (fun d hd => h d (List.mem_append_left _ hd))
    rw [hc, ← List.cons_append, resolve_append_slash (List.cons_ne_nil _ _), hcs]

theorem resolve_chopSlashes (path : Text) : resolve (chopSlashes path) = resolve path := by
  unfold chopSlashes
  dsimp only
  split
  next h =>
    cases path with
    | nil => rfl
    | cons c cs =>
      have hall := List.rdropWhile_eq_nil_iff.mp h
      have hc : c = '/' := eq_of_beq (hall c List.mem_cons_self)
      rw [List.take_one, List.head?_cons, hc]
      exact (resolve_slashes cs (fun d hd => eq_of_beq (hall d (List.mem_cons_of_mem _ hd)))).symm
  next h => exact resolve_rdropWhile path h

mutual

/-- Names without slashes, and parents that are all there. -/
def DirReply.PlainNames : DirReply → Prop
  | .dir missing _ _ children => missing ≤ 1 ∧ children.PlainNames

def Listing.PlainNames : Listing → Prop
  | .done => True
  | .file name _ rest => '/' ∉ name ∧ rest.PlainNames
  | .dir name reply rest => '/' ∉ name ∧ reply.PlainNames ∧ rest.PlainNames

end

theorem makesInside_of_below {missing made : Nat} (hm : missing ≤ 1) (h : Below base localPath) :
    MakesInside base localPath missing made := by
  intro dir hdir
  unfold mkpath at hdir
  split at hdir
  · cases hdir
  · have hmem := List.mem_reverse.mp (List.mem_of_mem_take hdir)
    have hone := List.take_subset_take_left (mkpathChain localPath) hm hmem
    unfold mkpathChain at hone
    rw [List.take_succ_cons, List.take_zero, List.mem_singleton] at hone
    unfold Below
    rw [hone, resolve_chopSlashes]
    exact h

mutual

theorem DirReply.PlainNames.staysInside (localPath : Text) (h : Below base localPath) : (reply : DirReply) →
    reply.PlainNames → reply.StaysInside base localPath
  | .dir missing made handle children => by
    unfold DirReply.PlainNames DirReply.StaysInside
    rintro ⟨hm, hc⟩
    constructor
    · exact makesInside_of_below hm h
    · intro hmk _
      exact Listing.PlainNames.staysInside localPath (mkpath_ne_nil hmk) h children hc

theorem Listing.PlainNames.staysInside (localPath : Text) (hne : localPath ≠ []) (h : Below base localPath) :
    (children : Listing) → children.PlainNames → children.StaysInside base localPath
  | .done => by
    unfold Listing.StaysInside
    exact fun _ => trivial
  | .file name reply rest => by
    unfold Listing.PlainNames Listing.StaysInside
    rintro ⟨hn, hr⟩
    split
    · exact Listing.PlainNames.staysInside localPath hne h rest hr
    next hdots =>
      have hj := h.join hne ⟨hn, fun e => hdots (.inr e)⟩
      rw [Below, resolve_join hne] at hj
      exact ⟨fun _ => hj, fun _ => Listing.PlainNames.staysInside localPath hne h rest hr⟩
  | .dir name reply rest => by
    unfold Listing.PlainNames Listing.StaysInside
    rintro ⟨hn, hd, hr⟩
    split
    · exact Listing.PlainNames.staysInside localPath hne h rest hr
    next hdots =>
      have hj := h.join hne ⟨hn, fun e => hdots (.inr e)⟩
      exact ⟨DirReply.PlainNames.staysInside _ hj reply hd,
        fun _ => Listing.PlainNames.staysInside localPath hne h rest hr⟩

end

end LvdTerm.Sftp
