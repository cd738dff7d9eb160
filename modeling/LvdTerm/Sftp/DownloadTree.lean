import LvdTerm.Sftp.FailedTransfer
import LvdTerm.Sftp.Trees

/-!
# Downloading a whole directory

The answers a download gets when the server holds a tree and the disk is what the download has
made it so far (`answerEntries`), under any schedule of `Faults`. A download that reports
success has copied every entry it was told of; whether that was all of them depends on
`readdir` and on the flush at close, whose errors nobody sees (`Complete`).
-/
namespace LvdTerm.Sftp

open Lib.Paths

/-- What fails, by the place an entry has on the local disk. -/
structure Faults where
  opendir : Place → Bool
  /-- `readdir` fails after this many entries; `none`: it reaches the end. -/
  readdir : Place → Option Nat
  remoteOpens : Place → Bool
  localOpens : Place → Bool
  /-- The sizes of the reads, and whether the local file takes each of them. -/
  reads : Place → List (Nat × Bool)
  readFails : Place → Bool
  /-- How many directories `mkpath` manages to make. -/
  makes : Place → Nat

def cutChunks : List (Nat × Bool) → List UInt8 → List Chunk × List UInt8
  | [], data => ([], data)
  | (n, written) :: reads, data =>
    if data = [] then ([], [])
    else
      let (chunks, rest) := cutChunks reads (data.drop n)
      (⟨data.take n, written⟩ :: chunks, rest)

/-- The server has a file with this data; a read that does not get to the end has failed. -/
def Faults.fileReply (f : Faults) (place : Place) (data : List UInt8) : FileReply :=
  let (chunks, rest) := cutChunks (f.reads place) data
  ⟨f.remoteOpens place, f.localOpens place, chunks, f.readFails place || !rest.isEmpty⟩

def Disk.isFile (fs : Disk) (place : Place) : Bool :=
  match fs place with
  | some (.file _) => true
  | _ => false

/-- How many of the directories on the way are missing, and how many get made; none where
a file is in the way. -/
def Faults.mkpathReply (f : Faults) (fs : Disk) (path : Text) : Nat × Nat :=
  if (mkpathChain path).any (fun dir => fs.isFile (resolve dir)) then (1, 0)
  else (((mkpathChain path).takeWhile (fun dir => fs (resolve dir) ≠ some .dir)).length, f.makes (resolve path))

/-- The directories that `mkpath` makes. -/
def Faults.madeDirs (f : Faults) (fs : Disk) (path : Text) : List Text :=
  (mkpath path (f.mkpathReply fs path).1 (f.mkpathReply fs path).2).1

def Disk.makeDirs (st : Storage) (fs : Disk) (dirs : List Text) : Disk :=
  (dirs.map LocalOp.makeDir).foldl (LocalOp.apply st) fs

def answerDir (f : Faults) (st : Storage) (fs : Disk) (path : Text) (children : Disk → Listing) : DirReply :=
  .dir (f.mkpathReply fs path).1 (f.mkpathReply fs path).2 (f.opendir (resolve path))
    (children (fs.makeDirs st (f.madeDirs fs path)))

/-- `limit` is what `readdir` still lists; `fs` is the disk when the entry's turn comes. -/
def answerEntries (f : Faults) (st : Storage) (dir : Text) (fs : Disk) (limit : Option Nat) : Entries → Listing
  | .nil => .done
  | .cons name (.file data) rest =>
    if limit = some 0 then .done
    else
      let reply := f.fileReply (resolve (dir ++ '/' :: name)) data
      .file name reply
        (answerEntries f st dir ((downloadFileInternal (dir ++ '/' :: name) reply).run st fs) (limit.map (· - 1)) rest)
  | .cons name (.dir sub) rest =>
    if limit = some 0 then .done
    else
      let reply := answerDir f st fs (dir ++ '/' :: name)
        (fun fs => answerEntries f st (dir ++ '/' :: name) fs (f.readdir (resolve (dir ++ '/' :: name))) sub)
      .dir name reply
        (answerEntries f st dir ((downloadDirectoryRecursive (dir ++ '/' :: name) reply).run st fs)
          (limit.map (· - 1)) rest)

def Directory.answer (d : Directory) (f : Faults) (st : Storage) (fs : Disk) (localPath : Text) : DirReply :=
  answerDir f st fs localPath (fun fs => answerEntries f st localPath fs (f.readdir (resolve localPath)) d.entries)

/-- Each listing reached its end, or what it left out was on the disk already; and all that was
written to a file is there after it was closed. -/
def Entries.Complete (f : Faults) (st : Storage) (fs : Disk) (place : Place) (limit : Option Nat) : Entries → Prop
  | .nil => True
  | .cons name (.file data) rest =>
    if limit = some 0 then (Entries.cons name (.file data) rest).HeldIn fs place
    else st.kept (place.child name) data = data ∧ rest.Complete f st fs place (limit.map (· - 1))
  | .cons name (.dir sub) rest =>
    if limit = some 0 then (Entries.cons name (.dir sub) rest).HeldIn fs place
    else sub.Complete f st fs (place.child name) (f.readdir (place.child name)) ∧
      rest.Complete f st fs place (limit.map (· - 1))

/-! ## mkpath below a directory that is there -/

/-- The prefixes of `pre ++ path` that end before a slash of `path`. -/
def slashPrefixes (pre : Text) : Text → List Text
  | [] => []
  | c :: cs => (if pre ≠ [] ∧ c = '/' then [pre] else []) ++ slashPrefixes (pre ++ [c]) cs

theorem zip_prefixes (path pre : Text) :
    ((path.inits.zip path.tails).filterMap fun (before, after) =>
      if pre ++ before ≠ [] ∧ after.head? = some '/' then some (pre ++ before) else none) = slashPrefixes pre path := by
  induction path generalizing pre with
  | nil => simp [slashPrefixes]
  | cons c cs ih =>
    have h := ih (pre ++ [c])
    simp only [List.append_assoc, List.singleton_append] at h
    rw [slashPrefixes, ← h]
    simp only [List.inits_cons, List.tails_cons, List.zip_cons_cons, List.filterMap_cons, List.zip_map_left,
      List.filterMap_map, List.append_nil, List.head?_cons, Option.some.injEq, Function.comp_def]
    by_cases hc : pre ≠ [] ∧ c = '/'
    · rw [if_pos hc, if_pos hc]
      rfl
    · rw [if_neg hc, if_neg hc]
      rfl

theorem slashPrefixes_name (name pre : Text) (h : '/' ∉ name) : slashPrefixes pre name = [] := by
  induction name generalizing pre with
  | nil => rfl
  | cons c cs ih =>
    rw [List.mem_cons, not_or] at h
    rw [slashPrefixes, ih _ h.2, if_neg (fun hc => h.1 hc.2.symm)]
    rfl

theorem slashPrefixes_join (dir name pre : Text) (hd : pre ++ dir ≠ []) (h : '/' ∉ name) :
    slashPrefixes pre (dir ++ '/' :: name) = slashPrefixes pre dir ++ [pre ++ dir] := by
  induction dir generalizing pre with
  | nil =>
    rw [List.append_nil] at hd ⊢
    have hrest := slashPrefixes_name name (pre ++ ['/']) h
    calc slashPrefixes pre ('/' :: name)
        = (if pre ≠ [] ∧ '/' = '/' then [pre] else []) ++ slashPrefixes (pre ++ ['/']) name := rfl
      _ = [pre] := by rw [if_pos ⟨hd, rfl⟩, hrest, List.append_nil]
  | cons c cs ih =>
    have hne : (pre ++ [c]) ++ cs ≠ [] := by simp
    rw [List.cons_append, slashPrefixes, slashPrefixes, ih _ hne, List.append_assoc, List.append_assoc]
    rfl

theorem parents_join {dir name : Text} (hd : dir ≠ []) (h : '/' ∉ name) :
    parents (dir ++ '/' :: name) = dir :: parents dir := by
  have hall (path : Text) : parents path = (slashPrefixes [] path).reverse := by
    unfold parents
    rw [← zip_prefixes]
    rfl
  rw [hall, hall, slashPrefixes_join dir name [] hd h, List.reverse_append]
  rfl

theorem chopSlashes_join {dir name : Text} (h : '/' ∉ name) (hn : name ≠ []) :
    chopSlashes (dir ++ '/' :: name) = dir ++ '/' :: name := by
  have hlast : (dir ++ '/' :: name).rdropWhile (· == '/') = dir ++ '/' :: name := by
    rw [List.rdropWhile_eq_self_iff]
    intro hl hc
    have hg : (dir ++ '/' :: name).getLast hl = name.getLast hn := by
      rw [List.getLast_append_of_ne_nil hl (List.cons_ne_nil _ _), List.getLast_cons hn]
    rw [hg] at hc
    have hm := List.getLast_mem hn
    rw [eq_of_beq hc] at hm
    exact h hm
  unfold chopSlashes
  simp only [hlast]
  rw [if_neg (by simp)]

variable {f : Faults} {st : Storage} {fs : Disk} {dir name path : Text}

theorem mkpathReply_child (hd : dir ≠ []) (hn : ValidName name) (hdir : fs (resolve dir) = some .dir) :
    (f.mkpathReply fs (dir ++ '/' :: name)).1 ≤ 1 := by
  unfold Faults.mkpathReply
  split
  · exact Nat.le_refl 1
  · unfold mkpathChain
    rw [chopSlashes_join hn.plain.1 hn.ne_nil, parents_join hd hn.plain.1, List.takeWhile_cons, List.takeWhile_cons]
    simp only [hdir, ne_eq, not_true_eq_false, decide_false, Bool.false_eq_true, if_false]
    split
    · exact Nat.le_refl 1
    · exact Nat.zero_le 1

theorem madeDirs_child (hd : dir ≠ []) (hn : ValidName name) (hdir : fs (resolve dir) = some .dir) :
    ∀ d ∈ f.madeDirs fs (dir ++ '/' :: name), d = dir ++ '/' :: name := by
  intro d hmem
  unfold Faults.madeDirs mkpath at hmem
  split at hmem
  · cases hmem
  · have htake := List.mem_reverse.mp (List.mem_of_mem_take hmem)
    have hone := List.take_subset_take_left _ (mkpathReply_child (f := f) hd hn hdir) htake
    unfold mkpathChain at hone
    rw [chopSlashes_join hn.plain.1 hn.ne_nil, List.take_succ_cons, List.take_zero, List.mem_singleton] at hone
    exact hone

theorem makeDirs_other {dirs : List Text} {q : Place} (h : ∀ d ∈ dirs, resolve d ≠ q) : fs.makeDirs st dirs q = fs q := by
  apply foldl_other
  intro op hop
  obtain ⟨d, hd, rfl⟩ := List.mem_map.mp hop
  exact h d hd

theorem makeDirs_dir {dirs : List Text} {q : Place} (h : fs q = some .dir ∨ ∃ d ∈ dirs, resolve d = q) :
    fs.makeDirs st dirs q = some .dir := by
  induction dirs generalizing fs with
  | nil =>
    obtain h | ⟨d, hd, _⟩ := h
    · exact h
    · cases hd
  | cons d ds ih =>
    apply ih
    by_cases hq : resolve d = q
    · left
      rw [← hq]
      exact Function.update_self _ _ _
    · obtain h | ⟨d', hd', hq'⟩ := h
      · left
        rw [← h]
        exact Function.update_of_ne (Ne.symm hq) _ _
      · obtain rfl | hd' := List.mem_cons.mp hd'
        · exact absurd hq' hq
        · exact .inr ⟨d', hd', hq'⟩

/-- Once `mkpath` has succeeded the directory is there. -/
theorem mkpath_made (h : (mkpath path (f.mkpathReply fs path).1 (f.mkpathReply fs path).2).2 = true) :
    fs.makeDirs st (f.madeDirs fs path) (resolve path) = some .dir := by
  apply makeDirs_dir
  unfold Faults.madeDirs
  have hne := mkpath_ne_nil h
  unfold mkpath at h ⊢
  split at h
  · cases h
  next hlen =>
    rw [if_neg hlen]
    have hle := of_decide_eq_true h
    by_cases hfile : (mkpathChain path).any (fun dir => fs.isFile (resolve dir)) = true
    · simp only [Faults.mkpathReply, if_pos hfile] at hle
      omega
    · simp only [Faults.mkpathReply, if_neg hfile] at hle ⊢
      by_cases hdir : fs (resolve (chopSlashes path)) = some .dir
      · left
        rw [← hdir, resolve_chopSlashes]
      · right
        refine ⟨chopSlashes path, ?_, resolve_chopSlashes path⟩
        rw [List.take_of_length_le (by rw [List.length_reverse, List.length_take]; omega), List.mem_reverse]
        unfold mkpathChain
        rw [List.takeWhile_cons, if_pos (decide_eq_true hdir), List.length_cons, List.take_succ_cons]
        exact List.mem_cons_self

/-! ## What a download changes -/

theorem downloadFile_other {q : Place} {reply : FileReply} (h : resolve path ≠ q) :
    (downloadFileInternal path reply).run st fs q = fs q := by
  apply run_other
  intro op hop
  rw [downloadFileInternal_path reply op hop]
  exact h

theorem answerDir_run (children : Disk → Listing) :
    (downloadDirectoryRecursive path (answerDir f st fs path children)).run st fs =
      if (mkpath path (f.mkpathReply fs path).1 (f.mkpathReply fs path).2).2 && f.opendir (resolve path) then
        (downloadChildren path (children (fs.makeDirs st (f.madeDirs fs path)))).run st (fs.makeDirs st (f.madeDirs fs path))
      else fs.makeDirs st (f.madeDirs fs path) := by
  unfold answerDir downloadDirectoryRecursive
  dsimp only
  cases hm : (mkpath path (f.mkpathReply fs path).1 (f.mkpathReply fs path).2).2 with
  | false => rfl
  | true =>
    cases ho : f.opendir (resolve path) with
    | false => rfl
    | true =>
      rw [if_neg (not_not.mpr rfl), if_neg (not_not.mpr rfl), run_andThen]
      rfl

theorem answerDir_other {children : Disk → Listing} (hd : dir ≠ []) (hn : ValidName name)
    (hdir : fs (resolve dir) = some .dir)
    (hc : ∀ fs' : Disk, fs' (resolve (dir ++ '/' :: name)) = some .dir → ∀ q, ¬ (resolve (dir ++ '/' :: name)).Under q →
      (downloadChildren (dir ++ '/' :: name) (children fs')).run st fs' q = fs' q)
    {q : Place} (hq : ¬ (resolve (dir ++ '/' :: name)).Under q) :
    (downloadDirectoryRecursive (dir ++ '/' :: name) (answerDir f st fs (dir ++ '/' :: name) children)).run st fs q = fs q := by
  have hmade : fs.makeDirs st (f.madeDirs fs (dir ++ '/' :: name)) q = fs q := by
    apply makeDirs_other
    intro d hmem he
    rw [madeDirs_child hd hn hdir d hmem] at he
    apply hq
    rw [he]
    exact Place.Under.refl q
  rw [answerDir_run]
  split
  next hok =>
    rw [hc _ (mkpath_made (Bool.and_eq_true_iff.mp hok).1) q hq]
    exact hmade
  next => exact hmade

/-- Only what is below the entries changes. -/
theorem answerEntries_other : (es : Entries) → ∀ (dir : Text) (fs : Disk) (limit : Option Nat) (q : Place),
    es.WellFormed → dir ≠ [] → fs (resolve dir) = some .dir → (∀ n ∈ es.names, ¬ ((resolve dir).child n).Under q) →
    (downloadChildren dir (answerEntries f st dir fs limit es)).run st fs q = fs q
  | .nil, _, _, _, _, _, _, _, _ => by
    unfold answerEntries
    rw [downloadChildren]
    rfl
  | .cons name (.file data) rest, dir, fs, limit, q, hw, hd, hdir, hq => by
    obtain ⟨hn, _, _, hrest⟩ := hw
    have hchild := hn.resolve_join hd
    have hother : ∀ q, ¬ ((resolve dir).child name).Under q →
        (downloadFileInternal (dir ++ '/' :: name) (f.fileReply (resolve (dir ++ '/' :: name)) data)).run st fs q = fs q := by
      intro q hq
      apply downloadFile_other
      intro he
      rw [← hchild, he] at hq
      exact hq (Place.Under.refl q)
    unfold answerEntries
    split
    · rw [downloadChildren]
      rfl
    · have hdir' := hother (resolve dir) (Place.child_not_under _ _)
      rw [downloadChildren, if_neg (not_or.mpr ⟨hn.ne_dot, hn.plain.2⟩), run_andThen]
      split
      · rw [answerEntries_other rest dir _ _ q hrest hd (hdir'.trans hdir) (fun n hmem => hq n (List.mem_cons_of_mem name hmem))]
        exact hother q (hq name List.mem_cons_self)
      · exact hother q (hq name List.mem_cons_self)
  | .cons name (.dir sub) rest, dir, fs, limit, q, hw, hd, hdir, hq => by
    obtain ⟨hn, _, hsub, hrest⟩ := hw
    have hchild := hn.resolve_join hd
    unfold answerEntries
    split
    · rw [downloadChildren]
      rfl
    · have hother : ∀ q, ¬ ((resolve dir).child name).Under q →
          (downloadDirectoryRecursive (dir ++ '/' :: name) (answerDir f st fs (dir ++ '/' :: name) (fun fs =>
            answerEntries f st (dir ++ '/' :: name) fs (f.readdir (resolve (dir ++ '/' :: name))) sub))).run st fs q = fs q := by
        intro q hq
        rw [← hchild] at hq
        apply answerDir_other hd hn hdir _ hq
        intro fs' hfs' q hq
        apply answerEntries_other sub (dir ++ '/' :: name) fs' _ q hsub (by simp) hfs'
        intro n hmem hu
        exact hq (((Entries.valid_of_mem hsub hmem).under_child _).trans hu)
      have hdir' := hother (resolve dir) (Place.child_not_under _ _)
      rw [downloadChildren, if_neg (not_or.mpr ⟨hn.ne_dot, hn.plain.2⟩), run_andThen]
      split
      · rw [answerEntries_other rest dir _ _ q hrest hd (hdir'.trans hdir) (fun n hmem => hq n (List.mem_cons_of_mem name hmem))]
        exact hother q (hq name List.mem_cons_self)
      · exact hother q (hq name List.mem_cons_self)

/-! ## What a successful download has copied -/

theorem cutChunks_all (reads : List (Nat × Bool)) (data : List UInt8)
    (hw : (cutChunks reads data).1.all (·.written) = true) (hr : (cutChunks reads data).2 = []) :
    (deliveredChunks (cutChunks reads data).1).flatten = data := by
  induction reads generalizing data with
  | nil => exact hr.symm
  | cons read reads ih =>
    obtain ⟨n, written⟩ := read
    unfold cutChunks at hw hr ⊢
    by_cases hd : data = []
    · rw [if_pos hd, hd]
      rfl
    · rw [if_neg hd] at hw hr ⊢
      simp only [List.all_cons, Bool.and_eq_true] at hw
      simp only [deliveredChunks, hw.1, if_true, List.flatten_cons]
      rw [ih (data.drop n) hw.2 hr, List.take_append_drop]

theorem fileReply_delivered {place : Place} {data : List UInt8} (h : (f.fileReply place data).succeeds = true) :
    (deliveredChunks (f.fileReply place data).chunks).flatten = data := by
  unfold FileReply.succeeds at h
  simp only [Bool.and_eq_true, Bool.not_eq_true'] at h
  obtain ⟨⟨_, hw⟩, hfail⟩ := h
  unfold Faults.fileReply at *
  simp only [Bool.or_eq_false_iff, Bool.not_eq_false', List.isEmpty_iff] at hfail
  exact cutChunks_all _ data hw hfail.2

/-- A file that was downloaded is there, as far as it was kept. -/
theorem downloadFile_held {data : List UInt8}
    (h : (downloadFileInternal path (f.fileReply (resolve path) data)).ok = true) :
    (downloadFileInternal path (f.fileReply (resolve path) data)).run st fs (resolve path) =
      some (.file (st.kept (resolve path) data)) := by
  rw [downloadFileInternal_ok] at h
  have hopens : (f.fileReply (resolve path) data).opens = true := by
    unfold FileReply.succeeds at h
    simp only [Bool.and_eq_true] at h
    exact h.1.1
  rw [downloadFileInternal_eq, if_pos hopens, intoFile_run, h, fileReply_delivered h]
  rfl

theorem andThen_ok_iff (w next : Work) : (w.andThen next).ok = true ↔ w.ok = true ∧ next.ok = true := by
  rw [Work.andThen_ok, Bool.and_eq_true]

theorem answerDir_ok {children : Disk → Listing}
    (h : (downloadDirectoryRecursive path (answerDir f st fs path children)).ok = true) :
    (mkpath path (f.mkpathReply fs path).1 (f.mkpathReply fs path).2).2 = true ∧ f.opendir (resolve path) = true ∧
      (downloadChildren path (children (fs.makeDirs st (f.madeDirs fs path)))).ok = true := by
  unfold answerDir downloadDirectoryRecursive at h
  dsimp only at h
  split at h
  · cases h
  next hm =>
    split at h
    · cases h
    next ho => exact ⟨not_not.mp hm, not_not.mp ho, ((andThen_ok_iff _ _).mp h).2⟩

/-- A directory that was downloaded is there, with what its listing told of. -/
theorem answerDir_held {sub : Entries} {fs₀ : Disk} {limit : Option Nat} (hsub : sub.WellFormed)
    (hagree : sub.AgreeIn (fs.makeDirs st (f.madeDirs fs path)) fs₀ (resolve path))
    (hspec : ∀ fs' : Disk, fs' (resolve path) = some .dir → sub.AgreeIn fs' fs₀ (resolve path) →
      (downloadChildren path (answerEntries f st path fs' limit sub)).ok = true →
      (sub.HeldIn ((downloadChildren path (answerEntries f st path fs' limit sub)).run st fs') (resolve path) ↔
        sub.Complete f st fs₀ (resolve path) limit))
    (hok : (downloadDirectoryRecursive path (answerDir f st fs path (fun fs => answerEntries f st path fs limit sub))).ok = true) :
    (Tree.dir sub).HeldAt ((downloadDirectoryRecursive path
        (answerDir f st fs path (fun fs => answerEntries f st path fs limit sub))).run st fs) (resolve path) ↔
      sub.Complete f st fs₀ (resolve path) limit := by
  obtain ⟨hm, ho, hc⟩ := answerDir_ok hok
  have hmade := @mkpath_made f st _ _ hm
  have hsame := @answerEntries_other f st sub path _ limit (resolve path) hsub (mkpath_ne_nil hm) hmade
    (fun n _ => Place.child_not_under _ n)
  rw [answerDir_run, hm, ho]
  simp only [Bool.and_self, if_true]
  unfold Tree.HeldAt
  rw [hsame, hspec _ hmade hagree hc]
  exact and_iff_right hmade

/-- The listing's entries are all there exactly where it was complete. -/
theorem answerEntries_held : (es : Entries) → ∀ (dir : Text) (fs fs₀ : Disk) (limit : Option Nat),
    es.WellFormed → dir ≠ [] → fs (resolve dir) = some .dir → es.AgreeIn fs fs₀ (resolve dir) →
    (downloadChildren dir (answerEntries f st dir fs limit es)).ok = true →
    (es.HeldIn ((downloadChildren dir (answerEntries f st dir fs limit es)).run st fs) (resolve dir) ↔
      es.Complete f st fs₀ (resolve dir) limit)
  | .nil, _, _, _, _, _, _, _, _, _ => by
    unfold Entries.HeldIn Entries.Complete
    exact Iff.rfl
  | .cons name (.file data) rest, dir, fs, fs₀, limit, hw, hd, hdir, hagree, hok => by
    obtain ⟨hn, hfresh, _, hrest⟩ := id hw
    have hchild := hn.resolve_join hd
    unfold answerEntries at hok ⊢
    unfold Entries.Complete
    split
    · rw [downloadChildren]
      exact Entries.heldIn_congr _ _ hw hagree
    next hl =>
      rw [if_neg hl, downloadChildren, if_neg (not_or.mpr ⟨hn.ne_dot, hn.plain.2⟩), andThen_ok_iff] at hok
      rw [downloadChildren, if_neg (not_or.mpr ⟨hn.ne_dot, hn.plain.2⟩), run_andThen, if_pos hok.1]
      have hother : ∀ q, ¬ ((resolve dir).child name).Under q →
          (downloadFileInternal (dir ++ '/' :: name) (f.fileReply (resolve (dir ++ '/' :: name)) data)).run st fs q = fs q := by
        intro q hq
        apply downloadFile_other
        intro he
        rw [← hchild, he] at hq
        exact hq (Place.Under.refl q)
      have hdir' := (hother (resolve dir) (Place.child_not_under _ _)).trans hdir
      have hagree' := fun n hmem q hq => (Entries.agreeIn_of_child hfresh hother n hmem q hq).trans (hagree.rest n hmem q hq)
      have hrestHeld := answerEntries_held rest dir _ fs₀ (limit.map (· - 1)) hrest hd hdir' hagree' hok.2
      have hfile := @answerEntries_other f st rest dir _ (limit.map (· - 1)) ((resolve dir).child name)
        hrest hd hdir' (Entries.siblings_not_under hfresh (Place.Under.refl _))
      have hdata := @downloadFile_held f st fs _ _ hok.1
      rw [hchild] at hdata hfile hrestHeld ⊢
      unfold Entries.HeldIn Tree.HeldAt
      rw [hrestHeld, hfile, hdata, Option.some.injEq, Node.file.injEq]
  | .cons name (.dir sub) rest, dir, fs, fs₀, limit, hw, hd, hdir, hagree, hok => by
    obtain ⟨hn, hfresh, hsub, hrest⟩ := id hw
    have hchild := hn.resolve_join hd
    unfold answerEntries at hok ⊢
    unfold Entries.Complete
    split
    · rw [downloadChildren]
      exact Entries.heldIn_congr _ _ hw hagree
    next hl =>
      rw [if_neg hl, downloadChildren, if_neg (not_or.mpr ⟨hn.ne_dot, hn.plain.2⟩), andThen_ok_iff] at hok
      rw [downloadChildren, if_neg (not_or.mpr ⟨hn.ne_dot, hn.plain.2⟩), run_andThen, if_pos hok.1]
      have hother : ∀ q, ¬ ((resolve dir).child name).Under q →
          (downloadDirectoryRecursive (dir ++ '/' :: name) (answerDir f st fs (dir ++ '/' :: name) (fun fs =>
            answerEntries f st (dir ++ '/' :: name) fs (f.readdir (resolve (dir ++ '/' :: name))) sub))).run st fs q = fs q := by
        intro q hq
        rw [← hchild] at hq
        apply answerDir_other hd hn hdir _ hq
        intro fs' hfs' q hq
        apply answerEntries_other sub (dir ++ '/' :: name) fs' _ q hsub (by simp) hfs'
        intro n hmem hu
        exact hq (((Entries.valid_of_mem hsub hmem).under_child _).trans hu)
      have hdir' := (hother (resolve dir) (Place.child_not_under _ _)).trans hdir
      have hagree' := fun n hmem q hq => (Entries.agreeIn_of_child hfresh hother n hmem q hq).trans (hagree.rest n hmem q hq)
      have hrestHeld := answerEntries_held rest dir _ fs₀ (limit.map (· - 1)) hrest hd hdir' hagree' hok.2
      have hagreeSub : sub.AgreeIn (fs.makeDirs st (f.madeDirs fs (dir ++ '/' :: name))) fs₀ (resolve (dir ++ '/' :: name)) := by
        intro n hmem q hq
        have hne : ∀ d ∈ f.madeDirs fs (dir ++ '/' :: name), resolve d ≠ q := by
          intro d hd' he
          rw [madeDirs_child hd hn hdir d hd'] at he
          rw [← he] at hq
          exact Place.child_not_under _ _ hq
        rw [makeDirs_other hne]
        apply hagree name List.mem_cons_self
        rw [hchild] at hq
        exact ((Entries.valid_of_mem hsub hmem).under_child _).trans hq
      have hsubHeld := answerDir_held hsub hagreeSub (fun fs' hfs' ha hc =>
        answerEntries_held sub (dir ++ '/' :: name) fs' fs₀ _ hsub (by simp) hfs' ha hc) hok.1
      have hframe := Tree.heldAt_congr (.dir sub) ((resolve dir).child name) hsub (fun q hq =>
        @answerEntries_other f st rest dir _ (limit.map (· - 1)) q hrest hd hdir' (Entries.siblings_not_under hfresh hq))
      rw [hchild] at hsubHeld hrestHeld hframe ⊢
      rw [Entries.HeldIn, hrestHeld, hframe, hsubHeld]

/-! ## The whole download -/

/-- The answers to a download of the directory into `localPath`. -/
def Directory.download (d : Directory) (f : Faults) (st : Storage) (fs : Disk) (connected : Bool) (localPath : Text) : Work :=
  downloadDirectory connected localPath (d.answer f st fs localPath)

/-- Reported success means that the whole directory is there. -/
def CompleteOnSuccess (d : Directory) (f : Faults) (st : Storage) (fs : Disk) (connected : Bool) (localPath : Text) : Prop :=
  (d.download f st fs connected localPath).ok = true →
    (Tree.dir d.entries).HeldAt ((d.download f st fs connected localPath).run st fs) (resolve localPath)

/-- Nothing fails except `readdir`, before it has listed anything. -/
def listingCut : Faults where
  opendir _ := true
  readdir _ := some 0
  remoteOpens _ := true
  localOpens _ := true
  reads _ := [(1, true)]
  readFails _ := false
  makes _ := 1

def oneFile : Directory := ⟨.cons ['f'] (.file [1]) .nil, ⟨⟨by decide, by decide⟩, by decide, by decide⟩, List.not_mem_nil, trivial, trivial⟩

end LvdTerm.Sftp
