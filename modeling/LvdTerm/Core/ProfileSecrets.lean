import LvdTerm.Core.ProfileStore
import LvdTerm.Core.MasterKey
import Mathlib.Data.List.Forall2

/-!
# ProfileStore: what becomes of the secrets

Every save writes every profile again, so a secret on disk is as good as the last load that
read it and the save that sealed it. The audit follows each profile through a run with the
plaintext its stored secret had when it was last written on purpose (`SecretEntry`).
`SecretsKept` says that the file still decrypts to these under the original key; it holds in
every run whose saves find the secret read back and seal it with that key (`Resealed`).
-/
namespace LvdTerm.Core

open Lib Lib.Runs

/-! ## Secrets in memory and on disk -/

/-- The secret of a slot; only the member that the type selects counts. -/
def ConnectionProfile.secret (p : ConnectionProfile) (slot : Slot) : QString :=
  match p.type, slot with
  | .ssh, .password => p.ssh.password
  | .ssh, .passphrase => p.ssh.passphrase
  | .vnc, .password => p.vnc.password
  | .rdp, .password => p.rdp.password
  | _, _ => []

def storedText (o : QJsonObject) (slot : Slot) : QString :=
  match typeFromString (o.value "type").toString, slot with
  | .ssh, .password => (QJsonObject.value (o.value "ssh").toObject "passwordProtected").toString
  | .ssh, .passphrase => (QJsonObject.value (o.value "ssh").toObject "passphraseProtected").toString
  | .vnc, .password => (QJsonObject.value (o.value "vnc").toObject "passwordProtected").toString
  | .rdp, .password => (QJsonObject.value (o.value "rdp").toObject "passwordProtected").toString
  | _, _ => []

/-- What a stored secret decrypts to under a key. -/
def storedPlaintext (pl : Platform) (key : QByteArray) (o : QJsonObject) (slot : Slot) : QByteArray :=
  SecretCall.unprotect pl.gcm ⟨key, none⟩ (Base64.decode (toLatin1 (storedText o slot)))

theorem secret_fromJson (pl : Platform) (calls : Slot → SecretCall) (newId : QUuid) (o : QJsonObject) (slot : Slot) :
    (ConnectionProfile.fromJson pl calls newId o).secret slot = unprotectFromBase64 pl (calls slot) (storedText o slot) := by
  unfold ConnectionProfile.fromJson storedText
  dsimp only
  generalize typeFromString (o.value "type").toString = type
  cases type <;> cases slot <;> rfl

theorem storedText_toJson (pl : Platform) (calls : Slot → SecretCall) (p : ConnectionProfile) (slot : Slot) :
    storedText (p.toJson pl calls) slot = protectToBase64 pl (calls slot) (p.secret slot) := by
  have htype : QJsonObject.value (p.toJson pl calls) "type" = .string (typeToString p.type) := rfl
  unfold storedText
  rw [htype]
  simp only [QJsonValue.toString, typeFromString_toString]
  unfold ConnectionProfile.secret ConnectionProfile.toJson ConnectionProfile.member
  cases p.type <;> cases slot <;> rfl

theorem toLatin1_fromLatin1 (bytes : QByteArray) : toLatin1 (fromLatin1 bytes) = bytes := by
  have hbyte : ∀ b : UInt8, (if (Char.ofNat b.toNat).toNat < 256 then UInt8.ofNat (Char.ofNat b.toNat).toNat else 63) = b := by
    intro b
    have hall : ∀ n : Fin 256, (if (Char.ofNat n.val).toNat < 256 then UInt8.ofNat (Char.ofNat n.val).toNat else 63) =
      UInt8.ofNat n.val := by decide +kernel
    have h := hall ⟨b.toNat, b.toNat_lt⟩
    rw [h, UInt8.ofNat_toNat]
  unfold toLatin1 fromLatin1
  rw [List.map_map]
  exact (List.map_congr_left (fun b _ => hbyte b)).trans (List.map_id bytes)

/-! ## One call -/

/-- The call seals the plaintext with the original key. -/
def SealsUnder (pl : Platform) (key : QByteArray) (call : SecretCall) (plaintext : QByteArray) : Prop :=
  call.key = key ∧ call.protect pl.gcm plaintext ≠ []

/-- The call opens a stored text to the plaintext, and that is a text. -/
def ReadsBack (pl : Platform) (call : SecretCall) (text : QString) (plaintext : QByteArray) : Prop :=
  call.unprotect pl.gcm (Base64.decode (toLatin1 text)) = plaintext ∧ pl.toUtf8 (pl.fromUtf8 plaintext) = plaintext

instance (pl : Platform) (call : SecretCall) (text : QString) (plaintext : QByteArray) :
    Decidable (ReadsBack pl call text plaintext) := by
  unfold ReadsBack
  infer_instance

variable {pl : Platform} {key : QByteArray}

theorem unprotect_protect {call : SecretCall} {plaintext : QByteArray} (h : SealsUnder pl key call plaintext) :
    SecretCall.unprotect pl.gcm ⟨key, none⟩ (call.protect pl.gcm plaintext) = plaintext := by
  obtain ⟨rfl, hne⟩ := h
  unfold SecretCall.unprotect
  rw [if_neg hne]
  unfold SecretCall.protect at hne ⊢
  split at hne
  · exact absurd rfl hne
  next hp =>
    split at hne
    · exact absurd rfl hne
    next hk =>
      rw [if_neg hp, if_neg hk, if_neg hk]
      exact aesGcmDecrypt_encrypt pl.gcm call.iv call.key plaintext hne

/-- A secret that is sealed with the original key decrypts under it. -/
theorem storedPlaintext_toJson {calls : Slot → SecretCall} {p : ConnectionProfile} {slot : Slot}
    (h : SealsUnder pl key (calls slot) (pl.toUtf8 (p.secret slot))) :
    storedPlaintext pl key (p.toJson pl calls) slot = pl.toUtf8 (p.secret slot) := by
  have hne : p.secret slot ≠ [] := by
    intro he
    apply h.2
    rw [he, pl.toUtf8_nil]
    rfl
  unfold storedPlaintext
  rw [storedText_toJson, protectToBase64, if_neg hne, toLatin1_fromLatin1, Base64.decode_encode]
  exact unprotect_protect h

theorem secret_of_readsBack {calls : Slot → SecretCall} {newId : QUuid} {o : QJsonObject} {slot : Slot}
    {plaintext : QByteArray} (hne : plaintext ≠ []) (h : ReadsBack pl (calls slot) (storedText o slot) plaintext) :
    pl.toUtf8 ((ConnectionProfile.fromJson pl calls newId o).secret slot) = plaintext := by
  rw [secret_fromJson, unprotectFromBase64]
  split
  next he =>
    rw [he] at h
    exact absurd h.1.symm hne
  next =>
    rw [h.1]
    exact h.2

/-! ## The audit -/

/-- What is known of the secrets of one profile. -/
structure SecretEntry where
  /-- What its stored secret decrypted to when it came into the file; empty where there was none. -/
  plaintext : Slot → QByteArray
  /-- The last load read it back, or it has been in memory since. -/
  readBack : Slot → Bool

def SecretEntry.OnDisk (pl : Platform) (key : QByteArray) (o : QJsonObject) (e : SecretEntry) : Prop :=
  ∀ slot, e.plaintext slot ≠ [] → storedPlaintext pl key o slot = e.plaintext slot

def SecretEntry.InMemory (pl : Platform) (p : ConnectionProfile) (e : SecretEntry) : Prop :=
  ∀ slot, e.plaintext slot ≠ [] → e.readBack slot = true → pl.toUtf8 (p.secret slot) = e.plaintext slot

def SecretEntry.ofObject (pl : Platform) (key : QByteArray) (o : QJsonObject) : SecretEntry where
  plaintext := storedPlaintext pl key o
  readBack _ := false

/-- A profile that was added or edited: its secret is the one now written. -/
def SecretEntry.ofProfile (pl : Platform) (key : QByteArray) (calls : Slot → SecretCall) (p : ConnectionProfile) :
    SecretEntry where
  plaintext := storedPlaintext pl key (p.toJson pl calls)
  readBack slot := pl.toUtf8 (p.secret slot) = storedPlaintext pl key (p.toJson pl calls) slot

def readEntries (pl : Platform) : StoreCalls → List QJsonObject → List SecretEntry → List SecretEntry
  | c, o :: os, e :: es =>
    { e with readBack := fun slot => ReadsBack pl ((c 0).calls slot) (storedText o slot) (e.plaintext slot) } ::
      readEntries pl c.next os es
  | _, _, _ => []

/-- The entries of the profiles that pass the test. -/
def keepEntries (keep : ConnectionProfile → Bool) : List ConnectionProfile → List SecretEntry → List SecretEntry
  | p :: ps, e :: es => if keep p then e :: keepEntries keep ps es else keepEntries keep ps es
  | _, _ => []

/-- The entries in the order of the changed list; `none` for a profile that is added or edited. -/
def entriesAfter (change : StoreChange) (profiles : List ConnectionProfile) (entries : List SecretEntry) :
    List (Option SecretEntry) :=
  match change with
  | .addProfile _ => entries.map some ++ [none]
  | .updateProfile profile =>
    match profiles.findIdx? (·.id == profile.id) with
    | none => entries.map some
    | some i => (entries.map some).set i none
  | .removeProfile id => (keepEntries (·.id != id) profiles entries).map some
  | .renameFolder _ _ => entries.map some
  | .addEmptyFolder _ => entries.map some
  | .removeFolder path => (keepEntries (fun p => !matchesFolder path p.folder) profiles entries).map some

def writeEntries (pl : Platform) (key : QByteArray) :
    StoreCalls → List ConnectionProfile → List (Option SecretEntry) → List SecretEntry
  | c, p :: ps, m :: ms => m.getD (.ofProfile pl key (c 0).calls p) :: writeEntries pl key c.next ps ms
  | _, _, _ => []

structure Audit where
  state : StoreOnDisk
  entries : List SecretEntry

def Audit.step (pl : Platform) (key : QByteArray) (a : Audit) (event : StoreEvent) : Audit where
  state := a.state.step pl event
  entries :=
    match event with
    | .load c => readEntries pl c (profileObjects a.state.file) a.entries
    | .change change c =>
      match a.state.store.change change with
      | none => a.entries
      | some store => writeEntries pl key c store.profiles (entriesAfter change a.state.store.profiles a.entries)

/-- A store that has just been constructed over a file. -/
def Audit.construct (pl : Platform) (key : QByteArray) (c : StoreCalls) (file : ProfileFile) : Audit where
  state := .construct pl c file
  entries := readEntries pl c (profileObjects file) ((profileObjects file).map (.ofObject pl key))

/-- The file decrypts, under the original key, to every plaintext it should. -/
def SecretsKept (pl : Platform) (key : QByteArray) (a : Audit) : Prop :=
  List.Forall₂ (SecretEntry.OnDisk pl key) (profileObjects a.state.file) a.entries

/-- Each secret that is written again was read back, and is sealed with the original key. -/
def ResealedAll (pl : Platform) (key : QByteArray) : StoreCalls → List (Option SecretEntry) → Prop
  | _, [] => True
  | c, none :: ms => ResealedAll pl key c.next ms
  | c, some e :: ms => (∀ slot, e.plaintext slot ≠ [] →
      e.readBack slot = true ∧ SealsUnder pl key ((c 0).calls slot) (e.plaintext slot)) ∧ ResealedAll pl key c.next ms

def Resealed (pl : Platform) (key : QByteArray) (a : Audit) : StoreEvent → Prop
  | .load _ => True
  | .change change c => a.state.store.change change ≠ none →
    ResealedAll pl key c (entriesAfter change a.state.store.profiles a.entries)

/-! ## Loading -/

theorem ofObject_onDisk (os : List QJsonObject) :
    List.Forall₂ (SecretEntry.OnDisk pl key) os (os.map (.ofObject pl key)) := by
  induction os with
  | nil => exact .nil
  | cons o os ih =>
    apply List.Forall₂.cons _ ih
    intro slot _
    rfl

theorem readEntries_onDisk {os : List QJsonObject} {es : List SecretEntry}
    (h : List.Forall₂ (SecretEntry.OnDisk pl key) os es) (c : StoreCalls) :
    List.Forall₂ (SecretEntry.OnDisk pl key) os (readEntries pl c os es) := by
  induction h generalizing c with
  | nil => exact .nil
  | cons hd _ ih => exact .cons hd (ih c.next)

theorem readEntries_inMemory {os : List QJsonObject} {es : List SecretEntry}
    (h : List.Forall₂ (SecretEntry.OnDisk pl key) os es) (c : StoreCalls) :
    List.Forall₂ (SecretEntry.InMemory pl) (readProfiles pl c os) (readEntries pl c os es) := by
  induction h generalizing c with
  | nil => exact .nil
  | cons _ _ ih =>
    apply List.Forall₂.cons _ (ih c.next)
    intro slot hne hread
    exact secret_of_readsBack hne (of_decide_eq_true hread)

/-! ## Changing -/

/-- A profile that was neither added nor edited still holds what its entry says. -/
def StillHeld (pl : Platform) (p : ConnectionProfile) (m : Option SecretEntry) : Prop :=
  ∀ e, m = some e → SecretEntry.InMemory pl p e

theorem stillHeld_none (p : ConnectionProfile) : StillHeld pl p none := by
  intro e h
  cases h

variable {ps : List ConnectionProfile} {es : List SecretEntry}

theorem stillHeld_some (h : List.Forall₂ (SecretEntry.InMemory pl) ps es) :
    List.Forall₂ (StillHeld pl) ps (es.map some) := by
  rw [List.forall₂_map_right_iff]
  apply h.imp
  intro p e hp e' he
  cases he
  exact hp

theorem stillHeld_set {ms : List (Option SecretEntry)} (h : List.Forall₂ (StillHeld pl) ps ms) (i : Nat)
    (p : ConnectionProfile) : List.Forall₂ (StillHeld pl) (ps.set i p) (ms.set i none) := by
  induction h generalizing i with
  | nil => exact .nil
  | cons hd htl ih =>
    cases i with
    | zero => exact .cons (stillHeld_none p) htl
    | succ i => exact .cons hd (ih i)

theorem keepEntries_inMemory (keep : ConnectionProfile → Bool) (h : List.Forall₂ (SecretEntry.InMemory pl) ps es) :
    List.Forall₂ (SecretEntry.InMemory pl) (ps.filter keep) (keepEntries keep ps es) := by
  induction h with
  | nil => exact .nil
  | cons hd _ ih =>
    unfold keepEntries
    rw [List.filter_cons]
    split
    · exact .cons hd ih
    · exact ih

theorem secret_renamed (oldPath newPath : QString) (p : ConnectionProfile) (slot : Slot) :
    (ProfileStore.renamed oldPath newPath p).secret slot = p.secret slot := by
  unfold ProfileStore.renamed
  split
  · rfl
  · split <;> rfl

theorem change_stillHeld {s s' : ProfileStore} {change : StoreChange}
    (h : List.Forall₂ (SecretEntry.InMemory pl) s.profiles es) (hc : s.change change = some s') :
    List.Forall₂ (StillHeld pl) s'.profiles (entriesAfter change s.profiles es) := by
  have hsome := stillHeld_some h
  cases change with
  | addProfile profile =>
    cases hc
    exact List.rel_append hsome (.cons (stillHeld_none profile) .nil)
  | updateProfile profile =>
    simp only [ProfileStore.change, ProfileStore.updateProfile] at hc
    simp only [entriesAfter]
    cases hi : s.profiles.findIdx? (·.id == profile.id) with
    | none =>
      rw [hi] at hc
      cases hc
    | some i =>
      rw [hi] at hc
      cases hc
      exact stillHeld_set hsome i profile
  | removeProfile id =>
    simp only [ProfileStore.change, ProfileStore.removeProfile] at hc
    split at hc
    · cases hc
      exact stillHeld_some (keepEntries_inMemory _ h)
    · cases hc
  | renameFolder oldPath newPath =>
    simp only [ProfileStore.change, ProfileStore.renameFolder] at hc
    split at hc
    · cases hc
    · split at hc
      · cases hc
        apply stillHeld_some
        rw [List.forall₂_map_left_iff]
        apply h.imp
        intro p e hp slot hne hread
        rw [secret_renamed]
        exact hp slot hne hread
      · cases hc
  | addEmptyFolder path =>
    simp only [ProfileStore.change, ProfileStore.addEmptyFolder] at hc
    split at hc
    · cases hc
    · cases hc
      exact hsome
  | removeFolder path =>
    simp only [ProfileStore.change, ProfileStore.removeFolder] at hc
    split at hc
    · cases hc
    · split at hc
      · cases hc
        exact stillHeld_some (keepEntries_inMemory _ h)
      · cases hc

/-! ## Saving -/

theorem ofProfile_inMemory (calls : Slot → SecretCall) (p : ConnectionProfile) :
    SecretEntry.InMemory pl p (.ofProfile pl key calls p) := by
  intro slot _ hread
  exact of_decide_eq_true hread

/-- A save that seals what memory holds leaves the plaintexts as they were. -/
theorem writeEntries_kept {ms : List (Option SecretEntry)} (h : List.Forall₂ (StillHeld pl) ps ms) {c : StoreCalls}
    (hr : ResealedAll pl key c ms) :
    List.Forall₂ (SecretEntry.OnDisk pl key) (writeProfiles pl c ps) (writeEntries pl key c ps ms) ∧
      List.Forall₂ (SecretEntry.InMemory pl) ps (writeEntries pl key c ps ms) := by
  induction h generalizing c with
  | nil => exact ⟨.nil, .nil⟩
  | @cons p m ps ms hd _ ih =>
    cases m with
    | none =>
      obtain ⟨hdisk, hmem⟩ := ih hr
      constructor
      · apply List.Forall₂.cons _ hdisk
        intro slot _
        rfl
      · exact .cons (ofProfile_inMemory (c 0).calls p) hmem
    | some e =>
      obtain ⟨hdisk, hmem⟩ := ih hr.2
      constructor
      · apply List.Forall₂.cons _ hdisk
        intro slot hne
        obtain ⟨hread, hseal⟩ := hr.1 slot hne
        have hsecret := hd e rfl slot hne hread
        rw [← hsecret] at hseal
        exact (storedPlaintext_toJson hseal).trans hsecret
      · exact .cons (hd e rfl) hmem

/-! ## Runs -/

/-- File and memory agree with the entries. -/
structure Sound (pl : Platform) (key : QByteArray) (a : Audit) : Prop where
  onDisk : SecretsKept pl key a
  inMemory : List.Forall₂ (SecretEntry.InMemory pl) a.state.store.profiles a.entries

theorem load_inMemory {os : List QJsonObject} (c : StoreCalls) {file : ProfileFile} {s : ProfileStore}
    (hos : profileObjects file = os) (h : List.Forall₂ (SecretEntry.OnDisk pl key) os es)
    (hs : List.Forall₂ (SecretEntry.InMemory pl) s.profiles es) :
    List.Forall₂ (SecretEntry.InMemory pl) (s.load pl c file).profiles (readEntries pl c os es) := by
  subst hos
  cases file with
  | none =>
    cases h
    exact hs
  | some v => exact readEntries_inMemory h c

theorem construct_sound (c : StoreCalls) (file : ProfileFile) : Sound pl key (.construct pl key c file) := by
  have hdisk := @ofObject_onDisk pl key (profileObjects file)
  constructor
  · exact readEntries_onDisk hdisk c
  · cases file with
    | none => exact .nil
    | some v => exact readEntries_inMemory hdisk c

theorem step_sound (a : Audit) (event : StoreEvent) (h : Sound pl key a) (hr : Resealed pl key a event) :
    Sound pl key (a.step pl key event) := by
  cases event with
  | load c => exact ⟨readEntries_onDisk h.onDisk c, load_inMemory c rfl h.onDisk h.inMemory⟩
  | change change c =>
    cases hc : a.state.store.change change with
    | none =>
      have hstay : a.step pl key (.change change c) = a := by
        simp only [Audit.step, StoreOnDisk.step, hc]
      rw [hstay]
      exact h
    | some store =>
      have hnext : a.step pl key (.change change c) = ⟨⟨store, store.save pl c⟩,
          writeEntries pl key c store.profiles (entriesAfter change a.state.store.profiles a.entries)⟩ := by
        simp only [Audit.step, StoreOnDisk.step, hc]
      have hsome : a.state.store.change change ≠ none := by
        rw [hc]
        exact Option.some_ne_none store
      obtain ⟨hdisk, hmem⟩ := writeEntries_kept (change_stillHeld h.inMemory hc) (hr hsome)
      rw [hnext]
      constructor
      · unfold SecretsKept
        rw [profileObjects_save]
        exact hdisk
      · exact hmem

/-- In a run whose saves find every secret read back and seal it with the original key, no
profile loses its secret that was not itself edited or removed. -/
theorem secrets_survive (pl : Platform) (key : QByteArray) (c : StoreCalls) (file : ProfileFile) (events : List StoreEvent)
    (h : Along (Audit.step pl key) (Resealed pl key) events (.construct pl key c file)) :
    SecretsKept pl key (.construct pl key c file) ∧
      Along (Audit.step pl key) (fun a event => SecretsKept pl key (a.step pl key event)) events (.construct pl key c file) := by
  have hstart : Sound pl key (.construct pl key c file) := construct_sound c file
  constructor
  · exact hstart.onDisk
  · exact Along.imp step_sound (fun a event ha hr => (step_sound a event ha hr).onDisk) hstart h

/-! ## A run that keeps a secret, and one that loses it -/

def someIdText : QString := "00000000-0000-0000-0000-000000000001".toList

/-- ASCII texts, one id, and a cipher that does nothing. -/
def Platform.ascii : Platform where
  gcm := .plain
  toUtf8 s := s.map fun c => UInt8.ofNat c.toNat
  fromUtf8 bytes := bytes.map fun b => Char.ofNat b.toNat
  uuidToString id := if id = 1 then someIdText else "00000000-0000-0000-0000-000000000000".toList
  uuidFromString s := if s = someIdText then 1 else 0
  toUtf8_nil := rfl

/-- The master key is there, or it is not, for every call. -/
def callsWith (key : QByteArray) : StoreCalls :=
  fun _ => ⟨fun _ => ⟨key, some ⟨List.replicate kIvSize 0, rfl⟩⟩, 1⟩

def savedVnc : ConnectionProfile := { id := 1, type := .vnc, vnc := { password := "pw".toList } }

/-- A file with one secret. -/
def oneSecret : ProfileFile := ProfileStore.save .ascii (callsWith (keyOf 1).val) ⟨[savedVnc], []⟩

theorem secrets_survive_folder : SecretsKept .ascii (keyOf 1).val (.construct .ascii (keyOf 1).val (callsWith (keyOf 1).val) oneSecret) ∧
    Along (Audit.step .ascii (keyOf 1).val) (fun a event => SecretsKept .ascii (keyOf 1).val (a.step .ascii (keyOf 1).val event))
      [.change (.addEmptyFolder ['x']) (callsWith (keyOf 1).val)]
      (.construct .ascii (keyOf 1).val (callsWith (keyOf 1).val) oneSecret) := by
  apply secrets_survive
  refine ⟨fun _ => ⟨fun slot hne => ?_, trivial⟩, trivial⟩
  cases slot with
  | password => exact ⟨by decide +kernel, rfl, by decide +kernel⟩
  | passphrase => exact absurd (by decide +kernel) hne

/-- The keyring does not answer while the file is read; the next change writes an empty secret. -/
theorem failed_unprotect_erases_secret : ¬ ∀ (pl : Platform) (key : QByteArray) (c : StoreCalls) (file : ProfileFile)
    (events : List StoreEvent), SecretsKept pl key (run (Audit.step pl key) events (.construct pl key c file)) := by
  intro h
  have hkept := h .ascii (keyOf 1).val (callsWith []) oneSecret [.change (.addEmptyFolder ['x']) (callsWith (keyOf 1).val)]
  have hhead := (List.forall₂_cons.mp hkept).1 .password
  exact absurd (hhead (by decide +kernel)) (by decide +kernel)

end LvdTerm.Core
