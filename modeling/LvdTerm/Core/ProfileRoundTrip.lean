import LvdTerm.Core.ProfileSecrets

/-!
# ConnectionProfile: what is read is what was written

A profile comes back with the settings that its type selects, as long as the secrets that were sealed can be opened again; and so
does the list of them in `ProfileStore`.
-/
namespace LvdTerm.Core

open Lib

/-- In the range of `int`. -/
def FitsInt (n : Int) : Prop := -(2 ^ 31) ≤ n ∧ n < 2 ^ 31

theorem toInt_number {n : Int} (h : FitsInt n) (defaultValue : Int) : (QJsonValue.number n).toInt defaultValue = n := by
  have hwhole : (n : Rat).den = 1 ∧ -(2 ^ 31) ≤ (n : Rat).num ∧ (n : Rat).num < 2 ^ 31 := by
    rw [Rat.num_intCast, Rat.den_intCast]
    exact ⟨rfl, h⟩
  rw [QJsonValue.toInt, if_pos hwhole, Rat.num_intCast]

theorem toInt_port (port : UInt16) (defaultValue : Int) :
    UInt16.ofInt ((QJsonValue.number port.toNat).toInt defaultValue) = port := by
  have hfits : FitsInt port.toNat := by
    have := port.toNat_lt
    unfold FitsInt
    omega
  have hread : (QJsonValue.number port.toNat).toInt defaultValue = port.toNat := toInt_number hfits defaultValue
  rw [hread]
  have hmod : (port.toNat : Int) % 65536 = port.toNat := by
    have := port.toNat_lt
    omega
  simp [UInt16.ofInt, hmod]

/-- The members have the values their types allow, no profile is without an id, and Qt converts id and secrets without loss. -/
structure ConnectionProfile.Proper (pl : Platform) (p : ConnectionProfile) : Prop where
  id : p.id ≠ 0
  uuid : pl.uuidFromString (pl.uuidToString p.id) = p.id
  utf8 : ∀ text ∈ [[], p.ssh.password, p.ssh.passphrase, p.vnc.password, p.rdp.password], pl.fromUtf8 (pl.toUtf8 text) = text
  baudRate : FitsInt p.serial.baudRate
  dataBits : FitsInt p.serial.dataBits
  parity : FitsInt p.serial.parity
  stopBits : FitsInt p.serial.stopBits
  flowControl : FitsInt p.serial.flowControl
  desktopWidth : FitsInt p.rdp.desktopWidth
  desktopHeight : FitsInt p.rdp.desktopHeight

/-- The profile as far as its type selects its settings; the others are left as they are in a new one. -/
def ConnectionProfile.selected (p : ConnectionProfile) : ConnectionProfile :=
  let q : ConnectionProfile := {
    id := p.id
    name := p.name
    folder := p.folder
    type := p.type
    autoReconnect := p.autoReconnect
    keyboardProfile := p.keyboardProfile
    logSessionToFile := p.logSessionToFile
    logFilePath := p.logFilePath
    logIncludeTimestamps := p.logIncludeTimestamps
    viewer := p.viewer }
  match p.type with
  | .serial => { q with serial := p.serial }
  | .telnet => { q with telnetHost := p.telnetHost, telnetPort := p.telnetPort, rawMode := p.rawMode }
  | .ssh => { q with ssh := p.ssh }
  | .shell => { q with localShell := p.localShell }
  | .vnc => { q with vnc := p.vnc }
  | .rdp => { q with rdp := p.rdp }

@[simp] theorem ConnectionProfile.selected_selected (p : ConnectionProfile) : p.selected.selected = p.selected := by
  obtain ⟨id, name, folder, type⟩ := p
  cases type <;> rfl

/-- What one call seals the other opens, and nothing but the empty text is sealed as nothing. -/
structure SecretCall.Opens (pl : Platform) (opening call : SecretCall) : Prop where
  protect_ne_nil : ∀ plaintext ≠ [], call.protect pl.gcm plaintext ≠ []
  unprotect_protect : ∀ plaintext, opening.unprotect pl.gcm (call.protect pl.gcm plaintext) = plaintext

section Opening

variable {pl : Platform}

theorem SecretCall.Opens.fromBase64 {call opening : SecretCall} (h : opening.Opens pl call)
    (hempty : pl.fromUtf8 (pl.toUtf8 []) = []) {plaintext : QString} (hutf8 : pl.fromUtf8 (pl.toUtf8 plaintext) = plaintext) :
    unprotectFromBase64 pl opening (protectToBase64 pl call plaintext) = plaintext := by
  by_cases hp : plaintext = []
  · simp [hp, protectToBase64, unprotectFromBase64]
  have hbytes : pl.toUtf8 plaintext ≠ [] := by
    intro hnil
    rw [hnil, ← pl.toUtf8_nil, hempty] at hutf8
    exact hp hutf8.symm
  have hne := h.protect_ne_nil _ hbytes
  have hlatin := toLatin1_fromLatin1 (Base64.encode (call.protect pl.gcm (pl.toUtf8 plaintext)))
  have htext : fromLatin1 (Base64.encode (call.protect pl.gcm (pl.toUtf8 plaintext))) ≠ [] := by
    intro hnil
    rw [hnil] at hlatin
    apply hne
    rw [← Base64.decode_encode (call.protect pl.gcm (pl.toUtf8 plaintext)), ← hlatin]
    rfl
  rw [protectToBase64, if_neg hp, unprotectFromBase64, if_neg htext, hlatin, Base64.decode_encode, h.unprotect_protect, hutf8]

theorem fromJson_toJson_of_opens {calls opening : Slot → SecretCall} (h : ∀ slot, (opening slot).Opens pl (calls slot)) (newId : QUuid)
    {p : ConnectionProfile} (hp : p.Proper pl) :
    ConnectionProfile.fromJson pl opening newId (p.toJson pl calls) = p.selected := by
  have hid : (if pl.uuidFromString (pl.uuidToString p.id) = 0 then newId else pl.uuidFromString (pl.uuidToString p.id)) = p.id := by
    rw [hp.uuid, if_neg hp.id]
  have hsecret : ∀ slot, ∀ text ∈ [[], p.ssh.password, p.ssh.passphrase, p.vnc.password, p.rdp.password],
      unprotectFromBase64 pl (opening slot) (protectToBase64 pl (calls slot) text) = text := fun slot text htext =>
    (h slot).fromBase64 (hp.utf8 [] List.mem_cons_self) (hp.utf8 text htext)
  simp only [List.forall_mem_cons, List.not_mem_nil, false_imp_iff, implies_true, and_true] at hsecret
  have hviewer : viewerFromString (viewerToString p.viewer) = p.viewer := by cases p.viewer <;> rfl
  have hmethod : authMethodFromString (authMethodToString p.ssh.authMethod) = p.ssh.authMethod := by
    cases p.ssh.authMethod <;> rfl
  have htype := typeFromString_toString p.type
  unfold ConnectionProfile.fromJson ConnectionProfile.toJson ConnectionProfile.member ConnectionProfile.selected
  simp only [QJsonObject.value, List.lookup_cons, QJsonValue.toString, QJsonValue.toBool, htype, hviewer, hid, beq_self_eq_true,
    Option.getD_some, String.reduceBEq]
  cases p.type with
  | serial => simp [QJsonObject.value, List.lookup_cons, QJsonValue.toString, QJsonValue.toObject, serialFromJson, toInt_number,
      hp.baudRate, hp.dataBits, hp.parity, hp.stopBits, hp.flowControl]
  | telnet => simp [List.lookup_cons, QJsonValue.toObject, toInt_port]
  | ssh => simp [QJsonObject.value, List.lookup_cons, QJsonValue.toString, QJsonValue.toBool, QJsonValue.toObject, sshFromJson, toInt_port,
      hsecret, hmethod]
  | shell => simp [QJsonValue.toObject]
  | vnc => simp [QJsonObject.value, List.lookup_cons, QJsonValue.toString, QJsonValue.toObject, vncFromJson, toInt_port, hsecret]
  | rdp => simp [QJsonObject.value, List.lookup_cons, QJsonValue.toString, QJsonValue.toObject, rdpFromJson, toInt_port, hsecret,
      toInt_number, hp.desktopWidth, hp.desktopHeight]

/-! ## The store -/

theorem readProfiles_writeProfiles {profiles : List ConnectionProfile} (hprofiles : ∀ p ∈ profiles, p.Proper pl) {c opening : StoreCalls}
    (h : ∀ i slot, ((opening i).calls slot).Opens pl ((c i).calls slot)) :
    readProfiles pl opening (writeProfiles pl c profiles) = profiles.map (·.selected) := by
  induction profiles generalizing c opening with
  | nil => rfl
  | cons p profiles ih =>
    have hrest : readProfiles pl opening.next (writeProfiles pl c.next profiles) = profiles.map (·.selected) :=
      ih (fun q hq => hprofiles q (List.mem_cons_of_mem p hq)) fun i => h (i + 1)
    rw [writeProfiles, readProfiles, List.map_cons, fromJson_toJson_of_opens (h 0) _ (hprofiles p List.mem_cons_self), hrest]

theorem filterMap_asString (texts : List QString) : (texts.map QJsonValue.string).filterMap QJsonValue.asString = texts := by
  induction texts with
  | nil => rfl
  | cons text texts ih =>
    rw [List.map_cons, List.filterMap_cons]
    exact congrArg (List.cons text) ih

theorem folderNames_save (c : StoreCalls) (s : ProfileStore) : folderNames (s.save pl c) = s.emptyFolders :=
  filterMap_asString s.emptyFolders

end Opening

/-! ## One key -/

/-- OpenSSL seals with this key. -/
structure Platform.Seals (pl : Platform) (key : QByteArray) : Prop where
  key_ne : key ≠ []
  encrypts : ∀ iv plaintext, pl.gcm.encrypt key iv plaintext ≠ none

/-- The master key is this one in every call, and there are random numbers. -/
def Unlocked (key : QByteArray) (c : StoreCalls) : Prop := ∀ i slot, ((c i).calls slot).key = key ∧ ((c i).calls slot).iv ≠ none

theorem Unlocked.next {key : QByteArray} {c : StoreCalls} (h : Unlocked key c) : Unlocked key c.next := fun i => h (i + 1)

section Calls

variable {pl : Platform} {key : QByteArray} (hpl : pl.Seals key)
include hpl

theorem protect_ne_nil {call : SecretCall} (hcall : call.key = key ∧ call.iv ≠ none) {plaintext : QByteArray} (hp : plaintext ≠ []) :
    call.protect pl.gcm plaintext ≠ [] := by
  obtain ⟨rfl, hiv⟩ := hcall
  obtain ⟨iv, hiv⟩ := Option.ne_none_iff_exists'.mp hiv
  obtain ⟨sealedText, hsealed⟩ := Option.ne_none_iff_exists'.mp (hpl.encrypts iv.val plaintext)
  have hsize : iv.val ≠ [] := by
    intro hnil
    have := iv.property
    simp [hnil, kIvSize] at this
  simp [SecretCall.protect, hp, hpl.key_ne, aesGcmEncrypt, hiv, hsealed, hsize]

theorem opens_of_seals {call opening : SecretCall} (hcall : call.key = key ∧ call.iv ≠ none) (hopening : opening.key = key) :
    opening.Opens pl call := by
  refine ⟨fun _ hp => protect_ne_nil hpl hcall hp, fun plaintext => ?_⟩
  have hkey : opening.unprotect pl.gcm = SecretCall.unprotect pl.gcm ⟨key, none⟩ := by
    funext encrypted
    simp [SecretCall.unprotect, hopening]
  by_cases hp : plaintext = []
  · simp [hp, SecretCall.protect, SecretCall.unprotect]
  · rw [hkey]
    exact unprotect_protect ⟨hcall.1, protect_ne_nil hpl hcall hp⟩

theorem fromJson_toJson {calls opening : Slot → SecretCall} (hcalls : ∀ slot, (calls slot).key = key ∧ (calls slot).iv ≠ none)
    (hopening : ∀ slot, (opening slot).key = key) (newId : QUuid) {p : ConnectionProfile} (hp : p.Proper pl) :
    ConnectionProfile.fromJson pl opening newId (p.toJson pl calls) = p.selected :=
  fromJson_toJson_of_opens (fun slot => opens_of_seals hpl (hcalls slot) (hopening slot)) newId hp

end Calls

theorem ascii_seals : Platform.Seals .ascii (keyOf 1).val := ⟨by decide, fun _ _ => nofun⟩

theorem callsWith_unlocked : Unlocked (keyOf 1).val (callsWith (keyOf 1).val) := fun _ _ => ⟨rfl, nofun⟩

end LvdTerm.Core
