import LvdTerm.Core.Crypto
import LvdTerm.Core.Json

/-!
# ConnectionProfile

A saved connection and its JSON. A secret makes a round through `Crypto` on every save and
every load; what the master key was in each of those calls is given to the functions as
`SecretCall`s, one for each secret of the profile.
-/
namespace LvdTerm.Core

open Lib

abbrev QUuid := BitVec 128

/-- The libraries below: the cipher, and the conversions of `QString` and `QUuid`. -/
structure Platform where
  gcm : Gcm
  toUtf8 : QString → QByteArray
  fromUtf8 : QByteArray → QString
  uuidToString : QUuid → QString
  /-- The null id where the text is none. -/
  uuidFromString : QString → QUuid
  toUtf8_nil : toUtf8 [] = []

/-- `QString::fromLatin1` -/
def fromLatin1 (bytes : QByteArray) : QString := bytes.map fun b => Char.ofNat b.toNat

/-- `QString::toLatin1`; other characters become question marks. -/
def toLatin1 (text : QString) : QByteArray := text.map fun c => if c.toNat < 256 then UInt8.ofNat c.toNat else 63

/-! ## Secrets -/

/-- One call of `Crypto::protect` or `Crypto::unprotect`: the answer of `masterKey()`, empty
where there is none, and what `RAND_bytes` gives for the IV. -/
structure SecretCall where
  key : QByteArray
  iv : Option (Bytes kIvSize)

def SecretCall.protect (g : Gcm) (c : SecretCall) (plaintext : QByteArray) : QByteArray :=
  if plaintext = [] then [] else if c.key = [] then [] else aesGcmEncrypt g c.iv c.key plaintext

def SecretCall.unprotect (g : Gcm) (c : SecretCall) (encrypted : QByteArray) : QByteArray :=
  if encrypted = [] then [] else if c.key = [] then [] else aesGcmDecrypt g c.key encrypted

theorem protect_eq_secretCall (g : Gcm) (r : Replies) (plaintext : QByteArray) (s : Keyring) :
    (protect g r plaintext s).1 = SecretCall.protect g ⟨(masterKey r s).1, r.iv⟩ plaintext := by
  unfold protect SecretCall.protect
  dsimp only
  split
  · rfl
  · split <;> rfl

theorem unprotect_eq_secretCall (g : Gcm) (r : Replies) (encrypted : QByteArray) (s : Keyring) :
    (unprotect g r encrypted s).1 = SecretCall.unprotect g ⟨(masterKey r s).1, r.iv⟩ encrypted := by
  unfold unprotect SecretCall.unprotect
  dsimp only
  split
  · rfl
  · split <;> rfl

def protectToBase64 (pl : Platform) (c : SecretCall) (plaintext : QString) : QString :=
  if plaintext = [] then [] else fromLatin1 (Base64.encode (c.protect pl.gcm (pl.toUtf8 plaintext)))

def unprotectFromBase64 (pl : Platform) (c : SecretCall) (base64 : QString) : QString :=
  if base64 = [] then [] else pl.fromUtf8 (c.unprotect pl.gcm (Base64.decode (toLatin1 base64)))

/-! ## Settings -/

structure SerialPortSettings where
  portName : QString := []
  baudRate : Int := 115200
  /-- The enumerations of `QSerialPort` by their numbers, which a file may set to anything. -/
  dataBits : Int := 8
  parity : Int := 0
  stopBits : Int := 1
  flowControl : Int := 0
  deriving DecidableEq

inductive AuthMethod where
  | password | publicKey
  deriving DecidableEq

structure SshConnectionSettings where
  host : QString := []
  port : UInt16 := 22
  username : QString := []
  promptForUsername : Bool := false
  authMethod : AuthMethod := .password
  password : QString := []
  promptForPassword : Bool := false
  privateKeyPath : QString := []
  passphrase : QString := []
  forwardX11 : Bool := true
  deriving DecidableEq

structure VncConnectionSettings where
  host : QString := []
  port : UInt16 := 5900
  password : QString := []
  deriving DecidableEq

structure RdpConnectionSettings where
  host : QString := []
  port : UInt16 := 3389
  username : QString := []
  domain : QString := []
  password : QString := []
  desktopWidth : Int := 1280
  desktopHeight : Int := 800
  deriving DecidableEq

inductive ProfileType where
  | serial | telnet | ssh | shell | vnc | rdp
  deriving DecidableEq

inductive Viewer where
  | terminal | hex
  deriving DecidableEq

structure ConnectionProfile where
  id : QUuid
  name : QString := []
  folder : QString := []
  type : ProfileType := .serial
  autoReconnect : Bool := true
  keyboardProfile : QString := []
  logSessionToFile : Bool := false
  logFilePath : QString := []
  logIncludeTimestamps : Bool := false
  viewer : Viewer := .terminal
  serial : SerialPortSettings := {}
  telnetHost : QString := []
  telnetPort : UInt16 := 23
  rawMode : Bool := false
  ssh : SshConnectionSettings := {}
  vnc : VncConnectionSettings := {}
  rdp : RdpConnectionSettings := {}
  localShell : QString := []
  deriving DecidableEq

/-! ## JSON -/

def typeToString : ProfileType → QString
  | .serial => "serial".toList
  | .telnet => "telnet".toList
  | .ssh => "ssh".toList
  | .shell => "local".toList
  | .vnc => "vnc".toList
  | .rdp => "rdp".toList

def typeFromString (s : QString) : ProfileType :=
  if s = "telnet".toList then .telnet
  else if s = "ssh".toList then .ssh
  else if s = "local".toList then .shell
  else if s = "vnc".toList then .vnc
  else if s = "rdp".toList then .rdp
  else .serial

theorem typeFromString_toString (type : ProfileType) : typeFromString (typeToString type) = type := by
  cases type <;> rfl

def viewerToString (v : Viewer) : QString := if v = .hex then "hex".toList else "terminal".toList

def viewerFromString (s : QString) : Viewer := if s = "hex".toList then .hex else .terminal

def authMethodToString (m : AuthMethod) : QString :=
  if m = .publicKey then "publickey".toList else "password".toList

def authMethodFromString (s : QString) : AuthMethod := if s = "publickey".toList then .publicKey else .password

/-- The secrets a profile may have. -/
inductive Slot where
  | password | passphrase
  deriving DecidableEq

variable (pl : Platform) (calls : Slot → SecretCall)

/-- The member of the JSON object that the type selects. -/
def ConnectionProfile.member (p : ConnectionProfile) : String × QJsonValue :=
  match p.type with
  | .serial => ("serial", .object [("portName", .string p.serial.portName), ("baudRate", .number p.serial.baudRate),
      ("dataBits", .number p.serial.dataBits), ("parity", .number p.serial.parity),
      ("stopBits", .number p.serial.stopBits), ("flowControl", .number p.serial.flowControl)])
  | .telnet => ("telnet", .object [("host", .string p.telnetHost), ("port", .number p.telnetPort.toNat),
      ("rawMode", .bool p.rawMode)])
  | .ssh => ("ssh", .object [("host", .string p.ssh.host), ("port", .number p.ssh.port.toNat),
      ("username", .string p.ssh.username), ("promptForUsername", .bool p.ssh.promptForUsername),
      ("authMethod", .string (authMethodToString p.ssh.authMethod)),
      ("privateKeyPath", .string p.ssh.privateKeyPath),
      ("passwordProtected", .string (protectToBase64 pl (calls .password) p.ssh.password)),
      ("promptForPassword", .bool p.ssh.promptForPassword),
      ("passphraseProtected", .string (protectToBase64 pl (calls .passphrase) p.ssh.passphrase)),
      ("forwardX11", .bool p.ssh.forwardX11)])
  | .shell => ("local", .object [("shell", .string p.localShell)])
  | .vnc => ("vnc", .object [("host", .string p.vnc.host), ("port", .number p.vnc.port.toNat),
      ("passwordProtected", .string (protectToBase64 pl (calls .password) p.vnc.password))])
  | .rdp => ("rdp", .object [("host", .string p.rdp.host), ("port", .number p.rdp.port.toNat),
      ("username", .string p.rdp.username), ("domain", .string p.rdp.domain),
      ("passwordProtected", .string (protectToBase64 pl (calls .password) p.rdp.password)),
      ("desktopWidth", .number p.rdp.desktopWidth), ("desktopHeight", .number p.rdp.desktopHeight)])

def ConnectionProfile.toJson (p : ConnectionProfile) : QJsonObject :=
  [("id", .string (pl.uuidToString p.id)), ("name", .string p.name), ("folder", .string p.folder),
    ("type", .string (typeToString p.type)), ("autoReconnect", .bool p.autoReconnect),
    ("keyboardProfile", .string p.keyboardProfile), ("logSessionToFile", .bool p.logSessionToFile),
    ("logFilePath", .string p.logFilePath), ("logIncludeTimestamps", .bool p.logIncludeTimestamps),
    ("viewer", .string (viewerToString p.viewer)), p.member pl calls]

def serialFromJson (s : QJsonObject) : SerialPortSettings where
  portName := (s.value "portName").toString
  baudRate := (s.value "baudRate").toInt 115200
  dataBits := (s.value "dataBits").toInt 8
  parity := (s.value "parity").toInt 0
  stopBits := (s.value "stopBits").toInt 1
  flowControl := (s.value "flowControl").toInt 0

def sshFromJson (s : QJsonObject) : SshConnectionSettings where
  host := (s.value "host").toString
  port := UInt16.ofInt ((s.value "port").toInt 22)
  username := (s.value "username").toString
  promptForUsername := (s.value "promptForUsername").toBool false
  authMethod := authMethodFromString (s.value "authMethod").toString
  privateKeyPath := (s.value "privateKeyPath").toString
  password := unprotectFromBase64 pl (calls .password) (s.value "passwordProtected").toString
  promptForPassword := (s.value "promptForPassword").toBool false
  passphrase := unprotectFromBase64 pl (calls .passphrase) (s.value "passphraseProtected").toString
  forwardX11 := (s.value "forwardX11").toBool true

def vncFromJson (v : QJsonObject) : VncConnectionSettings where
  host := (v.value "host").toString
  port := UInt16.ofInt ((v.value "port").toInt 5900)
  password := unprotectFromBase64 pl (calls .password) (v.value "passwordProtected").toString

def rdpFromJson (r : QJsonObject) : RdpConnectionSettings where
  host := (r.value "host").toString
  port := UInt16.ofInt ((r.value "port").toInt 3389)
  username := (r.value "username").toString
  domain := (r.value "domain").toString
  password := unprotectFromBase64 pl (calls .password) (r.value "passwordProtected").toString
  desktopWidth := (r.value "desktopWidth").toInt 1280
  desktopHeight := (r.value "desktopHeight").toInt 800

/-- `newId` is what `QUuid::createUuid()` gives, for an object without an id. -/
def ConnectionProfile.fromJson (newId : QUuid) (object : QJsonObject) : ConnectionProfile :=
  let id := pl.uuidFromString (object.value "id").toString
  let p : ConnectionProfile := {
    id := if id = 0 then newId else id
    name := (object.value "name").toString
    folder := (object.value "folder").toString
    type := typeFromString (object.value "type").toString
    autoReconnect := (object.value "autoReconnect").toBool true
    keyboardProfile := (object.value "keyboardProfile").toString
    logSessionToFile := (object.value "logSessionToFile").toBool false
    logFilePath := (object.value "logFilePath").toString
    logIncludeTimestamps := (object.value "logIncludeTimestamps").toBool false
    viewer := viewerFromString (object.value "viewer").toString }
  match p.type with
  | .serial => { p with serial := serialFromJson (object.value "serial").toObject }
  | .telnet =>
    let t := (object.value "telnet").toObject
    { p with
      telnetHost := (t.value "host").toString
      telnetPort := UInt16.ofInt ((t.value "port").toInt 23)
      rawMode := (t.value "rawMode").toBool false }
  | .ssh => { p with ssh := sshFromJson pl calls (object.value "ssh").toObject }
  | .shell => { p with localShell := (QJsonObject.value (object.value "local").toObject "shell").toString }
  | .vnc => { p with vnc := vncFromJson pl calls (object.value "vnc").toObject }
  | .rdp => { p with rdp := rdpFromJson pl calls (object.value "rdp").toObject }

end LvdTerm.Core
