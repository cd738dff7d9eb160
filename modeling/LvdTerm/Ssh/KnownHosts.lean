import LvdTerm.Lib.Base64
import LvdTerm.Lib.CText

/-!
# The known_hosts file

libssh2's collection of known hosts, built without DSA: reading lines, looking up a host with its
port, deleting and adding entries and writing the file again. HMAC-SHA1 is a parameter. Memory can
always be had, and the file can be written.
-/
namespace LvdTerm.Ssh

open LvdTerm.Lib LvdTerm.Lib.CText

abbrev CBytes := List UInt8

/-! ## Keys -/

/-- `LIBSSH2_KNOWNHOST_KEY_*` -/
inductive KeyType where
  | rsa1 | sshRsa | ecdsa256 | ecdsa384 | ecdsa521 | ed25519 | unknown
  deriving DecidableEq

def ascii (s : String) : CBytes := s.toList.map fun c => UInt8.ofNat c.toNat

def rsaName : CBytes := ascii "ssh-rsa"
def ecdsa256Name : CBytes := ascii "ecdsa-sha2-nistp256"
def ecdsa384Name : CBytes := ascii "ecdsa-sha2-nistp384"
def ecdsa521Name : CBytes := ascii "ecdsa-sha2-nistp521"
def ed25519Name : CBytes := ascii "ssh-ed25519"

/-- The name with its length before it. -/
def sshString (name : CBytes) : CBytes := [0, 0, 0, UInt8.ofNat name.length] ++ name

/-- `hostkey_type`, as `hostKeyTypeMask` maps it. -/
def hostkeyType (blob : CBytes) : KeyType :=
  if (sshString rsaName).isPrefixOf blob then .sshRsa
  else if (sshString ed25519Name).isPrefixOf blob then .ed25519
  else if (sshString ecdsa256Name).isPrefixOf blob then .ecdsa256
  else if (sshString ecdsa384Name).isPrefixOf blob then .ecdsa384
  else if (sshString ecdsa521Name).isPrefixOf blob then .ecdsa521
  else .unknown

/-! ## Entries -/

inductive HostName where
  | plain (name : CBytes)
  | sha1 (salt hash : CBytes)
  deriving DecidableEq

structure KnownHost where
  name : HostName
  keyType : KeyType
  /-- Base64. -/
  key : CBytes
  keyTypeName : Option CBytes
  comment : Option CBytes
  deriving DecidableEq

/-- What a line adds before it fails, or until its end. -/
abbrev Added := List KnownHost × Bool

/-- `_libssh2_base64_decode` -/
def base64Decode (text : CBytes) : Option CBytes :=
  if (text.filter fun c => (Base64.value c).isSome).length % 4 = 1 then none else some (Base64.decode text)

/-! ## Reading -/

def isBlank (c : UInt8) : Bool := c = 32 || c = 9

/-- The key part of a line. -/
structure KeyPart where
  keyType : KeyType
  key : CBytes
  keyTypeName : Option CBytes
  comment : Option CBytes

/-- `strncmp` with the length of the name in the file, so that a beginning is enough. -/
def keyTypeOfName (name : CBytes) : KeyType :=
  if name.isPrefixOf ed25519Name then .ed25519
  else if name.isPrefixOf ecdsa256Name then .ecdsa256
  else if name.isPrefixOf ecdsa384Name then .ecdsa384
  else if name.isPrefixOf ecdsa521Name then .ecdsa521
  else if name.isPrefixOf rsaName then .sshRsa
  else .unknown

/-- `tail` is what stands behind the key part: the newline, if any. -/
def keyPart (key tail : CBytes) : KeyPart :=
  if 48 ≤ key.headD 0 ∧ key.headD 0 ≤ 57 then ⟨.rsa1, key, none, none⟩
  else
    let typeName := key.takeWhile (!isBlank ·)
    let rest := (key.dropWhile (!isBlank ·)).dropWhile isBlank
    let keyText := rest.takeWhile (!isBlank ·)
    let comment := rest.dropWhile (!isBlank ·)
    { keyType := keyTypeOfName typeName
      -- an empty key has its length measured again
      key := if keyText = [] then tail else keyText
      keyTypeName := if keyTypeOfName typeName = .unknown then some typeName else none
      comment := if comment = [] then none else some (comment.dropWhile isBlank) }

def KeyPart.host (k : KeyPart) (name : HostName) : KnownHost := ⟨name, k.keyType, k.key, k.keyTypeName, k.comment⟩

/-- The host names are read from behind; `name` is what was read of the next one. -/
def oldstyleNames (k : KeyPart) : CBytes → CBytes → Added
  | [], _ => ([], true)
  | [c], name => if (c :: name).length ≥ 255 then ([], false) else ([k.host (.plain (c :: name))], true)
  | c :: d :: rest, name =>
    if d = 44 then
      if (c :: name).length ≥ 255 then ([], false)
      else
        let (hosts, ok) := oldstyleNames k rest []
        (k.host (.plain (c :: name)) :: hosts, ok)
    else oldstyleNames k (d :: rest) (c :: name)

def oldstyleHostline (k : KeyPart) (host : CBytes) : Added := oldstyleNames k host.reverse []

/-- `line` begins with the host part, which has `hostlen` bytes; the search for the second bar does not
stop at its end, and the lengths are unsigned. -/
def hashedHostline (k : KeyPart) (line : CBytes) (hostlen : Nat) : Added :=
  let salt := line.drop 3
  match salt.findIdx? (· = 124) with
  | none => ([], true)
  | some saltlen =>
    if saltlen ≥ 31 ∨ hostlen < saltlen + 4 ∨ hostlen - saltlen - 4 ≥ 255 then ([], false)
    else
      match base64Decode ((salt.drop (saltlen + 1)).take (hostlen - saltlen - 4)), base64Decode (salt.take saltlen) with
      | some hash, some salt => ([k.host (.sha1 salt hash)], true)
      | _, _ => ([], false)

/-- `"|1|"` -/
def hashMarker : CBytes := [124, 49, 124]

def hostline (line : CBytes) (hostlen : Nat) (key tail : CBytes) : Added :=
  if key.length < 20 then ([], false)
  else if hostlen > 2 ∧ line.take 3 ≠ hashMarker then oldstyleHostline (keyPart key tail) (line.take hostlen)
  else hashedHostline (keyPart key tail) line hostlen

/-- `libssh2_knownhost_readline`, for a line that ends with its newline, if it has one. -/
def readline (line : CBytes) : Added :=
  let line := line.dropWhile isBlank
  if line = [] ∨ line.head? = some 35 ∨ line.head? = some newline then ([], true)
  else
    let host := line.takeWhile (!isBlank ·)
    let key := (line.dropWhile (!isBlank ·)).dropWhile isBlank
    if key = [] then ([], false)
    else hostline line host.length (key.takeWhile (· ≠ newline)) (key.dropWhile (· ≠ newline))

def readlines : List CBytes → List KnownHost
  | [] => []
  | line :: lines =>
    match readline (cstr line) with
    | (hosts, true) => hosts ++ readlines lines
    | (hosts, false) => hosts

def kBufferSize : Nat := 4092

/-- `libssh2_knownhost_readfile`; a missing file is an empty one. -/
def readfile (file : CBytes) : List KnownHost := readlines (fgetsAll (kBufferSize - 1) file)

/-! ## Writing -/

def typeName (n : KnownHost) : Option CBytes :=
  match n.keyType with
  | .rsa1 => some []
  | .sshRsa => some rsaName
  | .ecdsa256 => some ecdsa256Name
  | .ecdsa384 => some ecdsa384Name
  | .ecdsa521 => some ecdsa521Name
  | .ed25519 => some ed25519Name
  | .unknown => n.keyTypeName

/-- An empty hash or salt cannot be encoded. -/
def nameText : HostName → Option CBytes
  | .plain name => some name
  | .sha1 salt hash =>
    if salt = [] ∨ hash = [] then none else some (hashMarker ++ Base64.encode salt ++ 124 :: Base64.encode hash)

/-- `knownhost_writeline` -/
def writeline (n : KnownHost) : Option CBytes := do
  let type ← typeName n
  let name ← nameText n.name
  let line := name ++ 32 :: (if type = [] then [] else type ++ [32]) ++ n.key
    ++ (match n.comment with | none => [] | some comment => 32 :: comment) ++ [newline]
  if line.length + 1 ≤ kBufferSize then some line else none

/-- `libssh2_knownhost_writefile` stops at an entry that has no line. -/
def writefile : List KnownHost → CBytes
  | [] => []
  | n :: ns =>
    match writeline n with
    | none => []
    | some line => line ++ writefile ns

/-! ## Looking up -/

inductive CheckResult where
  | isMatch | mismatch | notFound | failure
  deriving DecidableEq

/-- `"[%s]:%d"` -/
def bracketed (host : CBytes) (port : UInt16) : CBytes :=
  91 :: host ++ [93, 58] ++ (Nat.toDigits 10 port.toNat).map fun c => UInt8.ofNat c.toNat

def kHostbufSize : Nat := 270

section Lookup

variable (hmacSha1 : CBytes → CBytes → CBytes)

def hostMatches (host : CBytes) (n : KnownHost) : Bool :=
  match n.name with
  | .plain name => host = name
  | .sha1 salt hash => hash.length = 20 && hmacSha1 salt host = hash

/-- One round of the loop over the entries, from the entry `i` on: the entry with the key, or the first
with another one. -/
def scan (host : CBytes) (type : KeyType) (key : CBytes) : List KnownHost → Nat → Option Nat → Option Nat × Option Nat
  | [], _, badkey => (none, badkey)
  | n :: ns, i, badkey =>
    if hostMatches hmacSha1 host n ∧ type ≠ .unknown ∧ type = n.keyType then
      if key = n.key then (some i, none) else scan host type key ns (i + 1) (badkey.or (some i))
    else scan host type key ns (i + 1) badkey

/-- `libssh2_knownhost_checkp`, and the entry it points to. -/
def checkp (hosts : List KnownHost) (host : CBytes) (port : UInt16) (blob : CBytes) : CheckResult × Option Nat :=
  if (bracketed host port).length ≥ kHostbufSize ∨ blob = [] then (.failure, none)
  else
    let type := hostkeyType blob
    let key := Base64.encode blob
    match scan hmacSha1 (bracketed host port) type key hosts 0 none with
    | (some i, _) => (.isMatch, some i)
    | (none, badkey) =>
      match scan hmacSha1 host type key hosts 0 badkey with
      | (some i, _) => (.isMatch, some i)
      | (none, some i) => (.mismatch, some i)
      | (none, none) => (.notFound, none)

/-! ## The application -/

/-- `libssh2_knownhost_addc` as the application calls it. -/
def addc (hosts : List KnownHost) (host blob : CBytes) : List KnownHost :=
  hosts ++ [⟨.plain host, hostkeyType blob, Base64.encode blob, none, none⟩]

/-- The entries after the user accepted the key. -/
def updated (hosts : List KnownHost) (host : CBytes) (port : UInt16) (blob : CBytes) : List KnownHost :=
  match (checkp hmacSha1 hosts host port blob).2 with
  | some i => addc (hosts.eraseIdx i) host blob
  | none => addc hosts host blob

/-- `SshConnectHelper::handshakeAndVerifyHostKey` after the handshake: the error, and the file. -/
def handshakeAndVerifyHostKey (file : CBytes) (host : CString) (port : UInt16) (blob : CBytes) (accepted : Bool) :
    Option String × CBytes :=
  if blob = [] then (some "Server did not present a host key", file)
  else
    let hosts := readfile file
    if (checkp hmacSha1 hosts host.val port blob).1 = .isMatch then (none, file)
    else if accepted then (none, writefile (updated hmacSha1 hosts host.val port blob))
    else (some "Host key not accepted", file)

end Lookup

end LvdTerm.Ssh
