import LvdTerm.Vnc.Client

/-!
# VNC client: handshake

From the version string to `ServerInit`, one function for each stage, in the order of
the source. `QByteArray::toInt` is written out because the version check depends on
what it accepts.
-/
namespace LvdTerm.Vnc

open Lib

variable {E : Env}

/-! ## Text -/

def ascii (s : String) : List UInt8 := s.toList.map fun c => UInt8.ofNat c.toNat

/-- `QString::toLatin1`: one `?` for each UTF-16 unit outside Latin-1. -/
def toLatin1 (s : String) : List UInt8 :=
  s.toList.flatMap fun c =>
    if c.toNat < 256 then [UInt8.ofNat c.toNat] else if c.toNat < 65536 then [63] else [63, 63]

def isSpace (b : UInt8) : Bool := b = 32 || (9 ≤ b && b ≤ 13)

def isDigit (b : UInt8) : Bool := 48 ≤ b && b ≤ 57

def digitsToNat (bs : List UInt8) : Nat := bs.foldl (fun n b => n * 10 + (b.toNat - 48)) 0

/-- `QByteArray::toInt`: blanks, a sign, digits, then the end or a NUL; 0 for anything else. -/
def toInt (bs : List UInt8) : Int :=
  let bs := bs.dropWhile isSpace
  let (negative, bs) := match bs with
    | 45 :: bs => (true, bs)
    | 43 :: bs => (false, bs)
    | bs => (false, bs)
  let digits := bs.takeWhile isDigit
  let behind := bs.dropWhile isDigit
  if digits = [] ∨ ¬ (behind = [] ∨ behind.head? = some 0) then 0
  else if negative then -(digitsToNat digits : Int) else digitsToNat digits

/-! ## Version -/

/-- `"RFB "` -/
def rfbMagic : List UInt8 := [82, 70, 66, 32]

/-- The newest version both sides speak. -/
def negotiatedMinor (major minor : Int) (maxMinor : Nat) : Nat :=
  let own := if major > 3 ∨ (major = 3 ∧ minor ≥ 8) then 8
    else if major = 3 ∧ minor = 7 then 7
    else 3
  min own maxMinor

def stepVersion : ClientM E Bool :=
  need 12 do
    let magic ← bytes 0 4
    if magic ≠ rfbMagic then failStep "Not a VNC server"
    else
      let major ← bytes 4 3
      let minor ← bytes 8 3
      consume 12
      Action.modify fun c => { c with minor := negotiatedMinor (toInt major) (toInt minor) c.maxMinor }
      let own ← Action.gets fun c => c.minor
      write (ascii "RFB 003.00" ++ ascii (toString own) ++ [10])
      setStage .securityTypes
      pure true

/-! ## Security -/

def sendClientInit : ClientM E Unit := do
  write [1]
  setStage .serverInit

def beginSecurity (type : Nat) : ClientM E Unit := do
  Action.modify fun c => { c with securityType := type }
  let minor ← Action.gets fun c => c.minor
  if type = 1 then
    if minor ≥ 8 then setStage .securityResult else sendClientInit
  else if type = 2 then setStage .authChallenge
  else fail ("Unsupported VNC security type " ++ toString type)

/-- 3.3: the server decides. -/
def stepSecurityType : ClientM E Bool :=
  need 4 do
    let type ← u32 0
    consume 4
    if type = 0 then
      setStage .securityReason
      pure true
    else
      beginSecurity (type % 256)
      pure true

/-- 3.7 and 3.8: a list to choose from. -/
def stepSecurityList : ClientM E Bool :=
  need 1 do
    let count ← u8 0
    if count = 0 then
      consume 1
      setStage .securityReason
      pure true
    else need (1 + count.toNat) do
      let types ← bytes 1 count.toNat
      consume (1 + count.toNat)
      if !types.contains 1 && !types.contains 2 then
        failStep "The server requires a security type lvdterm does not support (only None and VNC password)"
      else
        let chosen : UInt8 := if types.contains 1 then 1 else 2
        write [chosen]
        beginSecurity chosen.toNat
        pure true

def stepSecurityTypes : ClientM E Bool := do
  let minor ← Action.gets fun c => c.minor
  if minor = 3 then stepSecurityType else stepSecurityList

def reverseBits (b : UInt8) : UInt8 :=
  (List.range 8).foldl (fun reversed bit => (reversed <<< 1) ||| ((b >>> UInt8.ofNat bit) &&& 1)) 0

/-- The password's first 8 bytes, zero padded, each with its bits reversed. -/
def desKey (password : String) : List UInt8 :=
  ((toLatin1 password ++ List.replicate 8 0).take 8).map reverseBits

def encryptChallenge (E : Env) (challenge : List UInt8) (password : String) : List UInt8 :=
  E.desEncrypt (desKey password) (challenge.take 8) ++
    E.desEncrypt (desKey password) ((challenge.drop 8).take 8)

/-- The password to use: the provider is asked if there is none, and may say no. -/
def passwordToUse (password : String) (provider : Option (Option String)) : Option String :=
  if password = "" then
    match provider with
    | none => some password
    | some answer => answer
  else some password

/-- `false` when the user cancelled. -/
def obtainPassword : ClientM E Bool := do
  let password ← Action.gets fun c => c.password
  let provider ← Action.gets fun c => c.passwordProvider
  match passwordToUse password provider with
  | none => pure false
  | some entered =>
    Action.modify fun c => { c with password := entered }
    pure true

def stepAuthChallenge : ClientM E Bool :=
  need 16 do
    let challenge ← bytes 0 16
    consume 16
    let entered ← obtainPassword
    if !entered then failStep "Cancelled"
    else
      let password ← Action.gets fun c => c.password
      write (encryptChallenge E challenge password)
      setStage .securityResult
      pure true

def stepSecurityResult : ClientM E Bool :=
  need 4 do
    let result ← u32 0
    consume 4
    let minor ← Action.gets fun c => c.minor
    if result = 0 then
      sendClientInit
      pure true
    else if minor ≥ 8 then
      setStage .securityReason
      pure true
    else failStep "Authentication failed (wrong password?)"

def kMaxStringLength : Nat := 2 ^ 20

def stepSecurityReason : ClientM E Bool :=
  need 4 do
    let length ← u32 0
    if length > kMaxStringLength then failStep "Connection refused"
    else need (4 + length) do
      let data ← bytes 4 length
      let reason := E.fromUtf8 data
      consume (4 + length)
      failStep (if reason = "" then "Authentication failed (wrong password?)" else reason)

/-! ## ServerInit -/

def encRaw : Int := 0
def encCopyRect : Int := 1
def encHextile : Int := 5
def encTight : Int := 7
def encZrle : Int := 16
def encLastRect : Int := -224
def encDesktopSize : Int := -223
def encQualityLevel8 : Int := -24
def encCompressLevel6 : Int := -250

def defaultEncodings : List Int :=
  [encTight, encZrle, encHextile, encCopyRect, encRaw, encDesktopSize, encLastRect, encQualityLevel8,
    encCompressLevel6]

def setPixelFormat : List UInt8 := [0, 0, 0, 0, 32, 24, 0, 1, 0, 255, 0, 255, 0, 255, 16, 8, 0, 0, 0, 0]

/-- `SetEncodings`: each `qint32` as its unsigned 32 bits. -/
def setEncodings (encodings : List Int) : List UInt8 :=
  [2, 0] ++ putU16 encodings.length ++ encodings.flatMap fun e => putU32 (e % 2 ^ 32).toNat

def sendPixelFormatAndEncodings : ClientM E Unit := do
  let own ← Action.gets fun c => c.encodings
  write (setPixelFormat ++ setEncodings (if own = [] then defaultEncodings else own))

def requestUpdate (incremental : Bool) : ClientM E Unit := do
  let socket ← Action.gets fun c => c.socket
  let work ← Action.gets fun c => c.work
  if !socket || work.isNull then pure ()
  else write ([3, if incremental then 1 else 0, 0, 0, 0, 0] ++ putU16 work.width ++ putU16 work.height)

def allocFramebuffer (width height : Nat) : ClientM E Unit :=
  Action.modify fun c => { c with work := .black width height, fb := .black width height }

def stepServerInit : ClientM E Bool :=
  need 24 do
    let nameLength ← u32 20
    if nameLength > kMaxStringLength then failStep "Invalid VNC server name"
    else need (24 + nameLength) do
      let width ← u16 0
      let height ← u16 2
      let name ← bytes 24 nameLength
      Action.modify fun c => { c with desktopName := E.fromUtf8 name }
      consume (24 + nameLength)
      if width = 0 ∨ height = 0 then failStep "The server reported an empty desktop"
      else
        allocFramebuffer width height
        sendPixelFormatAndEncodings
        setStage .running
        requestUpdate false
        emit .ready
        pure true

end LvdTerm.Vnc
