import LvdTerm.Core.Crypto

/-!
# The X11 connection setup

The first request of an X client, as the protocol lays it out, and `X11Forwarder::processSetup`,
which swaps the client's credentials for the real ones. `rewritten` says what the local server
should get for a stream of bytes; `processSetup` computes it once the request is complete.
-/
namespace LvdTerm.Ssh

open LvdTerm.Core (QByteArray Bytes)

def kCookieLen : Nat := 16

/-- `"MIT-MAGIC-COOKIE-1"` -/
def kAuthProto : QByteArray := [77, 73, 84, 45, 77, 65, 71, 73, 67, 45, 67, 79, 79, 75, 73, 69, 45, 49]

/-- `(n + 3) & ~3` -/
def pad4 (n : Nat) : Nat := (n + 3) / 4 * 4

theorem le_pad4 (n : Nat) : n ≤ pad4 n := by
  unfold pad4
  omega

/-! ## The request -/

inductive ByteOrder where
  | little | big
  deriving DecidableEq

namespace ByteOrder

def mark : ByteOrder → UInt8
  | little => 108
  | big => 66

def ofMark (b : UInt8) : Option ByteOrder := if b = 108 then some little else if b = 66 then some big else none

def u16 (order : ByteOrder) (n : Nat) : UInt8 × UInt8 :=
  match order with
  | little => (UInt8.ofNat (n % 256), UInt8.ofNat (n / 256))
  | big => (UInt8.ofNat (n / 256), UInt8.ofNat (n % 256))

def value (order : ByteOrder) (a b : UInt8) : Nat :=
  match order with
  | little => a.toNat + b.toNat * 256
  | big => a.toNat * 256 + b.toNat

theorem ofMark_mark (order : ByteOrder) : ofMark order.mark = some order := by
  cases order <;> rfl

theorem mark_of_ofMark {b : UInt8} {order : ByteOrder} (h : ofMark b = some order) : order.mark = b := by
  unfold ofMark at h
  split at h
  · next hb =>
    cases h
    exact hb.symm
  · split at h
    · next hb =>
      cases h
      exact hb.symm
    · cases h

theorem value_lt (order : ByteOrder) (a b : UInt8) : order.value a b < 2 ^ 16 := by
  have ha := a.toNat_lt
  have hb := b.toNat_lt
  cases order <;> simp only [value] <;> omega

theorem value_u16 (order : ByteOrder) {n : Nat} (h : n < 2 ^ 16) : order.value (order.u16 n).1 (order.u16 n).2 = n := by
  cases order <;> simp only [value, u16, UInt8.toNat_ofNat'] <;> omega

theorem u16_value (order : ByteOrder) (a b : UInt8) : order.u16 (order.value a b) = (a, b) := by
  have ha := a.toNat_lt
  have hb := b.toNat_lt
  cases order with
  | little =>
    have h1 : (a.toNat + b.toNat * 256) % 256 = a.toNat := by omega
    have h2 : (a.toNat + b.toNat * 256) / 256 = b.toNat := by omega
    simp only [value, u16, h1, h2, UInt8.ofNat_toNat]
  | big =>
    have h1 : (a.toNat * 256 + b.toNat) / 256 = a.toNat := by omega
    have h2 : (a.toNat * 256 + b.toNat) % 256 = b.toNat := by omega
    simp only [value, u16, h1, h2, UInt8.ofNat_toNat]

end ByteOrder

/-- Bytes that a two-byte length can count, and the padding behind them. -/
structure PaddedField where
  bytes : QByteArray
  length_lt : bytes.length < 2 ^ 16
  padding : Bytes (pad4 bytes.length - bytes.length)

def PaddedField.encode (f : PaddedField) : QByteArray := f.bytes ++ f.padding.val

theorem PaddedField.length_encode (f : PaddedField) : f.encode.length = pad4 f.bytes.length := by
  have hle := le_pad4 f.bytes.length
  rw [encode, List.length_append, f.padding.property]
  omega

/-- The first `n` bytes as a field. -/
def PaddedField.ofBytes (b : QByteArray) (n : Nat) (hn : n < 2 ^ 16) (hb : pad4 n ≤ b.length) : PaddedField where
  bytes := b.take n
  length_lt := by
    rw [List.length_take]
    omega
  padding := ⟨(b.drop n).take (pad4 n - n), by
    have hle := le_pad4 n
    rw [List.length_take, List.length_drop, List.length_take, Nat.min_eq_left (by omega : n ≤ b.length)]
    omega⟩

def PaddedField.zeroPadded (b : QByteArray) (h : b.length < 2 ^ 16) : PaddedField where
  bytes := b
  length_lt := h
  padding := ⟨List.replicate (pad4 b.length - b.length) 0, List.length_replicate⟩

theorem PaddedField.encode_ofBytes (b : QByteArray) (n : Nat) (hn : n < 2 ^ 16) (hb : pad4 n ≤ b.length) :
    (PaddedField.ofBytes b n hn hb).encode = b.take (pad4 n) := by
  have hle := le_pad4 n
  have hsplit : b.take (n + (pad4 n - n)) = b.take n ++ (b.drop n).take (pad4 n - n) := List.take_add
  rw [Nat.add_sub_cancel' hle] at hsplit
  exact hsplit.symm

theorem PaddedField.eq_of_bytes {f g : PaddedField} (hbytes : f.bytes = g.bytes) (hpadding : f.padding.val = g.padding.val) :
    f = g := by
  obtain ⟨bytes, _, padding, _⟩ := f
  obtain ⟨bytes', _, padding', _⟩ := g
  cases hbytes
  cases hpadding
  rfl

theorem PaddedField.ofBytes_eq (f : PaddedField) {b rest : QByteArray} {n : Nat} (hlen : n = f.bytes.length)
    (happend : b = f.encode ++ rest) (hn : n < 2 ^ 16) (hb : pad4 n ≤ b.length) : PaddedField.ofBytes b n hn hb = f := by
  subst hlen happend
  apply PaddedField.eq_of_bytes
  · show (f.encode ++ rest).take f.bytes.length = f.bytes
    rw [PaddedField.encode, List.append_assoc, List.take_left]
  · show ((f.encode ++ rest).drop f.bytes.length).take (pad4 f.bytes.length - f.bytes.length) = f.padding.val
    rw [PaddedField.encode, List.append_assoc, List.drop_left]
    exact List.take_left' f.padding.property

structure SetupRequest where
  order : ByteOrder
  /-- Bytes 1 to 5: unused, and the protocol's version. -/
  version : UInt8 × UInt8 × UInt8 × UInt8 × UInt8
  /-- Bytes 10 and 11. -/
  unused : UInt8 × UInt8
  name : PaddedField
  data : PaddedField

namespace SetupRequest

def encode (r : SetupRequest) : QByteArray :=
  [r.order.mark, r.version.1, r.version.2.1, r.version.2.2.1, r.version.2.2.2.1, r.version.2.2.2.2,
    (r.order.u16 r.name.bytes.length).1, (r.order.u16 r.name.bytes.length).2,
    (r.order.u16 r.data.bytes.length).1, (r.order.u16 r.data.bytes.length).2,
    r.unused.1, r.unused.2] ++ r.name.encode ++ r.data.encode

/-- The request a stream starts with, and the rest of the stream. -/
def decode : QByteArray → Option (SetupRequest × QByteArray)
  | mark :: v1 :: v2 :: v3 :: v4 :: v5 :: n1 :: n2 :: d1 :: d2 :: u1 :: u2 :: body =>
    match ByteOrder.ofMark mark with
    | none => none
    | some order =>
      let nameLen := order.value n1 n2
      let dataLen := order.value d1 d2
      if h : pad4 nameLen + pad4 dataLen ≤ body.length then
        some (⟨order, (v1, v2, v3, v4, v5), (u1, u2),
          .ofBytes body nameLen (order.value_lt n1 n2) (by omega),
          .ofBytes (body.drop (pad4 nameLen)) dataLen (order.value_lt d1 d2) (by rw [List.length_drop]; omega)⟩,
          body.drop (pad4 nameLen + pad4 dataLen))
      else none
  | _ => none

theorem decode_encode (r : SetupRequest) (rest : QByteArray) : decode (r.encode ++ rest) = some (r, rest) := by
  obtain ⟨order, ⟨v1, v2, v3, v4, v5⟩, ⟨u1, u2⟩, name, data⟩ := r
  have hn : order.value (order.u16 name.bytes.length).1 (order.u16 name.bytes.length).2 = name.bytes.length :=
    order.value_u16 name.length_lt
  have hd : order.value (order.u16 data.bytes.length).1 (order.u16 data.bytes.length).2 = data.bytes.length :=
    order.value_u16 data.length_lt
  simp only [encode, List.cons_append, List.nil_append, decode, ByteOrder.ofMark_mark, hn, hd]
  have hbody : name.encode ++ data.encode ++ rest = name.encode ++ (data.encode ++ rest) := List.append_assoc _ _ _
  have hlen : pad4 name.bytes.length + pad4 data.bytes.length ≤ (name.encode ++ data.encode ++ rest).length := by
    rw [List.length_append, List.length_append, name.length_encode, data.length_encode]
    omega
  have hdrop : (name.encode ++ data.encode ++ rest).drop (pad4 name.bytes.length) = data.encode ++ rest := by
    rw [hbody, ← name.length_encode, List.drop_left]
  have hrest : (name.encode ++ data.encode ++ rest).drop (pad4 name.bytes.length + pad4 data.bytes.length) = rest := by
    rw [← List.drop_drop, hdrop, ← data.length_encode, List.drop_left]
  rw [dif_pos hlen, Option.some.injEq, Prod.mk.injEq, SetupRequest.mk.injEq]
  exact ⟨⟨rfl, rfl, rfl, name.ofBytes_eq rfl hbody _ _, data.ofBytes_eq rfl hdrop _ _⟩, hrest⟩

theorem encode_of_decode {s rest : QByteArray} {r : SetupRequest} (h : decode s = some (r, rest)) : s = r.encode ++ rest := by
  unfold decode at h
  split at h
  next mark v1 v2 v3 v4 v5 n1 n2 d1 d2 u1 u2 body =>
    cases horder : ByteOrder.ofMark mark with
    | none =>
      rw [horder] at h
      cases h
    | some order =>
      rw [horder] at h
      dsimp only at h
      split at h
      next hlen =>
        cases h
        have hname : (body.take (order.value n1 n2)).length = order.value n1 n2 := by
          have := le_pad4 (order.value n1 n2)
          rw [List.length_take]
          omega
        have hdata : ((body.drop (pad4 (order.value n1 n2))).take (order.value d1 d2)).length = order.value d1 d2 := by
          have := le_pad4 (order.value d1 d2)
          rw [List.length_take, List.length_drop]
          omega
        unfold encode
        rw [PaddedField.encode_ofBytes, PaddedField.encode_ofBytes]
        simp only [PaddedField.ofBytes, hname, hdata, ByteOrder.u16_value, ByteOrder.mark_of_ofMark horder]
        rw [List.append_assoc, List.append_assoc, ← List.drop_drop, List.take_append_drop, List.take_append_drop]
        rfl
      next => cases h
  next => cases h

end SetupRequest

/-! ## The code -/

/-- The cookie the server was told, and the one of the local display, empty if none was found. -/
structure Cookies where
  fakeCookie : Bytes kCookieLen
  realCookie : QByteArray
  realCookie_size : realCookie = [] ∨ realCookie.length = kCookieLen

/-- `X11Forwarder::Connection`, without its channel and socket. -/
structure Connection where
  setup : QByteArray := []
  setupDone : Bool := false
  toRemote : QByteArray := []
  toLocal : QByteArray := []

def readU16 (b : QByteArray) (off : Nat) (little : Bool) : Nat :=
  let lo := (b.getD off 0).toNat
  let hi := (b.getD (off + 1) 0).toNat
  if little then lo + hi * 256 else lo * 256 + hi

def writeU16 (b : QByteArray) (off v : Nat) (little : Bool) : QByteArray :=
  (b.set off (UInt8.ofNat (if little then v % 256 else v / 256))).set (off + 1)
    (UInt8.ofNat (if little then v / 256 else v % 256))

def credentials (x : Cookies) (out : QByteArray) (little : Bool) : QByteArray :=
  if x.realCookie = [] then writeU16 (writeU16 out 6 0 little) 8 0 little
  else
    writeU16 (writeU16 out 6 kAuthProto.length little) 8 x.realCookie.length little ++
      kAuthProto ++ List.replicate (pad4 kAuthProto.length - kAuthProto.length) 0 ++
      x.realCookie ++ List.replicate (pad4 x.realCookie.length - x.realCookie.length) 0

/-- `none` is `return false`. -/
def processSetup (x : Cookies) (c : Connection) : Option Connection :=
  if c.setup.length < 12 then some c
  else
    let little := c.setup.getD 0 0 == 108
    if !little && c.setup.getD 0 0 != 66 then none
    else
      let nameLen := readU16 c.setup 6 little
      let dataLen := readU16 c.setup 8 little
      let total := 12 + pad4 nameLen + pad4 dataLen
      if c.setup.length < total then some c
      else
        let data := (c.setup.drop (12 + pad4 nameLen)).take dataLen
        if data ≠ x.fakeCookie.val then none
        else some { c with
          toLocal := c.toLocal ++ (credentials x (c.setup.take 12) little ++ c.setup.drop total)
          setup := []
          setupDone := true }

/-! ## What the local server should get -/

theorem Cookies.realCookie_lt (x : Cookies) : x.realCookie.length < 2 ^ 16 := by
  obtain h | h := x.realCookie_size
  · rw [h]
    decide
  · rw [h]
    decide

/-- The request with the real credentials, or with none. -/
def SetupRequest.authorize (x : Cookies) (r : SetupRequest) : SetupRequest :=
  { r with
    name := if x.realCookie = [] then .zeroPadded [] (by decide) else .zeroPadded kAuthProto (by decide)
    data := .zeroPadded x.realCookie x.realCookie_lt }

/-- The bytes for the local server, of all that has arrived from the client. -/
def rewritten (x : Cookies) (stream : QByteArray) : QByteArray :=
  match SetupRequest.decode stream with
  | none => []
  | some (r, rest) => if r.data.bytes = x.fakeCookie.val then (r.authorize x).encode ++ rest else []

/-- A request that is complete is not changed by what follows it. -/
theorem decode_append {s rest : QByteArray} {r : SetupRequest} (h : SetupRequest.decode s = some (r, rest)) (t : QByteArray) :
    SetupRequest.decode (s ++ t) = some (r, rest ++ t) := by
  rw [SetupRequest.encode_of_decode h, List.append_assoc]
  exact SetupRequest.decode_encode r (rest ++ t)

theorem rewritten_append (x : Cookies) {s rest : QByteArray} {r : SetupRequest} (h : SetupRequest.decode s = some (r, rest))
    (hr : r.data.bytes = x.fakeCookie.val) (t : QByteArray) : rewritten x (s ++ t) = rewritten x s ++ t := by
  unfold rewritten
  rw [decode_append h, h]
  dsimp only
  rw [if_pos hr, if_pos hr, List.append_assoc]

theorem credentials_eq (x : Cookies) (r : SetupRequest) :
    credentials x (r.encode.take 12) (r.order == .little) = (r.authorize x).encode := by
  have hreal := x.realCookie_lt
  obtain ⟨order, ⟨v1, v2, v3, v4, v5⟩, ⟨u1, u2⟩, name, data⟩ := r
  unfold credentials SetupRequest.authorize
  by_cases h : x.realCookie = []
  · simp only [h]
    cases order <;> rfl
  · simp only [if_neg h]
    cases order <;> simp [SetupRequest.encode, writeU16, ByteOrder.u16, ByteOrder.mark, PaddedField.encode, PaddedField.zeroPadded]

theorem readU16_eq (b : QByteArray) (off : Nat) (order : ByteOrder) :
    readU16 b off (order == .little) = order.value (b.getD off 0) (b.getD (off + 1) 0) := by
  cases order <;> rfl

theorem SetupRequest.length_encode (r : SetupRequest) :
    r.encode.length = 12 + pad4 r.name.bytes.length + pad4 r.data.bytes.length := by
  unfold encode
  rw [List.length_append, List.length_append, r.name.length_encode, r.data.length_encode]
  rfl

/-- The code on a request that is complete, and on one that is not. -/
theorem processSetup_complete (x : Cookies) (c : Connection) {r : SetupRequest} {rest : QByteArray}
    (h : SetupRequest.decode c.setup = some (r, rest)) :
    processSetup x c = if r.data.bytes = x.fakeCookie.val then
      some { c with toLocal := c.toLocal ++ rewritten x c.setup, setup := [], setupDone := true } else none := by
  have hsetup := SetupRequest.encode_of_decode h
  have hlittle : (c.setup.getD 0 0 == 108) = (r.order == .little) := by
    have hmark : c.setup.getD 0 0 = r.order.mark := by
      rw [hsetup]
      rfl
    rw [hmark]
    cases r.order <;> rfl
  have hbig : (!(r.order == .little) && c.setup.getD 0 0 != 66) = false := by
    have hmark : c.setup.getD 0 0 = r.order.mark := by
      rw [hsetup]
      rfl
    rw [hmark]
    cases r.order <;> rfl
  have hname : readU16 c.setup 6 (r.order == .little) = r.name.bytes.length := by
    rw [readU16_eq, hsetup]
    exact r.order.value_u16 r.name.length_lt
  have hdata : readU16 c.setup 8 (r.order == .little) = r.data.bytes.length := by
    rw [readU16_eq, hsetup]
    exact r.order.value_u16 r.data.length_lt
  have hlen : c.setup.length = 12 + pad4 r.name.bytes.length + pad4 r.data.bytes.length + rest.length := by
    rw [hsetup, List.length_append, r.length_encode]
  have hbytes : (c.setup.drop (12 + pad4 r.name.bytes.length)).take r.data.bytes.length = r.data.bytes := by
    have hhead : c.setup.drop (12 + pad4 r.name.bytes.length) = r.data.encode ++ rest := by
      rw [hsetup, SetupRequest.encode, List.append_assoc]
      apply List.drop_left'
      rw [List.length_append, r.name.length_encode]
      rfl
    rw [hhead, PaddedField.encode, List.append_assoc, List.take_left]
  have htake : c.setup.take 12 = r.encode.take 12 := by
    rw [hsetup]
    exact List.take_append_of_le_length (by rw [r.length_encode]; omega)
  have hrest : c.setup.drop (12 + pad4 r.name.bytes.length + pad4 r.data.bytes.length) = rest := by
    rw [hsetup, ← r.length_encode, List.drop_left]
  unfold processSetup
  rw [if_neg (by omega)]
  simp only [hlittle, hbig, hname, hdata, hbytes, htake, hrest, Bool.false_eq_true, if_false]
  rw [if_neg (by omega), credentials_eq, rewritten, h]
  dsimp only
  by_cases hcookie : r.data.bytes = x.fakeCookie.val
  · rw [if_neg (not_not.mpr hcookie), if_pos hcookie, if_pos hcookie]
  · rw [if_pos hcookie, if_neg hcookie]

theorem uncons {s : QByteArray} {n : Nat} (h : n < s.length) : ∃ b t, s = b :: t ∧ n ≤ t.length := by
  cases s with
  | nil => cases h
  | cons b t => exact ⟨b, t, rfl, Nat.le_of_lt_succ h⟩

theorem decode_of_order {s : QByteArray} {order : ByteOrder} (hlen : 12 ≤ s.length) (horder : ByteOrder.ofMark (s.getD 0 0) = some order)
    (htotal : 12 + pad4 (order.value (s.getD 6 0) (s.getD 7 0)) + pad4 (order.value (s.getD 8 0) (s.getD 9 0)) ≤ s.length) :
    SetupRequest.decode s ≠ none := by
  obtain ⟨mark, t1, rfl, h1⟩ := uncons hlen
  obtain ⟨v1, t2, rfl, h2⟩ := uncons h1
  obtain ⟨v2, t3, rfl, h3⟩ := uncons h2
  obtain ⟨v3, t4, rfl, h4⟩ := uncons h3
  obtain ⟨v4, t5, rfl, h5⟩ := uncons h4
  obtain ⟨v5, t6, rfl, h6⟩ := uncons h5
  obtain ⟨n1, t7, rfl, h7⟩ := uncons h6
  obtain ⟨n2, t8, rfl, h8⟩ := uncons h7
  obtain ⟨d1, t9, rfl, h9⟩ := uncons h8
  obtain ⟨d2, t10, rfl, h10⟩ := uncons h9
  obtain ⟨u1, t11, rfl, h11⟩ := uncons h10
  obtain ⟨u2, body, rfl, _⟩ := uncons h11
  have hmark : ByteOrder.ofMark mark = some order := horder
  have hbody : pad4 (order.value n1 n2) + pad4 (order.value d1 d2) ≤ body.length := by
    simp only [List.length_cons] at htotal
    have hfields : 12 + pad4 (order.value n1 n2) + pad4 (order.value d1 d2) ≤ body.length + 12 := htotal
    omega
  simp only [SetupRequest.decode, hmark]
  rw [dif_pos hbody]
  exact Option.some_ne_none _

theorem processSetup_incomplete (x : Cookies) (c : Connection) (h : SetupRequest.decode c.setup = none) :
    processSetup x c = if 12 ≤ c.setup.length ∧ ByteOrder.ofMark (c.setup.getD 0 0) = none then none else some c := by
  unfold processSetup
  by_cases hlen : c.setup.length < 12
  · rw [if_pos hlen, if_neg (fun h => absurd hlen (Nat.not_lt.mpr h.1))]
  rw [if_neg hlen]
  dsimp only
  cases horder : ByteOrder.ofMark (c.setup.getD 0 0) with
  | none =>
    have hmark : (!(c.setup.getD 0 0 == 108) && c.setup.getD 0 0 != 66) = true := by
      unfold ByteOrder.ofMark at horder
      split at horder
      · cases horder
      next hlittle =>
        split at horder
        · cases horder
        next hbig => rw [beq_false_of_ne hlittle, bne_iff_ne.mpr hbig, Bool.not_false, Bool.and_self]
    have hwhole : 12 ≤ c.setup.length ∧ (none : Option ByteOrder) = none := ⟨Nat.le_of_not_lt hlen, rfl⟩
    rw [if_pos hmark, if_pos hwhole]
  | some order =>
    have hmark := ByteOrder.mark_of_ofMark horder
    have hlittle : (c.setup.getD 0 0 == 108) = (order == .little) := by
      rw [← hmark]
      cases order <;> rfl
    have hbig : (!(order == .little) && c.setup.getD 0 0 != 66) = false := by
      rw [← hmark]
      cases order <;> rfl
    rw [hlittle, hbig, if_neg Bool.false_ne_true, readU16_eq, readU16_eq, if_pos, if_neg (fun h => Option.some_ne_none _ h.2)]
    by_contra htotal
    exact decode_of_order (Nat.le_of_not_lt hlen) horder (Nat.le_of_not_lt htotal) h

end LvdTerm.Ssh
