import LvdTerm.Lib.Base64
import LvdTerm.Lib.Runs

/-!
# Crypto: the master key and the secrets

`Crypto` on Linux: one master key in the user's keyring, created on first use and cached in
the process, seals every secret with AES-256-GCM. What the keyring and the random generator
answer is given to each call as `Replies`; OpenSSL's cipher is a parameter.
-/
namespace LvdTerm.Core

open Lib

abbrev QByteArray := List UInt8

/-- `QByteArray b(n)`, filled. -/
abbrev Bytes (n : Nat) := { b : QByteArray // b.length = n }

def kKeySize : Nat := 32
def kIvSize : Nat := 12
def kTagSize : Nat := 16

/-- AES-256-GCM: `none` where one of the EVP calls fails, or the tag does not verify. -/
structure Gcm where
  encrypt : QByteArray → QByteArray → QByteArray → Option (QByteArray × QByteArray)
  decrypt : QByteArray → QByteArray → QByteArray → QByteArray → Option QByteArray
  tag_size : ∀ key iv plaintext ciphertext tag,
    encrypt key iv plaintext = some (ciphertext, tag) → tag.length = kTagSize
  decrypt_encrypt : ∀ key iv plaintext ciphertext tag,
    encrypt key iv plaintext = some (ciphertext, tag) → decrypt key iv ciphertext tag = some plaintext

/-- `secret_password_lookup_sync`: a lookup that fails for any reason gives no item. -/
inductive Lookup where
  | answers | fails
  deriving DecidableEq, Repr

/-- `secret_password_store_sync`; the daemon may have stored an item whose call was cancelled. -/
inductive Store where
  | stored | refused | storedUnconfirmed
  deriving DecidableEq, Repr

structure Replies where
  lookup : Lookup
  store : Store
  newKey : Option (Bytes kKeySize)
  iv : Option (Bytes kIvSize)

structure Keyring where
  /-- The text of the item, if there is one. -/
  item : Option QByteArray
  /-- `static QByteArray cachedKey` -/
  cachedKey : QByteArray

/-- What the lookup in `masterKey` finds. -/
def foundKey (r : Replies) (s : Keyring) : QByteArray :=
  match r.lookup, s.item with
  | .answers, some text => Base64.decode text
  | _, _ => []

def masterKey (r : Replies) (s : Keyring) : QByteArray × Keyring :=
  if s.cachedKey ≠ [] then (s.cachedKey, s)
  else
    let found := foundKey r s
    if found.length = kKeySize then (found, { s with cachedKey := found })
    else match r.newKey with
      | none => ([], s)
      | some newKey =>
        match r.store with
        | .stored => (newKey.val, { item := some (Base64.encode newKey.val), cachedKey := newKey.val })
        | .refused => ([], s)
        | .storedUnconfirmed => ([], { s with item := some (Base64.encode newKey.val) })

/-- `iv || ciphertext || tag` -/
def aesGcmEncrypt (g : Gcm) (iv : Option (Bytes kIvSize)) (key plaintext : QByteArray) : QByteArray :=
  match iv with
  | none => []
  | some iv =>
    match g.encrypt key iv.val plaintext with
    | none => []
    | some (ciphertext, tag) => iv.val ++ ciphertext ++ tag

def aesGcmDecrypt (g : Gcm) (key blob : QByteArray) : QByteArray :=
  if blob.length < kIvSize + kTagSize then []
  else
    let iv := blob.take kIvSize
    let tag := blob.drop (blob.length - kTagSize)
    let ciphertext := (blob.drop kIvSize).take (blob.length - kIvSize - kTagSize)
    match g.decrypt key iv ciphertext tag with
    | none => []
    | some plaintext => plaintext

def protect (g : Gcm) (r : Replies) (plaintext : QByteArray) (s : Keyring) : QByteArray × Keyring :=
  if plaintext = [] then ([], s)
  else
    let (key, s) := masterKey r s
    if key = [] then ([], s) else (aesGcmEncrypt g r.iv key plaintext, s)

def unprotect (g : Gcm) (r : Replies) (encrypted : QByteArray) (s : Keyring) : QByteArray × Keyring :=
  if encrypted = [] then ([], s)
  else
    let (key, s) := masterKey r s
    if key = [] then ([], s) else (aesGcmDecrypt g key encrypted, s)

/-! ## Sealing and opening -/

theorem aesGcmDecrypt_encrypt (g : Gcm) (iv : Option (Bytes kIvSize)) (key plaintext : QByteArray)
    (h : aesGcmEncrypt g iv key plaintext ≠ []) :
    aesGcmDecrypt g key (aesGcmEncrypt g iv key plaintext) = plaintext := by
  cases iv with
  | none => exact absurd rfl h
  | some iv =>
    cases hs : g.encrypt key iv.val plaintext with
    | none => simp only [aesGcmEncrypt, hs] at h; exact absurd rfl h
    | some sealed =>
      obtain ⟨ciphertext, tag⟩ := sealed
      have htag := g.tag_size _ _ _ _ _ hs
      have hopen := g.decrypt_encrypt _ _ _ _ _ hs
      obtain ⟨iv, hiv⟩ := iv
      have hblob : aesGcmEncrypt g (some ⟨iv, hiv⟩) key plaintext = iv ++ ciphertext ++ tag := by
        simp only [aesGcmEncrypt, hs]
      have hlen : (iv ++ ciphertext ++ tag).length = kIvSize + ciphertext.length + kTagSize := by
        simp only [List.length_append, hiv, htag]
      have hfirst : (iv ++ ciphertext ++ tag).take kIvSize = iv := by
        rw [List.append_assoc]
        exact List.take_left' hiv
      have hlast : (iv ++ ciphertext ++ tag).drop (kIvSize + ciphertext.length + kTagSize - kTagSize) = tag :=
        List.drop_left' (by rw [List.length_append, hiv, Nat.add_sub_cancel])
      have hmid : ((iv ++ ciphertext ++ tag).drop kIvSize).take
          (kIvSize + ciphertext.length + kTagSize - kIvSize - kTagSize) = ciphertext := by
        rw [List.append_assoc, List.drop_left' hiv]
        exact List.take_left' (by omega)
      rw [hblob]
      unfold aesGcmDecrypt
      simp only [hlen]
      rw [if_neg (by omega), hfirst, hlast, hmid, hopen]

/-! ## What `masterKey` can do -/

/-- The master key the keyring holds: an item that is 32 bytes. -/
def Keyring.storedKey (s : Keyring) : Option QByteArray :=
  match s.item with
  | none => none
  | some text => if (Base64.decode text).length = kKeySize then some (Base64.decode text) else none

theorem storedKey_encode (key : Bytes kKeySize) (cached : QByteArray) :
    Keyring.storedKey ⟨some (Base64.encode key.val), cached⟩ = some key.val := by
  simp only [Keyring.storedKey, Base64.decode_encode, key.property, if_true]

theorem storedKey_length {s : Keyring} {key : QByteArray} (h : s.storedKey = some key) : key.length = kKeySize := by
  unfold Keyring.storedKey at h
  split at h
  · cases h
  · split at h
    · cases h
      assumption
    · cases h

theorem ne_nil_of_keySize {key : QByteArray} (h : key.length = kKeySize) : key ≠ [] := by
  rintro rfl
  cases h

/-- The lookup finds exactly a stored key. -/
theorem foundKey_eq {r : Replies} {s : Keyring} :
    (foundKey r s).length = kKeySize ↔ r.lookup = .answers ∧ s.storedKey = some (foundKey r s) := by
  unfold foundKey Keyring.storedKey
  cases r.lookup with
  | fails => simp [kKeySize]
  | answers =>
    cases s.item with
    | none => simp [kKeySize]
    | some text => by_cases h : (Base64.decode text).length = kKeySize <;> simp [h]

theorem foundKey_of_stored {r : Replies} {s : Keyring} {key : QByteArray} (hlookup : r.lookup = .answers)
    (hkey : s.storedKey = some key) : foundKey r s = key := by
  unfold Keyring.storedKey at hkey
  unfold foundKey
  rw [hlookup]
  cases hitem : s.item with
  | none => rw [hitem] at hkey; cases hkey
  | some text =>
    simp only [hitem] at hkey
    split at hkey
    · exact Option.some.inj hkey
    · cases hkey

/-- No key was found, and a new one is made. -/
structure Regenerates (r : Replies) (s : Keyring) (newKey : Bytes kKeySize) : Prop where
  uncached : s.cachedKey = []
  lost : r.lookup = .fails ∨ s.storedKey = none
  random : r.newKey = some newKey

inductive MasterKeyCase (r : Replies) (s : Keyring) : QByteArray → Keyring → Prop where
  | cached (h : s.cachedKey ≠ []) : MasterKeyCase r s s.cachedKey s
  | found (key : QByteArray) (huncached : s.cachedKey = []) (hlookup : r.lookup = .answers)
      (hkey : s.storedKey = some key) : MasterKeyCase r s key { s with cachedKey := key }
  | unavailable (huncached : s.cachedKey = []) (hkey : r.lookup = .answers → s.storedKey = none)
      (hno : r.newKey = none ∨ r.store = .refused) : MasterKeyCase r s [] s
  | created (newKey : Bytes kKeySize) (h : Regenerates r s newKey) (hstore : r.store = .stored) :
      MasterKeyCase r s newKey.val ⟨some (Base64.encode newKey.val), newKey.val⟩
  | unconfirmed (newKey : Bytes kKeySize) (h : Regenerates r s newKey) (hstore : r.store = .storedUnconfirmed) :
      MasterKeyCase r s [] ⟨some (Base64.encode newKey.val), []⟩

theorem masterKey_cases {r : Replies} {s s' : Keyring} {key : QByteArray} (h : masterKey r s = (key, s')) :
    MasterKeyCase r s key s' := by
  unfold masterKey at h
  by_cases hcached : s.cachedKey = []
  · simp only [hcached, ne_eq, not_true_eq_false, if_false] at h
    by_cases hfound : (foundKey r s).length = kKeySize
    · rw [if_pos hfound] at h
      cases h
      obtain ⟨hlookup, hkey⟩ := foundKey_eq.mp hfound
      exact .found _ hcached hlookup hkey
    · rw [if_neg hfound] at h
      have hnone : r.lookup = .answers → s.storedKey = none := by
        intro hlookup
        by_contra hsome
        obtain ⟨key, hkey⟩ := Option.ne_none_iff_exists'.mp hsome
        refine hfound (foundKey_eq.mpr ⟨hlookup, ?_⟩)
        rw [foundKey_of_stored hlookup hkey]
        exact hkey
      have hlost : r.lookup = .fails ∨ s.storedKey = none := by
        cases hlookup : r.lookup with
        | answers => exact .inr (hnone hlookup)
        | fails => exact .inl rfl
      cases hnew : r.newKey with
      | none =>
        rw [hnew] at h
        cases h
        exact .unavailable hcached hnone (.inl hnew)
      | some newKey =>
        rw [hnew] at h
        cases hstore : r.store with
        | stored =>
          simp only [hstore] at h
          cases h
          exact .created newKey ⟨hcached, hlost, hnew⟩ hstore
        | refused =>
          simp only [hstore] at h
          cases h
          exact .unavailable hcached hnone (.inr hstore)
        | storedUnconfirmed =>
          simp only [hstore] at h
          cases h
          exact .unconfirmed newKey ⟨hcached, hlost, hnew⟩ hstore
  · rw [if_pos hcached] at h
    cases h
    exact .cached hcached

end LvdTerm.Core
