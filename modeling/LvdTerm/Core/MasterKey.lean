import LvdTerm.Core.Crypto

/-!
# Crypto: keeping the master key

Runs of `protect` and `unprotect`, with any pattern of keyring failures and with restarts of
the process in between. A stored key survives a call exactly when the lookup finds it, or
nothing is stored over it (`Answered`); as long as every call meets this, each secret that
`protect` returned can be opened again.
-/
namespace LvdTerm.Core

open Lib Lib.Runs

inductive Call where
  | protect (plaintext : QByteArray) (replies : Replies)
  | unprotect (encrypted : QByteArray) (replies : Replies)
  | restart

/-- The keyring, and every secret with what `protect` made of it. -/
structure Vault where
  keyring : Keyring
  sealed : List (QByteArray × QByteArray)

/-- A process that has not looked for its key yet. -/
def Vault.start (item : Option QByteArray) : Vault := ⟨⟨item, []⟩, []⟩

def Vault.step (g : Gcm) (v : Vault) : Call → Vault
  | .protect plaintext r =>
    let (blob, keyring) := protect g r plaintext v.keyring
    ⟨keyring, (plaintext, blob) :: v.sealed⟩
  | .unprotect encrypted r => { v with keyring := (unprotect g r encrypted v.keyring).2 }
  | .restart => { v with keyring := { v.keyring with cachedKey := [] } }

def KeyKept (s s' : Keyring) : Prop := ∀ key, s.storedKey = some key → s'.storedKey = some key

/-- Once the keyring answers, every sealed secret opens. -/
def Opens (g : Gcm) (v : Vault) : Prop :=
  ∀ p ∈ v.sealed, p.2 ≠ [] → ∀ r : Replies, r.lookup = .answers → (unprotect g r p.2 v.keyring).1 = p.1

/-- No call of the run loses the key, and at its end nothing sealed is lost. -/
def MasterKeySafe (g : Gcm) (calls : List Call) (v : Vault) : Prop :=
  Along (Vault.step g) (fun v call => KeyKept v.keyring (v.step g call).keyring) calls v ∧
    Opens g (run (Vault.step g) calls v)

/-- A call that needs the keyring finds the key that is there, or stores no other over it. -/
def LookupSound (r : Replies) (s : Keyring) : Prop :=
  ∀ key, s.cachedKey = [] → s.storedKey = some key →
    r.lookup = .answers ∨ r.newKey = none ∨ r.store = .refused ∨ r.newKey.map (·.val) = some key

def Answered (v : Vault) : Call → Prop
  | .protect plaintext r => plaintext ≠ [] → LookupSound r v.keyring
  | .unprotect encrypted r => encrypted ≠ [] → LookupSound r v.keyring
  | .restart => True

/-! ## One call -/

variable {g : Gcm} {r : Replies} {s : Keyring} {v : Vault}

theorem KeyKept.refl (s : Keyring) : KeyKept s s := fun _ h => h

/-- A new key in place of an old one that was not found. -/
theorem newKey_kept_iff {newKey : Bytes kKeySize} (h : Regenerates r s newKey) (hstore : r.store ≠ .refused)
    (cached : QByteArray) :
    KeyKept s ⟨some (Base64.encode newKey.val), cached⟩ ↔ LookupSound r s := by
  constructor
  · intro hkept key _ hkey
    have hnew := hkept key hkey
    rw [storedKey_encode] at hnew
    exact .inr (.inr (.inr (by rw [h.random]; exact hnew)))
  · intro hsound key hkey
    rw [storedKey_encode]
    rcases hsound key h.uncached hkey with hlookup | hnone | hrefused | hsame
    · rcases h.lost with hfails | hnone
      · rw [hlookup] at hfails
        cases hfails
      · rw [hnone] at hkey
        cases hkey
    · rw [h.random] at hnone
      cases hnone
    · exact absurd hrefused hstore
    · rwa [h.random] at hsame

/-- Without a new item there is nothing to lose, and the condition holds. -/
theorem sound_of_same (h : s.cachedKey ≠ [] ∨ r.lookup = .answers ∨ s.storedKey = none) : LookupSound r s := by
  intro key huncached hkey
  rcases h with hcached | hlookup | hnone
  · exact absurd huncached hcached
  · exact .inl hlookup
  · rw [hnone] at hkey
    cases hkey

/-- The key the keyring holds survives `masterKey` exactly under the condition. -/
theorem masterKey_kept_iff {key : QByteArray} {s' : Keyring} (hm : masterKey r s = (key, s')) :
    KeyKept s s' ↔ LookupSound r s := by
  cases masterKey_cases hm with
  | cached h => exact ⟨fun _ => sound_of_same (.inl h), fun _ => .refl s⟩
  | found key huncached hlookup => exact ⟨fun _ => sound_of_same (.inr (.inl hlookup)), fun _ => .refl s⟩
  | unavailable huncached hkey hno =>
    refine ⟨fun _ key _ _ => ?_, fun _ => .refl s⟩
    rcases hno with hnone | hrefused
    · exact .inr (.inl hnone)
    · exact .inr (.inr (.inl hrefused))
  | created newKey h hstore => exact newKey_kept_iff h (by rw [hstore]; decide) _
  | unconfirmed newKey h hstore => exact newKey_kept_iff h (by rw [hstore]; decide) _

/-- A cached key is the one the keyring holds. -/
def Coherent (s : Keyring) : Prop := s.cachedKey ≠ [] → s.storedKey = some s.cachedKey

/-- What `masterKey` returns is what the keyring holds from then on. -/
theorem masterKey_coherent {key : QByteArray} {s' : Keyring} (hs : Coherent s) (hm : masterKey r s = (key, s')) :
    Coherent s' ∧ (key ≠ [] → s'.storedKey = some key) := by
  cases masterKey_cases hm with
  | cached h => exact ⟨hs, hs⟩
  | found key _ _ hkey => exact ⟨fun _ => hkey, fun _ => hkey⟩
  | unavailable => exact ⟨hs, fun h => absurd rfl h⟩
  | created newKey => exact ⟨fun _ => storedKey_encode newKey _, fun _ => storedKey_encode newKey _⟩
  | unconfirmed newKey => exact ⟨fun h => absurd rfl h, fun h => absurd rfl h⟩

/-- With an answering keyring, `masterKey` returns the key it holds. -/
theorem masterKey_answers {key : QByteArray} (hs : Coherent s) (hlookup : r.lookup = .answers)
    (hkey : s.storedKey = some key) : (masterKey r s).1 = key := by
  have hm : masterKey r s = ((masterKey r s).1, (masterKey r s).2) := rfl
  generalize (masterKey r s).1 = key', (masterKey r s).2 = s' at hm
  cases masterKey_cases hm with
  | cached h => exact Option.some.inj ((hs h).symm.trans hkey)
  | found key' _ _ hkey' => exact Option.some.inj (hkey'.symm.trans hkey)
  | unavailable _ hnone =>
    rw [hnone hlookup] at hkey
    cases hkey
  | created newKey h =>
    rcases h.lost with hfails | hnone
    · rw [hlookup] at hfails
      cases hfails
    · rw [hnone] at hkey
      cases hkey
  | unconfirmed newKey h =>
    rcases h.lost with hfails | hnone
    · rw [hlookup] at hfails
      cases hfails
    · rw [hnone] at hkey
      cases hkey

/-! ## Calls -/

/-- `protect` and `unprotect` leave the keyring as `masterKey` does, if they ask for it. -/
theorem protect_keyring (plaintext : QByteArray) :
    (protect g r plaintext s).2 = if plaintext = [] then s else (masterKey r s).2 := by
  unfold protect
  split
  · rfl
  · simp only
    split <;> rfl

theorem unprotect_keyring (encrypted : QByteArray) :
    (unprotect g r encrypted s).2 = if encrypted = [] then s else (masterKey r s).2 := by
  unfold unprotect
  split
  · rfl
  · simp only
    split <;> rfl

theorem asked_kept_iff (text : QByteArray) :
    KeyKept s (if text = [] then s else (masterKey r s).2) ↔ (text ≠ [] → LookupSound r s) := by
  by_cases htext : text = []
  · rw [if_pos htext]
    exact ⟨fun _ h => absurd htext h, fun _ => .refl s⟩
  · have hm : masterKey r s = ((masterKey r s).1, (masterKey r s).2) := rfl
    rw [if_neg htext, masterKey_kept_iff hm]
    exact ⟨fun h _ => h, fun h => h htext⟩

theorem step_kept_iff (call : Call) : KeyKept v.keyring (v.step g call).keyring ↔ Answered v call := by
  cases call with
  | protect plaintext r =>
    have hk : (v.step g (.protect plaintext r)).keyring = (protect g r plaintext v.keyring).2 := rfl
    rw [hk, protect_keyring, asked_kept_iff]
    rfl
  | unprotect encrypted r =>
    have hk : (v.step g (.unprotect encrypted r)).keyring = (unprotect g r encrypted v.keyring).2 := rfl
    rw [hk, unprotect_keyring, asked_kept_iff]
    rfl
  | restart => exact ⟨fun _ => trivial, fun _ => .refl v.keyring⟩

/-- The cache agrees with the keyring, and the keyring holds the key of everything sealed. -/
structure Kept (g : Gcm) (v : Vault) : Prop where
  coherent : Coherent v.keyring
  opens : ∀ p ∈ v.sealed, p.2 ≠ [] → ∃ key, v.keyring.storedKey = some key ∧ aesGcmDecrypt g key p.2 = p.1

theorem Kept.start (g : Gcm) (item : Option QByteArray) : Kept g (.start item) :=
  ⟨fun h => absurd rfl h, fun p hp => by cases hp⟩

theorem Kept.keyring (h : Kept g v) {s' : Keyring} (hs : Coherent s') (hkept : KeyKept v.keyring s') :
    Kept g { v with keyring := s' } := by
  refine ⟨hs, fun p hp hne => ?_⟩
  obtain ⟨key, hkey, hopen⟩ := h.opens p hp hne
  exact ⟨key, hkept key hkey, hopen⟩

theorem asked_coherent (hs : Coherent s) (text : QByteArray) :
    Coherent (if text = [] then s else (masterKey r s).2) := by
  split
  · exact hs
  · exact (masterKey_coherent hs rfl).1

/-- What `protect` returns opens with the key the keyring then holds. -/
theorem protect_opens (hs : Coherent s) (plaintext : QByteArray) (hne : (protect g r plaintext s).1 ≠ []) :
    ∃ key, (protect g r plaintext s).2.storedKey = some key ∧
      aesGcmDecrypt g key (protect g r plaintext s).1 = plaintext := by
  unfold protect at hne ⊢
  by_cases hempty : plaintext = []
  · rw [if_pos hempty] at hne
    exact absurd rfl hne
  · simp only [if_neg hempty] at hne ⊢
    by_cases hkey : (masterKey r s).1 = []
    · rw [if_pos hkey] at hne
      exact absurd rfl hne
    · rw [if_neg hkey] at hne ⊢
      exact ⟨_, (masterKey_coherent hs rfl).2 hkey, aesGcmDecrypt_encrypt g r.iv _ plaintext hne⟩

theorem step_keeps (call : Call) (h : Kept g v) (ha : Answered v call) : Kept g (v.step g call) := by
  have hkept := (step_kept_iff (g := g) call).mpr ha
  cases call with
  | protect plaintext r =>
    have hcoherent : Coherent (protect g r plaintext v.keyring).2 := by
      rw [protect_keyring]
      exact asked_coherent h.coherent plaintext
    refine ⟨hcoherent, fun p hp hne => ?_⟩
    rcases List.mem_cons.mp hp with rfl | hold
    · exact protect_opens h.coherent plaintext hne
    · exact (h.keyring hcoherent hkept).opens p hold hne
  | unprotect encrypted r =>
    refine h.keyring ?_ hkept
    rw [unprotect_keyring]
    exact asked_coherent h.coherent encrypted
  | restart => exact h.keyring (fun hne => absurd rfl hne) hkept

theorem Kept.openable (h : Kept g v) : Opens g v := by
  intro p hp hne r hlookup
  obtain ⟨key, hkey, hopen⟩ := h.opens p hp hne
  have hmaster := masterKey_answers h.coherent hlookup hkey
  have hkeyne : key ≠ [] := ne_nil_of_keySize (storedKey_length hkey)
  unfold unprotect
  simp only [if_neg hne, hmaster, if_neg hkeyne]
  exact hopen

/-! ## Runs -/

/-- The master key survives a run exactly when every call meets the condition. -/
theorem master_key_safe_iff (g : Gcm) (item : Option QByteArray) (calls : List Call) :
    MasterKeySafe g calls (.start item) ↔ Along (Vault.step g) Answered calls (.start item) := by
  constructor
  · rintro ⟨hkept, _⟩
    exact Along.imp (I := fun _ => True) (fun _ _ _ _ => trivial)
      (fun v call _ hk => (step_kept_iff call).mp hk) trivial hkept
  · intro hanswered
    have hstart := Kept.start g item
    refine ⟨?_, (run_invariant (fun v call => step_keeps call) calls hstart hanswered).openable⟩
    exact Along.imp (I := fun _ => True) (fun _ _ _ _ => trivial)
      (fun v call _ ha => (step_kept_iff call).mpr ha) trivial hanswered

/-- A cipher that does nothing. -/
def Gcm.plain : Gcm where
  encrypt _ _ plaintext := some (plaintext, List.replicate kTagSize 0)
  decrypt _ _ ciphertext _ := some ciphertext
  tag_size _ _ _ _ _ h := by cases h; rfl
  decrypt_encrypt _ _ _ _ _ h := by cases h; rfl

def keyOf (b : UInt8) : Bytes kKeySize := ⟨List.replicate kKeySize b, rfl⟩

/-- A lookup that times out in front of a store that succeeds. -/
def timedOut : Replies := ⟨.fails, .stored, some (keyOf 2), none⟩

/-- One secret is read while the keyring does not answer: its key is replaced for good. -/
theorem timed_out_lookup_loses_key :
    ¬ MasterKeySafe .plain [.unprotect [1] timedOut] (.start (some (Base64.encode (keyOf 1).val))) := by
  rintro ⟨⟨hkept, _⟩, _⟩
  have h := hkept (keyOf 1).val (storedKey_encode (keyOf 1) [])
  have hnew : ((Vault.start (some (Base64.encode (keyOf 1).val))).step .plain (.unprotect [1] timedOut)).keyring.storedKey =
      some (keyOf 2).val := storedKey_encode (keyOf 2) _
  rw [hnew] at h
  exact absurd (Option.some.inj h) (by decide)

end LvdTerm.Core
