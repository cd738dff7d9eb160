import LvdTerm.Ssh.KnownHosts

/-!
# Writing known_hosts and reading it back

A file whose entries are each written as a line that reads back as the entry is read back whole. An
ordinary entry is one of these: a host name that is a word, and a key of a type with a name.
-/
namespace LvdTerm.Ssh

open LvdTerm.Lib LvdTerm.Lib.CText

/-- The entry's line reads back as the entry. -/
def RoundTrips (n : KnownHost) : Prop :=
  ∃ line, writeline n = some line ∧ Line (kBufferSize - 1) line ∧ 0 ∉ line ∧ readline line = ([n], true)

theorem readfile_writefile {hosts : List KnownHost} (h : ∀ n ∈ hosts, RoundTrips n) : readfile (writefile hosts) = hosts := by
  induction hosts with
  | nil => rfl
  | cons n hosts ih =>
    obtain ⟨line, hwrite, hline, hnul, hread⟩ := h n List.mem_cons_self
    have hrest := ih fun m hm => h m (List.mem_cons_of_mem _ hm)
    unfold readfile at hrest ⊢
    rw [writefile, hwrite]
    simp only [fgetsAll_line hline]
    rw [readlines, cstr_of_not_mem hnul, hread]
    simp only [hrest, List.singleton_append]

/-! ## Words -/

/-- No separator of the file, no newline and no NUL. -/
structure Word (text : CBytes) : Prop where
  nonempty : text ≠ []
  no_blank : ∀ c ∈ text, isBlank c = false
  no_newline : newline ∉ text
  no_nul : 0 ∉ text

theorem Word.takeWhile {text : CBytes} (h : Word text) (rest : CBytes) :
    (text ++ 32 :: rest).takeWhile (!isBlank ·) = text := by
  rw [List.takeWhile_append_of_pos fun c hc => by simp [h.no_blank c hc]]
  simp [isBlank]

theorem Word.dropWhile {text : CBytes} (h : Word text) (rest : CBytes) :
    (text ++ 32 :: rest).dropWhile (!isBlank ·) = 32 :: rest := by
  rw [List.dropWhile_append_of_pos fun c hc => by simp [h.no_blank c hc]]
  simp [isBlank]

theorem Word.takeWhile_self {text : CBytes} (h : Word text) : text.takeWhile (!isBlank ·) = text :=
  List.takeWhile_eq_self_iff.mpr fun c hc => by simp [h.no_blank c hc]

theorem Word.dropWhile_self {text : CBytes} (h : Word text) : text.dropWhile (!isBlank ·) = [] :=
  List.dropWhile_eq_nil_iff.mpr fun c hc => by simp [h.no_blank c hc]

theorem Word.dropBlanks {text : CBytes} (h : Word text) (rest : CBytes) : (text ++ rest).dropWhile isBlank = text ++ rest := by
  cases text with
  | nil => exact absurd rfl h.nonempty
  | cons c text => simp [h.no_blank c List.mem_cons_self]

/-- The name of a key type. -/
def namedType : KeyType → Option CBytes
  | .rsa1 => none
  | .sshRsa => some rsaName
  | .ecdsa256 => some ecdsa256Name
  | .ecdsa384 => some ecdsa384Name
  | .ecdsa521 => some ecdsa521Name
  | .ed25519 => some ed25519Name
  | .unknown => none

theorem namedType_spec {type : KeyType} {name : CBytes} (h : namedType type = some name) :
    Word name ∧ keyTypeOfName name = type ∧ 57 < name.headD 0 ∧ type ≠ .unknown := by
  have hword {name : CBytes} (hne : name ≠ []) (h : name.all (fun c => !isBlank c && c != newline && c != 0) = true) :
      Word name := by
    have hchar {c : UInt8} (hc : c ∈ name) : isBlank c = false ∧ c ≠ newline ∧ c ≠ 0 := by
      have hc := List.all_eq_true.mp h c hc
      simpa [and_assoc] using hc
    exact ⟨hne, fun c hc => (hchar hc).1, fun hc => (hchar hc).2.1 rfl, fun hc => (hchar hc).2.2 rfl⟩
  cases type with
  | rsa1 => cases h
  | unknown => cases h
  | sshRsa => cases h; exact ⟨hword (by decide) (by decide), by decide, by decide, by decide⟩
  | ecdsa256 => cases h; exact ⟨hword (by decide) (by decide), by decide, by decide, by decide⟩
  | ecdsa384 => cases h; exact ⟨hword (by decide) (by decide), by decide, by decide, by decide⟩
  | ecdsa521 => cases h; exact ⟨hword (by decide) (by decide), by decide, by decide, by decide⟩
  | ed25519 => cases h; exact ⟨hword (by decide) (by decide), by decide, by decide, by decide⟩

/-! ## Ordinary entries -/

theorem oldstyleNames_of_not_mem (k : KeyPart) (host : CBytes) (hcomma : 44 ∉ host) (hne : host ≠ []) (name : CBytes)
    (hlen : (host.reverse ++ name).length < 255) :
    oldstyleNames k host name = ([k.host (.plain (host.reverse ++ name))], true) := by
  induction host generalizing name with
  | nil => exact absurd rfl hne
  | cons c host ih =>
    cases host with
    | nil =>
      rw [oldstyleNames, if_neg (by simp at hlen ⊢; omega)]
      rfl
    | cons d host =>
      have hd : d ≠ 44 := by
        rintro rfl
        exact hcomma (by simp)
      rw [oldstyleNames, if_neg hd, ih (fun h => hcomma (List.mem_cons_of_mem _ h)) (by simp) _ (by simpa using hlen)]
      simp

/-- A plain entry as the application stores it. -/
structure Ordinary (n : KnownHost) (name type : CBytes) : Prop where
  name_eq : n.name = .plain name
  name_word : Word name
  name_length : 3 ≤ name.length ∧ name.length < 255
  name_plain : 44 ∉ name ∧ name.head? ≠ some 35 ∧ name.take 3 ≠ hashMarker
  type_eq : namedType n.keyType = some type
  key_word : Word n.key
  /-- A shorter key part is refused, and so is a line that does not fit into the buffer. -/
  length : 20 ≤ (type ++ 32 :: n.key).length ∧ name.length + type.length + n.key.length + 3 < kBufferSize
  bare : n.keyTypeName = none ∧ n.comment = none

namespace Ordinary

variable {n : KnownHost} {name type : CBytes}

theorem keyPart_eq (h : Ordinary n name type) (tail : CBytes) :
    (keyPart (type ++ 32 :: n.key) tail).host (.plain name) = n := by
  obtain ⟨hword, hname, hhead, hknown⟩ := namedType_spec h.type_eq
  have hdigit : ¬ (48 ≤ (type ++ 32 :: n.key).headD 0 ∧ (type ++ 32 :: n.key).headD 0 ≤ 57) := by
    cases type with
    | nil => exact absurd rfl hword.nonempty
    | cons c type => exact fun hc => absurd hc.2 (UInt8.not_le.mpr hhead)
  have hrest : (32 :: n.key).dropWhile isBlank = n.key := by
    have hkey := h.key_word.dropBlanks []
    rw [List.append_nil] at hkey
    rw [List.dropWhile_cons_of_pos (by rfl), hkey]
  unfold keyPart
  rw [if_neg hdigit]
  simp only [hword.takeWhile, hword.dropWhile, hrest, h.key_word.takeWhile_self, h.key_word.dropWhile_self, hname,
    if_neg hknown, if_neg h.key_word.nonempty, if_pos]
  obtain ⟨host, keyType, key, keyTypeName, comment⟩ := n
  obtain ⟨htypeName, hcomment⟩ := h.bare
  have hhost := h.name_eq
  simp only at htypeName hcomment hhost
  rw [htypeName, hcomment, hhost]
  rfl

/-- What is written of it. -/
def text (n : KnownHost) (name type : CBytes) : CBytes := name ++ 32 :: (type ++ 32 :: n.key)

theorem hostline_eq (h : Ordinary n name type) : hostline (text n name type ++ [newline]) name.length (type ++ 32 :: n.key) [newline]
    = ([n], true) := by
  have htake : (text n name type ++ [newline]).take name.length = name := by simp [text]
  have hmarker : (text n name type ++ [newline]).take 3 ≠ hashMarker := by
    rw [text, List.append_assoc, List.take_append_of_le_length h.name_length.1]
    exact h.name_plain.2.2
  unfold hostline
  rw [if_neg (Nat.not_lt.mpr h.length.1), if_pos ⟨h.name_length.1, hmarker⟩, htake]
  have hnames := oldstyleNames_of_not_mem (keyPart (type ++ 32 :: n.key) [newline]) name.reverse
    (fun hc => h.name_plain.1 (List.mem_reverse.mp hc)) (by simpa using h.name_word.nonempty) []
    (by simpa using h.name_length.2)
  rw [oldstyleHostline, hnames]
  simp only [List.reverse_reverse, List.append_nil, h.keyPart_eq]

theorem readline_eq (h : Ordinary n name type) : readline (text n name type ++ [newline]) = ([n], true) := by
  obtain ⟨hword, -, -, -⟩ := namedType_spec h.type_eq
  have hno : ∀ c ∈ type ++ 32 :: n.key, decide (c ≠ newline) = true := by
    intro c hc
    refine decide_eq_true fun hnl => ?_
    subst hnl
    rcases List.mem_append.mp hc with ht | hk
    · exact hword.no_newline ht
    · rcases List.mem_cons.mp hk with h32 | hk
      · cases h32
      · exact h.key_word.no_newline hk
  have hline : text n name type ++ [newline] = name ++ 32 :: (type ++ 32 :: n.key ++ [newline]) := by simp [text]
  have hblank : (32 :: (type ++ 32 :: n.key ++ [newline])).dropWhile isBlank = type ++ 32 :: n.key ++ [newline] := by
    rw [List.dropWhile_cons_of_pos (by rfl), List.append_assoc, hword.dropBlanks]
  have hskip : ¬ (name ++ 32 :: (type ++ 32 :: n.key ++ [newline]) = [] ∨
      (name ++ 32 :: (type ++ 32 :: n.key ++ [newline])).head? = some 35 ∨
      (name ++ 32 :: (type ++ 32 :: n.key ++ [newline])).head? = some newline) := by
    have hhash := h.name_plain.2.1
    have hnl := h.name_word.no_newline
    cases name with
    | nil => exact absurd rfl h.name_word.nonempty
    | cons c name =>
      rw [List.head?_cons] at hhash
      simp only [List.mem_cons, not_or] at hnl
      simp [hhash, Ne.symm hnl.1]
  have hhostline := h.hostline_eq
  rw [hline] at hhostline ⊢
  unfold readline
  simp only [h.name_word.dropBlanks, if_neg hskip, h.name_word.takeWhile, h.name_word.dropWhile, hblank,
    List.takeWhile_append_of_pos hno, List.dropWhile_append_of_pos hno]
  simpa using hhostline

theorem roundTrips (h : Ordinary n name type) : RoundTrips n := by
  obtain ⟨hword, -, -, hknown⟩ := namedType_spec h.type_eq
  have htype : typeName n = some type := by
    have htype := h.type_eq
    unfold typeName
    cases hk : n.keyType <;> simp_all [namedType]
  have hlength : (text n name type ++ [newline]).length + 1 ≤ kBufferSize := by
    have hlen := h.length.2
    simp [text]
    omega
  have hmem {c : UInt8} (hname : c ∉ name) (htype : c ∉ type) (hkey : c ∉ n.key) (h32 : c ≠ 32) : c ∉ text n name type := by
    simp [text, hname, htype, hkey, h32]
  refine ⟨text n name type ++ [newline], ?writeline, ⟨⟨_, rfl, ?newline⟩, Nat.le_sub_of_add_le hlength⟩, ?nul, h.readline_eq⟩
  case writeline =>
    unfold writeline
    rw [htype, h.name_eq, h.bare.2]
    simp only [text, List.length_append, List.length_cons, List.length_nil] at hlength
    simp [nameText, text, hword.nonempty]
    omega
  case newline => exact hmem h.name_word.no_newline hword.no_newline h.key_word.no_newline (by decide)
  case nul =>
    have hno := hmem h.name_word.no_nul hword.no_nul h.key_word.no_nul (by decide)
    simpa [newline] using hno

end Ordinary

/-! ## Presented keys -/

theorem word_encode {blob : CBytes} (h : blob ≠ []) : Word (Base64.encode blob) := by
  have hchars : ∀ c ∈ Base64.encode blob, isBlank c = false ∧ c ≠ newline ∧ c ≠ 0 := by
    have hdigit : ∀ n : Fin 64, isBlank (Base64.digit n) = false ∧ Base64.digit n ≠ newline ∧ Base64.digit n ≠ 0 := by decide
    intro c hc
    rcases Base64.mem_encode hc with ⟨n, hn, rfl⟩ | rfl
    · exact hdigit ⟨n, hn⟩
    · decide
  have hlen := Base64.length_encode blob
  have hpos := List.length_pos_iff.mpr h
  refine ⟨?_, fun c hc => (hchars c hc).1, fun hc => (hchars _ hc).2.1 rfl, fun hc => (hchars _ hc).2.2 rfl⟩
  exact List.ne_nil_of_length_pos (by omega)

/-- A key that begins with the name of its type is long enough. -/
theorem namedType_hostkeyType {blob : CBytes} (h : hostkeyType blob ≠ .unknown) :
    ∃ type, namedType (hostkeyType blob) = some type ∧ 7 ≤ type.length ∧ type.length ≤ 19 ∧ type.length + 4 ≤ blob.length := by
  have hlen {name : CBytes} (hp : (sshString name).isPrefixOf blob = true) : name.length + 4 ≤ blob.length := by
    have hle := (List.isPrefixOf_iff_prefix.mp hp).length_le
    simp [sshString] at hle
    omega
  unfold hostkeyType at h ⊢
  split
  case isTrue hp => exact ⟨rsaName, rfl, by decide, by decide, hlen hp⟩
  split
  case isTrue hp => exact ⟨ed25519Name, rfl, by decide, by decide, hlen hp⟩
  split
  case isTrue hp => exact ⟨ecdsa256Name, rfl, by decide, by decide, hlen hp⟩
  split
  case isTrue hp => exact ⟨ecdsa384Name, rfl, by decide, by decide, hlen hp⟩
  split
  case isTrue hp => exact ⟨ecdsa521Name, rfl, by decide, by decide, hlen hp⟩
  case isFalse => simp_all

end LvdTerm.Ssh
