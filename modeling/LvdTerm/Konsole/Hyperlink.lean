import LvdTerm.Konsole.Screen

/-!
# Hyperlink: the addresses behind the cells

A cell has a number of 16 bits, 0 where it links to nothing, and a table for all screens the address of each number. What `QUrl` and
`QChar` say of an address comes from outside.
-/
namespace LvdTerm.Konsole

/-- A text of code points. -/
abbrev Text := List Nat

structure HyperlinkTable where
  idToUri : List (Nat × Text)
  keyToId : List (Text × Nat)
  nextId : Nat
  deriving DecidableEq, Repr

namespace HyperlinkTable

def empty : HyperlinkTable := ⟨[], [], 1⟩

/-- `if (_nextId == 0) ++_nextId; id = _nextId++` -/
def takeId (t : HyperlinkTable) : Nat := if t.nextId = 0 then 1 else t.nextId

def insert (uri : Text) (t : HyperlinkTable) : HyperlinkTable :=
  { t with nextId := (t.takeId + 1) % 2 ^ 16, idToUri := (t.takeId, uri) :: t.idToUri }

def key (idParam uri : Text) : Text := idParam ++ 0 :: uri

def createHyperlink (idParam uri : Text) (t : HyperlinkTable) : Nat × HyperlinkTable :=
  if uri = [] then (0, t)
  else if idParam ≠ [] then
    match t.keyToId.lookup (key idParam uri) with
    | some id => (id, t)
    | none => (t.takeId, { t.insert uri with keyToId := (key idParam uri, t.takeId) :: t.keyToId })
  else (t.takeId, t.insert uri)

/-- The address of a number, empty where it has none. -/
def href (id : Nat) (t : HyperlinkTable) : Text := if id = 0 then [] else (t.idToUri.lookup id).getD []

end HyperlinkTable

/-- `QUrl(uri, StrictMode)` and the character classes of `QChar` -/
structure Urls where
  scheme : Text → String
  isValid : Text → Bool
  toString : Text → Text
  isSpace : Nat → Bool
  isControl : Nat → Bool

/-- The parts between the separators. -/
def splitText (separator : Nat) : Text → List Text
  | [] => [[]]
  | c :: rest =>
    if c = separator then [] :: splitText separator rest
    else match splitText separator rest with
      | [] => [[c]]
      | part :: parts => (c :: part) :: parts

def codes (s : String) : Text := s.toList.map Char.toNat

/-- The `id=` among the parameters of a link. -/
def idParam (params : Text) : Text :=
  match (splitText ':'.toNat params).find? fun part => (codes "id=").isPrefixOf part with
  | some part => part.drop 3
  | none => []

def allowedSchemes : List String := ["http", "https", "file", "mailto", "ftp", "man"]

namespace Screen

def setHyperlinkFromOsc (urls : Urls) (params uri : Text) (s : Screen) (t : HyperlinkTable) : Screen × HyperlinkTable :=
  if uri = [] then ({ s with currentHyperlinkId := 0 }, t)
  else if uri.any fun c => urls.isSpace c || urls.isControl c then ({ s with currentHyperlinkId := 0 }, t)
  else if ¬ urls.isValid uri ∨ (urls.scheme uri).toLower ∉ allowedSchemes then ({ s with currentHyperlinkId := 0 }, t)
  else
    let (id, t) := t.createHyperlink (idParam params) (urls.toString uri)
    ({ s with currentHyperlinkId := id }, t)

end Screen

/-! ## How long a number has its address -/

namespace HyperlinkTable

variable {t t' : HyperlinkTable} {idParam uri : Text} {id : Nat}

theorem takeId_range (h : t.nextId < 2 ^ 16) : 0 < t.takeId ∧ t.takeId < 2 ^ 16 := by
  unfold takeId
  split <;> omega

/-- The requests one after the other. -/
def createAll : List (Text × Text) → HyperlinkTable → HyperlinkTable
  | [], t => t
  | (idParam, uri) :: rest, t => (t.createHyperlink idParam uri).2.createAll rest

/-- The addresses of the requests that take a new number. -/
def news : List (Text × Text) → HyperlinkTable → List Text
  | [], _ => []
  | (idParam, uri) :: rest, t =>
    let later := (t.createHyperlink idParam uri).2.news rest
    if uri = [] ∨ idParam ≠ [] ∧ (t.keyToId.lookup (key idParam uri)).isSome then later else uri :: later

/-- A request either finds its number, or takes the next one. -/
theorem createHyperlink_cases (idParam uri : Text) (t : HyperlinkTable) :
    ((uri = [] ∨ idParam ≠ [] ∧ (t.keyToId.lookup (key idParam uri)).isSome) ∧ (t.createHyperlink idParam uri).2 = t) ∨
    (¬ (uri = [] ∨ idParam ≠ [] ∧ (t.keyToId.lookup (key idParam uri)).isSome) ∧ (t.createHyperlink idParam uri).1 = t.takeId ∧
      (t.createHyperlink idParam uri).2.nextId = (t.insert uri).nextId ∧ (t.createHyperlink idParam uri).2.idToUri = (t.insert uri).idToUri) := by
  unfold createHyperlink
  by_cases huri : uri = []
  · exact .inl ⟨.inl huri, by rw [if_pos huri]⟩
  · rw [if_neg huri]
    by_cases hid : idParam = []
    · exact .inr ⟨by simp [huri, hid], by simp [hid]⟩
    · rw [if_pos hid]
      cases hkey : t.keyToId.lookup (key idParam uri) with
      | some id => exact .inl ⟨.inr ⟨hid, rfl⟩, rfl⟩
      | none => exact .inr ⟨by simp [huri], rfl, rfl, rfl⟩

/-- What the table says of number `id` when it was given to the first of these addresses and the others followed. -/
structure Given (id : Nat) (uris : List Text) (t : HyperlinkTable) : Prop where
  some : uris ≠ []
  taken : t.takeId = (id - 1 + uris.length) % 65535 + 1
  small : t.nextId < 2 ^ 16
  shown : t.idToUri.lookup id = uris[65535 * ((uris.length - 1) / 65535)]?

theorem Given.same (h : Given id uris t) (hnext : t'.nextId = t.nextId) (huris : t'.idToUri = t.idToUri) : Given id uris t' :=
  ⟨h.some, by rw [takeId, hnext]; exact h.taken, by rw [hnext]; exact h.small, by rw [huris]; exact h.shown⟩

theorem takeId_insert (hrange : 0 < t.takeId ∧ t.takeId < 2 ^ 16) : (t.insert uri).takeId = t.takeId % 65535 + 1 := by
  generalize hid : t.takeId = id at hrange
  have hnext : (t.insert uri).nextId = (id + 1) % 2 ^ 16 := by rw [insert, hid]
  rw [takeId, hnext]
  split <;> omega

theorem given_first (h : t.nextId < 2 ^ 16) (uri : Text) : Given t.takeId [uri] (t.insert uri) where
  some := List.cons_ne_nil _ _
  taken := by
    have hrange := takeId_range h
    rw [takeId_insert hrange, List.length_singleton]
    omega
  small := Nat.mod_lt _ (by decide)
  shown := by
    rw [List.length_singleton, Nat.sub_self, Nat.zero_div, Nat.mul_zero, List.getElem?_cons_zero]
    exact List.lookup_cons_self

/-- Every 65535th address that is given a number gets this one. -/
theorem Given.insert {uris : List Text} (h : Given id uris t) (hid : 0 < id ∧ id < 2 ^ 16) (uri : Text) :
    Given id (uris ++ [uri]) (t.insert uri) := by
  have hpos := List.length_pos_iff.mpr h.some
  have hrange := takeId_range h.small
  have htaken := h.taken
  refine ⟨by simp, ?_, Nat.mod_lt _ (by decide), ?_⟩
  · rw [takeId_insert hrange, List.length_append, List.length_singleton]
    omega
  · rw [List.length_append, List.length_singleton, Nat.add_sub_cancel]
    by_cases hagain : uris.length % 65535 = 0
    · have hsame : t.takeId = id := by omega
      have hplace : 65535 * (uris.length / 65535) = uris.length := by omega
      rw [hplace, List.getElem?_concat_length, HyperlinkTable.insert, hsame]
      exact List.lookup_cons_self
    · have hother : (id == t.takeId) = false := beq_false_of_ne (by omega)
      have hplace : uris.length / 65535 = (uris.length - 1) / 65535 := by omega
      rw [hplace, List.getElem?_append_left (by omega), ← h.shown]
      change List.lookup id ((t.takeId, uri) :: t.idToUri) = _
      rw [List.lookup_cons, hother]

theorem Given.createAll {uris : List Text} (h : Given id uris t) (hid : 0 < id ∧ id < 2 ^ 16) (requests : List (Text × Text)) :
    Given id (uris ++ t.news requests) (t.createAll requests) := by
  induction requests generalizing t uris with
  | nil =>
    rw [news, List.append_nil]
    exact h
  | cons request rest ih =>
    obtain ⟨idParam, uri⟩ := request
    rw [HyperlinkTable.createAll, news]
    rcases createHyperlink_cases idParam uri t with ⟨hfound, hsame⟩ | ⟨hnew, -, hnext, huris⟩
    · simp only [if_pos hfound, hsame]
      exact ih h
    · have hafter := ih ((h.insert hid uri).same hnext huris)
      simp only [if_neg hnew]
      rwa [List.append_assoc, List.singleton_append] at hafter

/-- A link that is given a new number shows its own address until 65535 more addresses were given one, and from then on another one's:
every 65535th address is shown by the same number. -/
theorem link_shows (ht : t.nextId < 2 ^ 16) (huri : uri ≠ []) (hnew : idParam = [] ∨ t.keyToId.lookup (key idParam uri) = none)
    (requests : List (Text × Text)) :
    let link := t.createHyperlink idParam uri
    let later := link.2.news requests
    some ((link.2.createAll requests).href link.1) = (uri :: later)[65535 * (later.length / 65535)]? := by
  have hrange := takeId_range ht
  have hnotfound : ¬ (uri = [] ∨ idParam ≠ [] ∧ (t.keyToId.lookup (key idParam uri)).isSome) := by
    rcases hnew with hnew | hnew <;> simp [huri, hnew]
  obtain ⟨hfound, -⟩ | ⟨-, hid, hnext, huris⟩ := createHyperlink_cases idParam uri t
  · exact absurd hfound hnotfound
  · have hall := ((given_first ht uri).same hnext huris).createAll hrange requests
    have hshown := hall.shown
    rw [List.singleton_append, List.length_cons, Nat.add_sub_cancel] at hshown
    simp only [hid, href, if_neg (Nat.ne_of_gt hrange.1), hshown]
    rw [List.getElem?_eq_getElem (by rw [List.length_cons]; omega), Option.getD_some]

theorem link_shows_own :
    some (((empty.createHyperlink [] [104]).2.createAll [([], [105])]).href (empty.createHyperlink [] [104]).1) = some [104] :=
  @link_shows empty [] [104] (by decide) (by decide) (.inl rfl) [([], [105])]

end HyperlinkTable

end LvdTerm.Konsole
