import LvdTerm.Core.ProfileSecrets
import LvdTerm.Core.SessionStore

/-!
# How the stores survive a save

Both files are truncated and written anew, and nobody looks at how the writing went. Here a
file is its bytes, and a save may stop after any number of them. `Durable` is what a save should
be: the next load finds what was there or what was being saved, and a file that could not be
read is not overwritten. `Survives` says exactly which saves are.
-/
namespace LvdTerm.Core

open Lib Lib.Runs

/-- `QJsonDocument`; the first bytes of an object's text are no document, or all of it (without
the last line end). -/
structure JsonText where
  toText : QJsonValue → QByteArray
  parse : QByteArray → Option QJsonValue
  parse_take : ∀ (o : QJsonObject) k, parse ((toText (.object o)).take k) = none ∨
    parse ((toText (.object o)).take k) = some (.object o)

/-- How far a save gets: a short or failing write and a crash leave the first bytes. -/
inductive SaveOutcome where
  | openFails
  | written (bytes : Nat)

/-- The file after `open(WriteOnly | Truncate)` and `write`. -/
def SaveOutcome.after (outcome : SaveOutcome) (text : QByteArray) (content : Option QByteArray) : Option QByteArray :=
  match outcome with
  | .openFails => content
  | .written bytes => some (text.take bytes)

/-- What a file is read as, where it can be opened. -/
def JsonText.read (j : JsonText) (content : Option QByteArray) : Option QJsonValue :=
  content.map fun text => (j.parse text).getD .null

/-- The two stores of a process, and their files. -/
structure StoreFiles where
  store : ProfileStore
  connections : Option QByteArray
  session : Option QByteArray
  /-- The process found a `connections.json` that may hold profiles, and could not read it. -/
  unread : Bool

inductive FileEvent where
  /-- A new process; `readable` is whether its files can be opened for reading. -/
  | start (readable : Bool) (c : StoreCalls)
  | change (change : StoreChange) (c : StoreCalls) (outcome : SaveOutcome)
  | saveSession (state : SessionState) (c : StoreCalls) (outcome : SaveOutcome)

/-- A text that is no JSON may hold profiles, unless it is empty. -/
def mayHoldProfiles (j : JsonText) (text : QByteArray) : Bool :=
  match j.parse text with
  | some doc => !(profileObjects (some doc)).isEmpty
  | none => !text.isEmpty

def isUnread (j : JsonText) (readable : Bool) (content : Option QByteArray) : Bool :=
  match content with
  | none => false
  | some text => mayHoldProfiles j text && (!readable || (j.parse text).isNone)

variable (pl : Platform) (j : JsonText)

def StoreFiles.step (s : StoreFiles) : FileEvent → StoreFiles
  | .start readable c => { s with
      store := ProfileStore.load pl c (if readable then j.read s.connections else none) ⟨[], []⟩
      unread := isUnread j readable s.connections }
  | .change change c outcome =>
    match s.store.change change with
    | none => s
    | some store => { s with
        store := store
        connections := outcome.after (j.toText (.object (store.document pl c))) s.connections }
  | .saveSession state c outcome => { s with session := outcome.after (j.toText (.object (state.save pl c))) s.session }

/-! ## What a save should be -/

/-- After the save the next load finds what was there or what was being saved. -/
def SaveDurable {α : Type} (load : StoreCalls → Option QJsonValue → α) (doc : QJsonObject) (outcome : SaveOutcome)
    (content : Option QByteArray) : Prop :=
  ∀ cl, load cl (j.read (outcome.after (j.toText (.object doc)) content)) = load cl (j.read content) ∨
    load cl (j.read (outcome.after (j.toText (.object doc)) content)) = load cl (some (.object doc))

def loadProfiles (cl : StoreCalls) (file : ProfileFile) : ProfileStore := ProfileStore.load pl cl file ⟨[], []⟩

def Durable (s : StoreFiles) : FileEvent → Prop
  | .start _ _ => True
  | .change change c outcome => ∀ store, s.store.change change = some store →
    SaveDurable j (loadProfiles pl) (store.document pl c) outcome s.connections ∧
      (s.unread = true → (s.step pl j (.change change c outcome)).connections = s.connections)
  | .saveSession state c outcome => SaveDurable j (SessionState.load pl) (state.save pl c) outcome s.session

/-- The save leaves the file alone, or gets to the end of the document. -/
def Finishes (doc : QJsonObject) : SaveOutcome → Prop
  | .openFails => True
  | .written bytes => j.parse ((j.toText (.object doc)).take bytes) = some (.object doc)

/-- Nothing is lost with this `connections.json`. -/
def Blank (file : ProfileFile) : Prop := profileObjects file = [] ∧ folderNames file = []

/-- A save survives if it finishes, or if one of the two documents is empty; and a file that could
not be read survives if it is not opened for writing, or gets back the bytes it had. -/
def Survives (s : StoreFiles) : FileEvent → Prop
  | .start _ _ => True
  | .change change c outcome => ∀ store, s.store.change change = some store →
    (Finishes j (store.document pl c) outcome ∨ Blank (j.read s.connections) ∨
      Blank (some (.object (store.document pl c)))) ∧
    (s.unread = true → outcome = .openFails ∨
      ∃ bytes, outcome = .written bytes ∧ s.connections = some ((j.toText (.object (store.document pl c))).take bytes))
  | .saveSession state c outcome => Finishes j (state.save pl c) outcome ∨
    ∀ cl, SessionState.load pl cl (j.read s.session) = {} ∨ SessionState.load pl cl (some (.object (state.save pl c))) = {}

/-! ## Loading what a save left -/

variable {pl : Platform} {j : JsonText}

theorem saveDurable_iff {α : Type} {load : StoreCalls → Option QJsonValue → α} {empty : α}
    (hnull : ∀ cl, load cl (some .null) = empty) (doc : QJsonObject) (outcome : SaveOutcome) (content : Option QByteArray) :
    SaveDurable j load doc outcome content ↔
      Finishes j doc outcome ∨ ∀ cl, load cl (j.read content) = empty ∨ load cl (some (.object doc)) = empty := by
  cases outcome with
  | openFails =>
    constructor
    · intro _
      exact .inl trivial
    · intro _ cl
      exact .inl rfl
  | written bytes =>
    unfold SaveDurable Finishes SaveOutcome.after JsonText.read
    obtain hnone | hdoc := j.parse_take doc bytes
    · simp only [hnone, Option.map_some, Option.getD_none, hnull, reduceCtorEq, false_or]
      constructor
      · intro h cl
        exact (h cl).imp Eq.symm Eq.symm
      · intro h cl
        exact (h cl).imp Eq.symm Eq.symm
    · constructor
      · intro _
        exact .inl hdoc
      · intro _ cl
        right
        rw [Option.map_some, hdoc]
        rfl

theorem readProfiles_eq_nil (c : StoreCalls) (os : List QJsonObject) : readProfiles pl c os = [] ↔ os = [] := by
  cases os with
  | nil => exact iff_of_true rfl rfl
  | cons o os => exact iff_of_false (List.cons_ne_nil _ _) (List.cons_ne_nil _ _)

theorem loadProfiles_blank (cl : StoreCalls) (file : ProfileFile) : loadProfiles pl cl file = ⟨[], []⟩ ↔ Blank file := by
  unfold loadProfiles ProfileStore.load Blank
  cases file with
  | none => exact iff_of_true rfl ⟨rfl, rfl⟩
  | some doc =>
    rw [if_neg (by simp), ProfileStore.mk.injEq, readProfiles_eq_nil]

theorem durable_iff (s : StoreFiles) (event : FileEvent) : Durable pl j s event ↔ Survives pl j s event := by
  cases event with
  | start readable c => exact Iff.rfl
  | saveSession state c outcome => exact saveDurable_iff (fun _ => rfl) _ outcome s.session
  | change change c outcome =>
    unfold Durable Survives
    apply forall_congr'
    intro store
    apply imp_congr_right
    intro hchange
    apply and_congr
    · have hload : ∀ cl, loadProfiles pl cl (some .null) = ⟨[], []⟩ := fun _ => rfl
      rw [saveDurable_iff hload]
      simp only [loadProfiles_blank]
      apply or_congr_right
      constructor
      · intro h
        exact h fun _ => ⟨fun _ => ⟨[], none⟩, 0⟩
      · intro h _
        exact h
    · apply imp_congr_right
      intro _
      have hstep : (s.step pl j (.change change c outcome)).connections =
          outcome.after (j.toText (.object (store.document pl c))) s.connections := by
        simp only [StoreFiles.step, hchange]
      rw [hstep]
      cases outcome with
      | openFails => exact iff_of_true rfl (.inl rfl)
      | written bytes =>
        constructor
        · intro h
          exact .inr ⟨bytes, rfl, h.symm⟩
        · rintro (h | ⟨b, hb, h⟩)
          · cases h
          · cases hb
            exact h.symm

def oneShell : QJsonObject := [("profiles", .array [.object [("type", .string "local".toList)]])]

/-- `{"profiles":[{"type":"local"}]}`, after a blank. -/
def oneShellText : QByteArray := " \x7b\"profiles\":[\x7b\"type\":\"local\"\x7d]\x7d".toList.map fun c => UInt8.ofNat c.toNat

/-- Of the bytes a save leaves, only the empty ones are looked at. -/
def JsonText.oneShell : JsonText where
  toText _ := [123, 125]
  parse text := if text = oneShellText then some (.object Core.oneShell) else none
  parse_take o k := by
    left
    rw [if_neg]
    intro h
    have hlen : ([123, 125].take k : QByteArray).length = oneShellText.length := congrArg List.length h
    rw [List.length_take] at hlen
    have hlong : 2 < oneShellText.length := by decide
    have hshort : min k ([123, 125] : QByteArray).length ≤ 2 := Nat.min_le_right k 2
    omega

end LvdTerm.Core
