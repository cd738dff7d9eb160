import LvdTerm.Core.ProfileStore

/-!
# SessionStore

The tabs with their pane trees, and `session.json`. A leaf's connection is written like a saved
profile, so each leaf takes the next of the given calls, in the order of the tree.
-/
namespace LvdTerm.Core

open Lib

inductive Orientation where
  | horizontal | vertical
  deriving DecidableEq

inductive SessionNode where
  | leaf (connection : Option ConnectionProfile)
  | splitter (orientation : Orientation) (sizes : List Int) (children : List SessionNode)

structure SessionTab where
  title : QString
  root : SessionNode

structure SessionState where
  windowGeometry : QByteArray := []
  windowState : QByteArray := []
  tabs : List SessionTab := []
  currentTabIndex : Int := 0

variable (pl : Platform)

/-! ## Writing -/

def orientationToString (o : Orientation) : QString :=
  if o = .horizontal then "horizontal".toList else "vertical".toList

mutual

def nodeToJson (c : StoreCalls) : SessionNode → QJsonObject × StoreCalls
  | .leaf none => ([("kind", .string "leaf".toList)], c)
  | .leaf (some p) => ([("kind", .string "leaf".toList), ("connection", .object (p.toJson pl (c 0).calls))], c.next)
  | .splitter orientation sizes children =>
    let (children, c) := nodesToJson c children
    ([("kind", .string "splitter".toList), ("orientation", .string (orientationToString orientation)),
      ("sizes", .array (sizes.map fun size => .number size)), ("children", .array children)], c)

def nodesToJson (c : StoreCalls) : List SessionNode → List QJsonValue × StoreCalls
  | [] => ([], c)
  | node :: nodes =>
    let (o, c) := nodeToJson c node
    let (os, c) := nodesToJson c nodes
    (.object o :: os, c)

end

def tabsToJson (c : StoreCalls) : List SessionTab → List QJsonValue
  | [] => []
  | tab :: tabs =>
    let (root, c) := nodeToJson pl c tab.root
    .object [("title", .string tab.title), ("root", .object root)] :: tabsToJson c tabs

/-- The document that `SessionStore::save` writes. -/
def SessionState.save (c : StoreCalls) (state : SessionState) : QJsonObject :=
  [("windowGeometry", .string (fromLatin1 (Base64.encode state.windowGeometry))),
    ("windowState", .string (fromLatin1 (Base64.encode state.windowState))),
    ("currentTabIndex", .number state.currentTabIndex), ("tabs", .array (tabsToJson pl c state.tabs))]

/-! ## Reading -/

theorem sizeOf_lookup (o : QJsonObject) (key : String) : sizeOf (o.lookup key) ≤ sizeOf o := by
  induction o with
  | nil => simp
  | cons field o ih =>
    obtain ⟨k, v⟩ := field
    rw [List.lookup_cons]
    split
    · simp only [Option.some.sizeOf_spec, List.cons.sizeOf_spec, Prod.mk.sizeOf_spec]
      omega
    · simp only [List.cons.sizeOf_spec]
      omega

theorem sizeOf_value_toArray (o : QJsonObject) (key : String) : sizeOf (QJsonObject.value o key).toArray ≤ sizeOf o := by
  have h := sizeOf_lookup o key
  unfold QJsonObject.value
  cases hv : o.lookup key with
  | none =>
    cases o <;> simp [QJsonValue.toArray]
    omega
  | some v =>
    rw [hv] at h
    rw [Option.getD_some]
    cases v <;> simp_all [QJsonValue.toArray] <;> omega

mutual

def nodeFromJson (c : StoreCalls) (o : QJsonObject) : Option SessionNode × StoreCalls :=
  if (QJsonObject.value o "kind").toString = "splitter".toList then
    let orientation := if (QJsonObject.value o "orientation").toString = "vertical".toList then Orientation.vertical else .horizontal
    let sizes := (QJsonObject.value o "sizes").toArray.map fun v => v.toInt 0
    let (children, c) := nodesFromJson c (QJsonObject.value o "children").toArray
    -- an all-unpersistable (or empty) splitter is pointless to restore
    if children = [] then (none, c) else (some (.splitter orientation sizes children), c)
  else if (o.lookup "connection").isNone then (none, c)
  else (some (.leaf (some (.fromJson pl (c 0).calls (c 0).newId (QJsonObject.value o "connection").toObject))), c.next)
termination_by 2 * sizeOf o + 1
decreasing_by
  have h := sizeOf_value_toArray o "children"
  omega

def nodesFromJson (c : StoreCalls) : List QJsonValue → List SessionNode × StoreCalls
  | [] => ([], c)
  | .object o :: vs =>
    let (node, c) := nodeFromJson c o
    let (nodes, c) := nodesFromJson c vs
    (node.toList ++ nodes, c)
  | _ :: vs => nodesFromJson c vs
termination_by vs => 2 * sizeOf vs
decreasing_by
  all_goals simp only [List.cons.sizeOf_spec, QJsonValue.object.sizeOf_spec]; omega

end

def tabsFromJson (c : StoreCalls) : List QJsonValue → List SessionTab
  | [] => []
  | .object tab :: vs =>
    if (tab.lookup "root").isNone then tabsFromJson c vs
    else
      let (root, c) := nodeFromJson pl c (QJsonObject.value tab "root").toObject
      match root with
      | none => tabsFromJson c vs
      | some root => ⟨(QJsonObject.value tab "title").toString, root⟩ :: tabsFromJson c vs
  | _ :: vs => tabsFromJson c vs

/-- `SessionStore::load`; `none` where the file cannot be opened, `null` where it is no JSON. -/
def SessionState.load (c : StoreCalls) : Option QJsonValue → SessionState
  | some (.object root) => {
      windowGeometry := Base64.decode (toLatin1 (QJsonObject.value root "windowGeometry").toString)
      windowState := Base64.decode (toLatin1 (QJsonObject.value root "windowState").toString)
      tabs := tabsFromJson pl c (QJsonObject.value root "tabs").toArray
      currentTabIndex := (QJsonObject.value root "currentTabIndex").toInt 0 }
  | _ => {}

end LvdTerm.Core
