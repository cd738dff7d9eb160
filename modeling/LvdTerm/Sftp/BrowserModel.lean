import LvdTerm.Lib.Paths

/-!
# SftpModel

The lazily listed tree of the remote files. A node is found by its path, and by its number where
the source holds a pointer or a `QModelIndex`; an index whose node is gone is invalid, which stands
for the root. Paths are taken to be distinct. What the view asks for (columns, icons, flags) is
left out.
-/
namespace LvdTerm.Sftp

open Lib.Paths

structure SftpEntry where
  name : Text
  isDirectory : Bool
  size : Int
  modifiedTime : Int
  deriving DecidableEq

def joinRemotePath (dir name : Text) : Text := if dir.getLast? = some '/' then dir ++ name else dir ++ '/' :: name

namespace SftpModel

structure NodeInfo where
  number : Nat
  name : Text
  path : Text
  isDirectory : Bool
  size : Int
  modifiedTime : Int
  childrenLoaded : Bool
  loading : Bool
  deriving DecidableEq

inductive Node where
  | mk (info : NodeInfo) (children : List Node)

namespace Node

def info : Node → NodeInfo
  | mk info _ => info

def children : Node → List Node
  | mk _ children => children

mutual

/-- The node and all nodes under it. -/
def all : Node → List Node
  | mk info children => mk info children :: allOf children

def allOf : List Node → List Node
  | [] => []
  | n :: ns => n.all ++ allOf ns

end

mutual

def modify (number : Nat) (f : Node → Node) : Node → Node
  | mk info children => if info.number = number then f (mk info children) else mk info (modifyOf number f children)

def modifyOf (number : Nat) (f : Node → Node) : List Node → List Node
  | [] => []
  | n :: ns => n.modify number f :: modifyOf number f ns

end

mutual

def remove (number : Nat) : Node → Node
  | mk info children => mk info (removeOf number children)

def removeOf (number : Nat) : List Node → List Node
  | [] => []
  | n :: ns => if n.info.number = number then ns else n.remove number :: removeOf number ns

end

def setLoading (loading : Bool) : Node → Node
  | mk info children => mk { info with loading := loading } children

def list (listed : List Node) : Node → Node
  | mk info _ => mk { info with childrenLoaded := true, loading := false } listed

def append (child : Node) : Node → Node
  | mk info children => mk info (children ++ [child])

end Node

/-- `none` for the root. -/
abbrev Index := Option Nat

end SftpModel

structure SftpModel where
  root : SftpModel.Node
  next : Nat

namespace SftpModel

/-- The model until the first `setRoot`. -/
def empty : SftpModel := ⟨.mk ⟨0, [], [], true, 0, 0, true, false⟩ [], 1⟩

def setRoot (path : Text) (m : SftpModel) : SftpModel :=
  ⟨.mk ⟨m.next, path, path, true, 0, 0, false, false⟩ [], m.next + 1⟩

def findNodeByPath (path : Text) (m : SftpModel) : Option Node := m.root.all.find? fun n => n.info.path = path

def nodeForIndex (index : Index) (m : SftpModel) : Node :=
  match index with
  | none => m.root
  | some number => (m.root.all.find? fun n => n.info.number = number).getD m.root

def indexForNode (n : Node) (m : SftpModel) : Index :=
  if n.info.number = m.root.info.number then none else some n.info.number

def rootPath (m : SftpModel) : Text := m.root.info.path

def pathForIndex (index : Index) (m : SftpModel) : Text := (m.nodeForIndex index).info.path

def isLoaded (index : Index) (m : SftpModel) : Bool := (m.nodeForIndex index).info.childrenLoaded

def isDirectory (index : Index) (m : SftpModel) : Bool := (m.nodeForIndex index).info.isDirectory

def indexForPath (path : Text) (m : SftpModel) : Index := (m.findNodeByPath path).bind m.indexForNode

def parent (index : Index) (m : SftpModel) : Index :=
  index.bind fun number =>
    (m.root.all.find? fun p => p.children.any fun n => n.info.number = number).bind m.indexForNode

/-- Is the node still there? -/
def holds (number : Nat) (m : SftpModel) : Bool := m.root.all.any fun n => n.info.number = number

def modifyPath (path : Text) (f : Node → Node) (m : SftpModel) : SftpModel :=
  match m.findNodeByPath path with
  | none => m
  | some n => { m with root := m.root.modify n.info.number f }

def markLoading (path : Text) (m : SftpModel) : SftpModel := m.modifyPath path (Node.setLoading true)

def markLoadFailed (path : Text) (m : SftpModel) : SftpModel := m.modifyPath path (Node.setLoading false)

/-- The entries as nodes under `path`, numbered from `next` on. -/
def childNodes (path : Text) (next : Nat) (entries : List SftpEntry) : List Node :=
  (entries.zipIdx next).map fun (e, number) =>
    .mk ⟨number, e.name, joinRemotePath path e.name, e.isDirectory, e.size, e.modifiedTime, false, false⟩ []

def applyDirectoryListing (path : Text) (entries : List SftpEntry) (m : SftpModel) : SftpModel :=
  match m.findNodeByPath path with
  | none => m
  | some n =>
    ⟨m.root.modify n.info.number (Node.list (childNodes path m.next entries)), m.next + entries.length⟩

def removeEntry (path : Text) (m : SftpModel) : SftpModel :=
  match m.findNodeByPath path with
  | none => m
  | some n => { m with root := m.root.remove n.info.number }

def addPlaceholderDirectory (parentPath name : Text) (m : SftpModel) : SftpModel :=
  match m.findNodeByPath parentPath with
  | none => m
  | some parent =>
    if parent.info.childrenLoaded then
      let child : Node := .mk ⟨m.next, name, joinRemotePath parentPath name, true, 0, 0, false, false⟩ []
      ⟨m.root.modify parent.info.number (Node.append child), m.next + 1⟩
    else m

end SftpModel

end LvdTerm.Sftp
