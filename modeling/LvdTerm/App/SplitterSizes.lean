import LvdTerm.App.MainWindow
import LvdTerm.Core.ProfileSecrets
import LvdTerm.Lib.Alongside

/-!
# The sizes of restored splitters

A splitter's children are left out in two passes, while the file is read and while the panes are built, and its sizes in none. So
they are the sizes of the restored children if and only if no child that has a size was left out:
`restored_sizes_iff`.
-/
namespace LvdTerm.App

open LvdTerm.Core LvdTerm.Lib

/-! ## What the file says -/

/-- A saved page with every child in its place. -/
inductive SavedNode where
  /-- No object, or a leaf without a connection. -/
  | lost
  | leaf (connection : ConnectionProfile)
  | splitter (orientation : Orientation) (sizes : List Int) (children : List SavedNode)

section Reading

variable (pl : Platform)

mutual

def savedNode (c : StoreCalls) (o : QJsonObject) : SavedNode × StoreCalls :=
  if (QJsonObject.value o "kind").toString = "splitter".toList then
    let orientation := if (QJsonObject.value o "orientation").toString = "vertical".toList then Orientation.vertical else .horizontal
    let sizes := (QJsonObject.value o "sizes").toArray.map fun v => v.toInt 0
    let (children, c) := savedNodes c (QJsonObject.value o "children").toArray
    (.splitter orientation sizes children, c)
  else if (o.lookup "connection").isNone then (.lost, c)
  else (.leaf (.fromJson pl (c 0).calls (c 0).newId (QJsonObject.value o "connection").toObject), c.next)
termination_by 2 * sizeOf o + 1
decreasing_by
  have h := sizeOf_value_toArray o "children"
  omega

def savedNodes (c : StoreCalls) : List QJsonValue → List SavedNode × StoreCalls
  | [] => ([], c)
  | .object o :: vs =>
    let (node, c) := savedNode c o
    let (nodes, c) := savedNodes c vs
    (node :: nodes, c)
  | _ :: vs =>
    let (nodes, c) := savedNodes c vs
    (.lost :: nodes, c)
termination_by vs => 2 * sizeOf vs
decreasing_by
  all_goals simp only [List.cons.sizeOf_spec, QJsonValue.object.sizeOf_spec]; omega

end

structure SavedTab where
  title : QString
  root : SavedNode

def savedTabsOf (c : StoreCalls) : List QJsonValue → List SavedTab
  | [] => []
  | .object tab :: vs =>
    if (tab.lookup "root").isNone then savedTabsOf c vs
    else
      let (root, c) := savedNode pl c (QJsonObject.value tab "root").toObject
      ⟨(QJsonObject.value tab "title").toString, root⟩ :: savedTabsOf c vs
  | _ :: vs => savedTabsOf c vs

def savedTabs (c : StoreCalls) : Option QJsonValue → List SavedTab
  | some (.object root) => savedTabsOf pl c (QJsonObject.value root "tabs").toArray
  | _ => []

end Reading

mutual

/-- What is read of a saved page. -/
def SavedNode.read : SavedNode → Option SessionNode
  | .lost => none
  | .leaf connection => some (.leaf (some connection))
  | .splitter orientation sizes children =>
    let nodes := readAll children
    if nodes = [] then none else some (.splitter orientation sizes nodes)

def readAll : List SavedNode → List SessionNode
  | [] => []
  | node :: nodes => node.read.toList ++ readAll nodes

end

/-! ## Sizes that stay with their children -/

section Restoring

variable (answers : Nat → Answer)

mutual

/-- The page with the sizes of the children that are restored. -/
def SavedNode.restore : SavedNode → MainWindow → Option Pane × MainWindow
  | .lost, app => (none, app)
  | .leaf profile, app =>
    match resultForProfile (answers app.answered) profile with
    | none => (none, app.answer)
    | some result => (some (.view app.views.length), app.answer.makeView result)
  | .splitter orientation sizes children, app =>
    let (panes, app) := restoreAll children app
    (if panes.reduceOption.isEmpty then none else some (.splitter orientation (alongside sizes panes) panes.reduceOption), app)

def restoreAll : List SavedNode → MainWindow → List (Option Pane) × MainWindow
  | [], app => ([], app)
  | node :: nodes, app =>
    let (pane, app) := node.restore app
    let (panes, app) := restoreAll nodes app
    (pane :: panes, app)

end

def restoreTabs : List SavedTab → MainWindow → List Tab × MainWindow
  | [], app => ([], app)
  | tab :: tabs, app =>
    let (pane, app) := tab.root.restore answers app
    let (rest, app) := restoreTabs tabs app
    ((pane.map fun page => (⟨tab.title, page⟩ : Tab)).toList ++ rest, app)

mutual

/-- Is something of it opened, with the answers from number `k` on? And how many were given then? -/
def SavedNode.opens : SavedNode → Nat → Bool × Nat
  | .lost, k => (false, k)
  | .leaf profile, k => ((resultForProfile (answers k) profile).isSome, k + 1)
  | .splitter _ _ children, k =>
    let (flags, k) := opensAll children k
    (true ∈ flags, k)

def opensAll : List SavedNode → Nat → List Bool × Nat
  | [], k => ([], k)
  | node :: nodes, k =>
    let (flag, k) := node.opens k
    let (flags, k) := opensAll nodes k
    (flag :: flags, k)

end

mutual

/-- In each splitter that is opened, every size is that of a child that is opened. -/
def SavedNode.Whole : SavedNode → Nat → Prop
  | .lost, _ => True
  | .leaf _, _ => True
  | .splitter _ sizes children, k =>
    (true ∈ (opensAll answers children k).1 → ∀ i < sizes.length, (opensAll answers children k).1[i]? = some true) ∧
      WholeAll children k

def WholeAll : List SavedNode → Nat → Prop
  | [], _ => True
  | node :: nodes, k => node.Whole k ∧ WholeAll nodes (node.opens answers k).2

end

def WholeTabs : List SavedTab → Nat → Prop
  | [], _ => True
  | tab :: tabs, k => tab.root.Whole answers k ∧ WholeTabs tabs (tab.root.opens answers k).2

end Restoring

/-! ## The two passes -/

section Reading

variable (pl : Platform)

mutual

theorem nodeFromJson_eq (c : StoreCalls) (o : QJsonObject) :
    nodeFromJson pl c o = ((savedNode pl c o).1.read, (savedNode pl c o).2) := by
  rw [nodeFromJson, savedNode]
  split
  next =>
    rw [nodesFromJson_eq c (QJsonObject.value o "children").toArray]
    simp only [SavedNode.read]
    split
    next => rfl
    next => rfl
  next =>
    split
    next => rfl
    next => rfl
termination_by 2 * sizeOf o + 1
decreasing_by
  have h := sizeOf_value_toArray o "children"
  omega

theorem nodesFromJson_eq (c : StoreCalls) (vs : List QJsonValue) :
    nodesFromJson pl c vs = (readAll (savedNodes pl c vs).1, (savedNodes pl c vs).2) := by
  cases vs with
  | nil => rw [nodesFromJson, savedNodes, readAll]
  | cons v vs =>
    cases v with
    | object o =>
      rw [nodesFromJson, savedNodes, nodeFromJson_eq c o]
      simp only
      rw [nodesFromJson_eq _ vs]
      rfl
    | _ =>
      rw [nodesFromJson, savedNodes, nodesFromJson_eq c vs]
      · rfl
      all_goals exact nofun
termination_by 2 * sizeOf vs
decreasing_by
  all_goals simp only [List.cons.sizeOf_spec, QJsonValue.object.sizeOf_spec]; omega

end

def SavedTab.read (tab : SavedTab) : Option SessionTab := tab.root.read.map fun root => ⟨tab.title, root⟩

theorem tabsFromJson_eq (c : StoreCalls) (vs : List QJsonValue) :
    tabsFromJson pl c vs = (savedTabsOf pl c vs).filterMap SavedTab.read := by
  induction vs generalizing c with
  | nil => rfl
  | cons v vs ih =>
    cases v with
    | object tab =>
      rw [tabsFromJson, savedTabsOf]
      split
      next => exact ih c
      next =>
        rw [nodeFromJson_eq]
        simp only [List.filterMap_cons, SavedTab.read]
        cases (savedNode pl c (QJsonObject.value tab "root").toObject).1.read with
        | none => exact ih _
        | some root => exact congrArg (_ :: ·) (ih _)
    | _ => exact ih c

theorem load_tabs (c : StoreCalls) (file : Option QJsonValue) :
    (SessionState.load pl c file).tabs = (savedTabs pl c file).filterMap SavedTab.read := by
  cases file with
  | none => rfl
  | some v =>
    cases v with
    | object root => exact tabsFromJson_eq ..
    | _ => rfl

end Reading

section Building

variable (answers : Nat → Answer)

/-- What is built of a saved page. -/
def SavedNode.built (node : SavedNode) (app : MainWindow) : Option Pane × MainWindow :=
  match node.read with
  | none => (none, app)
  | some node => MainWindow.buildNode answers node app

def builtAll : List SavedNode → MainWindow → List (Option Pane) × MainWindow
  | [], app => ([], app)
  | node :: nodes, app =>
    let (pane, app) := node.built answers app
    let (panes, app) := builtAll nodes app
    (pane :: panes, app)

theorem buildNodes_append (answers : Nat → Answer) (nodes nodes' : List SessionNode) (app : MainWindow) :
    MainWindow.buildNodes answers (nodes ++ nodes') app =
      ((MainWindow.buildNodes answers nodes app).1 ++ (MainWindow.buildNodes answers nodes' (MainWindow.buildNodes answers nodes app).2).1,
        (MainWindow.buildNodes answers nodes' (MainWindow.buildNodes answers nodes app).2).2) := by
  induction nodes generalizing app with
  | nil => rfl
  | cons node nodes ih =>
    rw [List.cons_append, MainWindow.buildNodes, MainWindow.buildNodes]
    simp only [ih, List.append_assoc]

theorem buildNodes_readAll (nodes : List SavedNode) (app : MainWindow) :
    MainWindow.buildNodes answers (readAll nodes) app = ((builtAll answers nodes app).1.reduceOption, (builtAll answers nodes app).2) := by
  induction nodes generalizing app with
  | nil => rfl
  | cons node nodes ih =>
    rw [readAll, buildNodes_append, builtAll, SavedNode.built]
    cases hread : node.read with
    | none => simpa [MainWindow.buildNodes] using ih app
    | some read =>
      have hone : MainWindow.buildNodes answers (some read).toList app =
          ((MainWindow.buildNode answers read app).1.toList, (MainWindow.buildNode answers read app).2) := by
        simp [MainWindow.buildNodes]
      rw [hone, ih]
      cases hpane : (MainWindow.buildNode answers read app).1 with
      | none => simp [hpane]
      | some pane => simp [hpane]

theorem built_splitter (orientation : Orientation) (sizes : List Int) (children : List SavedNode) (app : MainWindow) :
    (SavedNode.splitter orientation sizes children).built answers app =
      (if (builtAll answers children app).1.reduceOption.isEmpty then none
        else some (.splitter orientation sizes (builtAll answers children app).1.reduceOption), (builtAll answers children app).2) := by
  have hpanes := buildNodes_readAll answers children app
  rw [SavedNode.built, SavedNode.read]
  by_cases hempty : readAll children = []
  · rw [hempty, MainWindow.buildNodes, Prod.mk.injEq] at hpanes
    rw [if_pos hempty, ← hpanes.1, ← hpanes.2]
    rfl
  · rw [if_neg hempty]
    simp only
    rw [MainWindow.buildNode, hpanes]

/-! ## Both restore the same, but for the sizes -/

mutual

/-- The numbers of answers and of panes are the same. -/
theorem built_snd : ∀ (node : SavedNode) (app : MainWindow), (node.built answers app).2 = (node.restore answers app).2
  | .lost, _ => rfl
  | .leaf profile, app => by
    rw [SavedNode.built, SavedNode.read, SavedNode.restore]
    cases hresult : resultForProfile (answers app.answered) profile with
    | none => simp only [MainWindow.buildNode, hresult]
    | some result => simp only [MainWindow.buildNode, hresult]
  | .splitter orientation sizes children, app => by
    rw [built_splitter, SavedNode.restore]
    exact builtAll_snd children app

theorem builtAll_snd : ∀ (nodes : List SavedNode) (app : MainWindow),
    (builtAll answers nodes app).2 = (restoreAll answers nodes app).2
  | [], _ => rfl
  | node :: nodes, app => by
    rw [builtAll, restoreAll]
    simp only
    rw [built_snd node app, builtAll_snd nodes]

end

mutual

theorem restore_opens : ∀ (node : SavedNode) (app : MainWindow), node.opens answers app.answered =
    ((node.restore answers app).1.isSome, (node.restore answers app).2.answered)
  | .lost, _ => rfl
  | .leaf profile, app => by
    rw [SavedNode.opens, SavedNode.restore]
    cases resultForProfile (answers app.answered) profile with
    | none => rfl
    | some result => rfl
  | .splitter orientation sizes children, app => by
    rw [SavedNode.opens, SavedNode.restore, restoreAll_opens children app]
    have hsome := reduceOption_ne_nil_iff (restoreAll answers children app).1
    simp only [Prod.mk.injEq, and_true]
    split
    next hempty => simp [← hsome, List.isEmpty_iff.mp hempty]
    next hfull => simpa [← hsome] using hfull

theorem restoreAll_opens : ∀ (nodes : List SavedNode) (app : MainWindow), opensAll answers nodes app.answered =
    ((restoreAll answers nodes app).1.map (·.isSome), (restoreAll answers nodes app).2.answered)
  | [], _ => rfl
  | node :: nodes, app => by
    rw [opensAll, restoreAll, restore_opens node app]
    simp only
    rw [restoreAll_opens nodes]
    rfl

end

theorem opensAll_flags (nodes : List SavedNode) (app : MainWindow) :
    (opensAll answers nodes app.answered).1 = (restoreAll answers nodes app).1.map (·.isSome) := by
  rw [restoreAll_opens]

mutual

theorem built_isSome : ∀ (node : SavedNode) (app : MainWindow),
    (node.built answers app).1.isSome = (node.restore answers app).1.isSome
  | .lost, _ => rfl
  | .leaf profile, app => by
    rw [SavedNode.built, SavedNode.read, SavedNode.restore]
    cases hresult : resultForProfile (answers app.answered) profile with
    | none => simp only [MainWindow.buildNode, hresult]
    | some result => simp only [MainWindow.buildNode, hresult]
  | .splitter orientation sizes children, app => by
    have hflags := builtAll_isSome children app
    have hbuilt := reduceOption_ne_nil_iff (builtAll answers children app).1
    have hrestored := reduceOption_ne_nil_iff (restoreAll answers children app).1
    rw [hflags, ← hrestored] at hbuilt
    rw [built_splitter, SavedNode.restore]
    simp only [List.isEmpty_iff]
    by_cases hnil : (restoreAll answers children app).1.reduceOption = []
    · rw [if_pos hnil, if_pos (not_not.mp fun hne => hbuilt.mp hne hnil)]
    · rw [if_neg hnil, if_neg (hbuilt.mpr hnil)]
      rfl

theorem builtAll_isSome : ∀ (nodes : List SavedNode) (app : MainWindow),
    (builtAll answers nodes app).1.map (·.isSome) = (restoreAll answers nodes app).1.map (·.isSome)
  | [], _ => rfl
  | node :: nodes, app => by
    rw [builtAll, restoreAll]
    simp only [List.map_cons]
    rw [built_isSome node app, built_snd, builtAll_isSome nodes]

end

mutual

theorem built_eq_iff : ∀ (node : SavedNode) (app : MainWindow),
    (node.built answers app).1 = (node.restore answers app).1 ↔ node.Whole answers app.answered
  | .lost, _ => iff_of_true rfl trivial
  | .leaf profile, app => by
    rw [SavedNode.built, SavedNode.read, SavedNode.restore, SavedNode.Whole]
    cases hresult : resultForProfile (answers app.answered) profile with
    | none => simp only [MainWindow.buildNode, hresult]
    | some result => simp only [MainWindow.buildNode, hresult]
  | .splitter orientation sizes children, app => by
    have hpanes := builtAll_eq_iff children app
    have hflags := builtAll_isSome answers children app
    have hopened := reduceOption_ne_nil_iff (builtAll answers children app).1
    rw [built_splitter, SavedNode.restore, SavedNode.Whole, opensAll_flags, ← hpanes]
    rw [hflags] at hopened
    simp only [List.isEmpty_iff]
    by_cases hnil : (builtAll answers children app).1.reduceOption = []
    · have hsame := eq_of_reduceOption_nil hflags hnil
      have hclosed : true ∉ (restoreAll answers children app).1.map (·.isSome) := fun htrue => hopened.mpr htrue hnil
      rw [if_pos hnil, ← hsame, if_pos hnil]
      rw [← hsame] at hclosed
      exact iff_of_true rfl ⟨fun htrue => absurd htrue hclosed, rfl⟩
    · have htrue := hopened.mp hnil
      have hnil' := (reduceOption_ne_nil_iff _).mpr htrue
      rw [if_neg hnil, if_neg hnil', Option.some.injEq, Pane.splitter.injEq, reduceOption_eq_iff hflags, eq_comm (a := sizes),
        alongside_eq_self_iff]
      simp only [true_and, htrue, forall_const]

theorem builtAll_eq_iff : ∀ (nodes : List SavedNode) (app : MainWindow),
    (builtAll answers nodes app).1 = (restoreAll answers nodes app).1 ↔ WholeAll answers nodes app.answered
  | [], _ => iff_of_true rfl trivial
  | node :: nodes, app => by
    rw [builtAll, restoreAll, WholeAll, restore_opens]
    simp only [List.cons.injEq]
    rw [built_eq_iff node app, built_snd, builtAll_eq_iff nodes]

end

theorem buildTabs_cons (tab : SavedTab) (tabs : List SavedTab) (app : MainWindow) :
    MainWindow.buildTabs answers ((tab :: tabs).filterMap SavedTab.read) app =
      (((tab.root.built answers app).1.map fun page => (⟨tab.title, page⟩ : Tab)).toList ++
        (MainWindow.buildTabs answers (tabs.filterMap SavedTab.read) (tab.root.built answers app).2).1,
        (MainWindow.buildTabs answers (tabs.filterMap SavedTab.read) (tab.root.built answers app).2).2) := by
  rw [List.filterMap_cons, SavedTab.read, SavedNode.built]
  cases tab.root.read with
  | none => rfl
  | some root => rfl

/-- The tabs are built from what is read of them. -/
theorem buildTabs_eq_iff (tabs : List SavedTab) (app : MainWindow) :
    (MainWindow.buildTabs answers (tabs.filterMap SavedTab.read) app).1 = (restoreTabs answers tabs app).1 ↔
      WholeTabs answers tabs app.answered := by
  induction tabs generalizing app with
  | nil => exact iff_of_true rfl trivial
  | cons tab tabs ih =>
    have hsome := built_isSome answers tab.root app
    have hpage := built_eq_iff answers tab.root app
    have hrest := ih (tab.root.restore answers app).2
    rw [buildTabs_cons, restoreTabs, WholeTabs, restore_opens]
    simp only
    rw [built_snd, ← hpage, ← hrest]
    cases hbuilt : (tab.root.built answers app).1 with
    | none =>
      cases hrestored : (tab.root.restore answers app).1 with
      | none => simp
      | some page => simp [hbuilt, hrestored] at hsome
    | some page =>
      cases hrestored : (tab.root.restore answers app).1 with
      | none => simp [hbuilt, hrestored] at hsome
      | some page' => simp

end Building

/-! ## The claim -/

theorem restoreSession_tabs (answers : Nat → Answer) (state : SessionState) (app : MainWindow) :
    (app.restoreSession answers state).windows.flatMap (·.tabs) = (MainWindow.buildTabs answers state.tabs app).1 := by
  simp [MainWindow.restoreSession]

/-- The tabs come back with the sizes of their own children if and only if in each restored splitter every size is that of a child
that is restored. -/
theorem restored_sizes_iff (pl : Platform) (c : StoreCalls) (answers : Nat → Answer) (file : Option QJsonValue) (app : MainWindow) :
    (app.restoreSession answers (SessionState.load pl c file)).windows.flatMap (·.tabs) =
        (restoreTabs answers (savedTabs pl c file) app).1 ↔ WholeTabs answers (savedTabs pl c file) app.answered := by
  rw [restoreSession_tabs, load_tabs]
  exact buildTabs_eq_iff answers _ app

/-- Three children of one splitter, the first of them without a connection. -/
def fileWithLostChild : QJsonValue :=
  let leaf : QJsonValue := .object [("kind", .string "leaf".toList), ("connection", .object [("type", .string "local".toList)])]
  .object [("tabs", .array [.object [("root", .object [("kind", .string "splitter".toList),
    ("sizes", .array [.number 100, .number 200, .number 300]),
    ("children", .array [.object [("kind", .string "leaf".toList)], leaf, leaf])])]])]

/-- Not so there: the second child gets the size of the first. -/
theorem sizes_shifted : ¬ ∀ (pl : Platform) (c : StoreCalls) (answers : Nat → Answer) (file : Option QJsonValue) (app : MainWindow),
    (app.restoreSession answers (SessionState.load pl c file)).windows.flatMap (·.tabs) =
      (restoreTabs answers (savedTabs pl c file) app).1 := by
  intro h
  have hsame := h .ascii (callsWith []) (fun _ => ⟨none, none⟩) (some fileWithLostChild) (.start none none)
  rw [restoreSession_tabs, load_tabs, buildTabs_eq_iff] at hsame
  obtain ⟨p, p', hp, hsaved⟩ : ∃ p p' : ConnectionProfile, p.type = .shell ∧ savedTabs .ascii (callsWith []) (some fileWithLostChild) =
      [⟨[], .splitter .horizontal [100, 200, 300] [.lost, .leaf p, .leaf p']⟩] := by
    refine ⟨_, _, ?_, by
      simp [savedTabs, fileWithLostChild, savedTabsOf, savedNode, savedNodes, QJsonObject.value, QJsonValue.toArray, QJsonValue.toObject,
        QJsonValue.toString, QJsonValue.toInt, List.lookup_cons]
      exact ⟨rfl, rfl⟩⟩
    rfl
  rw [hsaved] at hsame
  have hopened : true ∈ (opensAll (fun _ => ⟨none, none⟩) [.lost, .leaf p, .leaf p'] 0).1 := by
    simp [opensAll, SavedNode.opens, resultForProfile, hp]
  have hfirst := hsame.1.1 hopened 0 (by decide)
  simp [opensAll, SavedNode.opens] at hfirst

end LvdTerm.App
