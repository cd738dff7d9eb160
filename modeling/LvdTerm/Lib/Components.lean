import Mathlib.Data.List.Infix

/-!
# Names joined by a separator

A path as text, and the names it is made of when empty ones are skipped (`parts`). A path is `Tidy` if it is those names joined again.
Tidy paths are one below the other as texts exactly when their names are (`tidy_below_iff`), and putting another path in the place of
the upper one does the same to the names (`parts_replace`).
-/
namespace LvdTerm.Lib.Components

variable {α : Type} [DecidableEq α] (sep : α)

/-- The names between the separators, without the empty ones. -/
def parts (path : List α) : List (List α) := (path.splitOn sep).filter (· ≠ [])

def join (names : List (List α)) : List α := [sep].intercalate names

def Tidy (path : List α) : Prop := join sep (parts sep path) = path

instance (path : List α) : Decidable (Tidy sep path) := inferInstanceAs (Decidable (_ = _))

/-- A name that can stand between two separators. -/
def IsName (name : List α) : Prop := name ≠ [] ∧ sep ∉ name

variable {sep}

@[simp] theorem parts_nil : parts sep ([] : List α) = [] := by simp [parts]

omit [DecidableEq α] in
@[simp] theorem join_nil : join sep ([] : List (List α)) = [] := by simp [join]

omit [DecidableEq α] in
@[simp] theorem join_singleton (name : List α) : join sep [name] = name := by simp [join]

theorem tidy_nil : Tidy sep ([] : List α) := by simp [Tidy]

omit [DecidableEq α] in
theorem join_append {names names' : List (List α)} (h : names ≠ []) (h' : names' ≠ []) :
    join sep (names ++ names') = join sep names ++ sep :: join sep names' := by
  induction names with
  | nil => exact absurd rfl h
  | cons name names ih =>
    cases names with
    | nil => rw [List.singleton_append, join, List.intercalate_cons_of_ne_nil h', join_singleton, List.append_assoc]; rfl
    | cons name' rest =>
      have hne : name' :: rest ≠ [] := by simp
      rw [List.cons_append, join, List.intercalate_cons_of_ne_nil (by simp), join, List.intercalate_cons_of_ne_nil hne]
      have ih := ih hne
      rw [join, join] at ih
      rw [ih]
      simp [join]

theorem parts_append (path path' : List α) : parts sep (path ++ sep :: path') = parts sep path ++ parts sep path' := by
  rw [parts, List.splitOn_append_cons_self, List.filter_append]
  rfl

/-- No piece of a split has the separator in it. -/
theorem notMem_of_mem_splitOn {path name : List α} (h : name ∈ path.splitOn sep) : sep ∉ name := by
  induction path generalizing name with
  | nil => simp_all
  | cons a path ih =>
    rw [List.splitOn_cons_eq_if_modifyHead] at h
    split at h
    next ha =>
      rcases List.mem_cons.mp h with rfl | h
      · simp
      · exact ih h
    next ha =>
      obtain ⟨first, rest, hsplit⟩ := List.exists_cons_of_ne_nil (List.splitOn_ne_nil sep path)
      rw [hsplit, List.modifyHead_cons] at h
      rw [hsplit] at ih
      rcases List.mem_cons.mp h with rfl | h
      · have hfirst := ih List.mem_cons_self
        have hne : a ≠ sep := by simpa using ha
        simp [hfirst, Ne.symm hne]
      · exact ih (List.mem_cons_of_mem _ h)

theorem isName_of_mem_parts {path name : List α} (h : name ∈ parts sep path) : IsName sep name := by
  rw [parts, List.mem_filter] at h
  exact ⟨by simpa using h.2, notMem_of_mem_splitOn h.1⟩

theorem parts_join {names : List (List α)} (h : ∀ name ∈ names, IsName sep name) : parts sep (join sep names) = names := by
  cases names with
  | nil => simp
  | cons name rest =>
    rw [parts, join, List.splitOn_intercalate sep (fun name hname => (h name hname).2) (by simp), List.filter_eq_self]
    intro name hname
    simpa using (h name hname).1

theorem tidy_join {names : List (List α)} (h : ∀ name ∈ names, IsName sep name) : Tidy sep (join sep names) := by
  rw [Tidy, parts_join h]

theorem parts_ne_nil {path : List α} (h : Tidy sep path) (hne : path ≠ []) : parts sep path ≠ [] := by
  intro hparts
  rw [Tidy, hparts, join_nil] at h
  exact hne h.symm

theorem tidy_of_prefix {names : List (List α)} {path : List α} (h : names <+: parts sep path) :
    Tidy sep (join sep names) ∧ parts sep (join sep names) = names := by
  have hnames : ∀ name ∈ names, IsName sep name := fun name hname => isName_of_mem_parts (h.subset hname)
  exact ⟨tidy_join hnames, parts_join hnames⟩

theorem tidy_iff {path : List α} : Tidy sep path ↔ path = [] ∨ [] ∉ path.splitOn sep := by
  constructor
  · intro h
    by_cases hne : path = []
    · exact .inl hne
    have hnames : ∀ name ∈ parts sep path, IsName sep name := fun name => isName_of_mem_parts
    have hsplit : path.splitOn sep = parts sep path := by
      conv => lhs; rw [← h]
      exact List.splitOn_intercalate sep (fun name hname => (hnames name hname).2) (parts_ne_nil h hne)
    exact .inr fun hnil => (hnames [] (hsplit ▸ hnil)).1 rfl
  · rintro (rfl | hnil)
    · exact tidy_nil
    · have hall : (path.splitOn sep).filter (· ≠ []) = path.splitOn sep := by
        rw [List.filter_eq_self]
        rintro name hname
        have hne : name ≠ [] := fun h => hnil (h ▸ hname)
        simpa using hne
      rw [Tidy, parts, hall]
      exact List.intercalate_splitOn sep

/-! ## The paths above a path -/

/-- A path and all that it is below, from the top. -/
def withAbove (sep : α) (path : List α) : List (List α) := ((parts sep path).inits.filter (· ≠ [])).map (join sep)

theorem mem_withAbove {path above : List α} :
    above ∈ withAbove sep path ↔ above ≠ [] ∧ Tidy sep above ∧ parts sep above <+: parts sep path := by
  simp only [withAbove, List.mem_map, List.mem_filter, List.mem_inits, decide_eq_true_eq, ne_eq]
  constructor
  · rintro ⟨names, ⟨habove, hne⟩, rfl⟩
    obtain ⟨htidy, hparts⟩ := tidy_of_prefix habove
    rw [hparts]
    refine ⟨fun hnil => hne ?_, htidy, habove⟩
    rw [← hparts, hnil, parts_nil]
  · rintro ⟨hne, htidy, habove⟩
    exact ⟨parts sep above, ⟨habove, parts_ne_nil htidy hne⟩, htidy⟩

theorem mem_withAbove_self {path : List α} (h : Tidy sep path) (hne : path ≠ []) : path ∈ withAbove sep path :=
  mem_withAbove.mpr ⟨hne, h, List.prefix_refl _⟩

/-- What is above a path that is above another is above the other. -/
theorem withAbove_trans {path path' above : List α} (h : above ∈ withAbove sep path) (h' : parts sep path <+: parts sep path') :
    above ∈ withAbove sep path' := by
  rw [mem_withAbove] at h ⊢
  exact ⟨h.1, h.2.1, h.2.2.trans h'⟩

/-! ## Moving what is at or below a path -/

def Below (sep : α) (upper path : List α) : Prop := upper ++ [sep] <+: path

instance (upper path : List α) : Decidable (Below sep upper path) := inferInstanceAs (Decidable (_ <+: _))

def move (sep : α) (source target path : List α) : List α :=
  if path = source then target else if Below sep source path then target ++ path.drop source.length else path

omit [DecidableEq α] in
theorem below_iff {upper path : List α} : Below sep upper path ↔ ∃ rest, path = upper ++ sep :: rest := by
  simp [Below, List.IsPrefix, eq_comm]

variable {source target path : List α}

theorem prefix_iff (hsource : Tidy sep source) (hne : source ≠ []) (hpath : Tidy sep path) :
    parts sep source <+: parts sep path ↔ path = source ∨ Below sep source path := by
  rw [below_iff]
  constructor
  · rintro ⟨rest, hrest⟩
    rw [Tidy, ← hrest] at hpath
    by_cases hnil : rest = []
    · rw [hnil, List.append_nil, hsource] at hpath
      exact .inl hpath.symm
    · rw [join_append (parts_ne_nil hsource hne) hnil, hsource] at hpath
      exact .inr ⟨_, hpath.symm⟩
  · rintro (rfl | ⟨rest, rfl⟩)
    · exact List.prefix_refl _
    · rw [parts_append]
      exact List.prefix_append _ _

theorem parts_move (hsource : Tidy sep source) (hne : source ≠ []) (hpath : Tidy sep path) :
    parts sep (move sep source target path) =
      if parts sep source <+: parts sep path then parts sep target ++ (parts sep path).drop (parts sep source).length
      else parts sep path := by
  simp only [prefix_iff hsource hne hpath]
  by_cases hat : path = source
  · simp [move, hat]
  by_cases hbelow : Below sep source path
  · rw [move, if_neg hat, if_pos hbelow, if_pos (.inr hbelow)]
    obtain ⟨rest, rfl⟩ := below_iff.mp hbelow
    rw [List.drop_left, parts_append, parts_append, List.drop_left]
  · rw [move, if_neg hat, if_neg hbelow, if_neg (not_or.mpr ⟨hat, hbelow⟩)]

/-- What is moved keeps its place under what it was below. -/
theorem prefix_move {upper : List α} (hsource : Tidy sep source) (hne : source ≠ []) (hupper : Tidy sep upper) (hpath : Tidy sep path)
    (h : parts sep upper <+: parts sep path) (hmoved : parts sep source <+: parts sep upper) :
    parts sep (move sep source target upper) <+: parts sep (move sep source target path) := by
  rw [parts_move hsource hne hupper, parts_move hsource hne hpath, if_pos hmoved, if_pos (hmoved.trans h)]
  obtain ⟨rest, hrest⟩ := h
  rw [← hrest, List.drop_append_of_le_length hmoved.length_le, ← List.append_assoc]
  exact List.prefix_append _ _

/-- Of the paths with all that is above them, moving gives the same before and after, unless one is lost that is above the source. -/
theorem withAbove_move_iff {paths : List (List α)} (hpaths : ∀ path ∈ paths, Tidy sep path) (hsource : Tidy sep source)
    (hne : source ≠ []) :
    (∀ x, x ∈ (paths.map (move sep source target)).flatMap (withAbove sep) ↔
        ∃ path ∈ paths.flatMap (withAbove sep), x ∈ withAbove sep (move sep source target path)) ↔
      ∀ x ∈ paths.flatMap (withAbove sep), Below sep x source → x ∈ (paths.map (move sep source target)).flatMap (withAbove sep) := by
  simp only [List.mem_flatMap, List.mem_map, exists_exists_and_eq_and]
  constructor
  · rintro h x ⟨path, hpath, hx⟩ hbelow
    have hstays : ¬ parts sep source <+: parts sep x := by
      obtain ⟨hxne, hxtidy, -⟩ := mem_withAbove.mp hx
      have hlonger := (prefix_iff hxtidy hxne hsource).mpr (.inr hbelow)
      intro hshorter
      have hparts := hshorter.eq_of_length_le hlonger.length_le
      obtain ⟨rest, hrest⟩ := below_iff.mp hbelow
      rw [Tidy, hparts, hxtidy] at hsource
      simp [hsource] at hrest
    obtain ⟨hxne, hxtidy, -⟩ := mem_withAbove.mp hx
    refine (h x).mpr ⟨x, ⟨path, hpath, hx⟩, mem_withAbove.mpr ⟨hxne, hxtidy, ?_⟩⟩
    rw [parts_move hsource hne hxtidy, if_neg hstays]
  · intro h x
    constructor
    · rintro ⟨path, hpath, hx⟩
      refine ⟨path, ⟨path, hpath, mem_withAbove_self (hpaths path hpath) ?_⟩, hx⟩
      rintro rfl
      obtain ⟨hxne, hxtidy, habove⟩ := mem_withAbove.mp hx
      rw [parts_move hsource hne tidy_nil] at habove
      simp [parts_ne_nil hsource hne, parts_ne_nil hxtidy hxne] at habove
    · rintro ⟨upper, ⟨path, hpath, hupper⟩, hx⟩
      obtain ⟨hupperne, huppertidy, habove⟩ := mem_withAbove.mp hupper
      by_cases hmoved : parts sep source <+: parts sep upper
      · exact ⟨path, hpath, withAbove_trans hx (prefix_move hsource hne huppertidy (hpaths path hpath) habove hmoved)⟩
      have hsame : parts sep (move sep source target upper) = parts sep upper := by
        rw [parts_move hsource hne huppertidy, if_neg hmoved]
      rw [mem_withAbove, hsame, ← mem_withAbove] at hx
      by_cases hpathmoved : parts sep source <+: parts sep path
      · -- `upper` is above the source: what it is above of may be lost
        have habove : parts sep upper <+: parts sep source :=
          (List.prefix_or_prefix_of_prefix hpathmoved habove).resolve_left hmoved
        have hbelow : Below sep upper source := by
          rcases (prefix_iff huppertidy hupperne hsource).mp habove with rfl | hbelow
          · exact absurd (List.prefix_refl _) hmoved
          · exact hbelow
        obtain ⟨path', hpath', hupper'⟩ := h upper ⟨path, hpath, hupper⟩ hbelow
        exact ⟨path', hpath', withAbove_trans hx (mem_withAbove.mp hupper').2.2⟩
      · refine ⟨path, hpath, withAbove_trans hx ?_⟩
        rw [parts_move hsource hne (hpaths path hpath), if_neg hpathmoved]
        exact habove

end LvdTerm.Lib.Components
