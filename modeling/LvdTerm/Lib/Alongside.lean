import Mathlib.Data.List.ReduceOption

/-!
# Values alongside items that may be missing
-/
namespace LvdTerm.Lib

variable {α β : Type*}

/-- The values of the items that are there. -/
def alongside (values : List α) (items : List (Option β)) : List α :=
  ((values.zip items).filter (·.2.isSome)).map (·.1)

theorem alongside_length_le (values : List α) (items : List (Option β)) : (alongside values items).length ≤ values.length := by
  unfold alongside
  rw [List.length_map]
  calc ((values.zip items).filter (·.2.isSome)).length ≤ (values.zip items).length := List.length_filter_le ..
    _ = min values.length items.length := List.length_zip
    _ ≤ values.length := Nat.min_le_left ..

/-- All values remain if and only if each has its item. -/
theorem alongside_eq_self_iff (values : List α) (items : List (Option β)) :
    alongside values items = values ↔ ∀ i < values.length, (items.map (·.isSome))[i]? = some true := by
  induction values generalizing items with
  | nil => simp [alongside]
  | cons value values ih =>
    cases items with
    | nil =>
      apply iff_of_false
      · simp [alongside]
      · intro h
        simpa using h 0 (by simp)
    | cons item items =>
      cases item with
      | none =>
        apply iff_of_false
        · intro h
          have hle := alongside_length_le values items
          have hlen := congrArg List.length h
          have hskip : alongside (value :: values) (none :: items) = alongside values items := by simp [alongside]
          rw [hskip, List.length_cons] at hlen
          omega
        · intro h
          simpa using h 0 (by simp)
      | some x =>
        have hkeep : alongside (value :: values) (some x :: items) = value :: alongside values items := by simp [alongside]
        rw [hkeep, List.cons.injEq, ih items]
        constructor
        · rintro ⟨-, h⟩ i hi
          cases i with
          | zero => simp
          | succ i => simpa using h i (by simpa using hi)
        · intro h
          exact ⟨rfl, fun i hi => by simpa using h (i + 1) (by simpa using hi)⟩

/-- Where the same items are missing, what is there tells the lists apart. -/
theorem reduceOption_eq_iff {items items' : List (Option β)} (h : items.map (·.isSome) = items'.map (·.isSome)) :
    items.reduceOption = items'.reduceOption ↔ items = items' := by
  induction items generalizing items' with
  | nil =>
    cases items' with
    | nil => simp
    | cons item' items' => simp at h
  | cons item items ih =>
    cases items' with
    | nil => simp at h
    | cons item' items' =>
      simp only [List.map_cons, List.cons.injEq] at h
      obtain ⟨hhead, htail⟩ := h
      cases item with
      | none =>
        cases item' with
        | none => simpa using ih htail
        | some x' => simp at hhead
      | some x =>
        cases item' with
        | none => simp at hhead
        | some x' =>
          rw [List.reduceOption_cons_of_some, List.reduceOption_cons_of_some, List.cons.injEq, List.cons.injEq, ih htail,
            Option.some.injEq]

theorem reduceOption_ne_nil_iff (items : List (Option β)) : items.reduceOption ≠ [] ↔ true ∈ items.map (·.isSome) := by
  induction items with
  | nil => simp
  | cons item items ih =>
    cases item with
    | none => simpa using ih
    | some x => simp

/-- All are missing, in one list as in the other. -/
theorem eq_of_reduceOption_nil {items items' : List (Option β)} (h : items.map (·.isSome) = items'.map (·.isSome))
    (hnil : items.reduceOption = []) : items = items' := by
  apply (reduceOption_eq_iff h).mp
  have hnil' : ¬ items'.reduceOption ≠ [] := by
    rw [reduceOption_ne_nil_iff, ← h, ← reduceOption_ne_nil_iff]
    exact not_not.mpr hnil
  rw [hnil, not_not.mp hnil']

end LvdTerm.Lib
