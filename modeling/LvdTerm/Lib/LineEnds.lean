import Mathlib.Data.List.Infix

/-!
# Two kinds of line ends

Over any alphabet, `lf` ends a line, and so does `lf` behind `cr`. `collapse` takes every pair to
a single `lf` and `expand` every `lf` to a pair; one is undone by the other on the texts in which
`cr` and `lf` are found in pairs only (`Paired`).
-/
namespace LvdTerm.Lib.LineEnds

variable {α : Type*} {cr lf : α} {text : List α}

/-- `cr` and `lf` are found in pairs only. -/
inductive Paired (cr lf : α) : List α → Prop where
  | nil : Paired cr lf []
  | pair {rest : List α} : Paired cr lf rest → Paired cr lf (cr :: lf :: rest)
  | other {a : α} {rest : List α} : a ≠ cr → a ≠ lf → Paired cr lf rest → Paired cr lf (a :: rest)

/-- A text without `cr` has no pair. -/
theorem not_infix_of_not_mem (h : cr ∉ text) : ¬ [cr, lf] <:+: text := by
  intro hpair
  exact h (hpair.subset List.mem_cons_self)

theorem Paired.not_mem (h : Paired cr lf text) (hpair : ¬ [cr, lf] <:+: text) : cr ∉ text := by
  induction h with
  | nil => exact List.not_mem_nil
  | @pair rest _ _ => exact absurd (List.prefix_append [cr, lf] rest).isInfix hpair
  | @other a rest hcr _ _ ih =>
    have hrest := ih (fun hi => hpair (hi.trans (List.suffix_cons a rest).isInfix))
    simp [Ne.symm hcr, hrest]

variable [DecidableEq α]

def collapse (cr lf : α) : List α → List α
  | [] => []
  | [a] => [a]
  | a :: b :: rest => if a = cr ∧ b = lf then lf :: collapse cr lf rest else a :: collapse cr lf (b :: rest)

def expand (cr lf : α) (text : List α) : List α := text.flatMap fun a => if a = lf then [cr, lf] else [a]

theorem expand_cons_lf (rest : List α) : expand cr lf (lf :: rest) = cr :: lf :: expand cr lf rest := by
  simp [expand]

theorem expand_cons_other {a : α} (h : a ≠ lf) (rest : List α) : expand cr lf (a :: rest) = a :: expand cr lf rest := by
  simp [expand, h]

theorem collapse_cons_other {a : α} (h : a ≠ cr) (rest : List α) : collapse cr lf (a :: rest) = a :: collapse cr lf rest := by
  cases rest with
  | nil => rfl
  | cons b rest => simp [collapse, h]

theorem collapse_eq_nil : collapse cr lf text = [] ↔ text = [] := by
  match text with
  | [] => simp [collapse]
  | [a] => simp [collapse]
  | a :: b :: rest =>
    simp only [collapse]
    split <;> simp

theorem collapse_of_not_infix (h : ¬ [cr, lf] <:+: text) : collapse cr lf text = text := by
  fun_induction collapse cr lf text with
  | case1 => rfl
  | case2 a => rfl
  | case3 a b rest hpair _ =>
    obtain ⟨rfl, rfl⟩ := hpair
    exact absurd (List.prefix_append [a, b] rest).isInfix h
  | case4 a b rest _ ih => rw [ih (fun hi => h (hi.trans (List.suffix_cons a _).isInfix))]

/-! ## Undoing one with the other -/

theorem expand_paired (h : cr ∉ text) : Paired cr lf (expand cr lf text) := by
  induction text with
  | nil => exact .nil
  | cons a rest ih =>
    have hrest := ih (List.not_mem_of_not_mem_cons h)
    by_cases ha : a = lf
    · rw [ha, expand_cons_lf]
      exact .pair hrest
    · rw [expand_cons_other ha]
      exact .other (List.ne_of_not_mem_cons h).symm ha hrest

theorem Paired.expand_collapse (h : Paired cr lf text) : expand cr lf (collapse cr lf text) = text := by
  induction h with
  | nil => rfl
  | @pair rest _ ih =>
    rw [collapse, if_pos ⟨rfl, rfl⟩, expand_cons_lf, ih]
  | @other a rest hcr hlf _ ih => rw [collapse_cons_other hcr, expand_cons_other hlf, ih]

theorem Paired.not_mem_collapse (hne : cr ≠ lf) (h : Paired cr lf text) : cr ∉ collapse cr lf text := by
  induction h with
  | nil => exact List.not_mem_nil
  | @pair rest _ ih =>
    rw [collapse, if_pos ⟨rfl, rfl⟩]
    simp [hne, ih]
  | @other a rest hcr _ _ ih =>
    rw [collapse_cons_other hcr]
    simp [Ne.symm hcr, ih]

/-! ## Only one kind -/

/-- `r` is the text with `cr` in front of every `lf`. -/
structure InPairs (cr lf : α) (text r : List α) : Prop where
  same : collapse cr lf r = collapse cr lf text
  behind : ∀ before after, r = before ++ lf :: after → ∃ start, before = start ++ [cr]

theorem expand_head_ne (hne : cr ≠ lf) {a : α} {rest : List α} (h : expand cr lf text = a :: rest) : a ≠ lf := by
  cases text with
  | nil => simp [expand] at h
  | cons b more =>
    by_cases hb : b = lf
    · rw [hb, expand_cons_lf, List.cons.injEq] at h
      exact h.1 ▸ hne
    · rw [expand_cons_other hb, List.cons.injEq] at h
      exact h.1 ▸ hb

theorem collapse_expand (hne : cr ≠ lf) (text : List α) : collapse cr lf (expand cr lf text) = text := by
  induction text with
  | nil => rfl
  | cons a rest ih =>
    by_cases ha : a = lf
    · rw [ha, expand_cons_lf, collapse, if_pos ⟨rfl, rfl⟩, ih]
    · rw [expand_cons_other ha]
      cases hrest : expand cr lf rest with
      | nil =>
        rw [hrest] at ih
        simp [← ih, collapse]
      | cons b more =>
        have hb : b ≠ lf := expand_head_ne hne hrest
        rw [collapse, if_neg (fun hpair => hb hpair.2), ← hrest, ih]

theorem expand_behind (hne : cr ≠ lf) {before after : List α} (h : expand cr lf text = before ++ lf :: after) :
    ∃ start, before = start ++ [cr] := by
  induction text generalizing before with
  | nil => simp [expand] at h
  | cons a rest ih =>
    by_cases ha : a = lf
    · rw [ha, expand_cons_lf] at h
      match before with
      | [] => simp [hne] at h
      | [b] =>
        simp only [List.cons_append, List.nil_append, List.cons.injEq] at h
        exact ⟨[], by simp [h.1]⟩
      | b :: c :: before =>
        simp only [List.cons_append, List.cons.injEq] at h
        obtain ⟨start, rfl⟩ := ih h.2.2
        exact ⟨b :: c :: start, by simp⟩
    · rw [expand_cons_other ha] at h
      cases before with
      | nil => simp [ha] at h
      | cons b before =>
        simp only [List.cons_append, List.cons.injEq] at h
        obtain ⟨start, rfl⟩ := ih h.2
        exact ⟨b :: start, by simp⟩

theorem expand_collapse_of_behind (hne : cr ≠ lf)
    (h : ∀ before after, text = before ++ lf :: after → ∃ start, before = start ++ [cr]) :
    expand cr lf (collapse cr lf text) = text := by
  fun_induction collapse cr lf text with
  | case1 => rfl
  | case2 a =>
    have ha : a ≠ lf := by
      rintro rfl
      obtain ⟨start, hstart⟩ := h [] [] rfl
      simp at hstart
    simp [expand, ha]
  | case3 a b rest hpair ih =>
    obtain ⟨rfl, rfl⟩ := hpair
    rw [expand_cons_lf, ih]
    rintro before after rfl
    obtain ⟨start, hstart⟩ := h (a :: b :: before) after rfl
    match start with
    | [] => simp at hstart
    | [c] =>
      simp only [List.cons_append, List.nil_append, List.cons.injEq] at hstart
      exact absurd hstart.2.1.symm hne
    | c :: d :: start =>
      simp only [List.cons_append, List.cons.injEq] at hstart
      exact ⟨start, hstart.2.2⟩
  | case4 a b rest hpair ih =>
    have ha : a ≠ lf := by
      rintro rfl
      obtain ⟨start, hstart⟩ := h [] (b :: rest) rfl
      simp at hstart
    rw [expand_cons_other ha, ih]
    intro before after heq
    obtain ⟨start, hstart⟩ := h (a :: before) after (by rw [heq]; rfl)
    cases start with
    | nil =>
      simp only [List.nil_append, List.cons.injEq] at hstart
      rw [hstart.2, List.nil_append, List.cons.injEq] at heq
      exact absurd ⟨hstart.1, heq.1⟩ hpair
    | cons c start =>
      simp only [List.cons_append, List.cons.injEq] at hstart
      exact ⟨start, hstart.2⟩

/-- There is one such text. -/
theorem inPairs_iff (hne : cr ≠ lf) {r : List α} : InPairs cr lf text r ↔ r = expand cr lf (collapse cr lf text) := by
  constructor
  · rintro ⟨hsame, hbehind⟩
    rw [← hsame, expand_collapse_of_behind hne hbehind]
  · rintro rfl
    exact ⟨collapse_expand hne _, fun _ _ heq => expand_behind hne heq⟩

/-! ## What else is in the text -/

theorem mem_collapse {a : α} (h : a ∈ collapse cr lf text) : a ∈ text := by
  fun_induction collapse cr lf text with
  | case1 => exact h
  | case2 b => exact h
  | case3 b c rest hpair ih =>
    obtain ⟨rfl, rfl⟩ := hpair
    simp only [List.mem_cons] at h ⊢
    exact .inr (h.imp id ih)
  | case4 b c rest _ ih =>
    rw [List.mem_cons] at h ⊢
    exact h.imp id ih

theorem count_collapse {a : α} (hcr : a ≠ cr) : (collapse cr lf text).count a = text.count a := by
  fun_induction collapse cr lf text with
  | case1 => rfl
  | case2 b => rfl
  | case3 b c rest hpair ih =>
    obtain ⟨rfl, rfl⟩ := hpair
    simp [List.count_cons, ih, Ne.symm hcr]
  | case4 b c rest _ ih => rw [List.count_cons, List.count_cons, ih]

theorem count_expand {a : α} (hcr : a ≠ cr) : (expand cr lf text).count a = text.count a := by
  induction text with
  | nil => rfl
  | cons b rest ih =>
    by_cases hb : b = lf
    · rw [hb, expand_cons_lf]
      simp [List.count_cons, ih, Ne.symm hcr]
    · rw [expand_cons_other hb, List.count_cons, List.count_cons, ih]

theorem mem_expand {a : α} (hcr : a ≠ cr) : a ∈ expand cr lf text ↔ a ∈ text := by
  rw [← List.count_pos_iff, ← List.count_pos_iff, count_expand hcr]

end LvdTerm.Lib.LineEnds
