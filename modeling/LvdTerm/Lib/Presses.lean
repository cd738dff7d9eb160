import Mathlib.Data.List.Induction

/-!
# Presses without a release

In a list of messages a press is `Down` when no release comes after it. A message that is no release of it can be taken
out of the list without putting anything down.
-/
namespace LvdTerm.Lib.Presses

variable {ε : Type} {press release e : ε} {l l' : List ε}

def Down (press release : ε) (l : List ε) : Prop := ∃ before after, l = before ++ press :: after ∧ release ∉ after

theorem not_down_nil : ¬ Down press release [] := by
  rintro ⟨before, after, h, -⟩
  simp at h

theorem down_concat : Down press release (l ++ [e]) ↔ e = press ∨ Down press release l ∧ e ≠ release := by
  constructor
  · rintro ⟨before, after, h, hup⟩
    rcases List.eq_nil_or_concat after with rfl | ⟨after, last, rfl⟩
    · exact .inl (List.singleton_inj.mp (List.append_inj_right' h rfl))
    · rw [List.concat_eq_append, ← List.cons_append, ← List.append_assoc] at h
      have hlast : e = last := List.singleton_inj.mp (List.append_inj_right' h rfl)
      rw [List.concat_eq_append, List.mem_append, List.mem_singleton, not_or] at hup
      exact .inr ⟨⟨before, after, List.append_inj_left' h rfl, hup.1⟩, fun heq => hup.2 (heq ▸ hlast)⟩
  · rintro (rfl | ⟨⟨before, after, rfl, hup⟩, hne⟩)
    · exact ⟨l, [], rfl, List.not_mem_nil⟩
    · refine ⟨before, after ++ [e], by simp, ?_⟩
      rw [List.mem_append, List.mem_singleton, not_or]
      exact ⟨hup, fun heq => hne heq.symm⟩

theorem Down.append_left (h : Down press release l') (l : List ε) : Down press release (l ++ l') := by
  obtain ⟨before, after, rfl, hup⟩ := h
  exact ⟨l ++ before, after, by rw [List.append_assoc], hup⟩

/-- Of two lists a press is down in the second, or in the first and not released in the second. -/
theorem down_append : Down press release (l ++ l') ↔ Down press release l' ∨ Down press release l ∧ release ∉ l' := by
  induction l' using List.reverseRecOn with
  | nil =>
    rw [List.append_nil]
    exact ⟨fun h => .inr ⟨h, List.not_mem_nil⟩, fun h => (h.resolve_left not_down_nil).1⟩
  | append_singleton l' e ih =>
    rw [← List.append_assoc, down_concat, down_concat, ih, List.mem_append, List.mem_singleton]
    constructor
    · rintro (rfl | ⟨hl' | ⟨hl, hup⟩, hne⟩)
      · exact .inl (.inl rfl)
      · exact .inl (.inr ⟨hl', hne⟩)
      · exact .inr ⟨hl, not_or.mpr ⟨hup, Ne.symm hne⟩⟩
    · rintro ((rfl | ⟨hl', hne⟩) | ⟨hl, hup⟩)
      · exact .inl rfl
      · exact .inr ⟨.inl hl', hne⟩
      · exact .inr ⟨.inr ⟨hl, fun h => hup (.inl h)⟩, fun h => hup (.inr h.symm)⟩

/-- Without a message that does not release it, nothing more is down. -/
theorem Down.insert (h : Down press release (l ++ l')) (hne : e ≠ release) : Down press release (l ++ e :: l') := by
  rw [← List.singleton_append, ← List.append_assoc]
  rcases down_append.mp h with hl' | ⟨hl, hup⟩
  · exact hl'.append_left _
  · exact down_append.mpr (.inr ⟨down_concat.mpr (.inr ⟨hl, hne⟩), hup⟩)

end LvdTerm.Lib.Presses
