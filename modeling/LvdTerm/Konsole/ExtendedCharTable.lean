import LvdTerm.Konsole.Character

/-!
# ExtendedCharTable: combined characters

A sequence of code points that share a cell is kept in a table, and the cell has its key: the hash of the sequence, or the next
one that is free. Key 0 ends the search whether it is free or not, so that the search for entries that no screen uses, made after a
whole turn through the keys, is never reached.
-/
namespace LvdTerm.Konsole

/-- The entries of the `QHash`, the newest first. -/
abbrev ExtendedCharTable := List (Nat × List Nat)

namespace ExtendedCharTable

def kKeys : Nat := 2 ^ 32

def extendedCharHash (unicodePoints : List Nat) : Nat := unicodePoints.foldl (fun hash point => (31 * hash + point) % kKeys) 0

/-- The key the loop ends with, and whether it has the sequence; none after `fuel` keys of other sequences. -/
def probe (t : ExtendedCharTable) (unicodePoints : List Nat) : Nat → Nat → Option (Nat × Bool)
  | 0, _ => none
  | fuel + 1, hash =>
    match t.lookup hash with
    | none => some (hash, false)
    | some points =>
      if hash = 0 then some (hash, false)
      else if points = unicodePoints then some (hash, true)
      else probe t unicodePoints fuel ((hash + 1) % kKeys)

def createExtendedChar (unicodePoints : List Nat) (t : ExtendedCharTable) : Option (Nat × ExtendedCharTable) :=
  (t.probe unicodePoints kKeys (extendedCharHash unicodePoints)).map fun (hash, found) =>
    (hash, if found then t else (hash, unicodePoints) :: t)

def lookupExtendedChar (t : ExtendedCharTable) (hash : Nat) : Option (List Nat) := t.lookup hash

def createAll : List (List Nat) → ExtendedCharTable → ExtendedCharTable
  | [], t => t
  | points :: rest, t => createAll rest ((t.createExtendedChar points).elim t (·.2))

variable {t t' : ExtendedCharTable} {points other : List Nat} {key hash fuel : Nat} {found : Bool}

theorem extendedCharHash_lt (points : List Nat) : extendedCharHash points < kKeys := by
  unfold extendedCharHash
  rcases List.eq_nil_or_concat points with rfl | ⟨rest, last, rfl⟩
  · decide
  · rw [List.concat_eq_append, List.foldl_append]
    exact Nat.mod_lt _ (by decide)

/-- From any key up, the keys end at 0. -/
theorem probe_total (t : ExtendedCharTable) (points : List Nat) (h : hash < kKeys)
    (hfuel : 0 < fuel ∧ (hash ≠ 0 → kKeys - hash < fuel)) : ∃ result, t.probe points fuel hash = some result := by
  induction fuel generalizing hash with
  | zero => exact absurd hfuel.1 (Nat.lt_irrefl 0)
  | succ fuel ih =>
    rw [probe]
    cases t.lookup hash with
    | none => exact ⟨_, rfl⟩
    | some kept =>
      by_cases hzero : hash = 0
      · exact ⟨_, if_pos hzero⟩
      · have hleft := hfuel.2 hzero
        simp only [hzero, if_false]
        split
        · exact ⟨_, rfl⟩
        · refine ih (Nat.mod_lt _ (by decide)) ⟨by omega, fun hnext => ?_⟩
          by_cases hwrap : hash + 1 = kKeys
          · rw [hwrap, Nat.mod_self] at hnext
            exact absurd rfl hnext
          · rw [Nat.mod_eq_of_lt (by omega)]
            omega

/-- A key that is found has the sequence, any other one is free or 0. -/
theorem probe_spec (h : t.probe points fuel hash = some (key, found)) :
    if found then t.lookup key = some points ∧ key ≠ 0 else t.lookup key = none ∨ key = 0 := by
  induction fuel generalizing hash with
  | zero => cases h
  | succ fuel ih =>
    rw [probe] at h
    cases hkept : t.lookup hash with
    | none =>
      rw [hkept] at h
      cases h
      exact .inl hkept
    | some kept =>
      rw [hkept] at h
      simp only at h
      split at h
      next hzero =>
        cases h
        exact .inr hzero
      next hzero =>
        split at h
        next hsame =>
          cases h
          exact ⟨hsame ▸ hkept, hzero⟩
        next => exact ih h

theorem createExtendedChar_total (points : List Nat) (t : ExtendedCharTable) :
    ∃ key t', t.createExtendedChar points = some (key, t') := by
  have hlt := extendedCharHash_lt points
  have hfuel : 0 < kKeys ∧ (extendedCharHash points ≠ 0 → kKeys - extendedCharHash points < kKeys) := ⟨by decide, fun _ => by omega⟩
  obtain ⟨⟨key, found⟩, hresult⟩ := t.probe_total points hlt hfuel
  exact ⟨key, _, by rw [createExtendedChar, hresult]; rfl⟩

/-- What one sequence that is added does to the table. -/
theorem createExtendedChar_spec (h : t.createExtendedChar points = some (key, t')) :
    t'.lookup key = some points ∧ (∀ k, k ≠ key → t'.lookup k = t.lookup k) ∧ (key ≠ 0 → ∀ kept, t.lookup key = some kept → kept = points) := by
  obtain ⟨⟨k, found⟩, hprobe, hresult⟩ := Option.map_eq_some_iff.mp h
  have hspec := probe_spec hprobe
  cases found with
  | true =>
    cases hresult
    obtain ⟨hkept, -⟩ := hspec
    exact ⟨hkept, fun _ _ => rfl, fun _ kept hk => Option.some.inj (hk.symm.trans hkept)⟩
  | false =>
    cases hresult
    refine ⟨List.lookup_cons_self, fun k hk => ?_, fun hkey kept hk => ?_⟩
    · show ((key, points) :: t).lookup k = t.lookup k
      rw [List.lookup_cons, beq_false_of_ne hk]
    · rcases hspec with hfree | hzero
      · rw [hfree] at hk
        cases hk
      · exact absurd hzero hkey

theorem createExtendedChar_keeps (h : t.createExtendedChar other = some (key, t')) {k : Nat} (hk : k ≠ 0)
    (hkept : t.lookup k = some points) : t'.lookup k = some points := by
  obtain ⟨hnew, hold, hsame⟩ := createExtendedChar_spec h
  by_cases hkey : k = key
  · subst hkey
    rw [hnew, hsame hk points hkept]
  · rw [hold k hkey, hkept]

theorem createAll_keeps (sequences : List (List Nat)) {k : Nat} (hk : k ≠ 0) (hkept : t.lookup k = some points) :
    (t.createAll sequences).lookup k = some points := by
  induction sequences generalizing t with
  | nil => exact hkept
  | cons other rest ih =>
    obtain ⟨key, t', hcreate⟩ := createExtendedChar_total other t
    rw [createAll, hcreate]
    exact ih (createExtendedChar_keeps hcreate hk hkept)

/-- The keys on the way to the one that is given stay taken by other sequences. -/
theorem probe_again (hkeeps : ∀ k points, k ≠ 0 → t.lookup k = some points → t'.lookup k = some points) (hkey : key = 0 ∨ t'.lookup key = some points)
    (h : t.probe points fuel hash = some (key, found)) : ∃ found', t'.probe points fuel hash = some (key, found') := by
  induction fuel generalizing hash with
  | zero => cases h
  | succ fuel ih =>
    have hhere : hash = key → ∃ found', t'.probe points (fuel + 1) hash = some (key, found') := by
      rintro rfl
      rw [probe]
      rcases hkey with rfl | hkey
      · cases t'.lookup 0 with
        | none => exact ⟨false, rfl⟩
        | some kept => exact ⟨false, if_pos rfl⟩
      · rw [hkey]
        by_cases h0 : hash = 0
        · exact ⟨false, if_pos h0⟩
        · exact ⟨true, by simp only [h0, if_false, if_true]⟩
    rw [probe] at h
    cases hkept : t.lookup hash with
    | none =>
      rw [hkept] at h
      cases h
      exact hhere rfl
    | some kept =>
      rw [hkept] at h
      simp only at h
      split at h
      next h0 =>
        cases h
        exact hhere rfl
      next h0 =>
        split at h
        next hsame =>
          cases h
          exact hhere rfl
        next hother =>
          rw [probe, hkeeps hash kept h0 hkept]
          simp only [h0, hother, if_false]
          exact ih h

/-- A combined character keeps its key: whatever sequences are added afterwards, the key a sequence was given still has it, unless
that is key 0, and the sequence is given the same key again. -/
theorem combined_keeps_key (sequences : List (List Nat)) (h : t.createExtendedChar points = some (key, t')) :
    (key ≠ 0 → (t'.createAll sequences).lookupExtendedChar key = some points) ∧
    ∃ t'', (t'.createAll sequences).createExtendedChar points = some (key, t'') ∧ t''.lookupExtendedChar key = some points := by
  obtain ⟨hnew, -, -⟩ := createExtendedChar_spec h
  refine ⟨fun hkey => createAll_keeps sequences hkey hnew, ?_⟩
  obtain ⟨⟨k, found⟩, hprobe, hresult⟩ := Option.map_eq_some_iff.mp h
  obtain rfl : k = key := congrArg Prod.fst hresult
  have hkeeps : ∀ k points, k ≠ 0 → t.lookup k = some points → (t'.createAll sequences).lookup k = some points :=
    fun k points hk hkept => createAll_keeps sequences hk (createExtendedChar_keeps h hk hkept)
  have hkey : k = 0 ∨ (t'.createAll sequences).lookup k = some points := by
    by_cases hzero : k = 0
    · exact .inl hzero
    · exact .inr (createAll_keeps sequences hzero hnew)
  obtain ⟨found', hagain⟩ := probe_again hkeeps hkey hprobe
  obtain ⟨k', t'', hcreate⟩ := createExtendedChar_total points (t'.createAll sequences)
  have hsame : k = k' := by
    rw [createExtendedChar, hagain] at hcreate
    exact congrArg Prod.fst (Option.some.inj hcreate)
  subst hsame
  exact ⟨t'', hcreate, (createExtendedChar_spec hcreate).1⟩

theorem combined_keeps_key_accent : (3900 ≠ 0 → (createAll [[101, 770]] [(3900, [101, 769])]).lookupExtendedChar 3900 = some [101, 769]) ∧
    ∃ t, (createAll [[101, 770]] [(3900, [101, 769])]).createExtendedChar [101, 769] = some (3900, t) ∧
      t.lookupExtendedChar 3900 = some [101, 769] :=
  combined_keeps_key (t := []) [[101, 770]] (by decide)

end ExtendedCharTable

end LvdTerm.Konsole
