import Mathlib.Data.List.Nodup
import Mathlib.Data.List.Perm.Basic

/-!
# An index kept beside a collection

Things with a key and an identity, and a map from keys to identities that is kept by hand: an insertion overwrites what
the key held, a removal forgets the key. It is `Sound` when what it holds is live, under its own key, and `Exact` when in
addition it holds everything that is live. An index stays sound whatever comes and goes; it stays exact as long as what
comes has keys of its own.
-/
namespace LvdTerm.Lib.KeyIndex

variable {κ ν : Type}

def Sound (index : κ → Option ν) (live : List (κ × ν)) : Prop := ∀ k v, index k = some v → (k, v) ∈ live

def Exact (index : κ → Option ν) (live : List (κ × ν)) : Prop := ∀ k v, index k = some v ↔ (k, v) ∈ live

section

variable {index : κ → Option ν} {live kept : List (κ × ν)}

theorem Exact.sound (h : Exact index live) : Sound index live := fun k v => (h k v).mp

theorem Sound.perm (h : Sound index kept) (hp : kept.Perm live) : Sound index live := fun k v hv => hp.mem_iff.mp (h k v hv)

theorem exact_perm (hp : kept.Perm live) : Exact index kept ↔ Exact index live := by
  simp only [Exact, hp.mem_iff]

/-- Different things in an exact index have different keys. -/
theorem Exact.nodup_keys (h : Exact index live) (hid : (live.map Prod.snd).Nodup) : (live.map Prod.fst).Nodup := by
  refine List.Nodup.map_on (fun e he e' he' hkey => ?_) hid.of_map
  have hsame : some e.2 = some e'.2 := by rw [← (h _ _).mpr he, ← (h _ _).mpr he', hkey]
  exact Prod.ext hkey (Option.some.inj hsame)

end

variable [DecidableEq κ] {index : κ → Option ν} {kept gone new : List (κ × ν)}

def insert (index : κ → Option ν) (e : κ × ν) : κ → Option ν := fun k => if k = e.1 then some e.2 else index k

def erase (index : κ → Option ν) (key : κ) : κ → Option ν := fun k => if k = key then none else index k

/-! ## Erasing -/

theorem foldl_erase_apply (keys : List κ) (index : κ → Option ν) (k : κ) :
    keys.foldl erase index k = if k ∈ keys then none else index k := by
  induction keys generalizing index with
  | nil => rfl
  | cons key keys ih =>
    rw [List.foldl_cons, ih, erase]
    by_cases hk : k = key <;> simp [hk]

theorem Sound.foldl_erase (h : Sound index (kept ++ gone)) : Sound ((gone.map Prod.fst).foldl erase index) kept := by
  intro k v hv
  rw [foldl_erase_apply] at hv
  split at hv
  · cases hv
  · rename_i hk
    rcases List.mem_append.mp (h k v hv) with hin | hin
    · exact hin
    · exact absurd (List.mem_map_of_mem hin) hk

theorem Exact.foldl_erase (h : Exact index (kept ++ gone)) (hid : ((kept ++ gone).map Prod.snd).Nodup) :
    Exact ((gone.map Prod.fst).foldl erase index) kept := by
  refine fun k v => ⟨h.sound.foldl_erase k v, fun hin => ?_⟩
  have hkeys := h.nodup_keys hid
  rw [List.map_append, List.nodup_append] at hkeys
  have hkey : k ∈ kept.map Prod.fst := List.mem_map_of_mem hin
  rw [foldl_erase_apply, if_neg fun hgone => hkeys.2.2 _ hkey _ hgone rfl]
  exact (h k v).mpr (List.mem_append_left _ hin)

/-! ## Inserting -/

theorem Sound.foldl_insert (h : Sound index kept) (new : List (κ × ν)) : Sound (new.foldl insert index) (kept ++ new) := by
  induction new generalizing index kept with
  | nil => rwa [List.append_nil]
  | cons e new ih =>
    have hone : Sound (insert index e) (kept ++ [e]) := by
      intro k v hv
      unfold insert at hv
      split at hv
      · exact List.mem_append_right _ (List.mem_singleton.mpr (Prod.ext ‹k = e.1› (Option.some.inj hv).symm))
      · exact List.mem_append_left _ (h k v hv)
    have hrest := ih hone
    rwa [List.append_assoc] at hrest

theorem foldl_insert_of_notMem (new : List (κ × ν)) (index : κ → Option ν) {k : κ} (h : k ∉ new.map Prod.fst) :
    new.foldl insert index k = index k := by
  induction new generalizing index with
  | nil => rfl
  | cons e new ih =>
    rw [List.map_cons, List.mem_cons, not_or] at h
    exact (ih _ h.2).trans (if_neg h.1)

theorem foldl_insert_of_nodup (index : κ → Option ν) (h : (new.map Prod.fst).Nodup) {e : κ × ν} (he : e ∈ new) :
    new.foldl insert index e.1 = some e.2 := by
  induction new generalizing index with
  | nil => cases he
  | cons e' new ih =>
    rw [List.map_cons, List.nodup_cons] at h
    rcases List.mem_cons.mp he with rfl | he
    · exact (foldl_insert_of_notMem new _ h.1).trans (if_pos rfl)
    · exact ih _ h.2 he

/-- An index stays exact if and only if what is inserted has keys of its own. -/
theorem exact_foldl_insert_iff (h : Exact index kept) (hid : ((kept ++ new).map Prod.snd).Nodup) :
    Exact (new.foldl insert index) (kept ++ new) ↔ (new.map Prod.fst).Nodup ∧ ∀ k ∈ new.map Prod.fst, k ∉ kept.map Prod.fst := by
  constructor
  · intro hexact
    have hkeys := hexact.nodup_keys hid
    rw [List.map_append, List.nodup_append] at hkeys
    exact ⟨hkeys.2.1, fun k hk hin => hkeys.2.2 _ hin _ hk rfl⟩
  · rintro ⟨hnew, hfresh⟩ k v
    refine ⟨h.sound.foldl_insert new k v, fun hin => ?_⟩
    rcases List.mem_append.mp hin with hin | hin
    · have hkey : k ∉ new.map Prod.fst := fun hk => hfresh k hk (List.mem_map_of_mem hin)
      rw [foldl_insert_of_notMem new _ hkey]
      exact (h k v).mpr hin
    · exact foldl_insert_of_nodup index hnew hin

end LvdTerm.Lib.KeyIndex
