import LvdTerm.Vnc.ZrleFormat

/-!
# VNC client: ZRLE tiles that are cut short

What the decoder takes does not depend on what follows it, so the front part of a tile is never taken for a
tile. The colours it draws come from the payload or from the palette; a palette that was not read has none.
-/
namespace LvdTerm.Vnc

/-! ## What follows -/

theorem cpixel_append {d d' : List UInt8} {c : QRgb} (h : cpixel d = some (c, d')) (more : List UInt8) :
    cpixel (d ++ more) = some (c, d' ++ more) := by
  unfold cpixel at h
  split at h
  · simp only [Option.some.injEq, Prod.mk.injEq] at h
    obtain ⟨rfl, rfl⟩ := h
    rfl
  · cases h

theorem readPalette_append {n : Nat} {d d' : List UInt8} {palette : List QRgb} (h : readPalette n d = some (palette, d'))
    (more : List UInt8) : readPalette n (d ++ more) = some (palette, d' ++ more) := by
  induction n generalizing d palette with
  | zero =>
    simp only [readPalette, Option.some.injEq, Prod.mk.injEq] at h
    obtain ⟨rfl, rfl⟩ := h
    rfl
  | succ n ih =>
    simp only [readPalette, Option.bind_eq_bind, Option.bind_eq_some_iff, Option.pure_def, Option.some.injEq,
      Prod.mk.injEq] at h
    obtain ⟨⟨c, d₁⟩, hc, ⟨cs, d₂⟩, hcs, rfl, rfl⟩ := h
    simp only [readPalette, cpixel_append hc more, ih hcs, Option.bind_eq_bind, Option.bind_some, Option.pure_def]

theorem tileHeader_append {d rest : List UInt8} {sub : UInt8} {palette : List QRgb}
    (h : tileHeader d = some (sub, palette, rest)) (more : List UInt8) :
    tileHeader (d ++ more) = some (sub, palette, rest ++ more) := by
  cases d with
  | nil => cases h
  | cons s d =>
    simp only [tileHeader, List.cons_append] at h ⊢
    split at h
    · rename_i hsize
      rw [if_pos hsize]
      split at h
      · cases h
      · rename_i hlen
        obtain ⟨⟨p, r⟩, hp, hr⟩ := Option.map_eq_some_iff.mp h
        simp only [Prod.mk.injEq] at hr
        obtain ⟨rfl, rfl, rfl⟩ := hr
        rw [if_neg, readPalette_append hp more]
        · rfl
        · rw [List.length_append]
          omega
    · rename_i hsize
      rw [if_neg hsize]
      simp only [Option.some.injEq, Prod.mk.injEq] at h
      obtain ⟨rfl, rfl, rfl⟩ := h
      rfl

theorem length_append_of_ends {d : List UInt8} (h : lengthEnds d = true) (more : List UInt8) :
    lengthEnds (d ++ more) = true ∧ lengthSum (d ++ more) = lengthSum d ∧ afterLength (d ++ more) = afterLength d ++ more := by
  induction d with
  | nil => cases h
  | cons b d ih =>
    simp only [lengthEnds, lengthSum, afterLength, List.cons_append] at h ⊢
    split
    · rename_i hb
      rw [if_pos hb] at h
      obtain ⟨hends, hsum, hafter⟩ := ih h
      exact ⟨hends, by rw [hsum], hafter⟩
    · exact ⟨rfl, rfl, rfl⟩

theorem lengthSum_le_append (d more : List UInt8) : lengthSum d ≤ lengthSum (d ++ more) := by
  induction d with
  | nil => exact Nat.zero_le _
  | cons b d ih =>
    simp only [lengthSum, List.cons_append]
    split
    · omega
    · exact Nat.le_refl _

theorem nextRun_append {ps : Nat} {d field : List UInt8} (h : nextRun ps d = some field) (more : List UInt8) :
    nextRun ps (d ++ more) = some (field ++ more) := by
  unfold nextRun at h ⊢
  split
  · rename_i hps
    rw [if_pos hps] at h
    obtain ⟨⟨c, d'⟩, hp, rfl⟩ := Option.map_eq_some_iff.mp h
    rw [cpixel_append hp more]
    rfl
  · rename_i hps
    rw [if_neg hps] at h
    cases d with
    | nil => cases h
    | cons index d =>
      simp only [List.cons_append] at h ⊢
      split at h
      · cases h
      · rename_i hi
        simp only [Option.some.injEq] at h
        rw [if_neg hi, h]

theorem Advance.append {total ps n m : Nat} {d e : List UInt8} (h : Advance total ps n d m e) (more : List UInt8) :
    Advance total ps n (d ++ more) m (e ++ more) := by
  cases h with
  | pixel hps hi => exact .pixel hps hi
  | @run _ field hnext hends hfits =>
    obtain ⟨hends', hsum, hafter⟩ := length_append_of_ends hends more
    rw [← hsum] at hfits
    have hrun := Advance.run (nextRun_append hnext more) hends' hfits
    rwa [hsum, hafter] at hrun

theorem RleAt.append {total ps n : Nat} {d e : List UInt8} (h : RleAt total ps d n e) (more : List UInt8) :
    RleAt total ps (d ++ more) n (e ++ more) := by
  induction h with
  | start => exact .start
  | next _ hmore hadvance ih => exact .next ih hmore (hadvance.append more)

theorem TileEnds.append {t : Tile} {d rest : List UInt8} (h : TileEnds t d rest) (more : List UInt8) :
    TileEnds t (d ++ more) (rest ++ more) := by
  cases h with
  | @plain sub palette d' hheader hsub hlen =>
    rw [← List.drop_append_of_le_length hlen]
    refine .plain (tileHeader_append hheader more) hsub ?_
    rw [List.length_append]
    omega
  | rle hheader hsub hruns => exact .rle (tileHeader_append hheader more) hsub (hruns.append more)

/-- A run that overflows does so whatever follows. -/
theorem RunFitsAt.of_append {done : Int} {d more : List UInt8} (h : RunFitsAt done (d ++ more)) : RunFitsAt done d := by
  have hle := lengthSum_le_append d more
  refine ⟨by have := h.1; omega, fun hends => ?_⟩
  obtain ⟨hends', hsum, -⟩ := length_append_of_ends hends more
  have hfit := h.2 hends'
  rwa [hsum] at hfit

theorem zrleTile_fault_append {t : Tile} (ht : t.Clipped) {d : List UInt8} {f : Fault} (h : (zrleTile t d).finish = .fault f)
    (more : List UInt8) : (zrleTile t (d ++ more)).finish = .fault .runOverflow := by
  obtain ⟨-, sub, palette, rest, hheader, hsub, s, hs, hdone, hno⟩ := zrleTile_fault ht h
  have hat := (hs.rleAt ht.tw_pos).append more
  obtain ⟨s', hs', hdone', hd'⟩ := hat.reached palette ht.tw_pos ht.total_le_intMax
  have h0 := (hs.inv ht.tw_pos).done_nonneg
  have heq : s'.done = s.done := by omega
  rw [zrleTile_rle (tileHeader_append hheader more) hsub]
  refine rleLoop_overflow ht.tw_pos hs' (by omega) fun hfit => hno fun field hnext => ?_
  have hfits := hfit (field ++ more) (by rw [hd']; exact nextRun_append hnext more)
  rw [heq] at hfits
  exact hfits.of_append

/-- The front part of a tile is corrupt. -/
theorem zrleTile_cut {t : Tile} (ht : t.Clipped) {part missing : List UInt8} (hmissing : missing ≠ [])
    (hwhole : (zrleTile t (part ++ missing)).finish = .ok []) : (zrleTile t part).finish = .corrupt := by
  cases hfinish : (zrleTile t part).finish with
  | ok rest =>
    have hends := ((zrleTile_ends ht).mp hfinish).append missing
    rw [(zrleTile_ends ht).mpr hends, TileEnd.ok.injEq, List.append_eq_nil_iff] at hwhole
    exact absurd hwhole.2 hmissing
  | corrupt => rfl
  | fault f =>
    rw [zrleTile_fault_append ht hfinish missing] at hwhole
    cases hwhole

/-! ## Colours -/

def RleNext.state : RleNext → Rle
  | .more s => s
  | .corrupt s => s
  | .fault s _ => s

/-- Every write has a colour that satisfies `P`. -/
def Colored (P : Option QRgb → Prop) (ws : List Write) : Prop := ∀ w ∈ ws, P w.color

section Colors

variable {P : Option QRgb → Prop} {t : Tile} {palette : List QRgb} {ps : Nat}

theorem colored_nil : Colored P [] := fun _ hw => by cases hw

theorem Colored.append {ws ws' : List Write} (h : Colored P ws) (h' : Colored P ws') : Colored P (ws ++ ws') := by
  intro w hw
  rcases List.mem_append.mp hw with hw | hw
  · exact h w hw
  · exact h' w hw

theorem Colored.snoc {ws : List Write} (h : Colored P ws) {w : Write} (hw : P w.color) : Colored P (ws ++ [w]) := by
  refine h.append fun w' hw' => ?_
  rw [List.mem_singleton.mp hw']
  exact hw

theorem rawPixels_colored (hdirect : ∀ c, P (some c)) (n i : Nat) (d : List UInt8) {ws : List Write} (h : Colored P ws) :
    Colored P (rawPixels t n i d ws).writes := by
  induction n generalizing i d ws with
  | zero => exact h
  | succ n ih =>
    rw [rawPixels]
    split
    · exact h
    · exact ih _ _ (h.snoc (hdirect _))

theorem packedPixels_colored (hindexed : ∀ i, P palette[i % ps]?) (d : List UInt8) (n i : Nat) {ws : List Write}
    (h : Colored P ws) : Colored P (packedPixels t palette ps d n i ws).writes := by
  induction n generalizing i ws with
  | zero => exact h
  | succ n ih =>
    simp only [packedPixels]
    split
    · exact h
    · exact ih _ (h.snoc (hindexed _))

theorem needSize_colored {n : Nat} {d : List UInt8} {r : TileResult} (h : Colored P r.writes) :
    Colored P (needSize n d r).writes := by
  unfold needSize
  split
  · exact colored_nil
  · split
    · exact colored_nil
    · exact h

theorem putN_colored {c : Option QRgb} (hc : P c) (n : Nat) {s : Rle} (h : Colored P s.writes) :
    Colored P (Rle.putN t c n s).writes := by
  induction n generalizing s with
  | zero => exact h
  | succ n ih => exact ih (h.snoc hc)

theorem rleRun_colored {c : Option QRgb} (hc : P c) {s : Rle} (h : Colored P s.writes) :
    Colored P (rleRun t c s).state.writes := by
  rcases rleRun_cases t c s with ⟨_, he⟩ | ⟨_, d, he⟩ | ⟨_, _, _, he⟩
  · rw [he]
    exact h
  · rw [he]
    exact h
  · rw [he]
    exact putN_colored hc _ h

theorem rleStep_colored (hdirect : ps = 0 → ∀ c, P (some c)) (hindexed : ps ≠ 0 → ∀ i, P palette[i % ps]?) {s : Rle}
    (h : Colored P s.writes) : Colored P (rleStep t palette ps s).state.writes := by
  unfold rleStep
  split
  · rename_i hps
    split
    · exact h
    · exact rleRun_colored (hdirect hps _) h
  · rename_i hps
    split
    · exact h
    · simp only
      split
      · exact h.snoc (hindexed hps _)
      · exact rleRun_colored (hindexed hps _) h

theorem rleLoop_colored (hdirect : ps = 0 → ∀ c, P (some c)) (hindexed : ps ≠ 0 → ∀ i, P palette[i % ps]?) (fuel : Nat) {s : Rle}
    (h : Colored P s.writes) : Colored P (rleLoop t palette ps fuel s).writes := by
  induction fuel generalizing s with
  | zero => exact h
  | succ fuel ih =>
    have hstep := rleStep_colored (t := t) hdirect hindexed h
    rw [rleLoop]
    split
    · cases hnext : rleStep t palette ps s with
      | more s' =>
        rw [hnext] at hstep
        exact ih hstep
      | corrupt s' =>
        rw [hnext] at hstep
        exact hstep
      | fault s' f =>
        rw [hnext] at hstep
        exact hstep
    · exact h

/-- The colours of a tile are its own, or those of its palette. -/
theorem zrleTile_colored {d rest : List UInt8} {sub : UInt8} (hheader : tileHeader d = some (sub, palette, rest))
    (hdirect : sub.toNat % 128 = 0 → ∀ c, P (some c)) (hindexed : sub.toNat % 128 ≠ 0 → ∀ i, P palette[i % (sub.toNat % 128)]?) :
    Colored P (zrleTile t d).writes := by
  unfold zrleTile
  simp only [hheader]
  split
  · split
    · rename_i hps
      exact needSize_colored (rawPixels_colored (hdirect hps) _ _ _ colored_nil)
    · rename_i hps
      split
      · rename_i hone
        intro w hw
        obtain ⟨p, -, rfl⟩ := List.mem_map.mp hw
        have hcolor := hindexed hps 0
        rwa [hone] at hcolor
      · exact needSize_colored (packedPixels_colored (hindexed hps) _ _ _ colored_nil)
  · exact rleLoop_colored hdirect hindexed _ colored_nil

/-- A palette that has been read in full has a colour for every index. -/
theorem zrleTile_filled {d rest : List UInt8} {sub : UInt8} (hheader : tileHeader d = some (sub, palette, rest))
    (hfull : palette.length = sub.toNat % 128) : Colored (fun c => c.isSome = true) (zrleTile t d).writes := by
  refine zrleTile_colored hheader (fun _ _ => rfl) fun hps i => ?_
  rw [Option.isSome_iff_exists]
  exact ⟨_, List.getElem?_eq_getElem (by rw [hfull]; exact Nat.mod_lt _ (Nat.pos_of_ne_zero hps))⟩

/-- A palette of 127 entries is never read: no index has a colour. -/
theorem zrleTile_unfilled {d rest : List UInt8} {sub : UInt8} (hheader : tileHeader d = some (sub, [], rest))
    (hsub : sub.toNat % 128 = 127) : Colored (fun c => c = none) (zrleTile t d).writes :=
  zrleTile_colored hheader (fun h => by omega) fun _ _ => rfl

end Colors

end LvdTerm.Vnc
