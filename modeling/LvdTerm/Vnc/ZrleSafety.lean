import LvdTerm.Vnc.ZrleLoop

/-!
# VNC client: safety of ZRLE rectangles

From the loops to tiles and from tiles to whole rectangles. A run that does not fit an
`int` is added up before it is compared with the tile, so the decoder is safe on a
payload exactly when every run the payload's format reaches does fit (`RunsFit`).
-/
namespace LvdTerm.Vnc

/-! ## How the run-length loop ends -/

section Loop

variable {t : Tile} {palette : List QRgb} {ps : Nat} {d : List UInt8}

/-- The ways out of the loop: a run that overflows, corrupt data, or a full tile. -/
inductive LoopEnd (t : Tile) (palette : List QRgb) (ps : Nat) (d : List UInt8) : TileResult → Prop where
  | overflow {s : Rle} (reached : Reached t palette ps d s) (more : s.done < t.total)
      (unfit : ¬ RunFits ps s) : LoopEnd t palette ps d ⟨s.writes, .fault .runOverflow⟩
  | corrupt {s : Rle} (reached : Reached t palette ps d s) : LoopEnd t palette ps d ⟨s.writes, .corrupt⟩
  | full {s : Rle} (reached : Reached t palette ps d s) (done : s.done = t.total) :
      LoopEnd t palette ps d ⟨s.writes, .ok s.d⟩

theorem rleLoop_end (palette : List QRgb) (ps : Nat) (hw : 0 < t.tw) (fuel : Nat) {s : Rle} (hs : Reached t palette ps d s)
    (hfuel : s.d.length < fuel) : LoopEnd t palette ps d (rleLoop t palette ps fuel s) := by
  induction fuel generalizing s with
  | zero => omega
  | succ fuel ih =>
    have hinv := hs.inv hw
    unfold rleLoop
    split
    · rename_i hmore
      rcases rleStep_cases palette ps hw hinv hmore with
        ⟨hno, s', he, hws⟩ | ⟨_, s', he, hws⟩ | ⟨_, s', he, _, hadv⟩
      · simp only [he, hws]
        exact .overflow hs hmore hno
      · simp only [he, hws]
        exact .corrupt hs
      · rw [he]
        have hlt := hadv.length_lt
        exact ih (hs.next hmore he) (by omega)
    · have hle := hinv.done_le
      exact .full hs (by omega)

/-- The loop passes through every state reached: it can be cut there. -/
theorem rleLoop_reached (hw : 0 < t.tw) {s : Rle} (hs : Reached t palette ps d s) :
    ∃ fuel, rleLoop t palette ps (d.length + 1) (.start d) = rleLoop t palette ps (fuel + 1) s ∧
      s.d.length ≤ fuel := by
  induction hs with
  | start => exact ⟨d.length, rfl, Nat.le_refl _⟩
  | @next s s' hbefore hmore hround ih =>
    obtain ⟨fuel, heq, hlen⟩ := ih
    have hlt : s'.d.length < s.d.length := by
      rcases rleStep_cases palette ps hw (hbefore.inv hw) hmore with
        ⟨_, s₁, he, _⟩ | ⟨_, s₁, he, _⟩ | ⟨_, s₁, he, _, hadv⟩
      · rw [he] at hround; cases hround
      · rw [he] at hround; cases hround
      · rw [he] at hround
        cases hround
        exact hadv.length_lt
    obtain ⟨k, rfl⟩ : ∃ k, fuel = k + 1 := ⟨fuel - 1, by omega⟩
    refine ⟨k, ?_, by omega⟩
    rw [heq, rleLoop, if_pos hmore, hround]

theorem rleLoop_overflow (hw : 0 < t.tw) {s : Rle} (hs : Reached t palette ps d s)
    (hmore : s.done < t.total) (hno : ¬ RunFits ps s) :
    (rleLoop t palette ps (d.length + 1) (.start d)).finish = .fault .runOverflow := by
  obtain ⟨fuel, heq, _⟩ := rleLoop_reached hw hs
  rw [heq, rleLoop, if_pos hmore]
  rcases rleStep_cases palette ps hw (hs.inv hw) hmore with
    ⟨_, s', he, _⟩ | ⟨hyes, _⟩ | ⟨hyes, _⟩
  · rw [he]
  · exact absurd hyes hno
  · exact absurd hyes hno

theorem rleLoop_full (hw : 0 < t.tw) {s : Rle} (hs : Reached t palette ps d s)
    (hdone : s.done = t.total) :
    (rleLoop t palette ps (d.length + 1) (.start d)).finish = .ok s.d := by
  obtain ⟨fuel, heq, _⟩ := rleLoop_reached hw hs
  rw [heq, rleLoop, if_neg (by omega)]

end Loop

/-! ## Tiles -/

/-- Tiles as the loops over a rectangle make them. -/
structure Tile.Clipped (t : Tile) : Prop where
  tw_pos : 0 < t.tw
  tw_le : t.tw ≤ 64
  th_le : t.th ≤ 64

theorem Tile.Clipped.total_le {t : Tile} (h : t.Clipped) : t.tw * t.th ≤ 4096 :=
  Nat.mul_le_mul h.tw_le h.th_le

theorem Tile.Clipped.total_le_intMax {t : Tile} (h : t.Clipped) : t.total ≤ intMax := by
  have hle := h.total_le
  have htotal : t.total = ((t.tw * t.th : Nat) : Int) := by rw [Tile.total, Int.natCast_mul]
  have hmax : intMax = 2147483647 := rfl
  omega

/-- The bytes of a raw, solid or packed tile behind its palette. -/
def plainLength (t : Tile) (paletteSize : Nat) : Nat :=
  if paletteSize = 0 then t.tw * t.th * 3
  else if paletteSize = 1 then 0
  else (t.tw * packedBits paletteSize + 7) / 8 * t.th

theorem plainLength_lt {t : Tile} (h : t.Clipped) (ps : Nat) : plainLength t ps < 2 ^ 31 := by
  have hle := h.total_le
  unfold plainLength
  split
  · omega
  · split
    · omega
    · have hbits : packedBits ps ≤ 4 := by
        unfold packedBits
        split
        · decide
        · split <;> decide
      have hrow : (t.tw * packedBits ps + 7) / 8 ≤ 64 * 4 := by
        have := Nat.mul_le_mul h.tw_le hbits
        omega
      have := Nat.mul_le_mul hrow h.th_le
      omega

/-- A raw, solid or packed tile: all of it if its bytes are there, else nothing. -/
theorem zrleTile_plain {t : Tile} (ht : t.Clipped) {d rest : List UInt8} {sub : UInt8}
    {palette : List QRgb} (hheader : tileHeader d = some (sub, palette, rest)) (hsub : sub < 128) :
    Ordered t (zrleTile t d) ∧
      (zrleTile t d).finish =
        if plainLength t (sub.toNat % 128) ≤ rest.length
        then .ok (rest.drop (plainLength t (sub.toNat % 128))) else .corrupt := by
  have hsmall := plainLength_lt ht (sub.toNat % 128)
  unfold zrleTile
  simp only [hheader, if_pos hsub]
  generalize sub.toNat % 128 = ps at hsmall ⊢
  unfold plainLength at hsmall ⊢
  split
  · rename_i hps
    rw [if_pos hps] at hsmall
    rw [needSize, if_neg (by omega)]
    split
    · exact ⟨ordered_nil_corrupt t, by rw [if_neg (by omega)]⟩
    · obtain ⟨hord, hfin⟩ := rawPixels_ordered t (t.tw * t.th) 0 rest [] (by omega) (by omega) rfl
      exact ⟨hord, by rw [hfin, if_pos (by omega)]⟩
  · rename_i hps
    rw [if_neg hps] at hsmall
    split
    · rw [if_pos (Nat.zero_le _)]
      have hall := solidPixels_at t palette[0]?
      exact ⟨⟨⟨t.tw * t.th, Nat.le_refl _, hall⟩, fun _ _ => hall⟩, rfl⟩
    · rename_i hone
      rw [if_neg hone] at hsmall
      rw [needSize, if_neg (by omega)]
      split
      · exact ⟨ordered_nil_corrupt t, by rw [if_neg (by omega)]⟩
      · obtain ⟨hord, hfin⟩ := packedPixels_ordered t palette ps rest (t.tw * t.th) 0 []
          (by omega) (by omega) rfl
        exact ⟨hord, by rw [hfin, if_pos (by omega)]⟩

theorem zrleTile_rle {t : Tile} {d rest : List UInt8} {sub : UInt8} {palette : List QRgb}
    (hheader : tileHeader d = some (sub, palette, rest)) (hsub : ¬ sub < 128) :
    zrleTile t d = rleLoop t palette (sub.toNat % 128) (rest.length + 1) (.start rest) := by
  unfold zrleTile
  simp only [hheader, if_neg hsub]

theorem LoopEnd.ordered {t : Tile} (hw : 0 < t.tw) {palette : List QRgb} {ps : Nat}
    {d : List UInt8} {r : TileResult} (h : LoopEnd t palette ps d r) : Ordered t r := by
  have hin : ∀ s, Reached t palette ps d s →
      ∃ n, n ≤ t.tw * t.th ∧ s.writes.map Write.at = t.firstN n := by
    intro s hs
    have hinv := hs.inv hw
    have hle := hinv.done_le
    have htotal : t.total = ((t.tw * t.th : Nat) : Int) := by rw [Tile.total, Int.natCast_mul]
    exact ⟨s.done.toNat, by omega, hinv.writes⟩
  cases h with
  | overflow hs _ _ => exact ⟨hin _ hs, fun _ h => by cases h⟩
  | corrupt hs => exact ⟨hin _ hs, fun _ h => by cases h⟩
  | @full s hs hdone =>
    refine ⟨hin _ hs, fun _ _ => ?_⟩
    have hn : s.done.toNat = t.tw * t.th := by
      have htotal : t.total = ((t.tw * t.th : Nat) : Int) := by rw [Tile.total, Int.natCast_mul]
      omega
    rw [(hs.inv hw).writes, hn, Tile.firstN_total]

theorem zrleTile_ordered {t : Tile} (ht : t.Clipped) (d : List UInt8) : Ordered t (zrleTile t d) := by
  cases hheader : tileHeader d with
  | none =>
    unfold zrleTile
    rw [hheader]
    exact ordered_nil_corrupt t
  | some p =>
    obtain ⟨sub, palette, rest⟩ := p
    by_cases hsub : sub < 128
    · exact (zrleTile_plain ht hheader hsub).1
    · rw [zrleTile_rle hheader hsub]
      exact (rleLoop_end _ _ ht.tw_pos _ .start (Nat.lt_succ_self _)).ordered ht.tw_pos

/-! ## The format of a rectangle -/

/-- A tile that ends without an error at the front of `d`, and what follows it. -/
inductive TileEnds (t : Tile) (d : List UInt8) : List UInt8 → Prop where
  | plain {sub : UInt8} {palette : List QRgb} {rest : List UInt8}
      (header : tileHeader d = some (sub, palette, rest)) (plain : sub < 128)
      (there : plainLength t (sub.toNat % 128) ≤ rest.length) :
      TileEnds t d (rest.drop (plainLength t (sub.toNat % 128)))
  | rle {sub : UInt8} {palette : List QRgb} {rest rest' : List UInt8}
      (header : tileHeader d = some (sub, palette, rest)) (rle : ¬ sub < 128)
      (runs : RleAt (t.tw * t.th) (sub.toNat % 128) rest (t.tw * t.th) rest') : TileEnds t d rest'

/-- The tiles a payload gets to, each with the bytes from its sub-encoding on. -/
inductive TileAt : List Tile → List UInt8 → Tile → List UInt8 → Prop where
  | first {t : Tile} {ts : List Tile} {d : List UInt8} : TileAt (t :: ts) d t d
  | later {t t' : Tile} {ts : List Tile} {d rest d' : List UInt8} (ends : TileEnds t d rest)
      (after : TileAt ts rest t' d') : TileAt (t :: ts) d t' d'

/-- Every run of the payload fits an `int`: one more than its length bytes add up to, and
that with the pixels the tile has before it. -/
def RunsFit (r : Rect) (payload : List UInt8) : Prop :=
  ∀ t d sub palette rest, TileAt (zrleTiles r) payload t d →
    tileHeader d = some (sub, palette, rest) → ¬ sub < 128 →
    ∀ done rest' field, RleAt (t.tw * t.th) (sub.toNat % 128) rest done rest' → done < t.tw * t.th →
      nextRun (sub.toNat % 128) rest' = some field → RunFitsAt done field

theorem zrleTile_ends {t : Tile} (ht : t.Clipped) {d rest : List UInt8} :
    (zrleTile t d).finish = .ok rest ↔ TileEnds t d rest := by
  constructor
  · intro h
    cases hheader : tileHeader d with
    | none =>
      unfold zrleTile at h
      rw [hheader] at h
      cases h
    | some p =>
      obtain ⟨sub, palette, d'⟩ := p
      by_cases hsub : sub < 128
      · rw [(zrleTile_plain ht hheader hsub).2] at h
        split at h
        · rename_i hlen
          simp only [TileEnd.ok.injEq] at h
          rw [← h]
          exact .plain hheader hsub hlen
        · cases h
      · rw [zrleTile_rle hheader hsub] at h
        have hend := rleLoop_end palette (sub.toNat % 128) ht.tw_pos
          (d'.length + 1) (.start (d := d')) (Nat.lt_succ_self _)
        generalize rleLoop t palette (sub.toNat % 128) (d'.length + 1) (.start d') = r at h hend
        cases hend with
        | overflow _ _ _ => cases h
        | corrupt _ => cases h
        | @full s hs hdone =>
          simp only [TileEnd.ok.injEq] at h
          have htotal : t.total = ((t.tw * t.th : Nat) : Int) := by rw [Tile.total, Int.natCast_mul]
          have hat := hs.rleAt ht.tw_pos
          rw [h, show s.done.toNat = t.tw * t.th by omega] at hat
          exact .rle hheader hsub hat
  · intro h
    cases h with
    | plain hheader hsub hlen => rw [(zrleTile_plain ht hheader hsub).2, if_pos hlen]
    | @rle sub palette d' _ hheader hsub hruns =>
      obtain ⟨s, hs, hdone, hd⟩ := hruns.reached palette ht.tw_pos ht.total_le_intMax
      rw [zrleTile_rle hheader hsub, ← hd]
      exact rleLoop_full ht.tw_pos hs (by rw [hdone, Tile.total, Int.natCast_mul])

theorem zrleVisited_iff {ts : List Tile} (hts : ∀ t ∈ ts, t.Clipped) {d d' : List UInt8} {t : Tile} :
    (t, d') ∈ zrleVisited ts d ↔ TileAt ts d t d' := by
  induction ts generalizing d with
  | nil =>
    constructor
    · intro h
      cases h
    · intro h
      cases h
  | cons t₀ ts ih =>
    have h₀ := hts t₀ (List.mem_cons_self ..)
    have ih' := fun d => ih (fun t ht => hts t (List.mem_cons_of_mem _ ht)) (d := d)
    rw [zrleVisited, List.mem_cons]
    constructor
    · rintro (h | h)
      · simp only [Prod.mk.injEq] at h
        rw [h.1, h.2]
        exact .first
      · split at h
        · rename_i rest hrest
          exact .later ((zrleTile_ends h₀).mp hrest) ((ih' rest).mp h)
        · cases h
    · intro h
      cases h with
      | first => exact .inl rfl
      | later hends hafter =>
        refine .inr ?_
        rw [(zrleTile_ends h₀).mpr hends]
        exact (ih' _).mpr hafter

/-! ## Rectangles -/

theorem zrleTiles_clipped (r : Rect) : ∀ t ∈ zrleTiles r, t.Clipped := by
  intro t ht
  simp only [zrleTiles, List.mem_flatMap, List.mem_map, List.mem_range] at ht
  obtain ⟨j, hj, i, hi, rfl⟩ := ht
  exact ⟨by simp only; omega, by simp only; omega, by simp only; omega⟩

/-- Tiles lie inside their rectangle. -/
theorem zrleTiles_inside (r : Rect) :
    ∀ t ∈ zrleTiles r, t.x0 + t.tw ≤ r.x + r.w ∧ t.y0 + t.th ≤ r.y + r.h := by
  intro t ht
  simp only [zrleTiles, List.mem_flatMap, List.mem_map, List.mem_range] at ht
  obtain ⟨j, hj, i, hi, rfl⟩ := ht
  simp only
  omega

theorem zrleTiles_from (r : Rect) : ∀ t ∈ zrleTiles r, r.x ≤ t.x0 ∧ r.y ≤ t.y0 := by
  intro t ht
  simp only [zrleTiles, List.mem_flatMap, List.mem_map, List.mem_range] at ht
  obtain ⟨j, hj, i, hi, rfl⟩ := ht
  exact ⟨Nat.le_add_right .., Nat.le_add_right ..⟩

theorem TileAt.mem {ts : List Tile} {d d' : List UInt8} {t : Tile} (h : TileAt ts d t d') : t ∈ ts := by
  induction h with
  | first => exact List.mem_cons_self ..
  | later _ _ ih => exact List.mem_cons_of_mem _ ih

/-- A tile decoded safely: no fault, every write in the tile and in the image, each pixel
once and in reading order if the tile ends without an error, and the invariant at the
head of the run-length loop. -/
structure TileSafe (work : Image) (t : Tile) (d : List UInt8) : Prop where
  noFault : ∀ f, (zrleTile t d).finish ≠ .fault f
  inTile : ∀ w ∈ (zrleTile t d).writes, t.Contains w
  inImage : ∀ w ∈ (zrleTile t d).writes, w.x < work.width ∧ w.y < work.height
  complete : ∀ rest, (zrleTile t d).finish = .ok rest →
    (zrleTile t d).writes.map Write.at = t.readingOrder ∧ t.readingOrder.Nodup
  invariant : ∀ sub palette rest, tileHeader d = some (sub, palette, rest) → ¬ sub < 128 →
    ∀ s, Reached t palette (sub.toNat % 128) rest s → RleInv t s

def ZrleSafe (work : Image) (r : Rect) (payload : List UInt8) : Prop :=
  ∀ p ∈ zrleVisited (zrleTiles r) payload, TileSafe work p.1 p.2

theorem Tile.readingOrder_nodup (t : Tile) : t.readingOrder.Nodup := by
  refine List.Nodup.map_on ?_ List.nodup_range
  intro i _ j _ h
  simp only [Tile.pos, Prod.mk.injEq, Nat.add_left_cancel_iff] at h
  calc i = t.tw * (i / t.tw) + i % t.tw := (Nat.div_add_mod i t.tw).symm
    _ = t.tw * (j / t.tw) + j % t.tw := by rw [h.1, h.2]
    _ = j := Nat.div_add_mod j t.tw

/-- The only fault of a tile is a run that does not fit. -/
theorem zrleTile_fault {t : Tile} (ht : t.Clipped) {d : List UInt8} {f : Fault}
    (h : (zrleTile t d).finish = .fault f) : f = .runOverflow ∧
    ∃ sub palette rest, tileHeader d = some (sub, palette, rest) ∧ ¬ sub < 128 ∧
      ∃ s, Reached t palette (sub.toNat % 128) rest s ∧ s.done < t.total ∧
        ¬ RunFits (sub.toNat % 128) s := by
  cases hheader : tileHeader d with
  | none =>
    unfold zrleTile at h
    rw [hheader] at h
    cases h
  | some p =>
    obtain ⟨sub, palette, d'⟩ := p
    by_cases hsub : sub < 128
    · rw [(zrleTile_plain ht hheader hsub).2] at h
      split at h
      · cases h
      · cases h
    · rw [zrleTile_rle hheader hsub] at h
      have hend := rleLoop_end palette (sub.toNat % 128) ht.tw_pos
        (d'.length + 1) (.start (d := d')) (Nat.lt_succ_self _)
      generalize rleLoop t palette (sub.toNat % 128) (d'.length + 1) (.start d') = r at h hend
      cases hend with
      | overflow hs hmore hno =>
        simp only [TileEnd.fault.injEq] at h
        exact ⟨h.symm, sub, palette, d', rfl, hsub, _, hs, hmore, hno⟩
      | corrupt _ => cases h
      | full _ _ => cases h

/-- Every write of the tile loops lies in one of the tiles. -/
theorem zrleDecode_inside {ts : List Tile} (hts : ∀ t ∈ ts, t.Clipped) {d : List UInt8} :
    ∀ w ∈ (zrleDecode ts d).writes, ∃ t ∈ ts, t.Contains w := by
  induction ts generalizing d with
  | nil =>
    intro w hw
    cases hw
  | cons t ts ih =>
    have htile : ∀ w ∈ (zrleTile t d).writes, ∃ t' ∈ t :: ts, t'.Contains w := by
      intro w hw
      obtain ⟨n, hn, hws⟩ := (zrleTile_ordered (hts t (List.mem_cons_self ..)) d).inOrder
      exact ⟨t, List.mem_cons_self .., Tile.contains_of_firstN hws hn w hw⟩
    rw [zrleDecode]
    split
    · intro w hw
      rcases List.mem_append.mp hw with h | h
      · exact htile w h
      · obtain ⟨t', ht', hc⟩ := ih (fun t ht => hts t (List.mem_cons_of_mem _ ht)) w h
        exact ⟨t', List.mem_cons_of_mem _ ht', hc⟩
    · exact htile

/-- The tile loops fault at a run that overflows and nowhere else. -/
theorem zrleDecode_fault {ts : List Tile} (hts : ∀ t ∈ ts, t.Clipped) {d : List UInt8} {f : Fault}
    (h : (zrleDecode ts d).finish = .fault f) : f = .runOverflow := by
  induction ts generalizing d with
  | nil => cases h
  | cons t ts ih =>
    rw [zrleDecode] at h
    split at h
    · exact ih (fun t ht => hts t (List.mem_cons_of_mem _ ht)) h
    · exact (zrleTile_fault (hts t (List.mem_cons_self ..)) h).1

theorem zrleSafe_of_runsFit {work : Image} {r : Rect} {payload : List UInt8}
    (hin : work.rect.contains r = true) (hfit : RunsFit r payload) : ZrleSafe work r payload := by
  rintro ⟨t, d⟩ hmem
  have hat := (zrleVisited_iff (zrleTiles_clipped r)).mp hmem
  have ht := zrleTiles_clipped r t hat.mem
  have hord := zrleTile_ordered ht d
  have htile : ∀ w ∈ (zrleTile t d).writes, t.Contains w := by
    obtain ⟨n, hn, hws⟩ := hord.inOrder
    exact Tile.contains_of_firstN hws hn
  refine ⟨?_, htile, ?_, ?_, ?_⟩
  · intro f hf
    obtain ⟨_, sub, palette, rest, hheader, hsub, s, hs, hmore, hno⟩ := zrleTile_fault ht hf
    apply hno
    intro field hnext
    have h0 := (hs.inv ht.tw_pos).done_nonneg
    have htotal : t.total = ((t.tw * t.th : Nat) : Int) := by rw [Tile.total, Int.natCast_mul]
    have h := hfit t d sub palette rest hat hheader hsub s.done.toNat s.d field (hs.rleAt ht.tw_pos)
      (by omega) hnext
    rwa [Int.toNat_of_nonneg h0] at h
  · intro w hw
    have hc := htile w hw
    have hi := zrleTiles_inside r t hat.mem
    simp only [Tile.Contains] at hc
    have hr := Image.le_of_rect_contains hin
    omega
  · exact fun rest hok => ⟨hord.complete rest hok, t.readingOrder_nodup⟩
  · exact fun _ _ _ _ _ s hs => hs.inv ht.tw_pos

theorem runsFit_of_zrleSafe {work : Image} {r : Rect} {payload : List UInt8}
    (h : ZrleSafe work r payload) : RunsFit r payload := by
  intro t d sub palette rest hat hheader hsub done rest' field hrle hmore hnext
  have ht := zrleTiles_clipped r t hat.mem
  obtain ⟨s, hs, hdone, hd⟩ := hrle.reached palette ht.tw_pos ht.total_le_intMax
  have htotal : t.total = ((t.tw * t.th : Nat) : Int) := by rw [Tile.total, Int.natCast_mul]
  have hmore' : s.done < t.total := by omega
  by_contra hno
  have hunfit : ¬ RunFits (sub.toNat % 128) s := by
    intro hfit
    have := hfit field (by rw [hd]; exact hnext)
    rw [hdone] at this
    exact hno this
  have hsafe := h (t, d) ((zrleVisited_iff (zrleTiles_clipped r)).mpr hat)
  apply hsafe.noFault .runOverflow
  rw [zrleTile_rle hheader hsub]
  exact rleLoop_overflow ht.tw_pos hs hmore' hunfit

theorem lengthSum_le (d : List UInt8) : lengthSum d ≤ 255 * d.length := by
  induction d with
  | nil => exact Nat.le_refl _
  | cons b d ih =>
    have hb : b.toNat < 256 := b.toNat_lt
    rw [lengthSum, List.length_cons]
    split <;> omega

theorem lengthSum_replicate (n : Nat) : lengthSum (List.replicate n 255) = 255 * n := by
  induction n with
  | zero => rfl
  | succ n ih =>
    rw [List.replicate_succ, lengthSum, if_pos rfl, ih]
    omega

theorem RleAt.length_le {total ps n : Nat} {d rest : List UInt8} (h : RleAt total ps d n rest) :
    rest.length ≤ d.length := by
  induction h with
  | start => exact Nat.le_refl _
  | next _ _ hadv ih => exact Nat.le_trans (Nat.le_of_lt hadv.length_lt) ih

theorem readPalette_length {n : Nat} {d rest : List UInt8} {palette : List QRgb}
    (h : readPalette n d = some (palette, rest)) : rest.length ≤ d.length := by
  induction n generalizing d palette with
  | zero =>
    simp only [readPalette, Option.some.injEq, Prod.mk.injEq] at h
    rw [h.2]
  | succ n ih =>
    simp only [readPalette, Option.bind_eq_bind, Option.bind_eq_some_iff, Option.pure_def,
      Option.some.injEq, Prod.mk.injEq] at h
    obtain ⟨⟨c, d₁⟩, hc, ⟨cs, d₂⟩, hcs, _, rfl⟩ := h
    have hlen := cpixel_length hc
    have hle : d₁.length ≤ d.length := by omega
    exact Nat.le_trans (ih hcs) hle

theorem tileHeader_length {d rest : List UInt8} {sub : UInt8} {palette : List QRgb}
    (h : tileHeader d = some (sub, palette, rest)) : rest.length < d.length := by
  unfold tileHeader at h
  split at h
  · cases h
  · rename_i s d'
    simp only at h
    split at h
    · split at h
      · cases h
      · obtain ⟨⟨p, r⟩, hp, hr⟩ := Option.map_eq_some_iff.mp h
        simp only [Prod.mk.injEq] at hr
        have hle := readPalette_length hp
        rw [← hr.2.2, List.length_cons]
        omega
    · simp only [Option.some.injEq, Prod.mk.injEq] at h
      rw [h.2.2]
      exact Nat.lt_succ_self _

theorem TileEnds.length_lt {t : Tile} {d rest : List UInt8} (h : TileEnds t d rest) :
    rest.length < d.length := by
  cases h with
  | plain hheader _ _ =>
    have hlt := tileHeader_length hheader
    rw [List.length_drop]
    omega
  | rle hheader _ hruns => exact Nat.lt_of_le_of_lt hruns.length_le (tileHeader_length hheader)

theorem TileAt.length_le {ts : List Tile} {d d' : List UInt8} {t : Tile} (h : TileAt ts d t d') :
    d'.length ≤ d.length := by
  induction h with
  | first => exact Nat.le_refl _
  | later hends _ ih => exact Nat.le_trans ih (Nat.le_of_lt hends.length_lt)

/-- A payload of up to 8421488 bytes has no run that overflows. -/
theorem runsFit_of_short (r : Rect) (payload : List UInt8) (h : payload.length ≤ 8421488) :
    RunsFit r payload := by
  intro t d sub palette rest hat hheader _ done rest' field hrle hmore hnext
  have htotal := (zrleTiles_clipped r t hat.mem).total_le
  have hd := hat.length_le
  have hrest := tileHeader_length hheader
  have hrest' := hrle.length_le
  have hfield := nextRun_length hnext
  have hsum := lengthSum_le field
  have hmax : intMax = 2147483647 := rfl
  exact ⟨by omega, fun _ => by omega⟩

/-- The tile loops are safe on a payload if and only if its runs fit an `int`. -/
theorem zrle_safe_iff (work : Image) (r : Rect) (payload : List UInt8)
    (haccepted : work.rect.contains r = true) : ZrleSafe work r payload ↔ RunsFit r payload :=
  ⟨runsFit_of_zrleSafe, zrleSafe_of_runsFit haccepted⟩

theorem zrle_safe_iff_one_pixel :
    ZrleSafe (.black 1 1) ⟨0, 0, 1, 1⟩ [] ↔ RunsFit ⟨0, 0, 1, 1⟩ [] :=
  zrle_safe_iff (.black 1 1) ⟨0, 0, 1, 1⟩ [] (by decide)

/-- One pixel, and a run of more than 8 MB of 255: the sum leaves `int`. -/
def endlessRun : List UInt8 := 128 :: 0 :: 0 :: 0 :: List.replicate 8421505 255

theorem zrle_endless_run_overflows :
    (Image.black 1 1).rect.contains ⟨0, 0, 1, 1⟩ = true ∧
      ¬ ZrleSafe (.black 1 1) ⟨0, 0, 1, 1⟩ endlessRun := by
  refine ⟨by decide, fun h => ?_⟩
  have hfit := runsFit_of_zrleSafe h
  have hrun : RunFitsAt ((0 : Nat) : Int) (List.replicate 8421505 255) :=
    hfit ⟨0, 0, 1, 1⟩ endlessRun 128 [] (0 :: 0 :: 0 :: List.replicate 8421505 255) .first rfl
      (by decide) 0 _ _ .start (by decide) rfl
  have hsum := hrun.1
  rw [lengthSum_replicate] at hsum
  exact absurd hsum (by decide)

end LvdTerm.Vnc
