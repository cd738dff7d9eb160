import LvdTerm.Vnc.Zrle
import Mathlib.Logic.Relation
import Mathlib.Data.List.Range
import Mathlib.Tactic.Positivity

/-!
# VNC client: the pixel loops of a ZRLE tile

The loops are driven by bytes the server chooses. Raw, solid and packed tiles write
their pixels in reading order once the availability check has passed. The invariant
of the run-length loop (`RleInv`) ties `done`, the position and the writes made so
far together; it holds as long as every run the loop reads fits an `int`
(`RunFits`). `Advance` and `RleAt` are the format of the run-length bytes, and the
loop follows it (`Reached.rleAt`, `RleAt.reached`).
-/
namespace LvdTerm.Vnc

def Write.at (w : Write) : Nat × Nat := (w.x, w.y)

/-! ## Reading order -/

/-- The first `n` positions of a tile in reading order. -/
def Tile.firstN (t : Tile) (n : Nat) : List (Nat × Nat) := (List.range n).map t.pos

@[simp] theorem Tile.firstN_zero (t : Tile) : t.firstN 0 = [] := rfl

theorem Tile.firstN_succ (t : Tile) (n : Nat) : t.firstN (n + 1) = t.firstN n ++ [t.pos n] := by
  simp [Tile.firstN, List.range_succ]

theorem Tile.firstN_total (t : Tile) : t.firstN (t.tw * t.th) = t.readingOrder := rfl

theorem Tile.contains_pos {t : Tile} {i : Nat} {w : Write} (h : w.at = t.pos i)
    (hi : i < t.tw * t.th) : t.Contains w := by
  have hw : 0 < t.tw := Nat.pos_of_ne_zero (by rintro h0; rw [h0] at hi; omega)
  have hx : i % t.tw < t.tw := Nat.mod_lt _ hw
  have hy : i / t.tw < t.th := Nat.div_lt_of_lt_mul hi
  simp only [Write.at, Tile.pos, Prod.mk.injEq] at h
  obtain ⟨h1, h2⟩ := h
  generalize i / t.tw = q at h2 hy
  generalize i % t.tw = r at h1 hx
  refine ⟨?_, ?_, ?_, ?_⟩ <;> omega

theorem Tile.contains_of_firstN {t : Tile} {ws : List Write} {n : Nat}
    (h : ws.map Write.at = t.firstN n) (hn : n ≤ t.tw * t.th) : ∀ w ∈ ws, t.Contains w := by
  intro w hw
  have hmem : w.at ∈ t.firstN n := h ▸ List.mem_map_of_mem hw
  obtain ⟨i, hi, he⟩ := List.mem_map.mp hmem
  exact Tile.contains_pos he.symm (Nat.lt_of_lt_of_le (List.mem_range.mp hi) hn)

/-- `if (++x == tw) { x = 0; ++y; }` is one step in reading order. -/
theorem next_position {w k : Nat} (hw : 0 < w) :
    (if k % w + 1 = w then 0 else k % w + 1) = (k + 1) % w ∧
      (if k % w + 1 = w then k / w + 1 else k / w) = (k + 1) / w := by
  have hdm := Nat.div_add_mod k w
  have hlt := Nat.mod_lt k hw
  split
  · rename_i h
    have hk : k + 1 = w * (k / w + 1) := by rw [Nat.mul_add]; omega
    rw [hk, Nat.mul_mod_right, Nat.mul_div_cancel_left _ hw]
    exact ⟨rfl, rfl⟩
  · rename_i h
    have hk : k + 1 = w * (k / w) + (k % w + 1) := by omega
    have hsmall : k % w + 1 < w := by omega
    constructor
    · rw [hk, Nat.mul_add_mod, Nat.mod_eq_of_lt hsmall]
    · rw [hk, Nat.mul_add_div hw, Nat.div_eq_of_lt hsmall, Nat.add_zero]

/-! ## Raw, solid and packed tiles -/

theorem cpixel_some {d : List UInt8} (h : 3 ≤ d.length) :
    ∃ c d', cpixel d = some (c, d') ∧ d' = d.drop 3 := by
  match d, h with
  | b :: g :: r :: d, _ => exact ⟨_, d, rfl, rfl⟩

theorem cpixel_length {d d' : List UInt8} {c : QRgb} (h : cpixel d = some (c, d')) :
    d'.length + 3 = d.length := by
  unfold cpixel at h
  split at h
  · simp only [Option.some.injEq, Prod.mk.injEq] at h
    rw [← h.2]
    rfl
  · cases h

/-- What a tile leaves behind: its writes are in reading order without a gap, and all
of them are there if it ended without an error. -/
structure Ordered (t : Tile) (r : TileResult) : Prop where
  inOrder : ∃ n, n ≤ t.tw * t.th ∧ r.writes.map Write.at = t.firstN n
  complete : ∀ rest, r.finish = .ok rest → r.writes.map Write.at = t.readingOrder

theorem ordered_nil_corrupt (t : Tile) : Ordered t ⟨[], .corrupt⟩ :=
  ⟨⟨0, Nat.zero_le _, rfl⟩, fun _ h => by cases h⟩

theorem rawPixels_ordered (t : Tile) (n i : Nat) (d : List UInt8) (ws : List Write)
    (hi : i + n = t.tw * t.th) (hd : n * 3 ≤ d.length) (hws : ws.map Write.at = t.firstN i) :
    Ordered t (rawPixels t n i d ws) ∧ (rawPixels t n i d ws).finish = .ok (d.drop (n * 3)) := by
  induction n generalizing i d ws with
  | zero =>
    have hi' : i = t.tw * t.th := by omega
    refine ⟨⟨⟨i, Nat.le_of_eq hi', hws⟩, fun _ _ => ?_⟩, rfl⟩
    rw [← Tile.firstN_total, ← hi']
    exact hws
  | succ n ih =>
    obtain ⟨c, d', hc, hd'⟩ := cpixel_some (d := d) (by omega)
    have hlen : d'.length = d.length - 3 := by rw [hd', List.length_drop]
    have hdrop : d.drop ((n + 1) * 3) = d'.drop (n * 3) := by
      rw [hd', List.drop_drop]
      congr 1
      omega
    simp only [rawPixels, hc, hdrop]
    apply ih
    · omega
    · omega
    · rw [List.map_append, hws, Tile.firstN_succ]
      rfl

theorem solidPixels_at (t : Tile) (c : Option QRgb) :
    (solidPixels t c).map Write.at = t.readingOrder := by
  have h : Write.at ∘ (fun p : Nat × Nat => (⟨p.1, p.2, c⟩ : Write)) = id := by
    funext p
    rfl
  rw [solidPixels, List.map_map, h, List.map_id]

/-- The byte of a packed row that holds pixel `x` lies in that row. -/
theorem packed_index_lt {tw th bits i len : Nat} (hi : i < tw * th)
    (hlen : (tw * bits + 7) / 8 * th ≤ len) (hbits : 0 < bits) :
    i / tw * ((tw * bits + 7) / 8) + i % tw * bits / 8 < len := by
  have hw : 0 < tw := Nat.pos_of_ne_zero (by rintro h0; rw [h0] at hi; omega)
  have hy : i / tw < th := Nat.div_lt_of_lt_mul hi
  have hx : i % tw + 1 ≤ tw := Nat.mod_lt i hw
  have hin : i % tw * bits / 8 < (tw * bits + 7) / 8 := by
    have hm : (i % tw + 1) * bits ≤ tw * bits := Nat.mul_le_mul_right bits hx
    rw [Nat.add_mul] at hm
    omega
  calc i / tw * ((tw * bits + 7) / 8) + i % tw * bits / 8
      < i / tw * ((tw * bits + 7) / 8) + (tw * bits + 7) / 8 := by omega
    _ = (i / tw + 1) * ((tw * bits + 7) / 8) := by rw [Nat.add_mul]; omega
    _ ≤ th * ((tw * bits + 7) / 8) := Nat.mul_le_mul_right _ hy
    _ = (tw * bits + 7) / 8 * th := Nat.mul_comm _ _
    _ ≤ len := hlen

theorem packedBits_pos (n : Nat) : 0 < packedBits n := by
  unfold packedBits
  split
  · decide
  · split <;> decide

theorem packedPixels_ordered (t : Tile) (palette : List QRgb) (ps : Nat) (d : List UInt8)
    (n i : Nat) (ws : List Write) (hi : i + n = t.tw * t.th)
    (hd : (t.tw * packedBits ps + 7) / 8 * t.th ≤ d.length)
    (hws : ws.map Write.at = t.firstN i) :
    Ordered t (packedPixels t palette ps d n i ws) ∧
      (packedPixels t palette ps d n i ws).finish =
        .ok (d.drop ((t.tw * packedBits ps + 7) / 8 * t.th)) := by
  induction n generalizing i ws with
  | zero =>
    have hi' : i = t.tw * t.th := by omega
    refine ⟨⟨⟨i, Nat.le_of_eq hi', hws⟩, fun _ _ => ?_⟩, rfl⟩
    rw [← Tile.firstN_total, ← hi']
    exact hws
  | succ n ih =>
    have hlt := packed_index_lt (i := i) (by omega) hd (packedBits_pos ps)
    simp only [packedPixels, List.getElem?_eq_getElem hlt]
    apply ih
    · omega
    · rw [List.map_append, hws, Tile.firstN_succ]
      rfl

/-! ## Runs -/

/-- What the length bytes of a run add up to, as a number. -/
def lengthSum : List UInt8 → Nat
  | [] => 0
  | b :: d => if b = 255 then 255 + lengthSum d else b.toNat

/-- The length bytes end with one that is not 255. -/
def lengthEnds : List UInt8 → Bool
  | [] => false
  | b :: d => if b = 255 then lengthEnds d else true

def afterLength : List UInt8 → List UInt8
  | [] => []
  | b :: d => if b = 255 then afterLength d else d

theorem afterLength_le (d : List UInt8) : (afterLength d).length ≤ d.length := by
  induction d with
  | nil => exact Nat.le_refl _
  | cons b d ih =>
    rw [afterLength]
    split
    · exact Nat.le_succ_of_le ih
    · exact Nat.le_succ _

/-- `readRun` in closed form: it overflows exactly when the sum does not fit. -/
theorem readRun_eq (run : Int) (d : List UInt8) (h : run ≤ intMax) :
    readRun run d =
      if run + lengthSum d > intMax then .overflow
      else if lengthEnds d then .ok (run + lengthSum d) (afterLength d)
      else .short := by
  induction d generalizing run with
  | nil =>
    have hno : ¬ run + (lengthSum [] : Int) > intMax := by
      simp only [lengthSum]
      omega
    rw [if_neg hno]
    rfl
  | cons b d ih =>
    by_cases hb : b = 255
    · subst hb
      have h255 : ((255 : UInt8).toNat : Int) = 255 := rfl
      simp only [readRun, lengthSum, lengthEnds, afterLength, if_true, h255, ne_eq, not_true_eq_false,
        if_false]
      by_cases hover : run + 255 > intMax
      · have hno : (run + ((255 + lengthSum d : Nat) : Int)) > intMax := by
          have := Int.natCast_add 255 (lengthSum d)
          omega
        rw [if_pos hover, if_pos hno]
      · rw [if_neg hover, ih _ (by omega)]
        have hsum : run + 255 + (lengthSum d : Int) = run + ((255 + lengthSum d : Nat) : Int) := by
          omega
        rw [hsum]
    · simp only [readRun, lengthSum, lengthEnds, afterLength, ne_eq, hb, not_false_eq_true, if_true,
        if_false]

/-- The run whose length bytes are `d`, read when `done` pixels are there, fits an `int`:
neither `run += b` nor `done + run` overflows. -/
def RunFitsAt (done : Int) (d : List UInt8) : Prop :=
  1 + (lengthSum d : Int) ≤ intMax ∧ (lengthEnds d → done + (1 + (lengthSum d : Int)) ≤ intMax)

instance (done : Int) (d : List UInt8) : Decidable (RunFitsAt done d) := by
  unfold RunFitsAt
  infer_instance

/-- The length bytes of the run the loop is about to read, if it is about to read one. -/
def nextRun (paletteSize : Nat) (d : List UInt8) : Option (List UInt8) :=
  if paletteSize = 0 then (cpixel d).map Prod.snd
  else match d with
    | [] => none
    | index :: d => if index < 128 then none else some d

/-- The condition on a state of the run-length loop. -/
def RunFits (paletteSize : Nat) (s : Rle) : Prop :=
  ∀ d, nextRun paletteSize s.d = some d → RunFitsAt s.done d

/-! ## The run-length loop -/

structure RleInv (t : Tile) (s : Rle) : Prop where
  done_nonneg : 0 ≤ s.done
  done_le : s.done ≤ t.total
  position : (t.x0 + s.x, t.y0 + s.y) = t.pos s.done.toNat
  writes : s.writes.map Write.at = t.firstN s.done.toNat

theorem rleInv_start (t : Tile) (d : List UInt8) : RleInv t (.start d) where
  done_nonneg := Int.le_refl 0
  done_le := by simp only [Rle.start, Tile.total]; positivity
  position := by simp [Rle.start, Tile.pos]
  writes := rfl

/-- `put` moves position and writes on by one pixel. -/
theorem put_spec {t : Tile} {s : Rle} {c : Option QRgb} {k : Nat} (hw : 0 < t.tw)
    (hpos : (t.x0 + s.x, t.y0 + s.y) = t.pos k) (hws : s.writes.map Write.at = t.firstN k) :
    (t.x0 + (s.put t c).x, t.y0 + (s.put t c).y) = t.pos (k + 1) ∧
      (s.put t c).writes.map Write.at = t.firstN (k + 1) := by
  have hnext := next_position (k := k) hw
  simp only [Tile.pos, Prod.mk.injEq, Nat.add_left_cancel_iff] at hpos
  obtain ⟨hx, hy⟩ := hpos
  constructor
  · simp only [Rle.put, Tile.pos, hx, hy, ← hnext.1, ← hnext.2]
  · simp only [Rle.put, List.map_append, hws, Tile.firstN_succ, List.map_cons, List.map_nil, Write.at,
      Tile.pos, hx, hy]

theorem putN_spec {t : Tile} {c : Option QRgb} (hw : 0 < t.tw) (n : Nat) {s : Rle} {k : Nat}
    (hpos : (t.x0 + s.x, t.y0 + s.y) = t.pos k) (hws : s.writes.map Write.at = t.firstN k) :
    (t.x0 + (Rle.putN t c n s).x, t.y0 + (Rle.putN t c n s).y) = t.pos (k + n) ∧
      (Rle.putN t c n s).writes.map Write.at = t.firstN (k + n) := by
  induction n generalizing s k with
  | zero => exact ⟨hpos, hws⟩
  | succ n ih =>
    obtain ⟨hpos', hws'⟩ := put_spec (c := c) hw hpos hws
    have h := ih hpos' hws'
    rwa [show k + 1 + n = k + (n + 1) by omega] at h

@[simp] theorem putN_d (t : Tile) (c : Option QRgb) (n : Nat) (s : Rle) :
    (Rle.putN t c n s).d = s.d := by
  induction n generalizing s with
  | zero => rfl
  | succ n ih => rw [Rle.putN, ih]; rfl

/-- A run that ends, fits an `int` and fits the tile is drawn. -/
theorem rleRun_ok {t : Tile} {s : Rle} (c : Option QRgb) (hsum : 1 + (lengthSum s.d : Int) ≤ intMax)
    (hends : lengthEnds s.d = true) (hdone : s.done + (1 + (lengthSum s.d : Int)) ≤ intMax)
    (htotal : s.done + (1 + (lengthSum s.d : Int)) ≤ t.total) :
    rleRun t c s = .more
      { Rle.putN t c (1 + lengthSum s.d) { s with d := afterLength s.d } with
        done := s.done + (1 + (lengthSum s.d : Int)) } := by
  have hn : (1 + (lengthSum s.d : Int)).toNat = 1 + lengthSum s.d := by omega
  unfold rleRun
  rw [readRun_eq 1 s.d (by decide), if_neg (by omega), if_pos hends]
  simp only [if_neg (show ¬ s.done + (1 + (lengthSum s.d : Int)) > intMax by omega),
    if_neg (show ¬ s.done + (1 + (lengthSum s.d : Int)) > t.total by omega), hn]

/-- What one run can do. -/
theorem rleRun_cases (t : Tile) (c : Option QRgb) (s : Rle) :
    (¬ RunFitsAt s.done s.d ∧ rleRun t c s = .fault s .runOverflow) ∨
    (RunFitsAt s.done s.d ∧ ∃ d, rleRun t c s = .corrupt { s with d := d }) ∨
    (RunFitsAt s.done s.d ∧ lengthEnds s.d = true ∧
      s.done + (1 + (lengthSum s.d : Int)) ≤ t.total ∧
      rleRun t c s = .more
        { Rle.putN t c (1 + lengthSum s.d) { s with d := afterLength s.d } with
          done := s.done + (1 + (lengthSum s.d : Int)) }) := by
  by_cases hover : 1 + (lengthSum s.d : Int) > intMax
  · refine .inl ⟨fun h => absurd h.1 (by omega), ?_⟩
    unfold rleRun
    rw [readRun_eq 1 s.d (by decide), if_pos hover]
  · by_cases hends : lengthEnds s.d = true
    · by_cases hsum : s.done + (1 + (lengthSum s.d : Int)) > intMax
      · refine .inl ⟨fun h => absurd (h.2 hends) (by omega), ?_⟩
        unfold rleRun
        rw [readRun_eq 1 s.d (by decide), if_neg hover, if_pos hends]
        exact if_pos hsum
      · have hfits : RunFitsAt s.done s.d := ⟨by omega, fun _ => by omega⟩
        by_cases htot : s.done + (1 + (lengthSum s.d : Int)) > t.total
        · refine .inr (.inl ⟨hfits, afterLength s.d, ?_⟩)
          unfold rleRun
          rw [readRun_eq 1 s.d (by decide), if_neg hover, if_pos hends]
          simp only [if_neg hsum, if_pos htot]
        · exact .inr (.inr ⟨hfits, hends, by omega,
            rleRun_ok c (by omega) hends (by omega) (by omega)⟩)
    · refine .inr (.inl ⟨⟨by omega, fun h => absurd h hends⟩, [], ?_⟩)
      unfold rleRun
      rw [readRun_eq 1 s.d (by decide), if_neg hover, if_neg hends]

/-- One pixel or one run of the format: from `done` pixels and the bytes `d` to the next
such pair. -/
inductive Advance (total paletteSize : Nat) : Nat → List UInt8 → Nat → List UInt8 → Prop where
  | pixel {done : Nat} {index : UInt8} {d : List UInt8} (indexed : paletteSize ≠ 0)
      (single : index < 128) : Advance total paletteSize done (index :: d) (done + 1) d
  | run {done : Nat} {d field : List UInt8} (next : nextRun paletteSize d = some field)
      (ends : lengthEnds field = true) (fits : done + (1 + lengthSum field) ≤ total) :
      Advance total paletteSize done d (done + (1 + lengthSum field)) (afterLength field)

theorem nextRun_length {ps : Nat} {d field : List UInt8} (h : nextRun ps d = some field) :
    field.length < d.length := by
  unfold nextRun at h
  split at h
  · obtain ⟨⟨c, d'⟩, hp, rfl⟩ := Option.map_eq_some_iff.mp h
    have hlen := cpixel_length hp
    simp only
    omega
  · split at h
    · cases h
    · split at h
      · cases h
      · simp only [Option.some.injEq] at h
        simp [h]

theorem Advance.length_lt {total ps n m : Nat} {d e : List UInt8} (h : Advance total ps n d m e) :
    e.length < d.length := by
  cases h with
  | pixel _ _ => exact Nat.lt_succ_self _
  | run hnext _ _ => exact Nat.lt_of_le_of_lt (afterLength_le _) (nextRun_length hnext)

/-- A step that reads a run is `rleRun` behind the colour. -/
theorem rleStep_of_nextRun (t : Tile) (palette : List QRgb) {ps : Nat} {s : Rle} {field : List UInt8}
    (h : nextRun ps s.d = some field) :
    ∃ c, rleStep t palette ps s = rleRun t c { s with d := field } := by
  unfold nextRun at h
  unfold rleStep
  split at h
  · rename_i hps
    obtain ⟨⟨c, d⟩, hp, rfl⟩ := Option.map_eq_some_iff.mp h
    exact ⟨some c, by rw [if_pos hps, hp]⟩
  · rename_i hps
    split at h
    · cases h
    · rename_i index d hd
      split at h
      · cases h
      · rename_i hi
        simp only [Option.some.injEq] at h
        subst h
        refine ⟨palette[index.toNat % 128 % ps]?, ?_⟩
        simp only [if_neg hps, hd, if_neg hi]

/-- A step that reads no run: there is no colour to read, or it is a single pixel. -/
theorem rleStep_of_no_run (t : Tile) (palette : List QRgb) {ps : Nat} {s : Rle}
    (h : nextRun ps s.d = none) :
    rleStep t palette ps s = .corrupt s ∨
      ∃ index d, ps ≠ 0 ∧ s.d = index :: d ∧ index < 128 ∧
        rleStep t palette ps s = .more
          { (s.put t palette[index.toNat % 128 % ps]?) with done := s.done + 1, d := d } := by
  unfold nextRun at h
  unfold rleStep
  split at h
  · rename_i hps
    rw [Option.map_eq_none_iff] at h
    exact .inl (by rw [if_pos hps, h])
  · rename_i hps
    split at h
    · rename_i hd
      exact .inl (by simp only [if_neg hps, hd])
    · rename_i index d hd
      split at h
      · rename_i hi
        exact .inr ⟨index, d, hps, hd, hi, by simp only [if_neg hps, hd, if_pos hi]⟩
      · cases h

/-- What one round of the loop can do: stop at a run that does not fit, stop at corrupt
data, or go on with the invariant and fewer bytes. -/
theorem rleStep_cases {t : Tile} (palette : List QRgb) (ps : Nat) {s : Rle} (hw : 0 < t.tw)
    (hinv : RleInv t s) (hmore : s.done < t.total) :
    (¬ RunFits ps s ∧ ∃ s', rleStep t palette ps s = .fault s' .runOverflow ∧ s'.writes = s.writes) ∨
    (RunFits ps s ∧ ∃ s', rleStep t palette ps s = .corrupt s' ∧ s'.writes = s.writes) ∨
    (RunFits ps s ∧ ∃ s', rleStep t palette ps s = .more s' ∧ RleInv t s' ∧
      Advance (t.tw * t.th) ps s.done.toNat s.d s'.done.toNat s'.d) := by
  have h0 := hinv.done_nonneg
  have htotal : t.total = ((t.tw * t.th : Nat) : Int) := by rw [Tile.total, Int.natCast_mul]
  cases hnext : nextRun ps s.d with
  | some field =>
    obtain ⟨c, hstep⟩ := rleStep_of_nextRun t palette hnext
    have hfit : RunFits ps s ↔ RunFitsAt s.done field :=
      ⟨fun h => h field hnext, fun h d' hd' => by rw [hnext] at hd'; cases hd'; exact h⟩
    rw [hstep, hfit]
    rcases rleRun_cases t c { s with d := field } with ⟨hno, he⟩ | ⟨hyes, d', he⟩ | ⟨hyes, hends, hle, he⟩
    · exact .inl ⟨hno, _, he, rfl⟩
    · exact .inr (.inl ⟨hyes, _, he, rfl⟩)
    · simp only at hends hle he
      have hn : (s.done + (1 + (lengthSum field : Int))).toNat = s.done.toNat + (1 + lengthSum field) := by
        omega
      obtain ⟨hp, hws⟩ := putN_spec (c := c) hw (1 + lengthSum field)
        (s := { s with d := afterLength field }) hinv.position hinv.writes
      refine .inr (.inr ⟨hyes, _, he, ⟨?_, hle, ?_, ?_⟩, ?_⟩)
      · simp only
        omega
      · simp only [hn]
        exact hp
      · simp only [hn]
        exact hws
      · simp only [hn, putN_d]
        exact .run hnext hends (by omega)
  | none =>
    have hfit : RunFits ps s := fun d hd => by rw [hnext] at hd; cases hd
    rcases rleStep_of_no_run t palette hnext with he | ⟨index, d, hps, hd, hi, he⟩
    · exact .inr (.inl ⟨hfit, s, he, rfl⟩)
    · obtain ⟨hp, hws⟩ := put_spec (c := palette[index.toNat % 128 % ps]?) hw hinv.position hinv.writes
      have hn : (s.done + 1).toNat = s.done.toNat + 1 := by omega
      refine .inr (.inr ⟨hfit, _, he, ⟨?_, ?_, ?_, ?_⟩, ?_⟩)
      · simp only
        omega
      · simp only
        omega
      · simp only [hn]
        exact hp
      · simp only [hn]
        exact hws
      · simp only [hn, hd]
        exact .pixel hps hi

/-- The loop follows the format: where the format goes on, so does the loop. -/
theorem rleStep_of_advance {t : Tile} (palette : List QRgb) {ps m : Nat} {s : Rle} {e : List UInt8}
    (h0 : 0 ≤ s.done) (hsmall : t.total ≤ intMax)
    (h : Advance (t.tw * t.th) ps s.done.toNat s.d m e) :
    ∃ s', rleStep t palette ps s = .more s' ∧ s'.done = m ∧ s'.d = e := by
  have htotal : t.total = ((t.tw * t.th : Nat) : Int) := by rw [Tile.total, Int.natCast_mul]
  generalize hd : s.d = d at h
  cases h with
  | @pixel index _ hps hi =>
    refine ⟨{ (s.put t palette[index.toNat % 128 % ps]?) with done := s.done + 1, d := e }, ?_, ?_, rfl⟩
    · simp only [rleStep, if_neg hps, hd, if_pos hi]
    · simp only
      omega
  | @run _ field hnext hends hfit =>
    rw [← hd] at hnext
    obtain ⟨c, hstep⟩ := rleStep_of_nextRun t palette hnext
    have hle : s.done + (1 + (lengthSum field : Int)) ≤ t.total := by omega
    have he := rleRun_ok (t := t) (s := { s with d := field }) c (by simp only; omega) hends
      (by simp only; omega) hle
    refine ⟨_, hstep.trans he, ?_, ?_⟩
    · simp only
      omega
    · simp only [putN_d]

/-! ## Runs of the loop -/

/-- The states the run-length loop of a tile with data `d` passes through. -/
inductive Reached (t : Tile) (palette : List QRgb) (paletteSize : Nat) (d : List UInt8) : Rle → Prop where
  | start : Reached t palette paletteSize d (.start d)
  | next {s s' : Rle} (before : Reached t palette paletteSize d s) (more : s.done < t.total)
      (round : rleStep t palette paletteSize s = .more s') : Reached t palette paletteSize d s'

/-- The points the format passes through: `done` pixels are covered and `rest` follows. -/
inductive RleAt (total paletteSize : Nat) (d : List UInt8) : Nat → List UInt8 → Prop where
  | start : RleAt total paletteSize d 0 d
  | next {done done' : Nat} {rest rest' : List UInt8}
      (before : RleAt total paletteSize d done rest) (more : done < total)
      (advance : Advance total paletteSize done rest done' rest') :
      RleAt total paletteSize d done' rest'

section Loop

variable {t : Tile} {palette : List QRgb} {ps : Nat} {d : List UInt8}

theorem Reached.inv (hw : 0 < t.tw) {s : Rle} (h : Reached t palette ps d s) : RleInv t s := by
  induction h with
  | start => exact rleInv_start t d
  | next _ hmore hround ih =>
    rcases rleStep_cases palette ps hw ih hmore with
      ⟨_, s₁, he, _⟩ | ⟨_, s₁, he, _⟩ | ⟨_, s₁, he, hinv, _⟩
    · rw [he] at hround; cases hround
    · rw [he] at hround; cases hround
    · rw [he] at hround
      cases hround
      exact hinv

theorem Reached.rleAt (hw : 0 < t.tw) {s : Rle} (h : Reached t palette ps d s) :
    RleAt (t.tw * t.th) ps d s.done.toNat s.d := by
  induction h with
  | start => exact .start
  | next hbefore hmore hround ih =>
    have hinv := hbefore.inv hw
    have h0 := hinv.done_nonneg
    have htotal : t.total = ((t.tw * t.th : Nat) : Int) := by rw [Tile.total, Int.natCast_mul]
    rcases rleStep_cases palette ps hw hinv hmore with
      ⟨_, s₁, he, _⟩ | ⟨_, s₁, he, _⟩ | ⟨_, s₁, he, _, hadv⟩
    · rw [he] at hround; cases hround
    · rw [he] at hround; cases hround
    · rw [he] at hround
      cases hround
      exact .next ih (by omega) hadv

theorem RleAt.reached (palette : List QRgb) (hw : 0 < t.tw) (hsmall : t.total ≤ intMax) {n : Nat} {rest : List UInt8}
    (h : RleAt (t.tw * t.th) ps d n rest) :
    ∃ s, Reached t palette ps d s ∧ s.done = n ∧ s.d = rest := by
  induction h with
  | start => exact ⟨_, .start, rfl, rfl⟩
  | @next done _ _ _ _ hmore hadv ih =>
    obtain ⟨s, hs, hdone, hd⟩ := ih
    have h0 := (hs.inv hw).done_nonneg
    have htotal : t.total = ((t.tw * t.th : Nat) : Int) := by rw [Tile.total, Int.natCast_mul]
    have hn : done = s.done.toNat := by omega
    rw [hn, ← hd] at hadv
    obtain ⟨s', hround, hdone', hd'⟩ := rleStep_of_advance palette h0 hsmall hadv
    exact ⟨s', .next hs (by omega) hround, hdone', hd'⟩

end Loop

end LvdTerm.Vnc
