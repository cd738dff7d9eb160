import LvdTerm.Vnc.ZrleSafety

/-!
# VNC client: the ZRLE format

What an encoder writes for a tile: raw pixels, one colour, a packed palette, or runs, with their own
colours or with those of a palette. The tile decoder undoes it, whatever follows the tile.
-/
namespace LvdTerm.Vnc

structure Rgb where
  r : UInt8
  g : UInt8
  b : UInt8
  deriving DecidableEq

namespace Rgb

/-- A CPIXEL. -/
def bytes (c : Rgb) : List UInt8 := [c.b, c.g, c.r]

def color (c : Rgb) : QRgb := qRgb c.r c.g c.b

@[simp] theorem bytes_length (c : Rgb) : c.bytes.length = 3 := rfl

end Rgb

/-! ## The format of a tile -/

/-- The length of a run: one less, in bytes of 255 and one that is smaller. -/
def lengthBytes (n : Nat) : List UInt8 := List.replicate ((n - 1) / 255) 255 ++ [UInt8.ofNat ((n - 1) % 255)]

/-- Runs that each bring their colour. -/
inductive PlainRuns : List Rgb → List UInt8 → Prop where
  | nil : PlainRuns [] []
  | run (c : Rgb) (n : Nat) (hn : 0 < n) {cs : List Rgb} {d : List UInt8} (h : PlainRuns cs d) :
      PlainRuns (List.replicate n c ++ cs) (c.bytes ++ lengthBytes n ++ d)

/-- Single pixels and runs in the colours of a palette. -/
inductive PaletteRuns (palette : List Rgb) : List Rgb → List UInt8 → Prop where
  | nil : PaletteRuns palette [] []
  | single (i : Fin palette.length) {cs : List Rgb} {d : List UInt8} (h : PaletteRuns palette cs d) :
      PaletteRuns palette (palette.get i :: cs) (UInt8.ofNat i :: d)
  | run (i : Fin palette.length) (n : Nat) (hn : 0 < n) {cs : List Rgb} {d : List UInt8} (h : PaletteRuns palette cs d) :
      PaletteRuns palette (List.replicate n (palette.get i) ++ cs) (UInt8.ofNat (128 + i) :: lengthBytes n ++ d)

/-- Palette indices in one byte, the first one highest. -/
def packByte (bits : Nat) (indices : List Nat) : Nat := indices.foldl (fun v i => v * 2 ^ bits + i) 0

/-- The rows of a packed tile, each padded to whole bytes: `index y x` is the index of pixel `x` of row
`y`, and beyond the tile's width whatever the padding holds. -/
def packedRows (bits tw th : Nat) (index : Nat → Nat → Nat) : List UInt8 :=
  (List.range th).flatMap fun y => (List.range ((tw * bits + 7) / 8)).map fun k =>
    UInt8.ofNat (packByte bits ((List.range (8 / bits)).map fun j => index y (k * (8 / bits) + j)))

/-- A tile of `tw` by `th` pixels: its sub-encoding, its pixels in reading order, its bytes. -/
inductive TileCode (tw th : Nat) : UInt8 → List Rgb → List UInt8 → Prop where
  | raw (cs : List Rgb) (hlen : cs.length = tw * th) : TileCode tw th 0 cs (0 :: cs.flatMap Rgb.bytes)
  | solid (c : Rgb) : TileCode tw th 1 (List.replicate (tw * th) c) (1 :: c.bytes)
  | packed (palette : List Rgb) (hsize : 2 ≤ palette.length ∧ palette.length ≤ 16) (index : Nat → Nat → Nat)
      (hindex : ∀ y x, index y x < 2 ^ packedBits palette.length) (cs : List Rgb) (hlen : cs.length = tw * th)
      (hcs : ∀ i < tw * th, cs[i]? = palette[index (i / tw) (i % tw)]?) :
      TileCode tw th (UInt8.ofNat palette.length) cs
        (UInt8.ofNat palette.length :: (palette.flatMap Rgb.bytes ++ packedRows (packedBits palette.length) tw th index))
  | plainRle {cs : List Rgb} {d : List UInt8} (hlen : cs.length = tw * th) (h : PlainRuns cs d) : TileCode tw th 128 cs (128 :: d)
  | paletteRle (palette : List Rgb) (hsize : 2 ≤ palette.length ∧ palette.length ≤ 127) {cs : List Rgb} {d : List UInt8}
      (hlen : cs.length = tw * th) (h : PaletteRuns palette cs d) :
      TileCode tw th (UInt8.ofNat (128 + palette.length)) cs
        (UInt8.ofNat (128 + palette.length) :: (palette.flatMap Rgb.bytes ++ d))

/-- The sub-encodings of the format: 17 to 127 and 129 are not used. -/
def inFormat (sub : UInt8) : Bool := sub ≤ 16 || sub = 128 || 130 ≤ sub

theorem TileCode.inFormat {tw th : Nat} {sub : UInt8} {cs : List Rgb} {d : List UInt8} (h : TileCode tw th sub cs d) :
    inFormat sub = true := by
  cases h with
  | raw => decide
  | solid => decide
  | packed palette hsize =>
    obtain ⟨h2, h16⟩ := hsize
    have hle : (UInt8.ofNat palette.length).toNat ≤ 16 := by
      rw [UInt8.toNat_ofNat', Nat.mod_eq_of_lt (by omega)]
      exact h16
    simp only [Vnc.inFormat, Bool.or_eq_true, decide_eq_true_eq]
    exact .inl (.inl hle)
  | plainRle => decide
  | paletteRle palette hsize =>
    obtain ⟨h2, h127⟩ := hsize
    have hge : 130 ≤ (UInt8.ofNat (128 + palette.length)).toNat := by
      rw [UInt8.toNat_ofNat', Nat.mod_eq_of_lt (by omega)]
      omega
    simp only [Vnc.inFormat, Bool.or_eq_true, decide_eq_true_eq]
    exact .inr hge

/-! ## Reading colours -/

theorem cpixel_bytes (c : Rgb) (d : List UInt8) : cpixel (c.bytes ++ d) = some (c.color, d) := rfl

theorem readPalette_bytes (palette : List Rgb) (d : List UInt8) :
    readPalette palette.length (palette.flatMap Rgb.bytes ++ d) = some (palette.map Rgb.color, d) := by
  induction palette with
  | nil => rfl
  | cons c palette ih =>
    simp only [List.flatMap_cons, List.length_cons, List.append_assoc, readPalette, cpixel_bytes, ih, Option.bind_eq_bind,
      Option.bind_some, Option.pure_def, List.map_cons]

theorem flatMap_bytes_length (cs : List Rgb) : (cs.flatMap Rgb.bytes).length = cs.length * 3 := by
  induction cs with
  | nil => rfl
  | cons c cs ih =>
    simp only [List.flatMap_cons, List.length_append, Rgb.bytes_length, List.length_cons, ih]
    omega

theorem tileHeader_palette (sub : UInt8) (palette : List Rgb) (d : List UInt8) (hsub : sub.toNat % 128 = palette.length)
    (hsize : 0 < palette.length ∧ palette.length ≠ 127) :
    tileHeader (sub :: (palette.flatMap Rgb.bytes ++ d)) = some (sub, palette.map Rgb.color, d) := by
  simp only [tileHeader, hsub]
  rw [if_pos hsize, if_neg, readPalette_bytes]
  · rfl
  · rw [List.length_append, flatMap_bytes_length]
    omega

/-! ## Raw and packed tiles -/

def colorsOf (cs : List Rgb) : List (Option QRgb) := cs.map fun c => some c.color

theorem rawPixels_colors (t : Tile) (cs : List Rgb) (i : Nat) (rest : List UInt8) (ws : List Write) :
    (rawPixels t cs.length i (cs.flatMap Rgb.bytes ++ rest) ws).writes.map Write.color = ws.map Write.color ++ colorsOf cs := by
  induction cs generalizing i ws with
  | nil => simp [rawPixels, colorsOf]
  | cons c cs ih =>
    simp only [List.flatMap_cons, List.length_cons, List.append_assoc, rawPixels, cpixel_bytes]
    rw [ih]
    simp [colorsOf]

/-- The digit `j` of a number written with `n` digits of `bits` bits, the first one highest. -/
theorem packByte_digit (bits : Nat) (indices : List Nat) (hindices : ∀ i ∈ indices, i < 2 ^ bits) (j : Nat) (hj : j < indices.length) :
    packByte bits indices / 2 ^ (bits * (indices.length - (j + 1))) % 2 ^ bits = indices[j] := by
  induction indices using List.reverseRecOn generalizing j with
  | nil => cases hj
  | append_singleton init last ih =>
    have hlast : last < 2 ^ bits := hindices last (by simp)
    have hpack : packByte bits (init ++ [last]) = packByte bits init * 2 ^ bits + last := by
      simp [packByte]
    have hpos : 0 < 2 ^ bits := Nat.pow_pos (by decide)
    rw [hpack]
    by_cases hend : j = init.length
    · subst hend
      simp only [List.length_append, List.length_singleton, Nat.sub_self, Nat.mul_zero, Nat.pow_zero, Nat.div_one,
        List.getElem_concat_length]
      rw [Nat.mul_comm, Nat.mul_add_mod, Nat.mod_eq_of_lt hlast]
    · have hlt : j < init.length := by
        rw [List.length_append, List.length_singleton] at hj
        omega
      have hdigits : bits * ((init ++ [last]).length - (j + 1)) = bits + bits * (init.length - (j + 1)) := by
        rw [List.length_append, List.length_singleton, show init.length + 1 - (j + 1) = 1 + (init.length - (j + 1)) by omega,
          Nat.mul_add, Nat.mul_one]
      rw [hdigits, Nat.pow_add, ← Nat.div_div_eq_div_mul, Nat.mul_comm (packByte bits init), Nat.mul_add_div hpos,
        Nat.div_eq_of_lt hlast, Nat.add_zero, ih (fun i hi => hindices i (List.mem_append_left _ hi)) j hlt,
        List.getElem_append_left hlt]

theorem packByte_lt (bits : Nat) (indices : List Nat) (hindices : ∀ i ∈ indices, i < 2 ^ bits) :
    packByte bits indices < 2 ^ (bits * indices.length) := by
  induction indices using List.reverseRecOn with
  | nil => simp [packByte]
  | append_singleton init last ih =>
    have hlast : last < 2 ^ bits := hindices last (by simp)
    have hinit := ih fun i hi => hindices i (List.mem_append_left _ hi)
    have hpack : packByte bits (init ++ [last]) = packByte bits init * 2 ^ bits + last := by
      simp [packByte]
    rw [hpack, List.length_append, List.length_singleton, Nat.mul_add, Nat.mul_one, Nat.pow_add]
    calc packByte bits init * 2 ^ bits + last < packByte bits init * 2 ^ bits + 2 ^ bits := by omega
      _ = (packByte bits init + 1) * 2 ^ bits := by rw [Nat.add_mul, Nat.one_mul]
      _ ≤ 2 ^ (bits * init.length) * 2 ^ bits := Nat.mul_le_mul_right _ hinit

/-- Byte `k` of row `y`. -/
theorem packedRows_get (bits tw th : Nat) (index : Nat → Nat → Nat) (rest : List UInt8) {y k : Nat} (hy : y < th)
    (hk : k < (tw * bits + 7) / 8) :
    (packedRows bits tw th index ++ rest)[y * ((tw * bits + 7) / 8) + k]? =
      some (UInt8.ofNat (packByte bits ((List.range (8 / bits)).map fun j => index y (k * (8 / bits) + j)))) := by
  generalize hm : (tw * bits + 7) / 8 = m at hk
  have hlen (n : Nat) : (packedRows bits tw n index).length = n * m := by
    simp only [packedRows, List.length_flatMap, List.length_map, List.length_range, hm, List.map_const', List.sum_replicate_nat]
  induction th generalizing rest with
  | zero => cases hy
  | succ n ih =>
    have hsplit : packedRows bits tw (n + 1) index = packedRows bits tw n index ++
        (List.range m).map fun k => UInt8.ofNat (packByte bits ((List.range (8 / bits)).map fun j => index n (k * (8 / bits) + j))) := by
      simp only [packedRows, List.range_succ, List.flatMap_append, List.flatMap_singleton, hm]
    rw [hsplit, List.append_assoc]
    by_cases hlast : y = n
    · subst hlast
      rw [List.getElem?_append_right (by rw [hlen]; omega), hlen, Nat.add_sub_cancel_left,
        List.getElem?_append_left (by simpa using hk)]
      simp [hk]
    · exact ih _ (by omega)

theorem packedRows_length (bits tw th : Nat) (index : Nat → Nat → Nat) :
    (packedRows bits tw th index).length = (tw * bits + 7) / 8 * th := by
  simp only [packedRows, List.length_flatMap, List.length_map, List.length_range, List.map_const', List.sum_replicate_nat]
  rw [Nat.mul_comm]

theorem packedBits_cases (n : Nat) : packedBits n = 1 ∨ packedBits n = 2 ∨ packedBits n = 4 := by
  unfold packedBits
  split
  · exact .inl rfl
  · split
    · exact .inr (.inl rfl)
    · exact .inr (.inr rfl)

/-- The decoder finds the index of a pixel in the byte that holds it. -/
theorem packedRows_digit {bits tw th : Nat} (hbits : bits = 1 ∨ bits = 2 ∨ bits = 4) {index : Nat → Nat → Nat}
    (hindex : ∀ y x, index y x < 2 ^ bits) (rest : List UInt8) {x y : Nat} (hx : x < tw) (hy : y < th) :
    ∃ b, (packedRows bits tw th index ++ rest)[y * ((tw * bits + 7) / 8) + x * bits / 8]? = some b ∧
      b.toNat / 2 ^ (8 - bits * (x % (8 / bits) + 1)) % 2 ^ bits = index y x := by
  have hper : bits * (8 / bits) = 8 ∧ 0 < 8 / bits := by
    rcases hbits with rfl | rfl | rfl <;> decide
  have hk : x * bits / 8 = x / (8 / bits) := by
    have hpos : 0 < bits := by omega
    have hcancel := Nat.mul_div_mul_right x (8 / bits) hpos
    rwa [Nat.mul_comm (8 / bits), hper.1] at hcancel
  have hlt : x * bits / 8 < (tw * bits + 7) / 8 := by
    rcases hbits with rfl | rfl | rfl <;> omega
  generalize hn : 8 / bits = n at hper hk
  have hj : x % n < n := Nat.mod_lt _ hper.2
  refine ⟨_, packedRows_get bits tw th index rest hy hlt, ?_⟩
  rw [hn, hk]
  generalize hindices : (List.range n).map (fun j => index y (x / n * n + j)) = indices
  have hlen : indices.length = n := by rw [← hindices, List.length_map, List.length_range]
  have hall : ∀ i ∈ indices, i < 2 ^ bits := by
    intro i hi
    rw [← hindices] at hi
    obtain ⟨j, -, rfl⟩ := List.mem_map.mp hi
    exact hindex _ _
  have hbyte : packByte bits indices < 256 := by
    have hpack := packByte_lt bits indices hall
    rwa [hlen, hper.1] at hpack
  have hin : x % n < indices.length := by rw [hlen]; exact hj
  have hdigit := packByte_digit bits indices hall (x % n) hin
  have hget : indices[x % n] = index y x := by
    simp only [← hindices, List.getElem_map, List.getElem_range]
    rw [Nat.div_add_mod']
  rw [UInt8.toNat_ofNat', Nat.mod_eq_of_lt hbyte, ← hget, ← hdigit, hlen, Nat.mul_sub, hper.1]

theorem packedPixels_colors {t : Tile} (hw : 0 < t.tw) {palette cs : List Rgb} {index : Nat → Nat → Nat}
    (hindex : ∀ y x, index y x < 2 ^ packedBits palette.length) (hlen : cs.length = t.tw * t.th)
    (hcs : ∀ i < t.tw * t.th, cs[i]? = palette[index (i / t.tw) (i % t.tw)]?) (rest : List UInt8) (n i : Nat) (ws : List Write)
    (hi : i + n = t.tw * t.th) (hws : ws.map Write.color = colorsOf (cs.take i)) :
    (packedPixels t (palette.map Rgb.color) palette.length
      (packedRows (packedBits palette.length) t.tw t.th index ++ rest) n i ws).writes.map Write.color = colorsOf cs := by
  induction n generalizing i ws with
  | zero =>
    rw [packedPixels, hws, List.take_of_length_le (by omega)]
  | succ n ih =>
    have hlt : i < cs.length := by omega
    have hrow : i / t.tw < t.th := Nat.div_lt_of_lt_mul (by omega)
    obtain ⟨b, hb, hdigit⟩ := packedRows_digit (packedBits_cases palette.length) hindex rest (Nat.mod_lt i hw) hrow
    have hcolor := hcs i (by omega)
    rw [List.getElem?_eq_getElem hlt] at hcolor
    have hin : index (i / t.tw) (i % t.tw) < palette.length := List.getElem?_eq_some_iff.mp hcolor.symm |>.1
    simp only [packedPixels, hb, hdigit]
    refine ih (i + 1) _ (by omega) ?_
    rw [List.map_append, hws, List.take_succ_eq_append_getElem hlt]
    simp only [colorsOf, List.map_append, List.map_cons, List.map_nil, Nat.mod_eq_of_lt hin, List.getElem?_map, ← hcolor, Option.map_some]

/-! ## Runs -/

theorem length_replicate_append (k : Nat) {b : UInt8} (hb : b ≠ 255) (d : List UInt8) :
    lengthSum (List.replicate k 255 ++ b :: d) = 255 * k + b.toNat ∧ lengthEnds (List.replicate k 255 ++ b :: d) = true ∧
      afterLength (List.replicate k 255 ++ b :: d) = d := by
  induction k with
  | zero => simp [lengthSum, lengthEnds, afterLength, hb]
  | succ k ih =>
    obtain ⟨hsum, hends, hafter⟩ := ih
    simp only [List.replicate_succ, List.cons_append, lengthSum, lengthEnds, afterLength, if_true, hsum, hends, hafter, and_true]
    omega

/-- The decoder reads the length back. -/
theorem lengthBytes_read (n : Nat) (d : List UInt8) :
    lengthSum (lengthBytes n ++ d) = n - 1 ∧ lengthEnds (lengthBytes n ++ d) = true ∧ afterLength (lengthBytes n ++ d) = d := by
  have hlt : (n - 1) % 255 < 255 := Nat.mod_lt _ (by decide)
  have hnat : (UInt8.ofNat ((n - 1) % 255)).toNat = (n - 1) % 255 := by
    rw [UInt8.toNat_ofNat', Nat.mod_eq_of_lt (by omega)]
  have hb : UInt8.ofNat ((n - 1) % 255) ≠ 255 := by
    intro h
    have h255 := congrArg UInt8.toNat h
    rw [hnat] at h255
    have hval : (255 : UInt8).toNat = 255 := rfl
    omega
  have hread := length_replicate_append ((n - 1) / 255) hb d
  unfold lengthBytes
  rw [List.append_assoc, List.singleton_append]
  rw [hnat] at hread
  have hdiv := Nat.div_add_mod (n - 1) 255
  exact ⟨by omega, hread.2⟩

theorem putN_colors (t : Tile) (c : Option QRgb) (n : Nat) (s : Rle) :
    (Rle.putN t c n s).writes.map Write.color = s.writes.map Write.color ++ List.replicate n c := by
  induction n generalizing s with
  | zero => simp [Rle.putN]
  | succ n ih =>
    rw [Rle.putN, ih]
    simp [Rle.put, List.replicate_succ]

/-- From `s` on the loop draws `cs`, fills the tile and leaves `rest`. -/
def RleDraws (t : Tile) (palette : List QRgb) (ps : Nat) (s : Rle) (cs : List Rgb) (rest : List UInt8) : Prop :=
  ∀ fuel, s.d.length < fuel → (rleLoop t palette ps fuel s).finish = .ok rest ∧
    (rleLoop t palette ps fuel s).writes.map Write.color = s.writes.map Write.color ++ colorsOf cs

section Runs

variable {t : Tile} {palette : List QRgb} {ps : Nat} {s : Rle} {cs : List Rgb} {rest : List UInt8}

theorem RleDraws.full (h : s.done = t.total) : RleDraws t palette ps s [] s.d := by
  intro fuel hfuel
  obtain ⟨fuel, rfl⟩ : ∃ k, fuel = k + 1 := ⟨fuel - 1, by omega⟩
  rw [rleLoop, if_neg (by omega)]
  exact ⟨rfl, (List.append_nil _).symm⟩

theorem RleDraws.step {s' : Rle} {new : List Rgb} (hmore : s.done < t.total) (hstep : rleStep t palette ps s = .more s')
    (hlen : s'.d.length < s.d.length) (hnew : s'.writes.map Write.color = s.writes.map Write.color ++ colorsOf new)
    (h : RleDraws t palette ps s' cs rest) : RleDraws t palette ps s (new ++ cs) rest := by
  intro fuel hfuel
  obtain ⟨fuel, rfl⟩ : ∃ k, fuel = k + 1 := ⟨fuel - 1, by omega⟩
  obtain ⟨hfinish, hcolors⟩ := h fuel (by omega)
  rw [rleLoop, if_pos hmore, hstep]
  refine ⟨hfinish, hcolors.trans ?_⟩
  rw [hnew, List.append_assoc]
  simp [colorsOf]

theorem RleDraws.single {s' : Rle} {c : Rgb} (hmore : s.done < t.total) (hstep : rleStep t palette ps s = .more s')
    (hlen : s'.d.length < s.d.length) (hnew : s'.writes.map Write.color = s.writes.map Write.color ++ [some c.color])
    (h : RleDraws t palette ps s' cs rest) : RleDraws t palette ps s (c :: cs) rest := by
  have hone : s'.writes.map Write.color = s.writes.map Write.color ++ colorsOf [c] := hnew
  exact h.step hmore hstep hlen hone

/-- A run of `n` pixels in the colour `c`. -/
theorem RleDraws.run {c : Rgb} {n : Nat} {d : List UInt8} (hn : 0 < n) (h0 : 0 ≤ s.done) (hsmall : t.total ≤ intMax)
    (hfit : s.done + n ≤ t.total) (hstep : rleStep t palette ps s = rleRun t (some c.color) { s with d := lengthBytes n ++ d })
    (hlen : (lengthBytes n ++ d).length < s.d.length)
    (h : ∀ s', s'.d = d → s'.done = s.done + n → RleDraws t palette ps s' cs rest) :
    RleDraws t palette ps s (List.replicate n c ++ cs) rest := by
  obtain ⟨hsum, hends, hafter⟩ := lengthBytes_read n d
  have hcount : 1 + ((lengthSum (lengthBytes n ++ d) : Nat) : Int) = n := by omega
  have hok := rleRun_ok (t := t) (s := { s with d := lengthBytes n ++ d }) (some c.color) (by simp only; omega) hends
    (by simp only; omega) (by simp only; omega)
  have hle : d.length ≤ (lengthBytes n ++ d).length := by simp
  refine RleDraws.step (by omega) (hstep.trans hok) ?_ ?_ (h _ ?_ ?_)
  · simp only [putN_d, hafter]
    omega
  · simp only [putN_colors, colorsOf, List.map_replicate]
    congr 2
    omega
  · simp only [putN_d, hafter]
  · simp only
    omega

end Runs

theorem plainRuns_draw {t : Tile} {palette : List QRgb} (hsmall : t.total ≤ intMax) {cs : List Rgb} {d : List UInt8}
    (h : PlainRuns cs d) {s : Rle} {rest : List UInt8} (hd : s.d = d ++ rest) (h0 : 0 ≤ s.done)
    (hdone : s.done + cs.length = t.total) : RleDraws t palette 0 s cs rest := by
  induction h generalizing s with
  | nil =>
    obtain rfl : s.d = rest := by simpa using hd
    exact .full (by simpa using hdone)
  | @run c n hn cs d _ ih =>
    simp only [List.length_append, List.length_replicate, Int.natCast_add] at hdone
    rw [List.append_assoc, List.append_assoc] at hd
    refine RleDraws.run hn h0 hsmall (by omega) ?_ ?_ fun s' hd' hdone' => ih hd' (by omega) (by omega)
    · simp only [rleStep, if_true, hd, cpixel_bytes]
    · rw [hd]
      simp only [List.length_append, Rgb.bytes_length]
      omega

theorem paletteRuns_draw {t : Tile} (hsmall : t.total ≤ intMax) {palette cs : List Rgb} {d : List UInt8}
    (hsize : palette.length ≤ 128) (h : PaletteRuns palette cs d) {s : Rle} {rest : List UInt8} (hd : s.d = d ++ rest)
    (h0 : 0 ≤ s.done) (hdone : s.done + cs.length = t.total) :
    RleDraws t (palette.map Rgb.color) palette.length s cs rest := by
  induction h generalizing s with
  | nil =>
    obtain rfl : s.d = rest := by simpa using hd
    exact .full (by simpa using hdone)
  | @single i cs d _ ih =>
    have hlt := i.isLt
    simp only [List.length_cons, Int.natCast_add] at hdone
    have hnat : (UInt8.ofNat i).toNat = i := by rw [UInt8.toNat_ofNat', Nat.mod_eq_of_lt (by omega)]
    have hsingle : UInt8.ofNat i < 128 := by
      rw [UInt8.lt_iff_toNat_lt, hnat]
      exact Nat.lt_of_lt_of_le hlt hsize
    have hcolor : (palette.map Rgb.color)[(UInt8.ofNat i).toNat % 128 % palette.length]? = some (palette.get i).color := by
      rw [hnat, Nat.mod_eq_of_lt (a := (i : Nat)) (b := 128) (by omega), Nat.mod_eq_of_lt hlt]
      simp
    have hstep : rleStep t (palette.map Rgb.color) palette.length s = .more
        { (s.put t (some (palette.get i).color)) with done := s.done + 1, d := d ++ rest } := by
      simp only [rleStep, if_neg (show palette.length ≠ 0 by omega), hd, List.cons_append, if_pos hsingle, hcolor]
    refine RleDraws.single (by omega) hstep ?_ ?_ (ih rfl ?_ ?_)
    · simp [hd]
    · simp [Rle.put]
    · simp only
      omega
    · simp only
      omega
  | @run i n hn cs d _ ih =>
    have hlt := i.isLt
    simp only [List.length_append, List.length_replicate, Int.natCast_add] at hdone
    simp only [List.cons_append, List.append_assoc] at hd
    have hnat : (UInt8.ofNat (128 + i)).toNat = 128 + i := by rw [UInt8.toNat_ofNat', Nat.mod_eq_of_lt (by omega)]
    have hrun : ¬ UInt8.ofNat (128 + i) < 128 := by
      rw [UInt8.lt_iff_toNat_lt, hnat]
      exact Nat.not_lt.mpr (Nat.le_add_right 128 _)
    have hcolor : (palette.map Rgb.color)[(UInt8.ofNat (128 + i)).toNat % 128 % palette.length]? = some (palette.get i).color := by
      rw [hnat, Nat.add_mod_left, Nat.mod_eq_of_lt (a := (i : Nat)) (b := 128) (by omega), Nat.mod_eq_of_lt hlt]
      simp
    refine RleDraws.run (c := palette.get i) hn h0 hsmall (by omega) ?_ ?_ fun s' hd' hdone' => ih hd' (by omega) (by omega)
    · simp only [rleStep, if_neg (show palette.length ≠ 0 by omega), hd, if_neg hrun, hcolor]
    · rw [hd]
      simp

/-! ## Tiles -/

/-- The tile decoder on the code `d` of a tile that shows `cs`: it draws them, has read the palette in full and
leaves what follows. -/
structure ReadAs (t : Tile) (sub : UInt8) (cs : List Rgb) (d rest : List UInt8) : Prop where
  finish : (zrleTile t (d ++ rest)).finish = .ok rest
  colors : (zrleTile t (d ++ rest)).writes.map Write.color = colorsOf cs
  palette : ∃ palette d', tileHeader (d ++ rest) = some (sub, palette, d') ∧ palette.length = sub.toNat % 128

section Tiles

variable {t : Tile} {cs : List Rgb} {d : List UInt8}

theorem decoded_raw (ht : t.Clipped) (hlen : cs.length = t.tw * t.th) (rest : List UInt8) :
    ReadAs t 0 cs (0 :: cs.flatMap Rgb.bytes) rest := by
  have hheader : tileHeader (0 :: cs.flatMap Rgb.bytes ++ rest) = some (0, [], cs.flatMap Rgb.bytes ++ rest) := rfl
  have hbytes := flatMap_bytes_length cs
  have hsize : plainLength t 0 = (cs.flatMap Rgb.bytes).length := by rw [hbytes, hlen]; rfl
  have hfinish := (zrleTile_plain ht hheader (by decide)).2
  have hsmall := plainLength_lt ht 0
  refine ⟨?_, ?_, [], _, hheader, rfl⟩
  · rw [hfinish, show (0 : UInt8).toNat % 128 = 0 from rfl, hsize, if_pos (by simp), List.drop_left]
  · unfold zrleTile
    simp only [hheader]
    rw [if_pos (by decide), if_pos (by decide), needSize, if_neg, if_neg, ← hlen, rawPixels_colors]
    · rfl
    · rw [List.length_append]
      omega
    · omega

theorem decoded_solid (ht : t.Clipped) (c : Rgb) (rest : List UInt8) :
    ReadAs t 1 (List.replicate (t.tw * t.th) c) (1 :: c.bytes) rest := by
  have hheader : tileHeader (1 :: c.bytes ++ rest) = some (1, [c.color], rest) := by
    have hone := tileHeader_palette 1 [c] rest rfl (by simp)
    simpa using hone
  refine ⟨?_, ?_, _, _, hheader, rfl⟩
  · rw [(zrleTile_plain ht hheader (by decide)).2]
    rfl
  · unfold zrleTile
    simp only [hheader]
    rw [if_pos (by decide), if_neg (by decide), if_pos (by decide)]
    simp [solidPixels, Tile.readingOrder, colorsOf, Function.comp_def]

theorem decoded_packed (ht : t.Clipped) {palette : List Rgb} (hsize : 2 ≤ palette.length ∧ palette.length ≤ 16)
    {index : Nat → Nat → Nat} (hindex : ∀ y x, index y x < 2 ^ packedBits palette.length) (hlen : cs.length = t.tw * t.th)
    (hcs : ∀ i < t.tw * t.th, cs[i]? = palette[index (i / t.tw) (i % t.tw)]?) (rest : List UInt8) :
    ReadAs t (UInt8.ofNat palette.length) cs (UInt8.ofNat palette.length ::
      (palette.flatMap Rgb.bytes ++ packedRows (packedBits palette.length) t.tw t.th index)) rest := by
  obtain ⟨h2, h16⟩ := hsize
  have hnat : (UInt8.ofNat palette.length).toNat = palette.length := by rw [UInt8.toNat_ofNat', Nat.mod_eq_of_lt (by omega)]
  have hmod : (UInt8.ofNat palette.length).toNat % 128 = palette.length := by rw [hnat, Nat.mod_eq_of_lt (by omega)]
  have hplain : UInt8.ofNat palette.length < 128 := by
    rw [UInt8.lt_iff_toNat_lt, hnat]
    exact Nat.lt_of_le_of_lt h16 (by decide)
  generalize hrows : packedRows (packedBits palette.length) t.tw t.th index = rows
  have hheader := tileHeader_palette (UInt8.ofNat palette.length) palette (rows ++ rest) hmod (by omega)
  rw [← List.append_assoc, ← List.cons_append] at hheader
  have hrowsLength : rows.length = plainLength t palette.length := by
    rw [← hrows, packedRows_length, plainLength, if_neg (by omega), if_neg (by omega)]
  have hsmall := plainLength_lt ht palette.length
  refine ⟨?_, ?_, _, _, hheader, by rw [List.length_map, hmod]⟩
  · rw [(zrleTile_plain ht hheader hplain).2, hmod, ← hrowsLength, if_pos (by simp), List.drop_left]
  · unfold zrleTile
    simp only [hheader, hmod]
    rw [if_pos hplain, if_neg (by omega), if_neg (by omega), needSize, if_neg, if_neg, ← hrows]
    · exact packedPixels_colors ht.tw_pos hindex hlen hcs rest _ 0 [] (by omega) rfl
    · rw [List.length_append, hrowsLength, plainLength, if_neg (by omega), if_neg (by omega)]
      omega
    · rw [plainLength, if_neg (by omega), if_neg (by omega)] at hsmall
      omega

/-- A tile of runs, once its header is read. -/
theorem decoded_rle {sub : UInt8} (palette : List QRgb) {runs rest : List UInt8}
    (hheader : tileHeader (d ++ rest) = some (sub, palette, runs ++ rest)) (hsub : ¬ sub < 128)
    (hpalette : palette.length = sub.toNat % 128)
    (h : RleDraws t palette (sub.toNat % 128) (.start (runs ++ rest)) cs rest) : ReadAs t sub cs d rest := by
  obtain ⟨hfinish, hcolors⟩ := h ((runs ++ rest).length + 1) (Nat.lt_succ_self _)
  rw [← zrleTile_rle hheader hsub] at hfinish hcolors
  exact ⟨hfinish, hcolors, palette, _, hheader, hpalette⟩

theorem decoded_plainRle (ht : t.Clipped) (hlen : cs.length = t.tw * t.th) (h : PlainRuns cs d) (rest : List UInt8) :
    ReadAs t 128 cs (128 :: d) rest :=
  decoded_rle [] rfl (by decide) rfl
    (plainRuns_draw ht.total_le_intMax h rfl (Int.le_refl 0) (by rw [hlen, Tile.total]; simp [Rle.start]))

theorem decoded_paletteRle (ht : t.Clipped) {palette : List Rgb} (hsize : 2 ≤ palette.length ∧ palette.length ≤ 126)
    (hlen : cs.length = t.tw * t.th) (h : PaletteRuns palette cs d) (rest : List UInt8) :
    ReadAs t (UInt8.ofNat (128 + palette.length)) cs
      (UInt8.ofNat (128 + palette.length) :: (palette.flatMap Rgb.bytes ++ d)) rest := by
  obtain ⟨h2, h126⟩ := hsize
  have hnat : (UInt8.ofNat (128 + palette.length)).toNat = 128 + palette.length := by
    rw [UInt8.toNat_ofNat', Nat.mod_eq_of_lt (by omega)]
  have hmod : (UInt8.ofNat (128 + palette.length)).toNat % 128 = palette.length := by
    rw [hnat, Nat.add_mod_left, Nat.mod_eq_of_lt (by omega)]
  have hrle : ¬ UInt8.ofNat (128 + palette.length) < 128 := by
    rw [UInt8.lt_iff_toNat_lt, hnat]
    exact Nat.not_lt.mpr (Nat.le_add_right 128 _)
  have hheader := tileHeader_palette (UInt8.ofNat (128 + palette.length)) palette (d ++ rest) hmod (by omega)
  rw [← List.append_assoc, ← List.cons_append] at hheader
  refine decoded_rle _ hheader hrle (by rw [List.length_map, hmod]) ?_
  rw [hmod]
  exact paletteRuns_draw ht.total_le_intMax (by omega) h rfl (Int.le_refl 0) (by rw [hlen, Tile.total]; simp [Rle.start])

/-- Every sub-encoding but 255 is decoded. -/
theorem TileCode.decoded {sub : UInt8} (ht : t.Clipped) (h : TileCode t.tw t.th sub cs d) (hsub : sub ≠ 255)
    (rest : List UInt8) : ReadAs t sub cs d rest := by
  cases h with
  | raw _ hlen => exact decoded_raw ht hlen rest
  | solid c => exact decoded_solid ht c rest
  | packed palette hsize index hindex _ hlen hcs => exact decoded_packed ht hsize hindex hlen hcs rest
  | plainRle hlen hruns => exact decoded_plainRle ht hlen hruns rest
  | paletteRle palette hsize hlen hruns =>
    have hne : palette.length ≠ 127 := by
      intro h127
      rw [h127] at hsub
      exact hsub rfl
    exact decoded_paletteRle ht ⟨hsize.1, by omega⟩ hlen hruns rest

end Tiles

end LvdTerm.Vnc
