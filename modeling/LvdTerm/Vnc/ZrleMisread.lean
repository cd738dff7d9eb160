import LvdTerm.Vnc.ZrleDecode

/-!
# VNC client: the sub-encodings ZRLE misreads

The decoder reads no palette for 127 and 255, takes 17 to 126 for packed palettes and 129 for runs in a palette of
one colour. Payloads of zeros show it: they are a black picture to the format, and to the decoder something else.
-/
namespace LvdTerm.Vnc

open Lib Lib.Action

/-- 17 to 127, 129 and 255. -/
def misread (sub : UInt8) : Bool := !inFormat sub || sub = 255

/-! ## Black tiles -/

def zeros (n : Nat) : List UInt8 := List.replicate n 0

def blackRgb : Rgb := ⟨0, 0, 0⟩

def blackout (_ _ : Nat) : Rgb := blackRgb

theorem zeros_add (n m : Nat) : zeros (n + m) = zeros n ++ zeros m := (List.replicate_append_replicate ..).symm

theorem blackout_colors (t : Tile) : (t.readingOrder.map fun p => blackout p.1 p.2) = List.replicate (t.tw * t.th) blackRgb := by
  simp [Tile.readingOrder, blackout, Function.comp_def]

theorem black_bytes (n : Nat) : (List.replicate n blackRgb).flatMap Rgb.bytes = zeros (n * 3) := by
  induction n with
  | zero => rfl
  | succ n ih =>
    rw [List.replicate_succ, List.flatMap_cons, ih, Nat.add_mul, Nat.one_mul, Nat.add_comm, zeros_add]
    rfl

theorem black_singles {ps : Nat} (hps : 0 < ps) (n : Nat) :
    PaletteRuns (List.replicate ps blackRgb) (List.replicate n blackRgb) (zeros n) := by
  induction n with
  | zero => exact .nil
  | succ n ih =>
    have hsingle := PaletteRuns.single ⟨0, by rw [List.length_replicate]; exact hps⟩ ih
    rw [List.get_eq_getElem, List.getElem_replicate] at hsingle
    exact hsingle

theorem black_paletteRle (tw th : Nat) {ps : Nat} (hps : 2 ≤ ps ∧ ps ≤ 127) :
    TileCode tw th (UInt8.ofNat (128 + ps)) (List.replicate (tw * th) blackRgb)
      (UInt8.ofNat (128 + ps) :: zeros (ps * 3 + tw * th)) := by
  have hcode := TileCode.paletteRle (List.replicate ps blackRgb) (by simpa using hps) (List.length_replicate ..)
    (black_singles (by omega) (tw * th))
  rwa [List.length_replicate, black_bytes, ← zeros_add] at hcode

/-- Every sub-encoding of the format has a code for a black tile. -/
theorem black_code (tw th : Nat) {sub : UInt8} (h : inFormat sub = true) :
    ∃ code, TileCode tw th sub (List.replicate (tw * th) blackRgb) code := by
  have hsub : sub = UInt8.ofNat sub.toNat := UInt8.ofNat_toNat.symm
  have hlt := sub.toNat_lt
  simp only [inFormat, Bool.or_eq_true, decide_eq_true_eq] at h
  rcases h with (hlow | rfl) | hhigh
  · have hle : sub.toNat ≤ 16 := hlow
    obtain h0 | h1 | h2 : sub.toNat = 0 ∨ sub.toNat = 1 ∨ 2 ≤ sub.toNat := by omega
    · rw [h0] at hsub
      subst hsub
      exact ⟨_, .raw _ (List.length_replicate ..)⟩
    · rw [h1] at hsub
      subst hsub
      exact ⟨_, .solid blackRgb⟩
    · have hcolors (i : Nat) (hi : i < tw * th) :
          (List.replicate (tw * th) blackRgb)[i]? = (List.replicate sub.toNat blackRgb)[0]? := by
        rw [List.getElem?_replicate_of_lt hi, List.getElem?_replicate_of_lt (by omega)]
      have hcode := TileCode.packed (List.replicate sub.toNat blackRgb) (by simpa using ⟨h2, hle⟩) (fun _ _ => 0)
        (fun _ _ => Nat.pow_pos (by decide)) (List.replicate (tw * th) blackRgb) (List.length_replicate ..) hcolors
      rw [List.length_replicate, ← hsub] at hcode
      exact ⟨_, hcode⟩
  · by_cases h0 : tw * th = 0
    · rw [h0]
      exact ⟨_, .plainRle h0.symm .nil⟩
    · have hrun := PlainRuns.run blackRgb (tw * th) (by omega) .nil
      rw [List.append_nil] at hrun
      exact ⟨_, .plainRle (List.length_replicate ..) hrun⟩
  · have hge : 130 ≤ sub.toNat := hhigh
    have hcode := black_paletteRle tw th (show 2 ≤ sub.toNat - 128 ∧ sub.toNat - 128 ≤ 127 by omega)
    rw [show 128 + (sub.toNat - 128) = sub.toNat by omega, ← hsub] at hcode
    exact ⟨_, hcode⟩

theorem Reads.blackened {picture : Nat → Nat → Rgb} {ts : List Tile} {subs d : List UInt8} {verdict : Verdict}
    (h : Reads picture ts subs d verdict) : ∃ d', Reads blackout ts subs d' verdict := by
  induction h with
  | whole => exact ⟨_, .whole⟩
  | @tile t _ _ _ _ _ _ hcode _ ih =>
    obtain ⟨code, hblack⟩ := black_code t.tw t.th hcode.inFormat
    obtain ⟨d', hd'⟩ := ih
    rw [← blackout_colors] at hblack
    exact ⟨_, .tile hblack hd'⟩
  | ended => exact ⟨_, .ended⟩
  | cut hcode hmissing => exact ⟨_, .cut hcode hmissing⟩
  | @unknown t ts sub d hunused => exact ⟨sub :: d, .unknown hunused⟩

/-! ## What the decoder makes of zeros -/

theorem zeros_runs {total ps : Nat} (hps : ps ≠ 0) (rest : List UInt8) {n : Nat} (hn : n ≤ total) :
    RleAt total ps (zeros total ++ rest) n (zeros (total - n) ++ rest) := by
  induction n with
  | zero => exact .start
  | succ n ih =>
    have hbefore := ih (by omega)
    rw [show total - n = total - (n + 1) + 1 by omega] at hbefore
    exact .next hbefore (by omega) (.pixel hps (by decide))

section Tiles

variable {t : Tile} {sub : UInt8} {rest : List UInt8}

/-- Single pixels in the first colour of a palette. -/
theorem zeros_rle {palette : List QRgb} (hsub : ¬ sub < 128) (hps : sub.toNat % 128 ≠ 0) {d : List UInt8}
    (hheader : tileHeader d = some (sub, palette, zeros (t.tw * t.th) ++ rest)) : TileEnds t d rest := by
  have hruns := zeros_runs hps rest (Nat.le_refl (t.tw * t.th))
  rw [Nat.sub_self] at hruns
  exact .rle hheader hsub hruns

theorem zeros_plain {palette : List QRgb} (hsub : sub < 128) {d : List UInt8}
    (hheader : tileHeader d = some (sub, palette, zeros (plainLength t (sub.toNat % 128)) ++ rest)) : TileEnds t d rest := by
  have hlen : (zeros (plainLength t (sub.toNat % 128))).length = plainLength t (sub.toNat % 128) := List.length_replicate ..
  have hends := TileEnds.plain (t := t) hheader hsub (by rw [List.length_append, hlen]; exact Nat.le_add_right ..)
  rwa [List.drop_left' hlen] at hends

/-- A tile that ends has a pixel, and without a palette no colour for it. -/
theorem unfilled_draws (ht : t.Clipped) (hth : 0 < t.th) {d d' : List UInt8} (hheader : tileHeader d = some (sub, [], d'))
    (hsub : sub.toNat % 128 = 127) (hends : TileEnds t d rest) : ∃ w ∈ (zrleTile t d).writes, w.color = none := by
  have hfull := (zrleTile_ordered ht d).complete rest ((zrleTile_ends ht).mpr hends)
  have hfirst : t.pos 0 ∈ t.readingOrder := List.mem_map_of_mem (List.mem_range.mpr (Nat.mul_pos ht.tw_pos hth))
  rw [← hfull] at hfirst
  obtain ⟨w, hw, -⟩ := List.mem_map.mp hfirst
  exact ⟨w, hw, zrleTile_unfilled hheader hsub w hw⟩

theorem unfilled_255 (ht : t.Clipped) (hth : 0 < t.th) (rest : List UInt8) :
    ∃ w ∈ (zrleTile t (255 :: (zeros (t.tw * t.th) ++ rest))).writes, w.color = none :=
  unfilled_draws ht hth rfl rfl (zeros_rle (by decide) (by decide) rfl)

theorem unfilled_127 (ht : t.Clipped) (hth : 0 < t.th) (rest : List UInt8) :
    ∃ w ∈ (zrleTile t (127 :: (zeros (plainLength t 127) ++ rest))).writes, w.color = none :=
  unfilled_draws ht hth rfl rfl (zeros_plain (by decide) rfl)

/-- A black palette in front of `d`. -/
theorem tileHeader_black (hsize : 0 < sub.toNat % 128 ∧ sub.toNat % 128 ≠ 127) (d : List UInt8) :
    tileHeader (sub :: (zeros (sub.toNat % 128 * 3) ++ d)) =
      some (sub, (List.replicate (sub.toNat % 128) blackRgb).map Rgb.color, d) := by
  have hheader := tileHeader_palette sub (List.replicate (sub.toNat % 128) blackRgb) d (List.length_replicate ..).symm
    (by simpa using hsize)
  rwa [black_bytes] at hheader

/-- A palette of 17 colours or more is taken for a packed one. -/
theorem packed_taken (sub : UInt8) (ht : t.Clipped) (hsize : 0 < sub.toNat % 128 ∧ sub.toNat % 128 ≠ 127) (hsub : sub < 128)
    (rest : List UInt8) :
    (zrleTile t (sub :: (zeros (sub.toNat % 128 * 3) ++ (zeros (plainLength t (sub.toNat % 128)) ++ rest)))).finish = .ok rest ∧
      Colored (fun c => c.isSome = true)
        (zrleTile t (sub :: (zeros (sub.toNat % 128 * 3) ++ (zeros (plainLength t (sub.toNat % 128)) ++ rest)))).writes := by
  have hheader := tileHeader_black hsize (zeros (plainLength t (sub.toNat % 128)) ++ rest)
  exact ⟨(zrleTile_ends ht).mpr (zeros_plain hsub hheader), zrleTile_filled hheader (by simp)⟩

/-- Every other sub-encoding that is not in the format is taken. -/
theorem unused_taken (ht : t.Clipped) (hsub : inFormat sub = false) (h127 : sub ≠ 127) (rest : List UInt8) :
    ∃ code, (zrleTile t (sub :: (code ++ rest))).finish = .ok rest ∧
      Colored (fun c => c.isSome = true) (zrleTile t (sub :: (code ++ rest))).writes := by
  simp only [inFormat, Bool.or_eq_false_iff, decide_eq_false_iff_not, UInt8.le_iff_toNat_le] at hsub
  obtain ⟨⟨hlow, h128⟩, hhigh⟩ := hsub
  have hlow' : 16 < sub.toNat := Nat.lt_of_not_le hlow
  have hhigh' : sub.toNat < 130 := Nat.lt_of_not_le hhigh
  have h128' : sub.toNat ≠ 128 := fun h => h128 (UInt8.toNat_inj.mp h)
  have h127' : sub.toNat ≠ 127 := fun h => h127 (UInt8.toNat_inj.mp h)
  have hsize : 0 < sub.toNat % 128 ∧ sub.toNat % 128 ≠ 127 := by omega
  by_cases hplain : sub < 128
  · refine ⟨zeros (sub.toNat % 128 * 3) ++ zeros (plainLength t (sub.toNat % 128)), ?_⟩
    rw [List.append_assoc]
    exact packed_taken sub ht hsize hplain rest
  · have hheader := tileHeader_black hsize (zeros (t.tw * t.th) ++ rest)
    refine ⟨zeros (sub.toNat % 128 * 3) ++ zeros (t.tw * t.th), ?_⟩
    rw [List.append_assoc]
    exact ⟨(zrleTile_ends ht).mpr (zeros_rle hplain (by omega) hheader), zrleTile_filled hheader (by simp)⟩

end Tiles

/-! ## Payloads that are not handled -/

/-- The decoder draws a colour that is not there, or takes what it should refuse. -/
def Spoils (ts : List Tile) (payload : List UInt8) (verdict : Verdict) : Prop :=
  (∃ w ∈ (zrleDecode ts payload).writes, w.color = none) ∨
    (verdict = .unknown ∧ Colored (fun c => c.isSome = true) (zrleDecode ts payload).writes ∧
      ∃ rest, (zrleDecode ts payload).finish = .ok rest)

theorem spoils_first {t : Tile} (ts : List Tile) {d : List UInt8} (verdict : Verdict)
    (h : ∃ w ∈ (zrleTile t d).writes, w.color = none) : Spoils (t :: ts) d verdict := by
  obtain ⟨w, hw, hnone⟩ := h
  refine .inl ⟨w, ?_, hnone⟩
  rw [zrleDecode]
  split
  · exact List.mem_append_left _ hw
  · exact hw

theorem Spoils.later {t : Tile} {ts : List Tile} {sub : UInt8} {code d : List UInt8} {verdict : Verdict} (ht : t.Clipped)
    (hcode : TileCode t.tw t.th sub (t.readingOrder.map fun p => blackout p.1 p.2) code) (hsub : sub ≠ 255)
    (h : Spoils ts d verdict) : Spoils (t :: ts) (code ++ d) verdict := by
  have hread := hcode.decoded ht hsub d
  unfold Spoils
  rw [zrleDecode_cons_ok ts hread.finish, hread.writes ht]
  rcases h with ⟨w, hw, hnone⟩ | ⟨hverdict, hcolored, hfinish⟩
  · exact .inl ⟨w, List.mem_append_right _ hw, hnone⟩
  · exact .inr ⟨hverdict, (copying_colored _ _).append hcolored, hfinish⟩

/-- Solid tiles, to go on with. -/
theorem solid_reads (ts : List Tile) :
    ∃ subs d, (∀ sub ∈ subs, sub ≠ 255) ∧ Reads blackout ts subs d .whole := by
  induction ts with
  | nil => exact ⟨[], [], List.forall_mem_nil _, .whole⟩
  | cons t ts ih =>
    obtain ⟨subs, d, hsubs, hreads⟩ := ih
    have hcode : TileCode t.tw t.th 1 _ _ := .solid blackRgb
    rw [← blackout_colors] at hcode
    exact ⟨1 :: subs, _, List.forall_mem_cons.mpr ⟨by decide, hsubs⟩, .tile hcode hreads⟩

/-- With a sub-encoding that is misread, some payload is not handled. -/
theorem Reads.spoiled {picture : Nat → Nat → Rgb} {ts : List Tile} {subs d : List UInt8} {verdict : Verdict}
    (hts : ∀ t ∈ ts, t.Clipped ∧ 0 < t.th) (h : Reads picture ts subs d verdict) (hbad : ∃ sub ∈ subs, misread sub = true) :
    ∃ d' verdict', Reads blackout ts subs d' verdict' ∧ Spoils ts d' verdict' := by
  induction h with
  | whole | ended =>
    obtain ⟨sub, hsub, -⟩ := hbad
    cases hsub
  | @tile t ts sub code subs d verdict hcode hlater ih =>
    obtain ⟨ht, hth⟩ := hts t (List.mem_cons_self ..)
    by_cases h255 : sub = 255
    · subst h255
      obtain ⟨d', hd'⟩ := hlater.blackened
      have hblack := black_paletteRle t.tw t.th (show 2 ≤ 127 ∧ 127 ≤ 127 by decide)
      rw [← blackout_colors] at hblack
      refine ⟨_, verdict, .tile hblack hd', spoils_first ts verdict ?_⟩
      rw [Nat.add_comm (127 * 3), zeros_add, List.cons_append, List.append_assoc]
      exact unfilled_255 ht hth _
    · have hknown : misread sub = false := by simp [misread, hcode.inFormat, h255]
      obtain ⟨bad, hmem, hbad⟩ := hbad
      have htail : bad ∈ subs := by
        rcases List.mem_cons.mp hmem with rfl | hmem
        · rw [hknown] at hbad
          cases hbad
        · exact hmem
      obtain ⟨d', verdict', hreads, hspoils⟩ := ih (fun t ht => hts t (List.mem_cons_of_mem _ ht)) ⟨bad, htail, hbad⟩
      obtain ⟨code', hcode'⟩ := black_code t.tw t.th hcode.inFormat
      rw [← blackout_colors] at hcode'
      exact ⟨_, verdict', .tile hcode' hreads, hspoils.later ht hcode' h255⟩
  | @cut t ts sub cs part missing hcode _ =>
    obtain ⟨ht, hth⟩ := hts t (List.mem_cons_self ..)
    obtain ⟨bad, hmem, hbad⟩ := hbad
    rw [List.mem_singleton] at hmem
    subst hmem
    obtain rfl : bad = 255 := by simpa [misread, hcode.inFormat] using hbad
    have hblack := black_paletteRle t.tw t.th (show 2 ≤ 127 ∧ 127 ≤ 127 by decide)
    rw [show 127 * 3 + t.tw * t.th = t.tw * t.th + 380 + 1 by omega, zeros_add] at hblack
    refine ⟨255 :: zeros (t.tw * t.th + 380), .cut, .cut hblack (by decide), spoils_first ts .cut ?_⟩
    rw [zeros_add]
    exact unfilled_255 ht hth _
  | @unknown t ts sub d hunused =>
    obtain ⟨ht, hth⟩ := hts t (List.mem_cons_self ..)
    by_cases h127 : sub = 127
    · subst h127
      have hspoils := spoils_first ts .unknown (unfilled_127 ht hth [])
      exact ⟨_, .unknown, .unknown hunused, hspoils⟩
    · obtain ⟨subs, rest, hsubs, hreads⟩ := solid_reads ts
      obtain ⟨code, hfinish, hcolored⟩ := unused_taken ht hunused h127 rest
      obtain ⟨hdecode, -⟩ := hreads.decode_whole (fun t ht => (hts t (List.mem_cons_of_mem _ ht)).1) rfl hsubs
      refine ⟨sub :: (code ++ rest), .unknown, .unknown hunused, .inr ⟨rfl, ?_⟩⟩
      rw [zrleDecode_cons_ok ts hfinish, hdecode]
      exact ⟨hcolored.append (copying_colored _ _), [], rfl⟩

theorem zrleTiles_th_pos (r : Rect) : ∀ t ∈ zrleTiles r, 0 < t.th := by
  intro t ht
  simp only [zrleTiles, List.mem_flatMap, List.mem_map, List.mem_range] at ht
  obtain ⟨j, hj, i, hi, rfl⟩ := ht
  simp only
  omega

theorem Spoils.unhandled {E : Env} {c : VncClient E} {payload : List UInt8} {stream : E.zlib.Stream} {verdict : Verdict}
    (h : Spoils (zrleTiles c.rect) payload verdict) (hc : Carries c payload stream) (picture : Nat → Nat → Rgb) :
    ¬ Handled picture c payload stream verdict := by
  intro hhandled
  rcases h with hnone | ⟨rfl, hcolored, rest, hfinish⟩
  · obtain ⟨f, hf⟩ := zrleRect_stops (c := inflated c stream) hnone
    rw [← hc.stepZrle] at hf
    cases verdict with
    | whole =>
      obtain ⟨work, hstep, -⟩ := hhandled
      rw [hf] at hstep
      cases hstep
    | cut | unknown =>
      obtain ⟨work, hstep⟩ := hhandled
      rw [hf] at hstep
      cases hstep
  · have htaken := hc.stepZrle.trans (zrleRect_ok (c := inflated c stream) hc.inside hcolored hfinish)
    obtain ⟨work, hstep⟩ := hhandled
    rw [htaken] at hstep
    cases hstep

/-! ## A client for every payload -/

/-- What comes out of a stream that holds `s` when every byte of its input stands for `payload`. -/
def expanded (payload s input : List UInt8) : List UInt8 := s ++ input.flatMap fun _ => payload

/-- zlib on such streams. -/
def Zlib.expanding (payload : List UInt8) : Zlib where
  Stream := List UInt8
  inflateInit := some []
  inflateReset _ := some []
  inflate s input n := ⟨.ok, (expanded payload s input).drop n, [], (expanded payload s input).take n⟩
  calls s input := (expanded payload s input).length
  output_le _ _ n := List.length_take_le n _
  progress s input n hn h := by
    obtain ⟨-, -, hall⟩ := h
    simp only [true_and, not_not, ne_eq, List.length_take] at hall
    simp only [expanded, List.flatMap_nil, List.append_nil, List.length_drop] at hall ⊢
    omega
  init_reset _ h := h
  reset_reset _ _ h := h

def Env.expanding (payload : List UInt8) : Env := { Env.bare with zlib := .expanding payload }

theorem inflateLoop_expanding (payload : List UInt8) (fuel : Nat) (s : (Env.expanding payload).zlib.Stream)
    (input out : List UInt8) (hfuel : (expanded payload s input).length < fuel) :
    inflateLoop fuel s input out = ⟨true, ([] : List UInt8), out ++ expanded payload s input⟩ := by
  induction fuel generalizing s input out with
  | zero => cases hfuel
  | succ fuel ih =>
    have hcall : (Env.expanding payload).zlib.inflate s input 65536 =
        ⟨.ok, (expanded payload s input).drop 65536, [], (expanded payload s input).take 65536⟩ := rfl
    generalize expanded payload s input = all at hfuel hcall
    rw [inflateLoop, hcall]
    simp only
    rw [if_neg (by decide)]
    by_cases hshort : all.length < 65536
    · rw [if_pos ⟨trivial, by rw [List.length_take]; omega⟩, List.take_of_length_le (by omega), List.drop_of_length_le (by omega)]
    · rw [if_neg (by simp only [true_and, not_not, List.length_take]; omega), if_neg (by decide)]
      have hlater := ih (all.drop 65536) [] (out ++ all.take 65536) (by
        simp only [expanded, List.flatMap_nil, List.append_nil, List.length_drop]
        omega)
      rw [expanded, List.flatMap_nil, List.append_nil, List.append_assoc, List.take_append_drop] at hlater
      exact hlater

theorem inflateAll_expanding (payload : List UInt8) (s : (Env.expanding payload).zlib.Stream) (input : List UInt8) :
    inflateAll s input = ⟨true, ([] : List UInt8), expanded payload s input⟩ :=
  inflateLoop_expanding payload _ s input [] (Nat.lt_succ_self _)

/-- A client in front of a rectangle whose data is one such byte. -/
def carrier (r : Rect) (payload : List UInt8) : VncClient (Env.expanding payload) :=
  { VncClient.new (Env.expanding payload) none [] with
    work := .black (r.x + r.w) (r.y + r.h)
    rect := r
    buf := [0, 0, 0, 1, 0] }

theorem carrier_carries {r : Rect} (hr : r.isNull = false) (payload : List UInt8) :
    Carries (carrier r payload) payload ([] : List UInt8) where
  live := rfl
  inside := by
    have hsize : ¬ (r.w = 0 ∧ r.h = 0) := of_decide_eq_false hr
    have hnull : (Rect.mk 0 0 (r.x + r.w) (r.y + r.h)).isNull = false := decide_eq_false (by simp only; omega)
    have hin : (Rect.mk 0 0 (r.x + r.w) (r.y + r.h)).contains r = true := by
      rw [Rect.contains, hr, hnull]
      exact decide_eq_true (by simp only; omega)
    exact hin
  arrived := by
    change 4 + be32 [0, 0, 0, 1, 0] 0 ≤ 5
    decide
  sized := by
    change be32 [0, 0, 0, 1, 0] 0 ≤ 64 * 2 ^ 20
    decide
  inflates := by
    have hall := inflateAll_expanding payload ([] : List UInt8) [0]
    rw [expanded, List.nil_append, List.flatMap_singleton] at hall
    have hinput : ((carrier r payload).buf.drop 4).take (be32 (carrier r payload).buf 0) = [0] := by
      change (([0, 0, 0, 1, 0] : List UInt8).drop 4).take (be32 [0, 0, 0, 1, 0] 0) = [0]
      decide
    refine ⟨([] : List UInt8), .inr ⟨rfl, rfl⟩, ?_⟩
    rw [hinput]
    exact hall

theorem Spoils.unhandled_there {r : Rect} {payload : List UInt8} {verdict : Verdict} (h : Spoils (zrleTiles r) payload verdict)
    (hr : r.isNull = false) : ¬ Handled blackout (carrier r payload) payload ([] : List UInt8) verdict := by
  have hcarries := carrier_carries hr payload
  exact h.unhandled hcarries blackout

/-! ## When payloads are handled -/

theorem not_misread {sub : UInt8} (h : misread sub = false) : inFormat sub = true ∧ sub ≠ 255 := by
  simpa [misread] using h

theorem Reads.known {picture : Nat → Nat → Rgb} {ts : List Tile} {subs d : List UInt8} {verdict : Verdict}
    (h : Reads picture ts subs d verdict) (hsubs : ∀ sub ∈ subs, inFormat sub = true) : verdict ≠ .unknown := by
  induction h with
  | whole | ended | cut => nofun
  | tile _ _ ih => exact ih fun sub hsub => hsubs sub (List.mem_cons_of_mem _ hsub)
  | @unknown t ts sub d hunused =>
    have hused := hsubs sub (List.mem_cons_self ..)
    rw [hunused] at hused
    cases hused

/-- Of the payloads of a rectangle that get to the same sub-encodings, all are handled if and only if the decoder misreads
none of these. -/
theorem zrle_handled_iff {r : Rect} {shown : Nat → Nat → Rgb} {subs sample : List UInt8} {result : Verdict}
    (hreads : Reads shown (zrleTiles r) subs sample result) :
    (∀ (E : Env) (c : VncClient E) (stream : E.zlib.Stream) (picture : Nat → Nat → Rgb) (payload : List UInt8) (verdict : Verdict),
      c.rect = r → Reads picture (zrleTiles r) subs payload verdict → Carries c payload stream →
      Handled picture c payload stream verdict) ↔
    ∀ sub ∈ subs, misread sub = false := by
  constructor
  · intro hall
    by_contra hsome
    have hbad : ∃ sub ∈ subs, misread sub = true := by
      simpa only [not_forall, exists_prop, Bool.not_eq_false] using hsome
    obtain ⟨payload, verdict, hblack, hspoils⟩ :=
      hreads.spoiled (fun t ht => ⟨zrleTiles_clipped r t ht, zrleTiles_th_pos r t ht⟩) hbad
    have hnull : r.isNull = false := by
      by_contra hnull
      obtain ⟨hw, hh⟩ : r.w = 0 ∧ r.h = 0 := of_decide_eq_true (eq_true_of_ne_false hnull)
      have hnone : zrleTiles r = [] := by simp [zrleTiles, hh]
      rw [hnone] at hreads
      cases hreads
      obtain ⟨sub, hsub, -⟩ := hbad
      cases hsub
    have hcarries := carrier_carries hnull payload
    exact hspoils.unhandled_there hnull (hall _ (carrier r payload) ([] : List UInt8) _ _ _ rfl hblack hcarries)
  · intro hsubs E c stream picture payload verdict hr hreads' hcarries
    subst hr
    exact hcarries.handled hreads' (hreads'.known fun sub hsub => (not_misread (hsubs sub hsub)).1)
      fun sub hsub => (not_misread (hsubs sub hsub)).2

theorem zrle_handled_iff_solid :
    Reads blackout (zrleTiles ⟨0, 0, 1, 1⟩) [1] [1, 0, 0, 0] .whole ∧
    ((∀ (E : Env) (c : VncClient E) (stream : E.zlib.Stream) (picture : Nat → Nat → Rgb) (payload : List UInt8) (verdict : Verdict),
      c.rect = ⟨0, 0, 1, 1⟩ → Reads picture (zrleTiles ⟨0, 0, 1, 1⟩) [1] payload verdict → Carries c payload stream →
      Handled picture c payload stream verdict) ↔
    ∀ sub ∈ ([1] : List UInt8), misread sub = false) := by
  have hreads : Reads blackout (zrleTiles ⟨0, 0, 1, 1⟩) [1] ([1, 0, 0, 0] ++ []) .whole :=
    .tile (t := ⟨0, 0, 1, 1⟩) (.solid blackRgb) .whole
  exact ⟨hreads, zrle_handled_iff hreads⟩

/-- One black pixel in a palette of 127 colours: the decoder takes the palette for its index. And a tile of sub-encoding
17, which the format does not have: the decoder takes it. -/
theorem zrle_palette_unread :
    (Reads blackout (zrleTiles ⟨0, 0, 1, 1⟩) [255] (255 :: zeros 382) .whole ∧
      Carries (carrier ⟨0, 0, 1, 1⟩ (255 :: zeros 382)) (255 :: zeros 382) ([] : List UInt8) ∧
      ¬ Handled blackout (carrier ⟨0, 0, 1, 1⟩ (255 :: zeros 382)) (255 :: zeros 382) ([] : List UInt8) .whole) ∧
    (Reads blackout (zrleTiles ⟨0, 0, 1, 1⟩) [17] (17 :: zeros 52) .unknown ∧
      Carries (carrier ⟨0, 0, 1, 1⟩ (17 :: zeros 52)) (17 :: zeros 52) ([] : List UInt8) ∧
      ¬ Handled blackout (carrier ⟨0, 0, 1, 1⟩ (17 :: zeros 52)) (17 :: zeros 52) ([] : List UInt8) .unknown) := by
  have hclipped : (Tile.mk 0 0 1 1).Clipped := ⟨by decide, by decide, by decide⟩
  have hwhole : Reads blackout (zrleTiles ⟨0, 0, 1, 1⟩) [255] (255 :: zeros 382) .whole := by
    rw [← List.append_nil (255 :: zeros 382)]
    exact .tile (t := ⟨0, 0, 1, 1⟩) (black_paletteRle 1 1 (show 2 ≤ 127 ∧ 127 ≤ 127 by decide)) .whole
  have hunread : Spoils (zrleTiles ⟨0, 0, 1, 1⟩) (255 :: zeros 382) .whole :=
    spoils_first [] .whole (unfilled_255 hclipped (by decide) (zeros 381))
  have hunused : Reads blackout (zrleTiles ⟨0, 0, 1, 1⟩) [17] (17 :: zeros 52) .unknown := .unknown (by decide)
  have htaken : Spoils (zrleTiles ⟨0, 0, 1, 1⟩) (17 :: zeros 52) .unknown := by
    obtain ⟨hfinish, hcolored⟩ := packed_taken 17 hclipped (by decide) (by decide) []
    have hdecode := zrleDecode_cons_ok [] hfinish
    refine .inr ⟨rfl, ?_, [], congrArg TileResult.finish hdecode⟩
    rw [show zrleDecode (zrleTiles ⟨0, 0, 1, 1⟩) (17 :: zeros 52) = _ from hdecode]
    exact hcolored.append colored_nil
  exact ⟨⟨hwhole, carrier_carries rfl _, hunread.unhandled_there rfl⟩, hunused, carrier_carries rfl _, htaken.unhandled_there rfl⟩

end LvdTerm.Vnc
