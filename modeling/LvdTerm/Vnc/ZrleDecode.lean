import LvdTerm.Vnc.SecurityGrammar
import LvdTerm.Vnc.ZrleCut

/-!
# VNC client: ZRLE payloads

From tiles to rectangles. A payload encodes a picture, ends early, or uses a sub-encoding the format does not
have (`Reads`). Without sub-encoding 255 the decoder draws the picture of a whole payload and finds the end of
one that is cut short.
-/
namespace LvdTerm.Vnc

open Lib Lib.Action

variable {E : Env} {c : VncClient E}

/-! ## Payloads -/

inductive Verdict where
  | whole | cut | unknown
  deriving DecidableEq

/-- A payload for the tiles of a rectangle, with the sub-encodings it gets to. It shows `picture` as far as it goes. -/
inductive Reads (picture : Nat → Nat → Rgb) : List Tile → List UInt8 → List UInt8 → Verdict → Prop where
  | whole : Reads picture [] [] [] .whole
  | tile {t : Tile} {ts : List Tile} {sub : UInt8} {code subs d : List UInt8} {verdict : Verdict}
      (shown : TileCode t.tw t.th sub (t.readingOrder.map fun p => picture p.1 p.2) code)
      (later : Reads picture ts subs d verdict) : Reads picture (t :: ts) (sub :: subs) (code ++ d) verdict
  | ended {t : Tile} {ts : List Tile} : Reads picture (t :: ts) [] [] .cut
  | cut {t : Tile} {ts : List Tile} {sub : UInt8} {cs : List Rgb} {part missing : List UInt8}
      (whole : TileCode t.tw t.th sub cs (sub :: part ++ missing)) (short : missing ≠ []) :
      Reads picture (t :: ts) [sub] (sub :: part) .cut
  | unknown {t : Tile} {ts : List Tile} {sub : UInt8} {d : List UInt8} (unused : inFormat sub = false) :
      Reads picture (t :: ts) [sub] (sub :: d) .unknown

/-- Each tile the decoder gets to has a palette of the size its sub-encoding says. -/
def PalettesRead (ts : List Tile) (payload : List UInt8) : Prop :=
  ∀ p ∈ zrleVisited ts payload, ∃ sub palette rest, tileHeader p.2 = some (sub, palette, rest) ∧
    palette.length = sub.toNat % 128

/-! ## Tiles -/

/-- The writes that show a picture at some positions. -/
def copying (picture : Nat → Nat → Rgb) (ps : List (Nat × Nat)) : List Write :=
  ps.map fun p => ⟨p.1, p.2, some (picture p.1 p.2).color⟩

theorem eq_copying {picture : Nat → Nat → Rgb} {ps : List (Nat × Nat)} {ws : List Write} (hat : ws.map Write.at = ps)
    (hcolors : ws.map Write.color = colorsOf (ps.map fun p => picture p.1 p.2)) : ws = copying picture ps := by
  subst hat
  induction ws with
  | nil => rfl
  | cons w ws ih =>
    simp only [List.map_cons, colorsOf, List.cons.injEq] at hcolors
    simp only [copying, List.map_cons, List.cons.injEq]
    refine ⟨?_, ih hcolors.2⟩
    cases w
    simpa [Write.at] using hcolors.1

theorem copying_append (picture : Nat → Nat → Rgb) (ps qs : List (Nat × Nat)) :
    copying picture (ps ++ qs) = copying picture ps ++ copying picture qs := List.map_append

theorem copying_colored (picture : Nat → Nat → Rgb) (ps : List (Nat × Nat)) :
    Colored (fun c => c.isSome = true) (copying picture ps) := by
  intro w hw
  obtain ⟨p, -, rfl⟩ := List.mem_map.mp hw
  rfl

theorem ReadAs.writes {picture : Nat → Nat → Rgb} {t : Tile} (ht : t.Clipped) {sub : UInt8} {d rest : List UInt8}
    (h : ReadAs t sub (t.readingOrder.map fun p => picture p.1 p.2) d rest) :
    (zrleTile t (d ++ rest)).writes = copying picture t.readingOrder :=
  eq_copying ((zrleTile_ordered ht _).complete rest h.finish) h.colors

/-- The writes of a tile that is cut short all have a colour. -/
theorem colored_of_cut {t : Tile} {sub : UInt8} {cs : List Rgb} {part missing : List UInt8}
    (h : ReadAs t sub cs (part ++ missing) []) : Colored (fun c => c.isSome = true) (zrleTile t part).writes := by
  obtain ⟨palette, rest, hwhole, hlen⟩ := h.palette
  cases hheader : tileHeader part with
  | none =>
    unfold zrleTile
    rw [hheader]
    exact colored_nil
  | some p =>
    obtain ⟨sub', palette', rest'⟩ := p
    have hsame := tileHeader_append hheader missing
    rw [List.append_nil, hsame, Option.some.injEq, Prod.mk.injEq, Prod.mk.injEq] at hwhole
    obtain ⟨rfl, rfl, -⟩ := hwhole
    exact zrleTile_filled hheader hlen

theorem zrleDecode_cons_ok {t : Tile} (ts : List Tile) {d rest : List UInt8} (h : (zrleTile t d).finish = .ok rest) :
    zrleDecode (t :: ts) d = ⟨(zrleTile t d).writes ++ (zrleDecode ts rest).writes, (zrleDecode ts rest).finish⟩ := by
  rw [zrleDecode, h]

theorem zrleDecode_cons_corrupt {t : Tile} {ts : List Tile} {d : List UInt8} (h : (zrleTile t d).finish = .corrupt) :
    zrleDecode (t :: ts) d = ⟨(zrleTile t d).writes, .corrupt⟩ := by
  rw [zrleDecode, h]

section Payloads

variable {picture : Nat → Nat → Rgb} {ts : List Tile} {subs d : List UInt8} {verdict : Verdict}

/-- A whole payload is used up, and shows the picture. -/
theorem Reads.decode_whole (hts : ∀ t ∈ ts, t.Clipped) (h : Reads picture ts subs d verdict) (hwhole : verdict = .whole)
    (hsubs : ∀ sub ∈ subs, sub ≠ 255) :
    zrleDecode ts d = ⟨copying picture (ts.flatMap Tile.readingOrder), .ok []⟩ ∧ PalettesRead ts d := by
  induction h with
  | whole => exact ⟨rfl, fun p hp => by cases hp⟩
  | @tile t ts sub code subs d verdict hcode _ ih =>
    have ht := hts t (List.mem_cons_self ..)
    have hread := hcode.decoded ht (hsubs sub (List.mem_cons_self ..)) d
    obtain ⟨hdecode, hpalettes⟩ := ih (fun t ht => hts t (List.mem_cons_of_mem _ ht)) hwhole
      fun sub hsub => hsubs sub (List.mem_cons_of_mem _ hsub)
    constructor
    · rw [zrleDecode_cons_ok ts hread.finish, hread.writes ht, hdecode, List.flatMap_cons, copying_append]
    · intro p hp
      rw [zrleVisited, hread.finish] at hp
      rcases List.mem_cons.mp hp with rfl | hp
      · obtain ⟨palette, rest, hheader, hlen⟩ := hread.palette
        exact ⟨sub, palette, rest, hheader, hlen⟩
      · exact hpalettes p hp
  | ended | cut | unknown => cases hwhole

/-- The end of a payload that is cut short is noticed. -/
theorem Reads.decode_cut (hts : ∀ t ∈ ts, t.Clipped) (h : Reads picture ts subs d verdict) (hcut : verdict = .cut)
    (hsubs : ∀ sub ∈ subs, sub ≠ 255) :
    (zrleDecode ts d).finish = .corrupt ∧ Colored (fun c => c.isSome = true) (zrleDecode ts d).writes := by
  induction h with
  | @tile t ts sub code subs d verdict hcode _ ih =>
    have ht := hts t (List.mem_cons_self ..)
    have hread := hcode.decoded ht (hsubs sub (List.mem_cons_self ..)) d
    obtain ⟨hfinish, hcolored⟩ := ih (fun t ht => hts t (List.mem_cons_of_mem _ ht)) hcut
      fun sub hsub => hsubs sub (List.mem_cons_of_mem _ hsub)
    rw [zrleDecode_cons_ok ts hread.finish, hread.writes ht]
    exact ⟨hfinish, (copying_colored _ _).append hcolored⟩
  | ended =>
    rw [zrleDecode_cons_corrupt rfl]
    exact ⟨rfl, colored_nil⟩
  | @cut t ts sub cs part missing hcode hmissing =>
    have ht := hts t (List.mem_cons_self ..)
    have hread := hcode.decoded ht (hsubs sub (List.mem_cons_self ..)) []
    have hwhole := hread.finish
    rw [List.append_nil] at hwhole
    rw [zrleDecode_cons_corrupt (zrleTile_cut ht hmissing hwhole)]
    exact ⟨rfl, colored_of_cut hread⟩
  | whole | unknown => cases hcut

end Payloads

/-! ## The tiles of a rectangle -/

theorem Tile.mem_readingOrder {t : Tile} {x y : Nat} :
    (x, y) ∈ t.readingOrder ↔ t.x0 ≤ x ∧ x < t.x0 + t.tw ∧ t.y0 ≤ y ∧ y < t.y0 + t.th := by
  constructor
  · intro h
    obtain ⟨i, hi, hpos⟩ := List.mem_map.mp h
    exact Tile.contains_pos (w := ⟨x, y, none⟩) hpos.symm (List.mem_range.mp hi)
  · rintro ⟨hx, hx', hy, hy'⟩
    have hw : 0 < t.tw := by omega
    have hrow : (y - t.y0) * t.tw + (x - t.x0) < t.tw * t.th := by
      calc (y - t.y0) * t.tw + (x - t.x0) < (y - t.y0) * t.tw + t.tw := by omega
        _ = (y - t.y0 + 1) * t.tw := by rw [Nat.add_mul, Nat.one_mul]
        _ ≤ t.th * t.tw := Nat.mul_le_mul_right _ (by omega)
        _ = t.tw * t.th := Nat.mul_comm _ _
    refine List.mem_map.mpr ⟨(y - t.y0) * t.tw + (x - t.x0), List.mem_range.mpr hrow, ?_⟩
    rw [Tile.pos, Nat.mul_comm (y - t.y0), Nat.mul_add_mod, Nat.mod_eq_of_lt (by omega), Nat.mul_add_div hw,
      Nat.div_eq_of_lt (by omega)]
    simp only [Prod.mk.injEq]
    omega

theorem zrleTiles_cover {r : Rect} {x y : Nat} : (x, y) ∈ (zrleTiles r).flatMap Tile.readingOrder ↔ r.Mem x y := by
  rw [List.mem_flatMap]
  constructor
  · rintro ⟨t, ht, hmem⟩
    rw [Tile.mem_readingOrder] at hmem
    have hin := zrleTiles_inside r t ht
    have hfrom := zrleTiles_from r t ht
    unfold Rect.Mem
    omega
  · rintro ⟨hx, hx', hy, hy'⟩
    refine ⟨⟨r.x + 64 * ((x - r.x) / 64), r.y + 64 * ((y - r.y) / 64), min 64 (r.w - 64 * ((x - r.x) / 64)),
      min 64 (r.h - 64 * ((y - r.y) / 64))⟩, ?_, ?_⟩
    · refine List.mem_flatMap.mpr ⟨(y - r.y) / 64, List.mem_range.mpr (by omega), ?_⟩
      exact List.mem_map.mpr ⟨(x - r.x) / 64, List.mem_range.mpr (by omega), rfl⟩
    · rw [Tile.mem_readingOrder]
      simp only
      omega

/-! ## Drawing -/

/-- An image with writes made to it. -/
def paint (i : Image) (ws : List Write) : Image := ws.foldl (fun i w => i.set w.x w.y (w.color.getD 0)) i

theorem paint_size (i : Image) (ws : List Write) : (paint i ws).width = i.width ∧ (paint i ws).height = i.height := by
  induction ws generalizing i with
  | nil => exact ⟨rfl, rfl⟩
  | cons w ws ih => exact ih _

theorem paint_copying (picture : Nat → Nat → Rgb) (i : Image) (ps : List (Nat × Nat)) (x y : Nat) :
    (paint i (copying picture ps)).pixel x y = if (x, y) ∈ ps then (picture x y).color else i.pixel x y := by
  induction ps generalizing i with
  | nil => rfl
  | cons p ps ih =>
    refine (ih _).trans ?_
    by_cases hlater : (x, y) ∈ ps
    · rw [if_pos hlater, if_pos (List.mem_cons_of_mem _ hlater)]
    · by_cases hp : (x, y) = p
      · subst hp
        rw [if_neg hlater, if_pos (List.mem_cons_self ..)]
        simp [Image.set]
      · have hno : ¬ (x = p.1 ∧ y = p.2) := fun h => hp (Prod.ext h.1 h.2)
        rw [if_neg hlater, if_neg (by simp [hp, hlater])]
        simp [Image.set, hno]

theorem drawWrites_apply {ws : List Write} (hfilled : Colored (fun c => c.isSome = true) ws)
    (hin : ∀ w ∈ ws, w.x < c.work.width ∧ w.y < c.work.height) :
    drawWrites ws c = .ok ((), { c with work := paint c.work ws }) := by
  induction ws generalizing c with
  | nil => rfl
  | cons w ws ih =>
    obtain ⟨color, hcolor⟩ := Option.isSome_iff_exists.mp (hfilled w (List.mem_cons_self ..))
    have hdraw : drawWrite w c = .ok ((), { c with work := c.work.set w.x w.y color }) := by
      unfold drawWrite
      rw [hcolor]
      exact if_pos (hin w (List.mem_cons_self ..))
    have hlater := ih (c := { c with work := c.work.set w.x w.y color }) (fun w hw => hfilled w (List.mem_cons_of_mem _ hw))
      fun w hw => hin w (List.mem_cons_of_mem _ hw)
    refine (bind_of_ok hdraw).trans (hlater.trans ?_)
    simp [paint, hcolor]

/-- A colour that is not there stops the client. -/
theorem drawWrites_stops {ws : List Write} (h : ∃ w ∈ ws, w.color = none) : ∃ f, drawWrites ws c = .error f := by
  induction ws generalizing c with
  | nil =>
    obtain ⟨w, hw, -⟩ := h
    cases hw
  | cons w ws ih =>
    cases hdraw : drawWrite w c with
    | error f => exact ⟨f, bind_of_error hdraw⟩
    | ok r =>
      have hcolor : w.color ≠ none := by
        intro hnone
        unfold drawWrite at hdraw
        rw [hnone] at hdraw
        cases hdraw
      obtain ⟨w', hw', hnone⟩ := h
      rcases List.mem_cons.mp hw' with rfl | hw'
      · exact absurd hnone hcolor
      · obtain ⟨f, hf⟩ := ih (c := r.2) ⟨w', hw', hnone⟩
        exact ⟨f, (bind_of_ok hdraw).trans hf⟩

/-! ## On the client -/

/-- A ZRLE rectangle that has arrived, with data that inflates to `payload`. -/
structure Carries (c : VncClient E) (payload : List UInt8) (stream : E.zlib.Stream) : Prop where
  live : c.failedAlready = false
  inside : c.work.rect.contains c.rect = true
  arrived : 4 + be32 c.buf 0 ≤ c.buf.length
  sized : be32 c.buf 0 ≤ 64 * 2 ^ 20
  inflates : ∃ zs, (c.zrleStream = some ⟨some zs⟩ ∨ c.zrleStream = none ∧ E.zlib.inflateInit = some zs) ∧
    inflateAll zs ((c.buf.drop 4).take (be32 c.buf 0)) = ⟨true, stream, payload⟩

/-- The client with the data of the rectangle behind it. -/
def inflated (c : VncClient E) (stream : E.zlib.Stream) : VncClient E :=
  { c with buf := c.buf.drop (4 + be32 c.buf 0), zrleStream := some ⟨some stream⟩ }

section Client

variable {payload : List UInt8} {stream : E.zlib.Stream}

theorem Carries.stepZrle (h : Carries c payload stream) : stepZrle c = zrleRect payload (inflated c stream) := by
  obtain ⟨zs, hstate, hall⟩ := h.inflates
  have harrived := h.arrived
  have hzrle : zrleState c = .ok (some ⟨some zs⟩, { c with zrleStream := some ⟨some zs⟩ }) := by
    unfold zrleState
    rcases hstate with hsome | ⟨hnone, hinit⟩
    · have hsame : c = { c with zrleStream := some ⟨some zs⟩ } := by rw [← hsome]
      rw [bind_of_ok (gets_apply _ _), hsome]
      exact congrArg (fun c' => Except.ok (some (InflateState.mk (some zs)), c')) hsame
    · rw [bind_of_ok (gets_apply _ _), hnone]
      simp only [InflateState.reset, hinit, Option.map_some]
      rfl
  unfold Vnc.stepZrle
  rw [need_enough (by omega), bind_of_ok (u32_apply (by omega)), if_neg (by have := h.sized; omega), need_enough harrived,
    bind_of_ok hzrle]
  simp only
  rw [bind_of_ok (bytes_apply (by exact harrived))]
  simp only [hall]
  rw [bind_of_ok (modify_apply _ _), if_neg (by decide), bind_of_ok (consume_apply (by exact harrived))]
  rfl

/-- The client with what the tile loops draw. -/
def drawn (c : VncClient E) (payload : List UInt8) : VncClient E :=
  { c with work := paint c.work (zrleDecode (zrleTiles c.rect) payload).writes }

theorem drawWrites_decoded (hinside : c.work.rect.contains c.rect = true)
    (hfilled : Colored (fun c => c.isSome = true) (zrleDecode (zrleTiles c.rect) payload).writes) :
    drawWrites (zrleDecode (zrleTiles c.rect) payload).writes c = .ok ((), drawn c payload) := by
  refine drawWrites_apply hfilled fun w hw => ?_
  obtain ⟨-, hx, -, hy⟩ := zrleDecode_mem w hw
  have hle := Image.le_of_rect_contains hinside
  omega

theorem zrleRect_ok (hinside : c.work.rect.contains c.rect = true)
    (hfilled : Colored (fun c => c.isSome = true) (zrleDecode (zrleTiles c.rect) payload).writes) {rest : List UInt8}
    (hfinish : (zrleDecode (zrleTiles c.rect) payload).finish = .ok rest) :
    zrleRect payload c = .ok (true, { drawn c payload with dirty := c.dirty.united c.rect }) := by
  unfold zrleRect
  rw [bind_of_ok (gets_apply _ _), bind_of_ok (drawWrites_decoded hinside hfilled), hfinish]
  rfl

theorem zrleRect_corrupt (hlive : c.failedAlready = false) (hinside : c.work.rect.contains c.rect = true)
    (hfilled : Colored (fun c => c.isSome = true) (zrleDecode (zrleTiles c.rect) payload).writes)
    (hfinish : (zrleDecode (zrleTiles c.rect) payload).finish = .corrupt) :
    zrleRect payload c = .ok (false, (drawn c payload).failed "The server sent a corrupt ZRLE rectangle") := by
  unfold zrleRect
  rw [bind_of_ok (gets_apply _ _), bind_of_ok (drawWrites_decoded hinside hfilled), hfinish]
  exact failStep_apply hlive

theorem zrleRect_stops (h : ∃ w ∈ (zrleDecode (zrleTiles c.rect) payload).writes, w.color = none) :
    ∃ f, zrleRect payload c = .error f := by
  obtain ⟨f, hf⟩ := drawWrites_stops (c := c) h
  exact ⟨f, (bind_of_ok (gets_apply _ _)).trans (bind_of_error hf)⟩

/-! ## What the decoder owes -/

/-- A payload is handled: a whole one shows its picture in the rectangle and nothing else, with every palette read and
no byte left; any other is a failure. -/
def Handled (picture : Nat → Nat → Rgb) (c : VncClient E) (payload : List UInt8) (stream : E.zlib.Stream) (verdict : Verdict) : Prop :=
  match verdict with
  | .whole => ∃ work : Image,
      stepZrle c = .ok (true, { inflated c stream with work := work, dirty := c.dirty.united c.rect }) ∧
      work.width = c.work.width ∧ work.height = c.work.height ∧
      (∀ x y, work.pixel x y = if c.rect.Mem x y then (picture x y).color else c.work.pixel x y) ∧
      PalettesRead (zrleTiles c.rect) payload ∧ (zrleDecode (zrleTiles c.rect) payload).finish = .ok []
  | .cut | .unknown => ∃ work : Image,
      stepZrle c = .ok (false, VncClient.failed "The server sent a corrupt ZRLE rectangle" { inflated c stream with work := work })

/-- Without sub-encoding 255, whole payloads and those that end early are handled. -/
theorem Carries.handled (h : Carries c payload stream) {picture : Nat → Nat → Rgb} {subs : List UInt8} {verdict : Verdict}
    (hreads : Reads picture (zrleTiles c.rect) subs payload verdict) (hknown : verdict ≠ .unknown)
    (hsubs : ∀ sub ∈ subs, sub ≠ 255) : Handled picture c payload stream verdict := by
  have hclipped := zrleTiles_clipped c.rect
  cases verdict with
  | whole =>
    obtain ⟨hdecode, hpalettes⟩ := hreads.decode_whole hclipped rfl hsubs
    have hfilled : Colored (fun c => c.isSome = true) (zrleDecode (zrleTiles c.rect) payload).writes := by
      rw [hdecode]
      exact copying_colored _ _
    have hfinish : (zrleDecode (zrleTiles c.rect) payload).finish = .ok [] := by rw [hdecode]
    have hsize := paint_size c.work (zrleDecode (zrleTiles c.rect) payload).writes
    refine ⟨_, h.stepZrle.trans (zrleRect_ok (c := inflated c stream) h.inside hfilled hfinish), hsize.1, hsize.2, ?_,
      hpalettes, hfinish⟩
    intro x y
    have hpixel := paint_copying picture c.work ((zrleTiles c.rect).flatMap Tile.readingOrder) x y
    simp only [zrleTiles_cover] at hpixel
    refine Eq.trans ?_ hpixel
    simp only [drawn, inflated, hdecode]
  | cut =>
    obtain ⟨hfinish, hfilled⟩ := hreads.decode_cut hclipped rfl hsubs
    exact ⟨_, h.stepZrle.trans (zrleRect_corrupt (c := inflated c stream) h.live h.inside hfilled hfinish)⟩
  | unknown => exact absurd rfl hknown

end Client

end LvdTerm.Vnc
