import EngineBridge.Proofs.Drawing.Painting
import EngineBridge.Proofs.Drawing.Size
import Mathlib.Tactic.Ring

/-! Drawing without smoothing, over exact numbers. The pixels whose centres an image covers are
replaced, each by the pixel of the image that its centre is in. -/
namespace EngineBridge

namespace Scalar

theorem centresBefore_eq (x : Rat) (limit : Nat) :
    centresBefore x limit =
      if x - 1 / 2 ≤ 0 then 0
      else if limit ≤ x - 1 / 2 then limit
      else if ((x - 1 / 2).floor.toNat : Rat) < x - 1 / 2 then (x - 1 / 2).floor.toNat + 1
      else (x - 1 / 2).floor.toNat := rfl

theorem toNat_floor_bounds {e : Rat} (he : 0 ≤ e) :
    (e.floor.toNat : Rat) ≤ e ∧ e < e.floor.toNat + 1 := by
  have hfloor : 0 ≤ e.floor := Rat.le_floor_iff.mpr he
  have hcast : (e.floor.toNat : Rat) = e.floor := by
    rw [← Rat.intCast_natCast, Int.toNat_of_nonneg hfloor]
  have habove := Rat.lt_floor_add_one e
  rw [Rat.intCast_add] at habove
  rw [hcast]
  exact ⟨Rat.floor_le e, habove⟩

theorem lt_roundedUp_iff {e : Rat} (he : 0 ≤ e) (p : Nat) :
    (p < if (e.floor.toNat : Rat) < e then e.floor.toNat + 1 else e.floor.toNat) ↔
      (p : Rat) < e := by
  obtain ⟨hlow, hhigh⟩ := toNat_floor_bounds he
  generalize e.floor.toNat = whole at hlow hhigh ⊢
  split
  · rename_i hfraction
    rw [Nat.lt_succ_iff]
    constructor
    · intro h
      have hle : (p : Rat) ≤ whole := by exact_mod_cast h
      linarith
    · intro h
      have hlt : (p : Rat) < (whole + 1 : Nat) := by
        push_cast
        linarith
      exact Nat.lt_succ_iff.mp (by exact_mod_cast hlt)
  · rename_i hwhole
    have heq : e = whole := le_antisymm (not_lt.mp hwhole) hlow
    rw [heq]
    exact Nat.cast_lt.symm

theorem lt_centresBefore_iff {x : Rat} {limit p : Nat} :
    p < centresBefore x limit ↔ p < limit ∧ (p : Rat) + 1 / 2 < x := by
  have hp : (0 : Rat) ≤ p := Rat.natCast_nonneg
  rw [← lt_sub_iff_add_lt, centresBefore_eq]
  split
  · rename_i hnone
    exact iff_of_false (Nat.not_lt_zero p) fun h => absurd h.2 (not_lt.mpr (hnone.trans hp))
  split
  · rename_i hall
    have hbelow (h : p < limit) : (p : Rat) < x - 1 / 2 := by
      have hlt : (p : Rat) < limit := by exact_mod_cast h
      exact hlt.trans_le hall
    exact ⟨fun h => ⟨h, hbelow h⟩, And.left⟩
  · rename_i hsome hbelow
    have hlimit (h : (p : Rat) < x - 1 / 2) : p < limit := by
      exact_mod_cast h.trans (not_le.mp hbelow)
    rw [lt_roundedUp_iff (not_le.mp hsome).le]
    exact ⟨fun h => ⟨hlimit h, h⟩, And.right⟩

/-- A centre on the near edge is covered, one on the far edge is not. -/
theorem mem_covered_iff {start stop : Rat} {limit p : Nat} :
    ((covered start stop limit).1 ≤ p ∧ p < min (covered start stop limit).2 limit) ↔
      p < limit ∧ start ≤ p + 1 / 2 ∧ (p : Rat) + 1 / 2 < stop := by
  have hfirst : (covered start stop limit).1 = centresBefore start limit := rfl
  have hlast : (covered start stop limit).2 = centresBefore stop limit :=
    if_pos (decide_eq_true (le_refl stop))
  rw [hfirst, hlast, Nat.lt_min, lt_centresBefore_iff, ← not_lt (a := p), lt_centresBefore_iff]
  constructor
  · rintro ⟨hstart, ⟨-, hstop⟩, hlimit⟩
    exact ⟨hlimit, not_lt.mp fun h => hstart ⟨hlimit, h⟩, hstop⟩
  · rintro ⟨hlimit, hstart, hstop⟩
    exact ⟨fun h => absurd h.2 (not_lt.mpr hstart), ⟨hlimit, hstop⟩, hlimit⟩

end Scalar

/-- Whether the centre of a pixel is among so many pixels of an image, which begin at `start` and
are `scale` wide. -/
def CentreWithin (start scale : Rat) (count p : Nat) : Prop :=
  start ≤ p + 1 / 2 ∧ (p : Rat) + 1 / 2 < start + scale * count

/-- The pixel of an image that the centre of a pixel is in, along one axis. -/
def sourceIndex (start scale : Rat) (p : Nat) : Int :=
  (((p : Rat) + 1 / 2 - start) / scale).floor

section Axis

variable {start scale : Rat} {count p : Nat} (hscale : 0 < scale)

include hscale

theorem sourceIndex_bounds (h : CentreWithin start scale count p) :
    0 ≤ sourceIndex start scale p ∧ sourceIndex start scale p < count := by
  obtain ⟨hstart, hstop⟩ := h
  constructor
  · apply Rat.le_floor_iff.mpr
    exact div_nonneg (by linarith) hscale.le
  · apply Rat.floor_lt_iff.mpr
    rw [Rat.intCast_natCast, Rat.div_lt_iff hscale]
    linarith

theorem nearest_source (h : CentreWithin start scale count p) :
    Bitmap.nearest (Canvas.source p start scale) count = (sourceIndex start scale p).toNat := by
  have hbounds := sourceIndex_bounds hscale h
  change min (sourceIndex start scale p).toNat (count - 1) = _
  omega

end Axis

theorem sourceIndex_zero {k : Nat} (hk : 0 < k) (p : Nat) : sourceIndex 0 k p = (p / k : Nat) := by
  have hk' : (0 : Rat) < k := by exact_mod_cast hk
  have hlow : ((p / k : Nat) : Rat) * k ≤ p := by exact_mod_cast Nat.div_mul_le_self p k
  have hhigh : (p : Rat) + 1 ≤ ((p / k : Nat) + 1) * k := by
    exact_mod_cast Nat.lt_mul_of_div_lt (Nat.lt_succ_self (p / k)) hk
  apply Scalar.floor_eq_of_bounds
  · rw [Rat.intCast_natCast, le_div_iff₀ hk']
    linarith
  · rw [Rat.intCast_natCast, Rat.div_lt_iff hk']
    linarith

theorem centreWithin_zero {k count p : Nat} (h : p < k * count) : CentreWithin 0 k count p := by
  have hp : (0 : Rat) ≤ p := Rat.natCast_nonneg
  have hlt : (p : Rat) + 1 ≤ k * count := by exact_mod_cast h
  constructor
  · linarith
  · linarith

namespace Canvas

variable {b : Bitmap}

theorem isEmpty_bytes_of_pos (hw : 0 < b.width.toNat) (hh : 0 < b.height.toNat) :
    b.bytes.isEmpty = false := by
  have hpos := Nat.mul_pos hw hh
  rw [ByteArray.isEmpty, beq_eq_false_iff_ne, b.size_bytes]
  omega

theorem area_ne_zero {size : PhysicalSize} {px py : Nat} (hx : px < size.width.toNat)
    (hy : py < size.height.toNat) : size.area ≠ 0 :=
  Nat.ne_of_gt (Nat.mul_pos (Nat.zero_lt_of_lt hx) (Nat.zero_lt_of_lt hy))

section Exact

variable {size : PhysicalSize} {context : DrawContext Rat} {x y : Rat} {px py : Nat}
  (hsx : 0 < context.transform.scaleX) (hsy : 0 < context.transform.scaleY)
  (hw : 0 < b.width.toNat) (hh : 0 < b.height.toNat)

include hsx hsy hw hh

theorem contains_written_iff (hx : px < size.width.toNat) (hy : py < size.height.toNat) :
    (written size context b x y).Contains px py ↔
      let t := context.transform
      CentreWithin (t.apply x y).1 t.scaleX b.width.toNat px ∧
        CentreWithin (t.apply x y).2 t.scaleY b.height.toNat py := by
  obtain ⟨⟨sx, sy, tx, ty⟩, smoothing⟩ := context
  have hsx' : ¬sx ≤ Scalar.ofNat 0 := not_le.mpr hsx
  have hsy' : ¬sy ≤ Scalar.ofNat 0 := not_le.mpr hsy
  have hright : sx * (x + b.width.toNat) + tx = sx * x + tx + sx * b.width.toNat := by ring
  have hbottom : sy * (y + b.height.toNat) + ty = sy * y + ty + sy * b.height.toNat := by ring
  unfold written
  rw [isEmpty_bytes_of_pos hw hh]
  simp only [area_ne_zero hx hy, hsx', hsy', decide_false, Bool.or_false, Bool.false_eq_true,
    if_false]
  unfold Region.Contains CentreWithin
  change (_ ≤ px ∧ px < min (Scalar.covered (sx * x + tx) (sx * (x + b.width.toNat) + tx)
      size.width.toNat).2 size.width.toNat) ∧
    (_ ≤ py ∧ py < min (Scalar.covered (sy * y + ty) (sy * (y + b.height.toNat) + ty)
      size.height.toNat).2 size.height.toNat) ↔ _
  rw [hright, hbottom]
  exact and_congr (Scalar.mem_covered_iff.trans (and_iff_right hx))
    (Scalar.mem_covered_iff.trans (and_iff_right hy))

end Exact

theorem not_centreWithin_of_count {start scale : Rat} {p : Nat} :
    ¬CentreWithin start scale 0 p := by
  rintro ⟨hstart, hstop⟩
  rw [Nat.cast_zero, mul_zero, add_zero] at hstop
  exact absurd hstop (not_lt.mpr hstart)

theorem pos_of_contains_written {size : PhysicalSize} {context : DrawContext Rat} {x y : Rat}
    {px py : Nat} (h : (written size context b x y).Contains px py) :
    0 < b.width.toNat ∧ 0 < b.height.toNat := by
  apply Bitmap.pos_of_not_isEmpty
  cases hempty : b.bytes.isEmpty with
  | false => rfl
  | true =>
    have hnone : written size context b x y = .empty := by
      unfold written
      rw [hempty]
      rfl
    rw [hnone] at h
    exact absurd h (Region.not_contains_empty px py)

theorem contains_written_iff_centres {size : PhysicalSize} {context : DrawContext Rat} {x y : Rat}
    {px py : Nat} (hsx : 0 < context.transform.scaleX) (hsy : 0 < context.transform.scaleY)
    (hx : px < size.width.toNat) (hy : py < size.height.toNat) :
    (written size context b x y).Contains px py ↔
      CentreWithin (context.transform.apply x y).1 context.transform.scaleX b.width.toNat px ∧
        CentreWithin (context.transform.apply x y).2 context.transform.scaleY b.height.toNat py := by
  constructor
  · intro h
    obtain ⟨hw, hh⟩ := pos_of_contains_written h
    exact (contains_written_iff hsx hsy hw hh hx hy).mp h
  · intro h
    have hw : 0 < b.width.toNat := Nat.pos_of_ne_zero fun hzero =>
      not_centreWithin_of_count (hzero ▸ h.1)
    have hh : 0 < b.height.toNat := Nat.pos_of_ne_zero fun hzero =>
      not_centreWithin_of_count (hzero ▸ h.2)
    exact (contains_written_iff hsx hsy hw hh hx hy).mpr h

theorem ink_of_centreWithin {context : DrawContext Rat} {x y : Rat} {px py : Nat}
    (hsharp : context.smoothing = false) (hsx : 0 < context.transform.scaleX)
    (hsy : 0 < context.transform.scaleY)
    (hx : CentreWithin (context.transform.apply x y).1 context.transform.scaleX b.width.toNat px)
    (hy : CentreWithin (context.transform.apply x y).2 context.transform.scaleY b.height.toNat py) :
    some (ink context b x y py px) =
      b.pixel? (sourceIndex (context.transform.apply x y).1 context.transform.scaleX px).toNat
        (sourceIndex (context.transform.apply x y).2 context.transform.scaleY py).toNat := by
  have hi := sourceIndex_bounds hsx hx
  have hj := sourceIndex_bounds hsy hy
  have hink : ink context b x y py px =
      b.sampleNearest (source px (context.transform.apply x y).1 context.transform.scaleX)
        (source py (context.transform.apply x y).2 context.transform.scaleY) := by
    unfold ink shown
    rw [hsharp]
    rfl
  rw [hink, Bitmap.sampleNearest, nearest_source hsx hx, nearest_source hsy hy, Bitmap.pixel,
    Bitmap.pixel?, if_pos (by omega), Option.getD_some]

/-- Without smoothing, at positive scales, a pixel of the surface is replaced if and only if its
centre is on the image. It becomes the pixel of the image that the centre is in, found without
moving it to the nearest edge. All other pixels stay as they are. At the origin and a whole scale
`k` that makes blocks of `k` by `k` pixels. -/
theorem draw_nearest_exact (c : Canvas Rat) (x y : Rat) (hsharp : c.context.smoothing = false)
    (hsx : 0 < c.context.transform.scaleX) (hsy : 0 < c.context.transform.scaleY)
    (hw : 0 < b.width.toNat) (hh : 0 < b.height.toNat) :
    let t := c.context.transform
    let x0 := (t.apply x y).1
    let y0 := (t.apply x y).2
    (∀ px py, px < c.size.width.toNat → py < c.size.height.toNat →
      let isCovered := (x0 ≤ px + 1 / 2 ∧ (px : Rat) + 1 / 2 < x0 + t.scaleX * b.width.toNat) ∧
        (y0 ≤ py + 1 / 2 ∧ (py : Rat) + 1 / 2 < y0 + t.scaleY * b.height.toNat)
      let i := (((px : Rat) + 1 / 2 - x0) / t.scaleX).floor
      let j := (((py : Rat) + 1 / 2 - y0) / t.scaleY).floor
      ((written c.size c.context b x y).Contains px py ↔ isCovered) ∧
      (isCovered → (0 ≤ i ∧ i < b.width.toNat) ∧ (0 ≤ j ∧ j < b.height.toNat) ∧
        (c.draw b x y).surface.pixel? px py = b.pixel? i.toNat j.toNat) ∧
      (¬isCovered → (c.draw b x y).surface.pixel? px py = c.surface.pixel? px py)) ∧
    ∀ k : Nat, t = ⟨k, k, 0, 0⟩ → x = 0 → y = 0 →
      ∀ px py, px < c.size.width.toNat → py < c.size.height.toNat →
        px < k * b.width.toNat → py < k * b.height.toNat →
          (c.draw b x y).surface.pixel? px py = b.pixel? (px / k) (py / k) := by
  intro t x0 y0
  have hdrawn (px py : Nat) (hx : px < c.size.width.toNat) (hy : py < c.size.height.toNat)
      (hcovered : CentreWithin x0 t.scaleX b.width.toNat px ∧
        CentreWithin y0 t.scaleY b.height.toNat py) :
      (c.draw b x y).surface.pixel? px py =
        b.pixel? (sourceIndex x0 t.scaleX px).toNat (sourceIndex y0 t.scaleY py).toNat := by
    rw [pixel?_draw, if_pos ((contains_written_iff hsx hsy hw hh hx hy).mpr hcovered),
      ink_of_centreWithin hsharp hsx hsy hcovered.1 hcovered.2]
  constructor
  · intro px py hx hy
    have hwritten : (written c.size c.context b x y).Contains px py ↔ _ :=
      contains_written_iff hsx hsy hw hh hx hy
    refine ⟨hwritten, fun hcovered => ?_, fun hnot => ?_⟩
    · exact ⟨sourceIndex_bounds hsx hcovered.1, sourceIndex_bounds hsy hcovered.2,
        hdrawn px py hx hy hcovered⟩
    · rw [pixel?_draw, if_neg fun h => hnot (hwritten.mp h)]
  · intro k ht hx0 hy0 px py hx hy hpx hpy
    have hk : 0 < k := by
      have hscale : (0 : Rat) < t.scaleX := hsx
      rw [ht] at hscale
      exact Rat.natCast_pos.mp hscale
    have horigin : x0 = 0 ∧ y0 = 0 := by
      simp [x0, y0, ht, hx0, hy0, Transform.apply]
    have hblock := hdrawn px py hx hy
    rw [horigin.1, horigin.2, ht] at hblock
    rw [hblock ⟨centreWithin_zero hpx, centreWithin_zero hpy⟩, sourceIndex_zero hk,
      sourceIndex_zero hk, Int.toNat_natCast, Int.toNat_natCast]

/-- Red and blue side by side, half again as wide and a little too far left. The pixel over the seam
has its centre in the blue one, and the last pixel of the surface is beyond both. -/
theorem draw_nearest_exact_seam :
    let c : Canvas Rat := ⟨.solid 4 2 .clear, {}, ⟨⟨3 / 2, 2, -1 / 4, 0⟩, false⟩⟩
    let b : Bitmap := ⟨2, 1, ⟨#[255, 0, 0, 255, 0, 0, 255, 255]⟩, rfl⟩
    (c.context.smoothing = false ∧ 0 < c.context.transform.scaleX ∧
      0 < c.context.transform.scaleY ∧ 0 < b.width.toNat ∧ 0 < b.height.toNat) ∧
      (c.draw b 0 0).surface.pixel? 1 0 = some ⟨0, 0, 255, 255⟩ ∧
      (c.draw b 0 0).surface.pixel? 3 0 = some .clear := by
  intro c b
  have hsx : 0 < c.context.transform.scaleX := by decide +kernel
  have hsy : 0 < c.context.transform.scaleY := by decide +kernel
  have hw : 0 < b.width.toNat := by decide
  have hh : 0 < b.height.toNat := by decide
  obtain ⟨hpixels, -⟩ := draw_nearest_exact c 0 0 rfl hsx hsy hw hh
  refine ⟨⟨rfl, hsx, hsy, hw, hh⟩, ?_, ?_⟩
  · obtain ⟨-, hcovered, -⟩ := hpixels 1 0 (by decide) (by decide)
    rw [(hcovered (by decide +kernel)).2.2]
    decide +kernel
  · obtain ⟨-, -, hkept⟩ := hpixels 3 0 (by decide) (by decide)
    rw [hkept (by decide +kernel)]
    decide +kernel

end Canvas

end EngineBridge
