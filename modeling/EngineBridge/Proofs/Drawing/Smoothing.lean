import EngineBridge.Proofs.Drawing.Nearest

/-! Drawing with smoothing, over exact numbers. A blend stays between the pixels it is made of, and
nothing is blended where the pixels of an image fall on those of the surface. -/
namespace EngineBridge

namespace Scalar

theorem clamp_eq (x : Rat) (high : Nat) : clamp x (ofNat high) = min (max 0 x) high := by
  have hclamp : clamp x (ofNat high) =
      if (high : Rat) < (if x < 0 then 0 else x) then (high : Rat) else if x < 0 then 0 else x := rfl
  have hmax : (if x < 0 then 0 else x) = max 0 x := by
    split
    · rename_i h
      exact (max_eq_left h.le).symm
    · rename_i h
      exact (max_eq_right (not_lt.mp h)).symm
  rw [hclamp, hmax]
  split
  · rename_i h
    exact (min_eq_right h.le).symm
  · rename_i h
    exact (min_eq_left (not_lt.mp h)).symm

theorem floor_add_half {x : Rat} {n : Nat} (hlow : (n : Rat) ≤ x + 1 / 2)
    (hhigh : x < n + 1 / 2) : (x + 1 / 2).floor = n := by
  apply floor_eq_of_bounds
  · rw [Rat.intCast_natCast]
    exact hlow
  · rw [Rat.intCast_natCast]
    linarith

theorem toNat_toByte {x : Rat} (hlow : 0 ≤ x) (hhigh : x ≤ 255) :
    ((toByte x).toNat : Int) = (x + 1 / 2).floor := by
  obtain ⟨hwhole, hnext⟩ := toNat_floor_bounds hlow
  have hbyte : toByte x =
      if 255 ≤ x.floor.toNat then 255
      else if 1 / 2 ≤ x - x.floor.toNat then .ofNat (x.floor.toNat + 1)
      else .ofNat x.floor.toNat := rfl
  rw [hbyte]
  generalize x.floor.toNat = whole at hwhole hnext ⊢
  have hfits {n : Nat} (hn : n < 256) : (UInt8.ofNat n).toNat = n := UInt8.toNat_ofNat_of_lt' hn
  symm
  split
  · rename_i hfull
    have hwhole' : (255 : Rat) ≤ whole := by exact_mod_cast hfull
    have htop : ((255 : Nat) : Rat) = 255 := rfl
    exact floor_add_half (n := 255) (by linarith) (by linarith)
  split
  · rename_i hfull hhalf
    have hsucc : ((whole + 1 : Nat) : Rat) = whole + 1 := Nat.cast_succ whole
    rw [hfits (by omega)]
    exact floor_add_half (by linarith) (by linarith)
  · rename_i hfull hhalf
    rw [hfits (by omega)]
    exact floor_add_half (by linarith) (by linarith)

end Scalar

def Pixel.channels : List (Pixel → UInt8) := [red, green, blue, alpha]

theorem Pixel.eq_of_channels {p q : Pixel} (h : ∀ channel ∈ channels, channel p = channel q) :
    p = q := by
  obtain ⟨red, green, blue, alpha⟩ := p
  simp only [channels, List.forall_mem_cons] at h
  obtain ⟨rfl, rfl, rfl, rfl, -⟩ := h
  rfl

namespace Bitmap

theorem mix_eq (p q share : Rat) : mix p q share = p * (1 - share) + q * share := rfl

theorem mix_bounds {low high p q share : Rat} (hshare : 0 ≤ share ∧ share ≤ 1)
    (hp : low ≤ p ∧ p ≤ high) (hq : low ≤ q ∧ q ≤ high) :
    low ≤ mix p q share ∧ mix p q share ≤ high := by
  have hrest : 0 ≤ 1 - share := sub_nonneg.mpr hshare.2
  have hweigh (a : Rat) : a * (1 - share) + a * share = a := by ring
  rw [mix_eq]
  constructor
  · calc low = low * (1 - share) + low * share := (hweigh low).symm
      _ ≤ p * (1 - share) + q * share :=
        add_le_add (mul_le_mul_of_nonneg_right hp.1 hrest)
          (mul_le_mul_of_nonneg_right hq.1 hshare.1)
  · calc p * (1 - share) + q * share ≤ high * (1 - share) + high * share :=
        add_le_add (mul_le_mul_of_nonneg_right hp.2 hrest)
          (mul_le_mul_of_nonneg_right hq.2 hshare.1)
      _ = high := hweigh high

/-- Whether a byte is what four others come to, each in its proportion. It is the nearest byte to
their mean, which is not outside the range of the four. -/
structure IsBlend (tx ty : Rat) (p q r s blended : UInt8) : Prop where
  least_le : min (min p.toNat q.toNat) (min r.toNat s.toNat) ≤ blended.toNat
  le_greatest : blended.toNat ≤ max (max p.toNat q.toNat) (max r.toNat s.toNat)
  nearest : (blended.toNat : Int) =
    ((p.toNat * (1 - tx) + q.toNat * tx) * (1 - ty) +
      (r.toNat * (1 - tx) + s.toNat * tx) * ty + 1 / 2 : Rat).floor

theorem isBlend_blend {tx ty : Rat} (htx : 0 ≤ tx ∧ tx ≤ 1) (hty : 0 ≤ ty ∧ ty ≤ 1)
    (p q r s : UInt8) : IsBlend tx ty p q r s (blend tx ty p q r s) := by
  have hbounds (c : UInt8) (low high : Nat) (hc : low ≤ c.toNat ∧ c.toNat ≤ high) :
      (low : Rat) ≤ c.toNat ∧ (c.toNat : Rat) ≤ high := by exact_mod_cast hc
  have hmean (low high : Nat) (hp : low ≤ p.toNat ∧ p.toNat ≤ high)
      (hq : low ≤ q.toNat ∧ q.toNat ≤ high) (hr : low ≤ r.toNat ∧ r.toNat ≤ high)
      (hs : low ≤ s.toNat ∧ s.toNat ≤ high) :=
    mix_bounds hty
      (mix_bounds htx (hbounds p low high hp) (hbounds q low high hq))
      (mix_bounds htx (hbounds r low high hr) (hbounds s low high hs))
  have hblend : blend tx ty p q r s = Scalar.toByte
      (mix (mix (p.toNat : Rat) q.toNat tx) (mix (r.toNat : Rat) s.toNat tx) ty) := rfl
  have hbyte (c : UInt8) : 0 ≤ c.toNat ∧ c.toNat ≤ 255 :=
    ⟨Nat.zero_le _, Nat.le_of_lt_succ c.toNat_lt⟩
  obtain ⟨hzero, hfull⟩ := hmean 0 255 (hbyte p) (hbyte q) (hbyte r) (hbyte s)
  have hnearest := Scalar.toNat_toByte hzero hfull
  obtain ⟨hleast, hgreatest⟩ := hmean (min (min p.toNat q.toNat) (min r.toNat s.toNat))
    (max (max p.toNat q.toNat) (max r.toNat s.toNat)) (by omega) (by omega) (by omega) (by omega)
  rw [← hblend] at hnearest
  refine ⟨?_, ?_, hnearest⟩
  · have hle : ((min (min p.toNat q.toNat) (min r.toNat s.toNat) : Nat) : Int) ≤
        (blend tx ty p q r s).toNat := by
      rw [hnearest]
      apply Rat.le_floor_iff.mpr
      rw [Rat.intCast_natCast]
      linarith
    exact_mod_cast hle
  · have hlt : ((blend tx ty p q r s).toNat : Int) <
        (max (max p.toNat q.toNat) (max r.toNat s.toNat) : Nat) + 1 := by
      rw [hnearest]
      apply Rat.floor_lt_iff.mpr
      rw [Rat.intCast_add, Rat.intCast_natCast, Rat.intCast_one]
      linarith
    omega

theorem blend_zero (p q r s : UInt8) : blend (0 : Rat) 0 p q r s = p := by
  have hrange : (0 : Rat) ≤ 0 ∧ (0 : Rat) ≤ 1 := ⟨le_rfl, zero_le_one⟩
  have h := (isBlend_blend hrange hrange p q r s).nearest
  have hp : ((p.toNat * (1 - 0) + q.toNat * 0) * (1 - 0) + (r.toNat * (1 - 0) + s.toNat * 0) * 0 +
      1 / 2 : Rat).floor = p.toNat :=
    Scalar.floor_add_half (by linarith) (by linarith)
  rw [hp] at h
  exact UInt8.toNat_inj.mp (by exact_mod_cast h)

/-- Whether `s` tells between which pixels of a row of `count` the point `u` lies, and how far it is
from the centre of the first. A point before the first centre of the row or beyond the last one is
taken to be there, and the last pixel is its own neighbour. -/
structure Between.IsAt (s : Between Rat) (u : Rat) (count : Nat) : Prop where
  first_lt : s.first < count
  second_eq : s.second = min (s.first + 1) (count - 1)
  share_nonneg : 0 ≤ s.share
  share_lt_one : s.share < 1
  place : (s.first : Rat) + s.share = min (max 0 (u - 1 / 2)) ((count - 1 : Nat) : Rat)

variable {count : Nat}

theorem isAt_between (hcount : 0 < count) (u : Rat) : (between u count).IsAt u count := by
  have hbetween : between u count =
      let f := Scalar.clamp (u - 1 / 2) (Scalar.ofNat (count - 1))
      ⟨f.floor.toNat, min (f.floor.toNat + 1) (count - 1), f - f.floor.toNat⟩ := rfl
  have hlow : 0 ≤ min (max 0 (u - 1 / 2)) ((count - 1 : Nat) : Rat) :=
    le_min (le_max_left _ _) (Nat.cast_nonneg _)
  have hhigh : min (max 0 (u - 1 / 2)) ((count - 1 : Nat) : Rat) ≤ (count - 1 : Nat) :=
    min_le_right _ _
  rw [hbetween, Scalar.clamp_eq]
  generalize hf : min (max 0 (u - 1 / 2)) ((count - 1 : Nat) : Rat) = f at hlow hhigh ⊢
  obtain ⟨hfloor, hnext⟩ := Scalar.toNat_floor_bounds hlow
  have hfirst : f.floor.toNat ≤ count - 1 := by exact_mod_cast hfloor.trans hhigh
  exact {
    first_lt := by
      change f.floor.toNat < count
      omega
    second_eq := rfl
    share_nonneg := sub_nonneg.mpr hfloor
    share_lt_one := sub_lt_iff_lt_add'.mpr hnext
    place := (add_sub_cancel _ _).trans hf.symm }

theorem Between.IsAt.second_lt {s : Between Rat} {u : Rat} (h : s.IsAt u count) :
    s.second < count := by
  have hfirst := h.first_lt
  rw [h.second_eq]
  omega

theorem between_centre {i : Nat} (hi : i < count) :
    (between ((i : Rat) + 1 / 2) count).first = i ∧
      (between ((i : Rat) + 1 / 2) count).share = 0 := by
  have h := isAt_between (Nat.zero_lt_of_lt hi) ((i : Rat) + 1 / 2)
  have hlast : (i : Rat) ≤ (count - 1 : Nat) := by exact_mod_cast Nat.le_sub_one_of_lt hi
  have hplace := h.place
  rw [add_sub_cancel_right, max_eq_right (Nat.cast_nonneg i), min_eq_left hlast] at hplace
  have hnonneg := h.share_nonneg
  have hlt := h.share_lt_one
  generalize between ((i : Rat) + 1 / 2) count = s at hplace hnonneg hlt ⊢
  have hle : s.first ≤ i := by
    have hle' : (s.first : Rat) ≤ i := by linarith
    exact_mod_cast hle'
  have hge : i < s.first + 1 := by
    have hge' : (i : Rat) < (s.first + 1 : Nat) := by
      push_cast
      linarith
    exact_mod_cast hge'
  have heq : s.first = i := by omega
  rw [heq] at hplace
  exact ⟨heq, by linarith⟩

variable {b : Bitmap}

/-- Whether a pixel is the blend of the four around a point of an image, in each of its channels. -/
def IsBlendAt (b : Bitmap) (u v : Rat) (blended : Pixel) : Prop :=
  ∃ column row : Between Rat,
    column.IsAt u b.width.toNat ∧ row.IsAt v b.height.toNat ∧
    ∃ p q r s : Pixel,
      b.pixel? column.first row.first = some p ∧ b.pixel? column.second row.first = some q ∧
      b.pixel? column.first row.second = some r ∧ b.pixel? column.second row.second = some s ∧
      ∀ channel ∈ Pixel.channels,
        IsBlend column.share row.share (channel p) (channel q) (channel r) (channel s)
          (channel blended)

theorem pixel?_eq_some_pixel {x y : Nat} (hx : x < b.width.toNat) (hy : y < b.height.toNat) :
    b.pixel? x y = some (b.pixel x y) := by
  rw [pixel, pixel?, if_pos ⟨hx, hy⟩, Option.getD_some]

theorem isBlendAt_sampleBilinear (hw : 0 < b.width.toNat) (hh : 0 < b.height.toNat) (u v : Rat) :
    b.IsBlendAt u v (b.sampleBilinear u v) := by
  have hcolumn := isAt_between hw u
  have hrow := isAt_between hh v
  refine ⟨_, _, hcolumn, hrow, _, _, _, _, pixel?_eq_some_pixel hcolumn.first_lt hrow.first_lt,
    pixel?_eq_some_pixel hcolumn.second_lt hrow.first_lt,
    pixel?_eq_some_pixel hcolumn.first_lt hrow.second_lt,
    pixel?_eq_some_pixel hcolumn.second_lt hrow.second_lt, ?_⟩
  have htx := And.intro hcolumn.share_nonneg hcolumn.share_lt_one.le
  have hty := And.intro hrow.share_nonneg hrow.share_lt_one.le
  simp only [Pixel.channels, List.forall_mem_cons]
  exact ⟨isBlend_blend htx hty _ _ _ _, isBlend_blend htx hty _ _ _ _,
    isBlend_blend htx hty _ _ _ _, isBlend_blend htx hty _ _ _ _, nofun⟩

theorem IsBlendAt.eq_of_uniform {u v : Rat} {color blended : Pixel} (h : b.IsBlendAt u v blended)
    (huniform : ∀ i j p, b.pixel? i j = some p → p = color) : blended = color := by
  obtain ⟨column, row, -, -, p, q, r, s, hp, hq, hr, hs, hblend⟩ := h
  cases huniform _ _ p hp
  cases huniform _ _ q hq
  cases huniform _ _ r hr
  cases huniform _ _ s hs
  apply Pixel.eq_of_channels
  intro channel hmem
  obtain ⟨hleast, hgreatest, -⟩ := hblend channel hmem
  rw [min_self, min_self] at hleast
  rw [max_self, max_self] at hgreatest
  exact UInt8.toNat_inj.mp (Nat.le_antisymm hgreatest hleast)

theorem nearest_centre {i : Nat} (hi : i < count) : nearest ((i : Rat) + 1 / 2) count = i := by
  have hfloor : ((i : Rat) + 1 / 2).floor = i := Scalar.floor_add_half (by linarith) (by linarith)
  change min ((i : Rat) + 1 / 2).floor.toNat (count - 1) = i
  rw [hfloor, Int.toNat_natCast]
  omega

theorem sampleNearest_centre {i j : Nat} (hi : i < b.width.toNat) (hj : j < b.height.toNat) :
    b.sampleNearest ((i : Rat) + 1 / 2) ((j : Rat) + 1 / 2) = b.pixel i j := by
  rw [sampleNearest, nearest_centre hi, nearest_centre hj]

theorem sampleBilinear_centre {i j : Nat} (hi : i < b.width.toNat) (hj : j < b.height.toNat) :
    b.sampleBilinear ((i : Rat) + 1 / 2) ((j : Rat) + 1 / 2) = b.pixel i j := by
  obtain ⟨hfirst, hshare⟩ := between_centre hi
  obtain ⟨hfirst', hshare'⟩ := between_centre hj
  unfold sampleBilinear
  dsimp only
  rw [hfirst, hshare, hfirst', hshare', Pixel.map4, blend_zero, blend_zero, blend_zero, blend_zero]

end Bitmap

theorem centreWithin_one_iff {offset : Int} {count p : Nat} :
    CentreWithin (offset : Rat) 1 count p ↔ offset ≤ p ∧ (p : Int) < offset + count := by
  unfold CentreWithin
  rw [one_mul]
  constructor
  · rintro ⟨hstart, hstop⟩
    have hlow : (offset : Rat) < ((p + 1 : Int) : Rat) := by
      push_cast
      linarith
    have hhigh : ((p : Int) : Rat) < ((offset + count : Int) : Rat) := by
      push_cast
      linarith
    have hlow' : offset < p + 1 := by exact_mod_cast hlow
    exact ⟨by omega, by exact_mod_cast hhigh⟩
  · rintro ⟨hstart, hstop⟩
    have hlow : (offset : Rat) ≤ ((p : Int) : Rat) := by exact_mod_cast hstart
    have hhigh : (((p : Int) + 1 : Int) : Rat) ≤ ((offset + count : Int) : Rat) := by
      exact_mod_cast hstop
    push_cast at hlow hhigh
    constructor
    · linarith
    · linarith

namespace Canvas

open Bitmap

def withSmoothing (c : Canvas Rat) (on : Bool) : Canvas Rat :=
  { c with context := c.context.setSmoothing on }

theorem source_one {offset : Int} {p i : Nat} (hi : (p : Int) - offset = i) :
    source p (offset : Rat) 1 = (i : Rat) + 1 / 2 := by
  have hi' : (p : Rat) - offset = i := by exact_mod_cast congrArg (Int.cast (R := Rat)) hi
  change ((p : Rat) + 1 / 2 - offset) / 1 = _
  rw [div_one]
  linarith

/-- Whether the pixels of an image fall on those of a surface, the first of them on `(ox, oy)`. -/
structure HasWholeOffset (context : DrawContext Rat) (x y : Rat) (ox oy : Int) : Prop where
  scaleX : context.transform.scaleX = 1
  scaleY : context.transform.scaleY = 1
  left : (context.transform.apply x y).1 = ox
  top : (context.transform.apply x y).2 = oy

section Copy

variable {context : DrawContext Rat} {x y : Rat} {ox oy : Int} {b : Bitmap} {px py : Nat}

theorem contains_written_iff_of_whole_offset (h : HasWholeOffset context x y ox oy)
    {size : PhysicalSize} (hpx : px < size.width.toNat) (hpy : py < size.height.toNat) :
    (written size context b x y).Contains px py ↔
      (ox ≤ px ∧ (px : Int) < ox + b.width.toNat) ∧
        (oy ≤ py ∧ (py : Int) < oy + b.height.toNat) := by
  have hsx : 0 < context.transform.scaleX := h.scaleX ▸ one_pos
  have hsy : 0 < context.transform.scaleY := h.scaleY ▸ one_pos
  rw [contains_written_iff_centres hsx hsy hpx hpy, h.scaleX, h.scaleY, h.left, h.top,
    centreWithin_one_iff, centreWithin_one_iff]

theorem ink_of_whole_offset (h : HasWholeOffset context x y ox oy)
    (hx : ox ≤ px ∧ (px : Int) < ox + b.width.toNat)
    (hy : oy ≤ py ∧ (py : Int) < oy + b.height.toNat) :
    some (ink context b x y py px) = b.pixel? (px - ox).toNat (py - oy).toNat := by
  have hi : (px - ox).toNat < b.width.toNat := by omega
  have hj : (py - oy).toNat < b.height.toNat := by omega
  have hink : ink context b x y py px =
      if context.smoothing then
        b.sampleBilinear
          (source px (context.transform.apply x y).1 context.transform.scaleX)
          (source py (context.transform.apply x y).2 context.transform.scaleY)
      else
        b.sampleNearest
          (source px (context.transform.apply x y).1 context.transform.scaleX)
          (source py (context.transform.apply x y).2 context.transform.scaleY) := rfl
  rw [hink, h.scaleX, h.scaleY, h.left, h.top, source_one (i := (px - ox).toNat) (by omega),
    source_one (i := (py - oy).toNat) (by omega), sampleBilinear_centre hi hj,
    sampleNearest_centre hi hj, ite_self, pixel?_eq_some_pixel hi hj]

theorem pixel?_draw_of_whole_offset {c : Canvas Rat} (h : HasWholeOffset c.context x y ox oy)
    (hpx : px < c.size.width.toNat) (hpy : py < c.size.height.toNat) :
    (c.draw b x y).surface.pixel? px py =
      if (ox ≤ px ∧ (px : Int) < ox + b.width.toNat) ∧
          (oy ≤ py ∧ (py : Int) < oy + b.height.toNat) then
        b.pixel? (px - ox).toNat (py - oy).toNat
      else c.surface.pixel? px py := by
  have hwritten := contains_written_iff_of_whole_offset (b := b) h hpx hpy
  rw [pixel?_draw]
  by_cases hin : (written c.size c.context b x y).Contains px py
  · obtain ⟨hx, hy⟩ := hwritten.mp hin
    rw [if_pos hin, if_pos ⟨hx, hy⟩, ink_of_whole_offset h hx hy]
  · rw [if_neg hin, if_neg (hwritten.not.mp hin)]

theorem draw_withSmoothing_of_whole_offset {c : Canvas Rat}
    (h : HasWholeOffset c.context x y ox oy) :
    (c.withSmoothing true).draw b x y =
      ((c.withSmoothing false).draw b x y).withSmoothing true := by
  have hink (on : Bool) : HasWholeOffset (c.withSmoothing on).context x y ox oy :=
    ⟨h.scaleX, h.scaleY, h.left, h.top⟩
  apply eq_of_pixel?
  · rw [size_draw]
    exact (size_draw (c.withSmoothing false) b x y).symm
  · rw [context_draw]
    change _ = ((c.withSmoothing false).draw b x y).context.setSmoothing true
    rw [context_draw]
    rfl
  · rw [styleSize_draw]
    exact (styleSize_draw (c.withSmoothing false) b x y).symm
  · intro px py
    change _ = ((c.withSmoothing false).draw b x y).surface.pixel? px py
    rw [pixel?_draw, pixel?_draw]
    change (if (written c.size c.context b x y).Contains px py then _ else c.surface.pixel? px py) =
      if (written c.size c.context b x y).Contains px py then _ else c.surface.pixel? px py
    split
    · rename_i hin
      have hwithin := written_within b x y c.size c.context
      have hpx : px < c.size.width.toNat := Nat.lt_of_lt_of_le hin.1.2 hwithin.1
      have hpy : py < c.size.height.toNat := Nat.lt_of_lt_of_le hin.2.2 hwithin.2
      obtain ⟨hx, hy⟩ := (contains_written_iff_of_whole_offset h hpx hpy).mp hin
      rw [ink_of_whole_offset (hink true) hx hy, ink_of_whole_offset (hink false) hx hy]
    · rfl

end Copy

/-- At scale 1 and a whole offset, drawing with smoothing is drawing without it: a copy of the
image, cut off at the edges of the surface. At any positive scale, a pixel that is written becomes
the nearest colour to a mean of at most four pixels of the image, weighed by how near they are, and
so is within their range; if the image has one colour, it becomes that one. -/
theorem draw_smooth_exact (c : Canvas Rat) (b : Bitmap) (x y : Rat) :
    let t := c.context.transform
    let x0 := (t.apply x y).1
    let y0 := (t.apply x y).2
    let smooth := (c.withSmoothing true).draw b x y
    let sharp := (c.withSmoothing false).draw b x y
    (∀ ox oy : Int, t.scaleX = 1 → t.scaleY = 1 → x0 = ox → y0 = oy →
      smooth = sharp.withSmoothing true ∧
      ∀ px py, px < c.size.width.toNat → py < c.size.height.toNat →
        smooth.surface.pixel? px py =
          if (ox ≤ px ∧ (px : Int) < ox + b.width.toNat) ∧
              (oy ≤ py ∧ (py : Int) < oy + b.height.toNat) then
            b.pixel? (px - ox).toNat (py - oy).toNat
          else c.surface.pixel? px py) ∧
    (0 < t.scaleX → 0 < t.scaleY →
      ∀ px py, (written c.size c.context b x y).Contains px py →
        ∃ blended, smooth.surface.pixel? px py = some blended ∧
          b.IsBlendAt (((px : Rat) + 1 / 2 - x0) / t.scaleX) (((py : Rat) + 1 / 2 - y0) / t.scaleY)
            blended ∧
          ∀ color, (∀ i j p, b.pixel? i j = some p → p = color) → blended = color) := by
  intro t x0 y0 smooth sharp
  constructor
  · intro ox oy hsx hsy hx hy
    have hoffset : HasWholeOffset c.context x y ox oy := ⟨hsx, hsy, hx, hy⟩
    exact ⟨draw_withSmoothing_of_whole_offset hoffset, fun px py hpx hpy =>
      pixel?_draw_of_whole_offset (c := c.withSmoothing true) ⟨hsx, hsy, hx, hy⟩ hpx hpy⟩
  · intro hsx hsy px py hin
    obtain ⟨hw, hh⟩ := pos_of_contains_written hin
    refine ⟨_, (pixel?_draw _ b x y px py).trans (if_pos hin),
      isBlendAt_sampleBilinear hw hh _ _, fun color huniform => ?_⟩
    exact (isBlendAt_sampleBilinear hw hh _ _).eq_of_uniform huniform

/-- Red and blue side by side: one pixel too far left, so that only the blue one is copied, and at
twice the width, where the second pixel is a blend. A single pixel has itself for a neighbour. -/
theorem draw_smooth_exact_seam :
    let b : Bitmap := ⟨2, 1, ⟨#[255, 0, 0, 255, 0, 0, 255, 255]⟩, rfl⟩
    let c : Canvas Rat := ⟨.solid 4 1 .clear, {}, ⟨⟨1, 1, -1, 0⟩, true⟩⟩
    let wide : Canvas Rat := ⟨.solid 4 1 .clear, {}, ⟨⟨2, 1, 0, 0⟩, true⟩⟩
    let dot : Bitmap := .solid 1 1 ⟨1, 2, 3, 4⟩
    (c.context.transform.scaleX = 1 ∧ c.context.transform.scaleY = 1 ∧
      (c.context.transform.apply 0 0).1 = (-1 : Int) ∧
      (c.context.transform.apply 0 0).2 = (0 : Int)) ∧
      ((c.withSmoothing true).draw b 0 0).surface.pixel? 0 0 = some ⟨0, 0, 255, 255⟩ ∧
      (0 < wide.context.transform.scaleX ∧ 0 < wide.context.transform.scaleY ∧
        (written wide.size wide.context b 0 0).Contains 1 0 ∧
        (written wide.size wide.context dot 0 0).Contains 1 0 ∧
        ∀ i j p, dot.pixel? i j = some p → p = ⟨1, 2, 3, 4⟩) ∧
      (∃ blended, ((wide.withSmoothing true).draw b 0 0).surface.pixel? 1 0 = some blended ∧
        b.IsBlendAt (3 / 4) (1 / 2) blended) ∧
      ((wide.withSmoothing true).draw dot 0 0).surface.pixel? 1 0 = some ⟨1, 2, 3, 4⟩ := by
  intro b c wide dot
  have hone : c.context.transform.scaleX = 1 ∧ c.context.transform.scaleY = 1 ∧
      (c.context.transform.apply 0 0).1 = (-1 : Int) ∧
      (c.context.transform.apply 0 0).2 = (0 : Int) := by decide +kernel
  have hsx : 0 < wide.context.transform.scaleX := by decide +kernel
  have hsy : 0 < wide.context.transform.scaleY := by decide +kernel
  have hwide : (written wide.size wide.context b 0 0).Contains 1 0 := by decide +kernel
  have hdot : (written wide.size wide.context dot 0 0).Contains 1 0 := by decide +kernel
  have huniform : ∀ i j p, dot.pixel? i j = some p → p = ⟨1, 2, 3, 4⟩ := by
    intro i j p hp
    unfold Bitmap.pixel? at hp
    split at hp
    · rename_i hin
      have hi : i = 0 := Nat.lt_one_iff.mp hin.1
      have hj : j = 0 := Nat.lt_one_iff.mp hin.2
      subst hi hj
      exact (Option.some.inj hp).symm
    · contradiction
  obtain ⟨hcopy, -⟩ := draw_smooth_exact c b 0 0
  obtain ⟨-, hblend⟩ := draw_smooth_exact wide b 0 0
  obtain ⟨-, hsingle⟩ := draw_smooth_exact wide dot 0 0
  refine ⟨hone, ?_, ⟨hsx, hsy, hwide, hdot, huniform⟩, ?_, ?_⟩
  · have hpixel := (hcopy (-1) 0 hone.1 hone.2.1 hone.2.2.1 hone.2.2.2).2 0 0 (by decide) (by decide)
    rw [hpixel]
    decide +kernel
  · obtain ⟨blended, hpixel, hat, -⟩ := hblend hsx hsy 1 0 hwide
    have hu : (((1 : Nat) : Rat) + 1 / 2 - (wide.context.transform.apply 0 0).1) /
        wide.context.transform.scaleX = 3 / 4 := by decide +kernel
    have hv : (((0 : Nat) : Rat) + 1 / 2 - (wide.context.transform.apply 0 0).2) /
        wide.context.transform.scaleY = 1 / 2 := by decide +kernel
    rw [hu, hv] at hat
    exact ⟨blended, hpixel, hat⟩
  · obtain ⟨blended, hpixel, -, hcolor⟩ := hsingle hsx hsy 1 0 hdot
    rw [hpixel, hcolor ⟨1, 2, 3, 4⟩ huniform]

end Canvas

end EngineBridge
