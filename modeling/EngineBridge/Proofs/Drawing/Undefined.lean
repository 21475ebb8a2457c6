import EngineBridge.Proofs.Drawing.Arithmetic
import EngineBridge.Proofs.Drawing.Painting

/-! Drawing at an undefined place. The centre of no pixel lies there. The image is drawn all the
same: along an axis on which one of its corners is undefined, it covers the surface from one edge to
the other. -/
namespace EngineBridge

open Float.Model (Format UnpackedFloat)
open Float.Model.UnpackedFloat

namespace Binary64

def moved? (s t a : Int) : Option Int := (product? s a).bind fun p => sum? p t

theorem units?_moved {s t x : Float} {σ τ a : Int} (hs : units? s = some σ) (ht : units? t = some τ)
    (hx : units? x = some a) : units? (s * x + t) = moved? σ τ a := by
  rw [units?_add, units?_mul, hs, ht, hx]
  rfl

section Moved

variable {s t a b : Int} (hs : 0 < s) (ht : t.natAbs ≤ tooLarge) (ha : a.natAbs ≤ tooLarge)
  (hb : b.natAbs ≤ tooLarge) (hle : a ≤ b) (hgap : 0 ≤ a → 0 < b)

include hs ht ha hb hle hgap

/-- If the near corner is undefined, the far one is too or is beyond all numbers. Either the far one
is an infinite multiple of a positive number, or the near one is a sum of two infinities. -/
theorem moved?_of_near (h : moved? s t a = none) :
    moved? s t b = none ∨ moved? s t b = some tooLarge := by
  unfold moved? at h ⊢
  cases hp : product? s a with
  | none =>
    obtain ⟨rfl, hlarge⟩ := product?_eq_none hs hp
    have hpos : 0 < b := hgap (Int.le_refl 0)
    rw [product?_of_infinite hs hlarge (by omega), if_pos hpos, Option.bind_some,
      sum?_of_large rfl]
    split_ifs
    · exact .inl rfl
    · exact .inr rfl
  | some p =>
    rw [hp, Option.bind_some] at h
    obtain ⟨hlarge, rfl⟩ := sum?_eq_none h
    cases hq : product? s b with
    | none => exact .inl rfl
    | some q =>
      have hpq := product?_mono hs ha hb hle hp hq
      have hqabs := natAbs_le_of_product? hs hq
      rw [Option.bind_some]
      rcases Int.natAbs_eq p with hp' | hp' <;> rw [hlarge] at hp'
      · obtain rfl : q = p := by omega
        exact .inl (sum?_of_eq_neg hlarge rfl)
      · subst hp'
        rw [Int.neg_neg]
        exact sum?_of_large_or hqabs rfl

theorem moved?_of_far (h : moved? s t b = none) :
    moved? s t a = none ∨ moved? s t a = some (-(tooLarge : Int)) := by
  unfold moved? at h ⊢
  cases hq : product? s b with
  | none =>
    obtain ⟨rfl, hlarge⟩ := product?_eq_none hs hq
    have hneg : a < 0 := Int.not_le.mp fun hnonneg => absurd (hgap hnonneg) (Int.lt_irrefl 0)
    rw [product?_of_infinite hs hlarge (by omega), if_neg (by omega), Option.bind_some,
      sum?_of_large (by omega)]
    split_ifs
    · exact .inl rfl
    · exact .inr rfl
  | some q =>
    rw [hq, Option.bind_some] at h
    obtain ⟨hlarge, rfl⟩ := sum?_eq_none h
    cases hp : product? s a with
    | none => exact .inl rfl
    | some p =>
      have hpq := product?_mono hs ha hb hle hp hq
      have hpabs := natAbs_le_of_product? hs hp
      rw [Option.bind_some]
      rcases Int.natAbs_eq q with hq' | hq' <;> rw [hlarge] at hq'
      · subst hq'
        exact sum?_of_large_or hpabs (by omega)
      · obtain rfl : q = p := by omega
        exact .inl (sum?_of_eq_neg hlarge rfl)

end Moved

/-- Two corners along an axis, `n` pixels apart before the transform. If one of them is undefined,
the other is too or is so far out that it leaves nothing on its side. -/
theorem units?_corners {s t x : Float} {n : Nat} (hs : ¬s ≤ Scalar.ofNat 0) (hn : 0 < n)
    (hn' : n < 2 ^ 32) :
    let near := s * x + t
    let far := s * (x + Scalar.ofNat n) + t
    (units? near = none → units? far = none ∨ units? far = some tooLarge) ∧
      (units? far = none → units? near = none ∨ units? near = some (-(tooLarge : Int))) := by
  intro near far
  have hundefined (hnear : units? near = none) (hfar : units? far = none) :
      (units? near = none → units? far = none ∨ units? far = some tooLarge) ∧
        (units? far = none → units? near = none ∨ units? near = some (-(tooLarge : Int))) :=
    ⟨fun _ => .inl hfar, fun _ => .inl hnear⟩
  -- The scale, the way and the place are in both corners: one that is undefined undoes both.
  cases hσ : units? s with
  | none =>
    apply hundefined
    · rw [units?_add, units?_mul, hσ]
      rfl
    · rw [units?_add, units?_mul, hσ]
      rfl
  | some σ =>
  cases hτ : units? t with
  | none =>
    apply hundefined
    · rw [units?_add, hτ]
      cases units? (s * x) <;> rfl
    · rw [units?_add, hτ]
      cases units? (s * (x + Scalar.ofNat n)) <;> rfl
  | some τ =>
  cases ha : units? x with
  | none =>
    apply hundefined
    · rw [units?_add, units?_mul, hσ, ha]
      rfl
    · rw [units?_add, units?_mul, units?_add x, hσ, ha]
      rfl
  | some a =>
    obtain ⟨w, hw, hwpos, hwlt⟩ := units?_ofNat hn hn'
    obtain ⟨b, hsum, hle, hgap⟩ := exists_sum? (isFloat_of_units? ha) (isFloat_of_units? hw)
      (Int.le_of_lt hwpos) hwlt
    have hb : units? (x + Scalar.ofNat n) = some b := by
      rw [units?_add, ha, hw]
      exact hsum
    have hσpos := units?_pos hs hσ
    have hnear : units? near = moved? σ τ a := units?_moved hσ hτ ha
    have hfar : units? far = moved? σ τ b := units?_moved hσ hτ hb
    have hbpos : 0 ≤ a → 0 < b := fun hnonneg => Int.lt_of_lt_of_le hwpos (hgap hnonneg)
    have ht := (isFloat_of_units? hτ).le
    have ha' := (isFloat_of_units? ha).le
    have hb' := (isFloat_of_units? hb).le
    rw [hnear, hfar]
    exact ⟨moved?_of_near hσpos ht ha' hb' hle hbpos, moved?_of_far hσpos ht ha' hb' hle hbpos⟩

end Binary64

namespace Scalar

open Binary64

theorem isDefined_iff {x : Float} : isDefined x = true ↔ units? x ≠ none := by
  rw [isDefined, decide_eq_true_iff, float_le_iff, Ne, units?_eq_none_iff]
  generalize x.toModel.unpack = u
  cases u with
  | notANumber => exact iff_of_false nofun (not_not_intro rfl)
  | infinity sign => exact iff_of_true (by cases sign <;> rfl) nofun
  | zero sign => exact iff_of_true rfl nofun
  | finite sign m e hm =>
    refine iff_of_true ?_ nofun
    cases sign
    · change (some ((compare e e).then (compare m m)).swap).any (·.isLE) = true
      rw [Std.ReflOrd.compare_self, Std.ReflOrd.compare_self]
      rfl
    · change (some ((compare e e).then (compare m m))).any (·.isLE) = true
      rw [Std.ReflOrd.compare_self, Std.ReflOrd.compare_self]
      rfl

theorem not_isDefined_iff {x : Float} :
    ¬isDefined x ↔ x.toModel.unpack = .notANumber := by
  rw [isDefined_iff, not_not, units?_eq_none_iff]

section Undefined

variable {x : Float} (h : ¬isDefined x) (y : Float)

include h

theorem not_le_left : ¬x ≤ y := by
  rw [float_le_iff, not_isDefined_iff.mp h]
  exact nofun

theorem not_le_right : ¬y ≤ x := by
  rw [float_le_iff, not_isDefined_iff.mp h]
  generalize y.toModel.unpack = u
  cases u <;> exact nofun

end Undefined

section Operations

variable {x y : Float}

theorem not_isDefined_add (h : ¬isDefined x ∨ ¬isDefined y) :
    ¬isDefined (x + y) := by
  simp only [isDefined_iff, not_not] at h ⊢
  rw [units?_add]
  rcases h with h | h
  · rw [h]
    rfl
  · rw [h]
    cases units? x <;> rfl

theorem not_isDefined_mul (h : ¬isDefined x ∨ ¬isDefined y) :
    ¬isDefined (x * y) := by
  simp only [isDefined_iff, not_not] at h ⊢
  rw [units?_mul]
  rcases h with h | h
  · rw [h]
    rfl
  · rw [h]
    cases units? x <;> rfl

theorem not_isDefined_sub (h : ¬isDefined x ∨ ¬isDefined y) :
    ¬isDefined (x - y) := by
  simp only [not_isDefined_iff] at h ⊢
  change (Float.Model.pack
    (UnpackedFloat.sub Format.binary64 x.toModel.unpack y.toModel.unpack)).unpack = _
  rcases h with h | h
  · rw [h]
    exact unpack_pack_notANumber
  · rw [h]
    cases x.toModel.unpack <;> exact unpack_pack_notANumber

theorem not_isDefined_div (h : ¬isDefined x) (y : Float) : ¬isDefined (x / y) := by
  rw [not_isDefined_iff] at h ⊢
  change (Float.Model.pack
    (UnpackedFloat.div Format.binary64 x.toModel.unpack y.toModel.unpack)).unpack = _
  rw [h]
  exact unpack_pack_notANumber

end Operations

section Centres

variable {x : Float}

theorem truncate_of_not_isDefined (h : ¬isDefined x) : truncate x = 0 :=
  Nat.le_zero.mp (truncate_le_of_not_lt (by decide) fun hlt =>
    not_le_right h _ (float_le_of_lt hlt))

theorem centresBefore_of_not_isDefined (h : ¬isDefined x) (limit : Nat) :
    centresBefore x limit = 0 := by
  have he := not_isDefined_sub (y := half) (.inl h)
  unfold centresBefore
  dsimp only
  rw [if_neg (not_le_left he _), if_neg (not_le_right he _), truncate_of_not_isDefined he,
    if_neg fun hlt => not_le_right he _ (float_le_of_lt hlt)]

theorem centresBefore_of_beforeAll (h : x.toModel.unpack = .infinity .negative) (limit : Nat) :
    centresBefore x limit = 0 := by
  have he : (x - half).toModel.unpack = .infinity .negative := by
    change (Float.Model.pack (UnpackedFloat.sub Format.binary64 x.toModel.unpack _)).unpack = _
    rw [h]
    rfl
  unfold centresBefore
  dsimp only
  rw [if_pos]
  rw [float_le_iff, he]
  rfl

theorem centresBefore_of_beyondAll (h : x.toModel.unpack = .infinity .positive) {limit : Nat}
    (hlimit : limit < 2 ^ 32) : centresBefore x limit = limit := by
  have he : (x - half).toModel.unpack = .infinity .positive := by
    change (Float.Model.pack (UnpackedFloat.sub Format.binary64 x.toModel.unpack _)).unpack = _
    rw [h]
    rfl
  unfold centresBefore
  dsimp only
  rw [if_neg, if_pos]
  · apply float_le_of_lt
    rw [float_lt_iff, he]
    exact ofNat_lt_infinity hlimit
  · rw [float_le_iff, he]
    exact nofun

end Centres

theorem covered_of_undefined {s t x : Float} {n limit : Nat} (hs : ¬s ≤ ofNat 0) (hn : 0 < n)
    (hn' : n < 2 ^ 32) (hlimit : limit < 2 ^ 32)
    (h : ¬(isDefined (s * x + t) ∧ isDefined (s * (x + ofNat n) + t))) :
    covered (s * x + t) (s * (x + ofNat n) + t) limit = (0, limit) := by
  obtain ⟨hfar, hnear⟩ := units?_corners hs hn hn' (t := t) (x := x)
  generalize s * x + t = near at h hnear hfar ⊢
  generalize s * (x + ofNat n) + t = far at h hnear hfar ⊢
  unfold covered
  by_cases hnear' : isDefined near
  · have hfar' : ¬isDefined far := fun hdefined => h ⟨hnear', hdefined⟩
    rw [if_neg hfar']
    rw [isDefined_iff, not_not] at hfar'
    rw [isDefined_iff] at hnear'
    rcases hnear hfar' with hnone | hbefore
    · exact absurd hnone hnear'
    · rw [centresBefore_of_beforeAll (unpack_of_units?_eq_tooLarge .negative hbefore)]
  · rw [centresBefore_of_not_isDefined hnear']
    rw [isDefined_iff, not_not] at hnear'
    split
    · rename_i hdefined
      rw [isDefined_iff] at hdefined
      rcases hfar hnear' with hnone | hbeyond
      · exact absurd hnone hdefined
      · rw [centresBefore_of_beyondAll (unpack_of_units?_eq_tooLarge .positive hbeyond) hlimit]
    · rfl

end Scalar

namespace Bitmap

open Scalar

variable {u v : Float}

theorem nearest_of_not_isDefined (h : ¬isDefined u) (count : Nat) : nearest u count = 0 := by
  rw [nearest, truncate_of_not_isDefined h, Nat.zero_min]

theorem clamp_of_not_isDefined (h : ¬isDefined u) (high : Float) : clamp u high = u := by
  have hlow : ¬u < ofNat 0 := fun hlt => not_le_left h _ (float_le_of_lt hlt)
  have hhigh : ¬high < u := fun hlt => not_le_right h _ (float_le_of_lt hlt)
  unfold clamp
  dsimp only
  rw [if_neg hlow, if_neg hhigh]

theorem not_isDefined_share (h : ¬isDefined u) (count : Nat) :
    ¬isDefined (between u count).share := by
  have he : ¬isDefined (u - half) := not_isDefined_sub (.inl h)
  change ¬isDefined (clamp (u - half) _ - _)
  rw [clamp_of_not_isDefined he]
  exact not_isDefined_sub (.inl he)

theorem not_isDefined_mix {p q share : Float}
    (h : ¬isDefined p ∨ ¬isDefined share) : ¬isDefined (mix p q share) := by
  apply not_isDefined_add
  rcases h with h | h
  · exact .inl (not_isDefined_mul (.inl h))
  · exact .inr (not_isDefined_mul (.inr h))

theorem toByte_of_not_isDefined (h : ¬isDefined u) : toByte u = 0 := by
  have hrest : ¬(half : Float) ≤ u - ofNat 0 := not_le_right (not_isDefined_sub (.inl h)) _
  unfold toByte
  dsimp only
  rw [truncate_of_not_isDefined h, if_neg (by decide), if_neg hrest]
  rfl

theorem blend_of_not_isDefined {tx ty : Float}
    (h : ¬isDefined tx ∨ ¬isDefined ty) (p q r s : UInt8) : blend tx ty p q r s = 0 := by
  apply toByte_of_not_isDefined
  apply not_isDefined_mix
  rcases h with h | h
  · exact .inl (not_isDefined_mix (.inr h))
  · exact .inr h

theorem sampleBilinear_of_not_isDefined (b : Bitmap)
    (h : ¬isDefined u ∨ ¬isDefined v) : b.sampleBilinear u v = .clear := by
  have hshares : ¬isDefined (between u b.width.toNat).share ∨
      ¬isDefined (between v b.height.toNat).share :=
    h.imp (not_isDefined_share · _) (not_isDefined_share · _)
  unfold sampleBilinear Pixel.map4
  dsimp only
  simp only [blend_of_not_isDefined hshares]
  rfl

end Bitmap

namespace Canvas

open Scalar

namespace Placement

variable (spot : Placement Float)

def IsDefinedAcross : Prop := isDefined spot.left ∧ isDefined spot.right

def IsDefinedDown : Prop := isDefined spot.top ∧ isDefined spot.bottom

/-- Whether the centre of a pixel lies in a placed image, whose far edges are outside of it. -/
def HasCentre (px py : Nat) : Prop :=
  (spot.left ≤ ofNat px + half ∧ ofNat px + half < spot.right) ∧
    spot.top ≤ ofNat py + half ∧ ofNat py + half < spot.bottom

variable {spot}

theorem HasCentre.isDefined {px py : Nat} (h : spot.HasCentre px py) :
    spot.IsDefinedAcross ∧ spot.IsDefinedDown := by
  obtain ⟨⟨hleft, hright⟩, htop, hbottom⟩ := h
  exact ⟨⟨Decidable.not_not.mp fun hnot => not_le_left hnot _ hleft,
      Decidable.not_not.mp fun hnot => not_le_right hnot _ (float_le_of_lt hright)⟩,
    Decidable.not_not.mp fun hnot => not_le_left hnot _ htop,
    Decidable.not_not.mp fun hnot => not_le_right hnot _ (float_le_of_lt hbottom)⟩

end Placement

/-- Whether there is something to draw, something to draw on, and a scale to draw at. -/
structure CanDraw (size : PhysicalSize) (context : DrawContext Float) (b : Bitmap) : Prop where
  image : b.size.area ≠ 0
  surface : size.area ≠ 0
  scaleX : ¬context.transform.scaleX ≤ Scalar.ofNat 0
  scaleY : ¬context.transform.scaleY ≤ Scalar.ofNat 0

section Undefined

variable {size : PhysicalSize} {context : DrawContext Float} {b : Bitmap} {x y : Float}

theorem canDraw_iff : CanDraw size context b ↔
    ¬(b.bytes.isEmpty || size.area = 0 || context.transform.scaleX ≤ Scalar.ofNat 0 ||
      context.transform.scaleY ≤ Scalar.ofNat 0) = true := by
  rw [b.isEmpty_bytes]
  simp only [Bool.or_eq_true, decide_eq_true_iff, not_or]
  exact ⟨fun ⟨image, surface, scaleX, scaleY⟩ => ⟨⟨⟨image, surface⟩, scaleX⟩, scaleY⟩,
    fun ⟨⟨⟨image, surface⟩, scaleX⟩, scaleY⟩ => ⟨image, surface, scaleX, scaleY⟩⟩

theorem written_of_canDraw (h : CanDraw size context b) (x y : Float) :
    written size context b x y =
      let spot := placement context.transform b x y
      let across := covered spot.left spot.right size.width.toNat
      let down := covered spot.top spot.bottom size.height.toNat
      .within size across.1 across.2 down.1 down.2 :=
  if_neg (canDraw_iff.mp h)

theorem draw_of_not_canDraw {c : Canvas Float} (h : ¬CanDraw c.size c.context b) (x y : Float) :
    c.draw b x y = c := by
  have hidle := Decidable.not_not.mp (mt canDraw_iff.mpr h)
  have hwritten : written c.size c.context b x y = .empty := if_pos hidle
  apply eq_of_pixel? (size_draw ..) (context_draw ..) (styleSize_draw ..)
  intro px py
  rw [pixel?_draw, hwritten, if_neg (Region.not_contains_empty px py)]

theorem written_of_undefined_across (h : CanDraw size context b)
    (hundefined : ¬(placement context.transform b x y).IsDefinedAcross) :
    (written size context b x y).left = 0 ∧
      (written size context b x y).right = size.width.toNat := by
  have hwidth : 0 < b.width.toNat := Nat.pos_of_mul_pos_right (Nat.pos_of_ne_zero h.image)
  have hcovered : covered (placement context.transform b x y).left
      (placement context.transform b x y).right size.width.toNat = (0, size.width.toNat) :=
    covered_of_undefined h.scaleX hwidth b.width.toNat_lt size.width.toNat_lt hundefined
  rw [written_of_canDraw h]
  dsimp only
  rw [hcovered]
  exact ⟨rfl, Nat.min_self _⟩

theorem written_of_undefined_down (h : CanDraw size context b)
    (hundefined : ¬(placement context.transform b x y).IsDefinedDown) :
    (written size context b x y).top = 0 ∧
      (written size context b x y).bottom = size.height.toNat := by
  have hheight : 0 < b.height.toNat := Nat.pos_of_mul_pos_left (Nat.pos_of_ne_zero h.image)
  have hcovered : covered (placement context.transform b x y).top
      (placement context.transform b x y).bottom size.height.toNat = (0, size.height.toNat) :=
    covered_of_undefined h.scaleY hheight b.height.toNat_lt size.height.toNat_lt hundefined
  rw [written_of_canDraw h]
  dsimp only
  rw [hcovered]
  exact ⟨rfl, Nat.min_self _⟩

theorem not_isDefined_source {start : Float} (h : ¬isDefined start) (p : Nat)
    (scale : Float) : ¬isDefined (source p start scale) :=
  not_isDefined_div (not_isDefined_sub (.inr h)) scale

end Undefined

/-- An image of which a corner is undefined has the centre of no pixel. If anything can be drawn, it
covers the surface from one edge to the other on each axis with such a corner, and the surface stays
as it was only if it shows there what is drawn. That is nothing but clear pixels if the image is
smoothed and its near corner is undefined; if it is not smoothed, it is its first column or row. -/
theorem draw_undefined (c : Canvas Float) (b : Bitmap) (x y : Float)
    (h : ¬((placement c.context.transform b x y).IsDefinedAcross ∧
      (placement c.context.transform b x y).IsDefinedDown)) :
    let spot := placement c.context.transform b x y
    let r := written c.size c.context b x y
    (∀ px py, ¬spot.HasCentre px py) ∧
      (¬CanDraw c.size c.context b → c.draw b x y = c) ∧
      (CanDraw c.size c.context b →
        (¬spot.IsDefinedAcross → r.left = 0 ∧ r.right = c.size.width.toNat) ∧
          (¬spot.IsDefinedDown → r.top = 0 ∧ r.bottom = c.size.height.toNat)) ∧
      (∀ px py, (c.draw b x y).surface.pixel? px py =
        if r.Contains px py then some (ink c.context b x y py px)
        else c.surface.pixel? px py) ∧
      (c.draw b x y = c ↔ ∀ px py, r.Contains px py →
        c.surface.pixel? px py = some (ink c.context b x y py px)) ∧
      (c.context.smoothing = true → ¬isDefined spot.left ∨ ¬isDefined spot.top →
        ∀ px py, ink c.context b x y py px = .clear) ∧
      (c.context.smoothing = false → ∀ px py,
        (¬isDefined spot.left → ink c.context b x y py px =
          b.pixel 0 (Bitmap.nearest (source py spot.top spot.scaleY) b.height.toNat)) ∧
        (¬isDefined spot.top → ink c.context b x y py px =
          b.pixel (Bitmap.nearest (source px spot.left spot.scaleX) b.width.toNat) 0)) := by
  intro spot r
  refine ⟨fun px py hcentre => h hcentre.isDefined, fun hcan => draw_of_not_canDraw hcan x y,
    fun hcan => ⟨written_of_undefined_across hcan, written_of_undefined_down hcan⟩,
    c.pixel?_draw b x y, ⟨fun hsame px py hin => ?_, fun hshown => ?_⟩,
    fun hsmooth hcorner px py => ?_, fun hplain px py => ⟨fun hleft => ?_, fun htop => ?_⟩⟩
  · have hpixel := c.pixel?_draw b x y px py
    rw [hsame, if_pos hin] at hpixel
    exact hpixel
  · apply eq_of_pixel? (size_draw ..) (context_draw ..) (styleSize_draw ..)
    intro px py
    rw [pixel?_draw]
    split
    · rename_i hin
      exact (hshown px py hin).symm
    · rfl
  · change (if c.context.smoothing then _ else _) = _
    rw [if_pos hsmooth]
    exact b.sampleBilinear_of_not_isDefined
      (hcorner.imp (not_isDefined_source · px _) (not_isDefined_source · py _))
  · change (if c.context.smoothing then _ else _) = _
    rw [hplain, if_neg Bool.false_ne_true, Bitmap.sampleNearest,
      Bitmap.nearest_of_not_isDefined (not_isDefined_source hleft px _)]
  · change (if c.context.smoothing then _ else _) = _
    rw [hplain, if_neg Bool.false_ne_true, Bitmap.sampleNearest,
      Bitmap.nearest_of_not_isDefined (not_isDefined_source htop py _)]

/-- An infinite scale takes the left edge to an undefined place. A row is cleared. -/
theorem draw_undefined_times_infinity :
    let context : DrawContext Float := ⟨⟨1 / 0, 1, 0, 0⟩, true⟩
    let c : Canvas Float := ⟨.solid 3 2 ⟨9, 8, 7, 255⟩, {}, context⟩
    let b : Bitmap := .solid 1 1 ⟨255, 0, 0, 255⟩
    ¬((placement context.transform b 0 1).IsDefinedAcross ∧
        (placement context.transform b 0 1).IsDefinedDown) ∧
      written c.size context b 0 1 = ⟨0, 3, 1, 2⟩ ∧
      (c.draw b 0 1).surface.pixel? 2 1 = some .clear ∧
      (c.draw b 0 1).surface.pixel? 2 0 = some ⟨9, 8, 7, 255⟩ := by
  intro context c b
  have hleft : ¬isDefined (placement context.transform b 0 1).left := by decide +kernel
  have hwritten : written c.size context b 0 1 = ⟨0, 3, 1, 2⟩ := by decide +kernel
  have hundefined : ¬((placement context.transform b 0 1).IsDefinedAcross ∧
      (placement context.transform b 0 1).IsDefinedDown) := fun h => hleft h.1.1
  obtain ⟨-, -, -, hpixel, -, hclear, -⟩ := draw_undefined c b 0 1 hundefined
  refine ⟨hundefined, hwritten, ?_, ?_⟩
  · rw [hpixel, hwritten, if_pos (by decide), hclear rfl (.inl hleft)]
  · rw [hpixel, hwritten, if_neg (by decide)]
    decide +kernel

theorem draw_replaces_at_undefined :
    let c : Canvas Float := ⟨.solid 2 1 .clear, {}, ⟨.identity, false⟩⟩
    let b : Bitmap := .solid 1 1 ⟨255, 0, 0, 255⟩
    let spot := placement c.context.transform b (0 / 0) 0
    ¬isDefined spot.left ∧ ¬spot.HasCentre 1 0 ∧
      (c.draw b (0 / 0) 0).surface.pixel? 1 0 = some ⟨255, 0, 0, 255⟩ ∧
      c.draw b (0 / 0) 0 ≠ c := by
  intro c b spot
  have hleft : ¬isDefined spot.left := by decide +kernel
  have hdrawn : (c.draw b (0 / 0) 0).surface.pixel? 1 0 = some ⟨255, 0, 0, 255⟩ := by
    decide +kernel
  refine ⟨hleft, fun hcentre => hleft hcentre.isDefined.1.1, hdrawn, fun hsame => ?_⟩
  rw [hsame] at hdrawn
  exact absurd hdrawn (by decide +kernel)

end Canvas

end EngineBridge
