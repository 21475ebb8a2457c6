import EngineBridge.Drawing.Size
import EngineBridge.Proofs.Drawing.Float
import Mathlib.Algebra.Order.Field.Rat
import Mathlib.Data.ENat.Lattice
import Mathlib.Tactic.Linarith

/-! How many pixels a number of units comes to. The product with the scale factor loses its fraction
and then is kept within a word, over exact numbers and over floats alike. -/
namespace EngineBridge

namespace Scalar

theorem floor_eq_of_bounds {e : Rat} {n : Int} (hlow : (n : Rat) ≤ e) (hhigh : e < n + 1) :
    e.floor = n := by
  apply le_antisymm
  · apply Int.lt_add_one_iff.mp
    apply Rat.floor_lt_iff.mpr
    rw [Rat.intCast_add]
    exact hhigh
  · exact Rat.le_floor_iff.mpr hlow

end Scalar

namespace Binary64

open Float.Model (UnpackedFloat)
open Float.Model.UnpackedFloat

def exact (sign : Sign) (m : Nat) (e : Int) : Rat :=
  sign.apply (m * 2 ^ e.toNat : Nat) / (2 ^ (-e).toNat : Nat)

/-- The whole units in a float, however many. There are none in what is negative or no number. -/
def whole (x : Float) : ℕ∞ :=
  match x.toModel.unpack with
  | .finite sign m e _ => (exact sign m e).floor.toNat
  | .infinity .positive => ⊤
  | .infinity .negative | .zero _ | .notANumber => 0

theorem whole_of_unpack {x : Float} {sign : Sign} {m : Nat} {e : Int} {hm : 0 < m}
    (h : x.toModel.unpack = .finite sign m e hm) : whole x = (exact sign m e).floor.toNat := by
  rw [whole, h]

theorem toNat_ofNatClamp (k : Nat) : (UInt32.ofNatClamp k).toNat = min k 0xFFFFFFFF := by
  unfold UInt32.ofNatClamp
  split
  · rename_i h
    exact (Nat.min_eq_left (Nat.le_of_lt_succ h)).symm
  · rename_i h
    exact (Nat.min_eq_right (Nat.le_of_succ_le (Nat.not_lt.mp h))).symm

theorem roundToInt_eq (sign : Sign) (m : Nat) (e : Int) :
    roundToInt sign m e = sign.apply (m * 2 ^ e.toNat / 2 ^ (-e).toNat : Nat) := by
  have hnone : (e - 0).toNat = e.toNat := by rw [Int.sub_zero]
  have hshift : (0 - (e - (e.toNat : Nat))).toNat = (-e).toNat := by omega
  simp only [roundToInt, decreaseExponent, hnone, shiftToExponent, hshift, mantissa_shiftRight,
    Nat.shiftLeft_eq]
  rfl

theorem floor_natCast_div (n : Nat) {d : Nat} (hd : 0 < d) : ((n : Rat) / d).floor = (n / d : Nat) := by
  have hd' : (0 : Rat) < d := by exact_mod_cast hd
  have hlow : ((n / d : Nat) : Rat) * d ≤ n := by exact_mod_cast Nat.div_mul_le_self n d
  have hhigh : (n : Rat) < ((n / d : Nat) + 1) * d := by
    exact_mod_cast Nat.lt_mul_of_div_lt (Nat.lt_succ_self (n / d)) hd
  apply Scalar.floor_eq_of_bounds
  · rw [Rat.intCast_natCast, le_div_iff₀ hd']
    exact hlow
  · rw [Rat.intCast_natCast, Rat.div_lt_iff hd']
    exact hhigh

theorem toNat_roundToInt (sign : Sign) (m : Nat) (e : Int) :
    (roundToInt sign m e).toNat = (exact sign m e).floor.toNat := by
  rw [roundToInt_eq, exact]
  generalize m * 2 ^ e.toNat = n
  have hd : 0 < 2 ^ (-e).toNat := Nat.two_pow_pos _
  generalize 2 ^ (-e).toNat = d at hd ⊢
  cases sign with
  | positive =>
    change _ = (((n : Int) : Rat) / d).floor.toNat
    rw [Rat.intCast_natCast, floor_natCast_div n hd]
    rfl
  | negative =>
    have hd' : (0 : Rat) < d := by exact_mod_cast hd
    have hn : (0 : Rat) ≤ n := Nat.cast_nonneg n
    have hfloor : (((-(n : Int) : Int) : Rat) / d).floor < 1 := by
      apply Rat.floor_lt_iff.mpr
      rw [Rat.div_lt_iff hd']
      push_cast
      linarith
    change (-((n / d : Nat) : Int)).toNat = (((-(n : Int) : Int) : Rat) / d).floor.toNat
    rw [Int.toNat_neg_natCast, Int.toNat_of_nonpos (Int.lt_add_one_iff.mp hfloor)]

end Binary64

namespace Scalar

open Binary64 Float.Model.UnpackedFloat

/-- A float is truncated to its whole units, as far as they fit a word. -/
theorem natCast_truncate (x : Float) : (truncate x : ℕ∞) = min (whole x) 0xFFFFFFFF := by
  have htruncate : truncate x = min (x.toModel.unpack.toInt 0 0xFFFFFFFF).toNat 0xFFFFFFFF :=
    toNat_ofNatClamp _
  rw [htruncate, whole]
  generalize x.toModel.unpack = u
  cases u with
  | notANumber => rfl
  | zero sign => rfl
  | infinity sign => cases sign <;> rfl
  | finite sign m e hm =>
    change ((min (roundToInt sign m e).toNat 0xFFFFFFFF : Nat) : ℕ∞) =
      min ((exact sign m e).floor.toNat : ℕ∞) 0xFFFFFFFF
    rw [toNat_roundToInt]
    rfl

end Scalar

namespace PhysicalSize

theorem toNat_scaleAxis {α : Type} [Scalar α] (units : UInt32) (factor : α) :
    (scaleAxis units factor).toNat =
      min (Scalar.truncate (Scalar.ofNat units.toNat * factor)) 0xFFFFFFFF :=
  UInt32.toNat_ofNat_of_lt' (Nat.lt_succ_of_le (Nat.min_le_right _ _))

/-- Whether an axis has so many pixels as `wanted` says, or as many as a word can tell. -/
def IsCapped (pixels : UInt32) (wanted : ℕ∞) : Prop := (pixels.toNat : ℕ∞) = min wanted 0xFFFFFFFF

theorem isCapped_scaleAxis_rat (units : UInt32) (factor : Rat) :
    IsCapped (scaleAxis units factor) ((units.toNat * factor : Rat).floor.toNat : ℕ∞) := by
  unfold IsCapped
  rw [toNat_scaleAxis]
  rfl

theorem add_one_le_of_lt_scaleAxis {units : UInt32} {factor : Rat} {p : Nat}
    (h : p < (scaleAxis units factor).toNat) : (p : Rat) + 1 ≤ units.toNat * factor := by
  rw [toNat_scaleAxis] at h
  have hfloor : p < (units.toNat * factor : Rat).floor.toNat :=
    Nat.lt_of_lt_of_le h (Nat.min_le_left _ _)
  have hle : ((p + 1 : Nat) : Int) ≤ (units.toNat * factor : Rat).floor := by omega
  have hcast := Rat.le_floor_iff.mp hle
  push_cast at hcast
  exact hcast

theorem isCapped_scaleAxis_float (units : UInt32) (factor : Float) :
    IsCapped (scaleAxis units factor) (Binary64.whole (Scalar.ofNat units.toNat * factor)) := by
  unfold IsCapped
  rw [toNat_scaleAxis, Nat.mono_cast.map_min, Scalar.natCast_truncate, min_assoc]
  rfl

/-- Whether an axis has exactly the pixels that are wanted. Where the other axis has none, and so
this one makes no pixel, it may have as many as a word can tell in place of more. -/
def IsExactOrIdle (pixels : UInt32) (wanted other : ℕ∞) : Prop :=
  (pixels.toNat : ℕ∞) = wanted ∨ 0xFFFFFFFF < wanted ∧ pixels.toNat = 0xFFFFFFFF ∧ other = 0

variable {pixels others : UInt32} {n m : ℕ∞}

theorem IsCapped.le (h : IsCapped pixels n) : (pixels.toNat : ℕ∞) ≤ n := by
  rw [h]
  exact min_le_left _ _

theorem isExactOrIdle_of_mul_le (hn : IsCapped pixels n) (hm : IsCapped others m)
    (harea : pixels.toNat * others.toNat ≤ maxArea) : IsExactOrIdle pixels n m := by
  rcases le_or_gt n 0xFFFFFFFF with hfits | hover
  · left
    rw [hn, min_eq_left hfits]
  · right
    have hfull : pixels.toNat = 0xFFFFFFFF := by
      have hcast : (pixels.toNat : ℕ∞) = (0xFFFFFFFF : Nat) := by
        rw [hn, min_eq_right hover.le]
        rfl
      exact_mod_cast hcast
    have hnone : others.toNat = 0 := by
      rw [hfull, maxArea] at harea
      omega
    refine ⟨hover, hfull, ?_⟩
    unfold IsCapped at hm
    rw [hnone, Nat.cast_zero, eq_comm, min_eq_iff] at hm
    rcases hm with ⟨hm, -⟩ | ⟨hword, -⟩
    · exact hm
    · exact absurd hword (OfNat.ofNat_ne_zero _)

variable {size : PhysicalSize}

theorem area_le_iff (hw : IsCapped size.width n) (hh : IsCapped size.height m) :
    size.area ≤ maxArea ↔ n * m ≤ (maxArea : ℕ∞) := by
  constructor
  · intro harea
    rcases isExactOrIdle_of_mul_le hw hh harea with hn | ⟨-, -, hm⟩
    · rcases isExactOrIdle_of_mul_le hh hw (Nat.mul_comm _ _ ▸ harea) with hm | ⟨-, -, hn'⟩
      · rw [← hn, ← hm]
        exact_mod_cast harea
      · rw [hn', zero_mul]
        exact zero_le
    · rw [hm, mul_zero]
      exact zero_le
  · intro harea
    have hle : ((size.width.toNat * size.height.toNat : Nat) : ℕ∞) ≤ maxArea := by
      rw [Nat.cast_mul]
      exact (mul_le_mul' hw.le hh.le).trans harea
    exact_mod_cast hle

end PhysicalSize

end EngineBridge
