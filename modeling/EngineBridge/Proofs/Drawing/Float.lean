import EngineBridge.Drawing.Sample
import Mathlib.Algebra.Group.Nat.Defs

/-! Floats beside the natural numbers that fit a word. Such a number is a float exactly, and a float
that does not exceed it is truncated to no more, whatever that float is. -/
namespace EngineBridge

open Float.Model (Format UnpackedFloat totalExponent)
open Float.Model.UnpackedFloat

theorem float_le_iff {x y : Float} : x ≤ y ↔ x.toModel.unpack.le y.toModel.unpack := by
  change decide (x.toModel.unpack.le y.toModel.unpack = true) = true ↔ _
  rw [decide_eq_true_iff]

theorem float_lt_iff {x y : Float} : x < y ↔ x.toModel.unpack.lt y.toModel.unpack := by
  change decide (x.toModel.unpack.lt y.toModel.unpack = true) = true ↔ _
  rw [decide_eq_true_iff]

theorem float_le_of_lt {x y : Float} (h : x < y) : x ≤ y := by
  rw [float_lt_iff, UnpackedFloat.lt, beq_iff_eq] at h
  rw [float_le_iff, UnpackedFloat.le, h]
  rfl

namespace Binary64

/-- Whether a significand and an exponent are those of a float, if the exponent is not too large. -/
structure IsCanonical (m : Nat) (e : Int) : Prop where
  significand : m < 2 ^ 53
  exponent : -1074 ≤ e
  isNormal_or : 2 ^ 52 ≤ m ∨ e = -1074

theorem isCanonical_of_unpack {x : Float} {sign : Sign} {m : Nat} {e : Int} {hm : 0 < m}
    (h : x.toModel.unpack = .finite sign m e hm) : IsCanonical m e ∧ e ≤ 971 := by
  unfold Float.Model.unpack UnpackedFloat.unpack at h
  dsimp only at h
  generalize x.toModel.toBits.toBitVec = bits at h
  by_cases htop : @unpackExponent Format.binary64 bits = -1#11
  · rw [if_pos htop] at h
    by_cases hzero : @unpackMantissa Format.binary64 bits = 0#52
    · rw [if_pos hzero] at h
      cases h
    · rw [if_neg hzero] at h
      cases h
  rw [if_neg htop] at h
  by_cases hbottom : @unpackExponent Format.binary64 bits = 0#11
  · rw [if_pos hbottom] at h
    by_cases hzero : @unpackMantissa Format.binary64 bits = 0#52
    · rw [dif_pos hzero] at h
      cases h
    · rw [dif_neg hzero] at h
      injection h with _ hmantissa hexponent
      rw [hbottom] at hexponent
      have he : -1074 = e := hexponent
      subst hmantissa he
      exact ⟨⟨Nat.lt_trans (BitVec.isLt _) (by decide), by decide, .inr rfl⟩, by decide⟩
  · rw [if_neg hbottom] at h
    injection h with _ hmantissa hexponent
    have he : ((@unpackExponent Format.binary64 bits).toNat : Int) - 1075 = e := hexponent
    have hlow : (@unpackExponent Format.binary64 bits).toNat ≠ 0 := fun h0 =>
      hbottom (BitVec.eq_of_toNat_eq h0)
    have hhigh : (@unpackExponent Format.binary64 bits).toNat ≠ 2047 := fun h0 =>
      htop (BitVec.eq_of_toNat_eq h0)
    have hless : (@unpackExponent Format.binary64 bits).toNat < 2048 := BitVec.isLt _
    have hsum : 2 ^ 52 + (@unpackMantissa Format.binary64 bits).toNat = m := by
      rw [← hmantissa, BitVec.toNat_append, ← Nat.shiftLeft_add_eq_or_of_lt (BitVec.isLt _)]
      rfl
    have hrest : (@unpackMantissa Format.binary64 bits).toNat < 2 ^ 52 := BitVec.isLt _
    exact ⟨⟨by omega, by omega, .inl (by omega)⟩, by omega⟩

theorem finite_congr {sign sign' : Sign} {m m' : Nat} {e e' : Int} {hm : 0 < m} {hm' : 0 < m'}
    (hsign : sign = sign') (hmantissa : m = m') (hexponent : e = e') :
    UnpackedFloat.finite sign m e hm = .finite sign' m' e' hm' := by
  subst hsign hmantissa hexponent
  rfl

theorem ofBitVec_unpackSign_packComponents (sign : Sign) (exponent : BitVec 11)
    (mantissa : BitVec 52) :
    Sign.ofBitVec (unpackSign (packComponents Format.binary64 sign exponent mantissa)) =
      sign := by
  have hbit : unpackSign (packComponents Format.binary64 sign exponent mantissa) =
      sign.toBitVec := by
    change (sign.toBitVec ++ exponent ++ mantissa).extractLsb' 63 1 = _
    rw [BitVec.extractLsb'_append_eq_of_le (by decide),
      BitVec.extractLsb'_append_eq_of_le (by decide)]
    cases sign <;> rfl
  rw [hbit]
  cases sign <;> rfl

theorem toNat_implicit_append {m : Nat} (hlow : 2 ^ 52 ≤ m) (hhigh : m < 2 ^ 53) :
    (1#1 ++ BitVec.ofNat 52 m).toNat = m := by
  have hrest : m % 2 ^ 52 = m - 2 ^ 52 := by omega
  rw [BitVec.toNat_append, BitVec.toNat_ofNat, BitVec.toNat_ofNat, hrest,
    ← Nat.shiftLeft_add_eq_or_of_lt (by omega)]
  omega

theorem unpack_packComponents (sign : Sign) {biased m : Nat} (hleast : 0 < biased)
    (hmost : biased < 2047) (hlow : 2 ^ 52 ≤ m) (hhigh : m < 2 ^ 53) (hm : 0 < m) :
    UnpackedFloat.unpack Format.binary64 (packComponents Format.binary64 sign
      (BitVec.ofNat 11 biased) (BitVec.ofNat 52 m)) = .finite sign m (biased - 1075) hm := by
  have hbiased : (BitVec.ofNat 11 biased).toNat = biased :=
    (BitVec.toNat_ofNat _ _).trans (Nat.mod_eq_of_lt (by omega))
  have hnotTop : BitVec.ofNat 11 biased ≠ -1#11 := by
    rw [← BitVec.toNat_ne_iff_ne, hbiased]
    exact Nat.ne_of_lt hmost
  have hnotZero : BitVec.ofNat 11 biased ≠ 0#11 := by
    rw [← BitVec.toNat_ne_iff_ne, hbiased]
    exact Nat.ne_of_gt hleast
  have hexponent : unpackExponent (packComponents Format.binary64 sign
      (BitVec.ofNat 11 biased) (BitVec.ofNat 52 m)) = BitVec.ofNat 11 biased :=
    unpackExponent_packComponents
  unfold UnpackedFloat.unpack
  dsimp only
  rw [if_neg fun h => hnotTop (hexponent.symm.trans h),
    if_neg fun h => hnotZero (hexponent.symm.trans h)]
  refine finite_congr ?_ ?_ ?_
  · exact ofBitVec_unpackSign_packComponents _ _ _
  · rw [unpackMantissa_packComponents, toNat_implicit_append hlow hhigh]
  · rw [hexponent, hbiased]
    rfl

theorem unpack_pack_of_normal {sign : Sign} {m : Nat} {e : Int} (hlow : 2 ^ 52 ≤ m)
    (hhigh : m < 2 ^ 53) (hleast : -1074 ≤ e) (hmost : e ≤ 971) {hm : 0 < m} :
    (Float.Model.pack (.finite sign m e hm)).unpack = .finite sign m e hm := by
  have hlog : m.log2 = 52 := (Nat.log2_eq_iff (Nat.ne_of_gt hm)).mpr ⟨hlow, hhigh⟩
  have hbiased : (e + Format.binary64.exponentBias + (52 : Nat)).toNat = (e + 1075).toNat :=
    congrArg Int.toNat (Int.add_assoc e 1023 52)
  have hpack : UnpackedFloat.pack Format.binary64 (.finite sign m e hm) =
      packComponents Format.binary64 sign (BitVec.ofNat 11 (e + 1075).toNat)
        (BitVec.ofNat 52 m) := by
    unfold UnpackedFloat.pack
    dsimp only
    rw [hlog, hbiased, if_neg (show ¬2048 ≤ (e + 1075).toNat + 1 by omega),
      if_pos (show 52 + 1 = Format.binary64.mantissaBits from rfl)]
  change UnpackedFloat.unpack _ (UnpackedFloat.pack _ _) = _
  rw [hpack, unpack_packComponents sign (by omega) (by omega) hlow hhigh hm]
  exact finite_congr rfl rfl (by omega)

def significand (n : Nat) : Nat := n * 2 ^ (52 - n.log2)

variable {n : Nat}

theorem log2_lt (hpos : 0 < n) (hn : n < 2 ^ 32) : n.log2 < 32 :=
  (Nat.log2_lt (Nat.ne_of_gt hpos)).mpr hn

theorem significand_bounds (hpos : 0 < n) (hn : n < 2 ^ 32) :
    2 ^ 52 ≤ significand n ∧ significand n < 2 ^ 53 := by
  have hlog : n.log2 ≤ 52 := Nat.le_of_lt (Nat.lt_trans (log2_lt hpos hn) (by decide))
  have hlow := Nat.mul_le_mul_right (2 ^ (52 - n.log2)) (Nat.log2_self_le (Nat.ne_of_gt hpos))
  have hhigh := Nat.mul_lt_mul_of_pos_right (Nat.lt_log2_self (n := n))
    (Nat.two_pow_pos (52 - n.log2))
  rw [← Nat.pow_add] at hlow hhigh
  rw [Nat.add_sub_cancel' hlog] at hlow
  rw [Nat.add_right_comm, Nat.add_sub_cancel' hlog] at hhigh
  exact ⟨hlow, hhigh⟩

theorem targetExponent_eq (e : Int) : Format.binary64.targetExponent e = max (e - 53) (-1074) := rfl

theorem roundWithAccuracy_of_normal {m : Nat} {e : Int} (hlow : 2 ^ 52 ≤ m) (hhigh : m < 2 ^ 53)
    (hleast : -1074 ≤ e) (hm : 0 < m) :
    roundWithAccuracy Format.binary64 .positive m e .exact = .finite .positive m e hm := by
  have hlog : m.log2 = 52 := (Nat.log2_eq_iff (Nat.ne_of_gt hm)).mpr ⟨hlow, hhigh⟩
  have htarget : Format.binary64.targetExponent (totalExponent m e) = e := by
    rw [targetExponent_eq, totalExponent, hlog]
    omega
  have hshift : shiftToTargetExponent Format.binary64 m e .exact = (⟨m, false, false⟩, e) := by
    simp only [shiftToTargetExponent, htarget, shiftToExponent, Int.sub_self, Int.toNat_zero]
    exact congrArg _ (Int.add_zero e)
  -- nothing is rounded off, so the second shift is the same as the first
  rw [roundWithAccuracy, hshift]
  change (match shiftToTargetExponent Format.binary64 m e .exact with
    | (em, e) => if h : em.mantissa = 0 then UnpackedFloat.zero .positive
      else UnpackedFloat.finite .positive em.mantissa e (Nat.pos_of_ne_zero h)) = _
  rw [hshift]
  exact dif_neg (Nat.ne_of_gt hm)

theorem unpack_ofNat (hpos : 0 < n) (hn : n < 2 ^ 32) :
    ∃ hm, (Scalar.ofNat n : Float).toModel.unpack =
      .finite .positive (significand n) (n.log2 - 52) hm := by
  obtain ⟨hlow, hhigh⟩ := significand_bounds hpos hn
  have hlog := log2_lt hpos hn
  have hword : n.toUInt64.toNat = n := UInt64.toNat_ofNat_of_lt' (Nat.lt_trans hn (by decide))
  have hcompare : compare (n : Int) 0 = .gt := Int.compare_eq_gt.mpr (by omega)
  have htarget : Format.binary64.targetExponent (totalExponent n 0) = n.log2 - 52 := by
    rw [targetExponent_eq, totalExponent]
    omega
  have hshift : (0 - ((n.log2 : Int) - 52)).toNat = 52 - n.log2 := by omega
  have hexponent : (0 : Int) - (52 - n.log2 : Nat) = n.log2 - 52 := by omega
  have hround : UnpackedFloat.ofUInt64 Format.binary64 n.toUInt64 =
      roundWithAccuracy Format.binary64 .positive (significand n) (n.log2 - 52) .exact := by
    simp only [UnpackedFloat.ofUInt64, hword, UnpackedFloat.ofNat, UnpackedFloat.ofInt,
      UnpackedFloat.normalize, hcompare, Int.toNat_natCast, UnpackedFloat.round, htarget,
      decreaseExponent, hshift, hexponent, Nat.shiftLeft_eq, significand]
  have hm : 0 < significand n := by omega
  refine ⟨hm, ?_⟩
  change (Float.Model.pack (UnpackedFloat.ofUInt64 Format.binary64 n.toUInt64)).unpack = _
  rw [hround, roundWithAccuracy_of_normal hlow hhigh (by omega) hm]
  exact unpack_pack_of_normal hlow hhigh (by omega) (by omega)

theorem toNat_ofNatClamp_le (k : Nat) : (UInt32.ofNatClamp k).toNat ≤ k := by
  unfold UInt32.ofNatClamp
  split
  · exact Nat.le_refl k
  · rename_i h
    exact Nat.le_trans (Nat.sub_le _ 1) (Nat.not_lt.mp h)

theorem mantissa_shiftRight (em : ExtendedMantissa) (shift : Nat) :
    (em >>> shift).mantissa = em.mantissa / 2 ^ shift := by
  change (shift.repeat ExtendedMantissa.shiftRightOne em).mantissa = _
  induction shift with
  | zero => exact (Nat.div_one _).symm
  | succ shift ih =>
    rw [Nat.repeat, ExtendedMantissa.shiftRightOne, ih, Nat.div_div_eq_div_mul, Nat.pow_succ]

theorem roundToInt_of_neg {m : Nat} {e : Int} (he : e < 0) :
    roundToInt .positive m e = (m / 2 ^ (-e).toNat : Nat) := by
  have hnone : (e - 0).toNat = 0 := by omega
  have hshift : (0 - (e - (0 : Nat))).toNat = (-e).toNat := by omega
  simp only [roundToInt, decreaseExponent, hnone, shiftToExponent, hshift, mantissa_shiftRight]
  rfl

theorem div_significand_le (hpos : 0 < n) (hn : n < 2 ^ 32) {m : Nat} {e : Int} (hm : m < 2 ^ 53)
    (hle : e < n.log2 - 52 ∨ e = n.log2 - 52 ∧ m ≤ significand n) : m / 2 ^ (-e).toNat ≤ n := by
  have hlog := log2_lt hpos hn
  rcases hle with hless | ⟨rfl, hm⟩
  · have hpower : 2 ^ 53 ≤ 2 ^ n.log2 * 2 ^ (-e).toNat := by
      rw [← Nat.pow_add]
      exact Nat.pow_le_pow_right (by decide) (by omega)
    have hself := Nat.log2_self_le (Nat.ne_of_gt hpos)
    have hdiv : m / 2 ^ (-e).toNat < 2 ^ n.log2 :=
      Nat.div_lt_of_lt_mul (by rw [Nat.mul_comm]; omega)
    omega
  · have hshift : (-((n.log2 : Int) - 52)).toNat = 52 - n.log2 := by omega
    rw [hshift]
    exact Nat.div_le_of_le_mul (by rw [Nat.mul_comm]; exact hm)

theorem le_of_not_lt_of_positive {m m' : Nat} {e e' : Int} {hm : 0 < m} {hm' : 0 < m'}
    (h : ¬UnpackedFloat.lt (.finite .positive m' e' hm') (.finite .positive m e hm)) :
    e < e' ∨ e = e' ∧ m ≤ m' := by
  rw [UnpackedFloat.lt, beq_iff_eq] at h
  change ¬some ((compare e' e).then (compare m' m)) = some .lt at h
  rw [Option.some.injEq, Ordering.then_eq_lt, Int.compare_eq_lt, Nat.compare_eq_lt,
    Std.LawfulEqOrd.compare_eq_iff_eq] at h
  omega

theorem ofNat_lt_infinity (hn : n < 2 ^ 32) :
    (Scalar.ofNat n : Float).toModel.unpack.lt (.infinity .positive) := by
  rcases Nat.eq_zero_or_pos n with rfl | hpos
  · rfl
  · obtain ⟨hm, hunpack⟩ := unpack_ofNat hpos hn
    rw [hunpack]
    rfl

theorem roundToInt_le_of_not_lt (hn : n < 2 ^ 32) {m : Nat} {e : Int} {hm : 0 < m}
    (hmantissa : m < 2 ^ 53)
    (h : ¬(Scalar.ofNat n : Float).toModel.unpack.lt (.finite .positive m e hm)) :
    (roundToInt .positive m e).toNat ≤ n := by
  rcases Nat.eq_zero_or_pos n with rfl | hpos
  · exact absurd rfl h
  obtain ⟨_, hunpack⟩ := unpack_ofNat hpos hn
  rw [hunpack] at h
  have hle := le_of_not_lt_of_positive h
  have hlog := log2_lt hpos hn
  rw [roundToInt_of_neg (by omega), Int.toNat_natCast]
  exact div_significand_le hpos hn hmantissa hle

end Binary64

namespace Scalar

open Binary64

variable {n : Nat}

theorem truncate_le_of_not_lt {x : Float} (hn : n < 2 ^ 32)
    (h : ¬(Scalar.ofNat n : Float) < x) : Scalar.truncate x ≤ n := by
  have hclamp : Scalar.truncate x ≤ (x.toModel.unpack.toInt 0 (UInt32.size - 1)).toNat :=
    toNat_ofNatClamp_le _
  refine Nat.le_trans hclamp ?_
  have hcanonical := @isCanonical_of_unpack x
  rw [float_lt_iff] at h
  generalize x.toModel.unpack = u at h hcanonical ⊢
  cases u with
  | notANumber | zero => exact Nat.zero_le n
  | infinity sign =>
    cases sign with
    | negative => exact Nat.zero_le n
    | positive => exact absurd (ofNat_lt_infinity hn) h
  | finite sign m e hm =>
    cases sign with
    | negative =>
      have htoInt : (roundToInt .negative m e).toNat = 0 := Int.toNat_neg_natCast _
      exact Nat.le_trans (Nat.le_of_eq htoInt) (Nat.zero_le n)
    | positive => exact roundToInt_le_of_not_lt hn (hcanonical rfl).1.significand h

theorem ofNat_zero_le (hn : n < 2 ^ 32) : (Scalar.ofNat 0 : Float) ≤ Scalar.ofNat n := by
  have hzero : (Scalar.ofNat 0 : Float).toModel.unpack = .zero .positive := rfl
  rw [float_le_iff, hzero]
  rcases Nat.eq_zero_or_pos n with rfl | hpos
  · rfl
  · obtain ⟨hm, hunpack⟩ := unpack_ofNat hpos hn
    rw [hunpack]
    rfl

theorem not_ofNat_lt_self (hn : n < 2 ^ 32) :
    ¬(Scalar.ofNat n : Float) < Scalar.ofNat n := by
  rw [float_lt_iff, UnpackedFloat.lt, beq_iff_eq]
  rcases Nat.eq_zero_or_pos n with rfl | hpos
  · exact nofun
  · obtain ⟨hm, hunpack⟩ := unpack_ofNat hpos hn
    rw [hunpack]
    change ¬some ((compare ((n.log2 : Int) - 52) (n.log2 - 52)).then
      (compare (significand n) (significand n))) = some .lt
    rw [Std.ReflOrd.compare_self, Std.ReflOrd.compare_self]
    exact nofun

end Scalar

end EngineBridge
