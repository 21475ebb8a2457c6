import EngineBridge.Proofs.Drawing.Float
import Mathlib.Tactic.SplitIfs

/-! How floats are rounded. An exact result becomes the float that is nearest to it, with an even
significand if two are, and rounding keeps the order of numbers. Floats are whole numbers of units,
where a unit is the least positive float, and exact products are whole numbers of units of such a
unit. -/
namespace EngineBridge

open Float.Model (Format UnpackedFloat totalExponent)
open Float.Model.UnpackedFloat

namespace Binary64

/-- The quotient by a power of two, rounded to the nearest number, or to the even one of two. -/
def roundedQuotient (n shift : Nat) : Nat :=
  let whole := n / 2 ^ shift
  let rest := n % 2 ^ shift
  if 2 * rest < 2 ^ shift then whole
  else if 2 * rest = 2 ^ shift then whole + whole % 2
  else whole + 1

theorem roundedQuotient_bounds (n shift : Nat) :
    n / 2 ^ shift ≤ roundedQuotient n shift ∧ roundedQuotient n shift ≤ n / 2 ^ shift + 1 := by
  unfold roundedQuotient
  dsimp only
  split_ifs <;> omega

theorem roundedQuotient_mono {n n' : Nat} (h : n ≤ n') (shift : Nat) :
    roundedQuotient n shift ≤ roundedQuotient n' shift := by
  have hwhole : n / 2 ^ shift ≤ n' / 2 ^ shift := Nat.div_le_div_right h
  rcases Nat.lt_or_eq_of_le hwhole with hless | hsame
  · have hlow := (roundedQuotient_bounds n' shift).1
    have hhigh := (roundedQuotient_bounds n shift).2
    omega
  · have hn := Nat.div_add_mod n (2 ^ shift)
    have hn' := Nat.div_add_mod n' (2 ^ shift)
    rw [← hsame] at hn'
    unfold roundedQuotient
    dsimp only
    rw [← hsame]
    split_ifs <;> omega

theorem roundedQuotient_of_mul (n shift : Nat) : roundedQuotient (n * 2 ^ shift) shift = n := by
  have hpos : 0 < 2 ^ shift := Nat.two_pow_pos shift
  unfold roundedQuotient
  dsimp only
  rw [Nat.mul_mod_left, Nat.mul_div_cancel _ hpos, if_pos hpos]

theorem roundedQuotient_mul (n shift more : Nat) :
    roundedQuotient (n * 2 ^ more) (shift + more) = roundedQuotient n shift := by
  have hpos : 0 < 2 ^ more := Nat.two_pow_pos more
  unfold roundedQuotient
  dsimp only
  rw [Nat.pow_add, Nat.mul_div_mul_right _ _ hpos, Nat.mul_mod_mul_right]
  simp only [← Nat.mul_assoc, Nat.mul_lt_mul_right hpos, Nat.mul_left_inj (Nat.ne_of_gt hpos)]

/-- Whether so many bits of a number are dropped. Of the dropped bits the first is kept, and whether
any other is set. -/
structure IsShifted (em : ExtendedMantissa) (n shift : Nat) : Prop where
  mantissa : em.mantissa = n / 2 ^ shift
  roundBit : em.roundBit = true ↔ 2 ^ shift ≤ 2 * (n % 2 ^ shift)
  stickyBit : em.stickyBit = true ↔ 2 * (n % 2 ^ shift) ≠ 0 ∧ 2 * (n % 2 ^ shift) ≠ 2 ^ shift

theorem IsShifted.shiftRightOne {em : ExtendedMantissa} {n shift : Nat}
    (h : IsShifted em n shift) : IsShifted em.shiftRightOne n (shift + 1) := by
  have hpos : 0 < 2 ^ shift := Nat.two_pow_pos shift
  have hrest : n % 2 ^ shift < 2 ^ shift := Nat.mod_lt n hpos
  have hmod : n % 2 ^ (shift + 1) = n % 2 ^ shift + 2 ^ shift * (n / 2 ^ shift % 2) :=
    Nat.mod_pow_succ
  have hbit : n / 2 ^ shift % 2 = 0 ∨ n / 2 ^ shift % 2 = 1 := by omega
  constructor
  · change em.mantissa / 2 = _
    rw [h.mantissa, Nat.div_div_eq_div_mul, Nat.pow_succ]
  · change (em.mantissa % 2 != 0) = true ↔ _
    rw [bne_iff_ne, h.mantissa, hmod, Nat.pow_succ]
    rcases hbit with hbit | hbit <;> rw [hbit] <;> omega
  · change (em.roundBit || em.stickyBit) = true ↔ _
    rw [Bool.or_eq_true, h.roundBit, h.stickyBit, hmod, Nat.pow_succ]
    rcases hbit with hbit | hbit <;> rw [hbit] <;> omega

theorem isShifted_shiftRight (n shift : Nat) :
    IsShifted (ExtendedMantissa.ofMantissaAndAccuracy n .exact >>> shift) n shift := by
  change IsShifted (shift.repeat ExtendedMantissa.shiftRightOne ⟨n, false, false⟩) n shift
  induction shift with
  | zero =>
    constructor
    · exact (Nat.div_one n).symm
    · simp [Nat.repeat, Nat.mod_one]
    · simp [Nat.repeat, Nat.mod_one]
  | succ shift ih => exact ih.shiftRightOne

theorem IsShifted.roundedMantissa {em : ExtendedMantissa} {n shift : Nat}
    (h : IsShifted em n shift) : em.roundedMantissa = roundedQuotient n shift := by
  obtain ⟨whole, roundBit, stickyBit⟩ := em
  obtain ⟨hwhole, hround, hsticky⟩ := h
  dsimp only at hwhole hround hsticky
  subst hwhole
  unfold roundedQuotient
  dsimp only
  cases roundBit <;> cases stickyBit <;>
    simp only [Bool.false_eq_true, true_iff, false_iff] at hround hsticky
  · exact (if_pos (by omega)).symm
  · exact (if_pos (by omega)).symm
  · rw [if_neg (by omega), if_pos (by omega)]
    rfl
  · rw [if_neg (by omega), if_neg (by omega)]
    rfl

/-- The bits that a float has not got for a number of units of a unit. -/
def excess (n : Nat) : Nat := max (n.log2 - 52) 1074

/-- The units in the float that is nearest to so many units of a unit, if that is not too large. -/
def nearest (n : Nat) : Nat := roundedQuotient n (excess n) * 2 ^ (excess n - 1074)

theorem nearest_zero : nearest 0 = 0 := by
  have hnone := roundedQuotient_of_mul 0 (excess 0)
  rw [Nat.zero_mul] at hnone
  rw [nearest, hnone, Nat.zero_mul]

theorem lt_two_pow_excess (n : Nat) : n < 2 ^ 53 * 2 ^ excess n := by
  have hlog : n.log2 + 1 ≤ 53 + excess n := by
    unfold excess
    omega
  rw [← Nat.pow_add]
  exact Nat.lt_of_lt_of_le Nat.lt_log2_self (Nat.pow_le_pow_right (by decide) hlog)

theorem roundedQuotient_excess_le (n : Nat) : roundedQuotient n (excess n) ≤ 2 ^ 53 := by
  have hwhole : n / 2 ^ excess n < 2 ^ 53 :=
    Nat.div_lt_of_lt_mul (Nat.mul_comm _ _ ▸ lt_two_pow_excess n)
  have hbounds := roundedQuotient_bounds n (excess n)
  omega

theorem le_roundedQuotient_excess {n : Nat} (h : 1074 < excess n) :
    2 ^ 52 ≤ roundedQuotient n (excess n) := by
  have hlog : n.log2 = 52 + excess n := by
    unfold excess at h ⊢
    omega
  have hne : n ≠ 0 := by
    rintro rfl
    rw [Nat.log2_zero] at hlog
    omega
  have hlow : 2 ^ 52 * 2 ^ excess n ≤ n := by
    rw [← Nat.pow_add, ← hlog]
    exact Nat.log2_self_le hne
  exact Nat.le_trans ((Nat.le_div_iff_mul_le (Nat.two_pow_pos _)).mpr hlow)
    (roundedQuotient_bounds n _).1

theorem excess_mono {n n' : Nat} (h : n ≤ n') : excess n ≤ excess n' := by
  have hlog : n.log2 ≤ n'.log2 := by
    rcases Nat.eq_zero_or_pos n with rfl | hpos
    · rw [Nat.log2_zero]
      exact Nat.zero_le _
    · rw [Nat.le_log2 (Nat.ne_of_gt (Nat.lt_of_lt_of_le hpos h))]
      exact Nat.le_trans (Nat.log2_self_le (Nat.ne_of_gt hpos)) h
  unfold excess
  omega

theorem nearest_mono {n n' : Nat} (h : n ≤ n') : nearest n ≤ nearest n' := by
  rcases Nat.lt_or_eq_of_le (excess_mono h) with hless | hsame
  -- The larger number drops more bits, so its float has all 53 and is the larger one for that.
  · have hleast : 1074 ≤ excess n := Nat.le_max_right _ _
    have hshift : excess n - 1074 + 1 ≤ excess n' - 1074 := by omega
    calc nearest n
        ≤ 2 ^ 53 * 2 ^ (excess n - 1074) :=
          Nat.mul_le_mul_right _ (roundedQuotient_excess_le n)
      _ = 2 ^ 52 * 2 ^ (excess n - 1074 + 1) := by rw [Nat.pow_succ]; omega
      _ ≤ 2 ^ 52 * 2 ^ (excess n' - 1074) :=
          Nat.mul_le_mul_left _ (Nat.pow_le_pow_right (by decide) hshift)
      _ ≤ nearest n' :=
          Nat.mul_le_mul_right _ (le_roundedQuotient_excess (Nat.lt_of_le_of_lt hleast hless))
  · unfold nearest
    rw [← hsame]
    exact Nat.mul_le_mul_right _ (roundedQuotient_mono h _)

theorem log2_mul_two_pow {m : Nat} (hm : 0 < m) (j : Nat) : (m * 2 ^ j).log2 = m.log2 + j := by
  have hpos : 0 < 2 ^ j := Nat.two_pow_pos j
  rw [Nat.log2_eq_iff (Nat.ne_of_gt (Nat.mul_pos hm hpos)), Nat.pow_add, Nat.add_right_comm,
    Nat.pow_add]
  exact ⟨Nat.mul_le_mul_right _ (Nat.log2_self_le (Nat.ne_of_gt hm)),
    Nat.mul_lt_mul_of_pos_right Nat.lt_log2_self hpos⟩

def units (m : Nat) (e : Int) : Nat := m * 2 ^ (e + 1074).toNat

theorem units_pos {m : Nat} {e : Int} (hm : 0 < m) : 0 < units m e :=
  Nat.mul_pos hm (Nat.two_pow_pos _)

def perUnit : Nat := 2 ^ 1074

theorem mul_perUnit (n k : Nat) : n * 2 ^ k * perUnit = n * 2 ^ (k + 1074) := by
  rw [perUnit, Nat.mul_assoc, ← Nat.pow_add]

-- Nothing below has to compute so large a number.
attribute [irreducible] perUnit

theorem nearest_units {m : Nat} {e : Int} (h : IsCanonical m e) :
    nearest (units m e * perUnit) = units m e := by
  obtain ⟨hm, -, -⟩ := h
  unfold units
  generalize (e + 1074).toNat = k
  rw [mul_perUnit]
  have hexcess : excess (m * 2 ^ (k + 1074)) ≤ k + 1074 := by
    rcases Nat.eq_zero_or_pos m with rfl | hpos
    · rw [Nat.zero_mul, excess, Nat.log2_zero]
      omega
    · have hlog : m.log2 < 53 := (Nat.log2_lt (Nat.ne_of_gt hpos)).mpr hm
      rw [excess, log2_mul_two_pow hpos]
      omega
  have hleast : 1074 ≤ excess (m * 2 ^ (k + 1074)) := Nat.le_max_right _ _
  unfold nearest
  generalize excess (m * 2 ^ (k + 1074)) = shift at hexcess hleast ⊢
  obtain ⟨more, hmore⟩ := Nat.exists_eq_add_of_le hexcess
  have hk : k = more + (shift - 1074) := by omega
  rw [hmore, Nat.add_comm shift, Nat.pow_add, ← Nat.mul_assoc, roundedQuotient_of_mul,
    Nat.mul_assoc, ← Nat.pow_add, ← hk]

inductive RoundsTo (sign : Sign) (n : Nat) : UnpackedFloat → Prop
  | zero (h : nearest n = 0) : RoundsTo sign n (.zero sign)
  | finite {m : Nat} {e : Int} (hm : 0 < m) (hcanonical : IsCanonical m e)
      (hunits : units m e = nearest n) : RoundsTo sign n (.finite sign m e hm)

theorem isCanonical_shiftToTargetExponent {r : Nat} {t : Int} (hr : r ≤ 2 ^ 53) (ht : -1074 ≤ t)
    (hnormal : 2 ^ 52 ≤ r ∨ t = -1074) :
    let shifted := shiftToTargetExponent Format.binary64 r t .exact
    IsCanonical shifted.1.mantissa shifted.2 ∧
      units shifted.1.mantissa shifted.2 = units r t := by
  have hmantissa : (shiftToTargetExponent Format.binary64 r t .exact).1.mantissa =
      r / 2 ^ (Format.binary64.targetExponent (totalExponent r t) - t).toNat :=
    mantissa_shiftRight _ _
  have hexponent : (shiftToTargetExponent Format.binary64 r t .exact).2 =
      t + (Format.binary64.targetExponent (totalExponent r t) - t).toNat := rfl
  dsimp only
  rw [hmantissa, hexponent, targetExponent_eq, totalExponent]
  rcases Nat.lt_or_eq_of_le hr with hless | rfl
  · have hlog : r.log2 ≤ 52 := by
      rcases Nat.eq_zero_or_pos r with rfl | hpos
      · rw [Nat.log2_zero]
        exact Nat.zero_le _
      · exact Nat.le_of_lt_succ ((Nat.log2_lt (Nat.ne_of_gt hpos)).mpr hless)
    have hnone : (max ((r.log2 : Int) + 1 + t - 53) (-1074) - t).toNat = 0 := by omega
    rw [hnone, Nat.pow_zero, Nat.div_one, Int.natCast_zero, Int.add_zero]
    exact ⟨⟨hless, ht, hnormal⟩, rfl⟩
  · have hone : (max (((2 ^ 53 : Nat).log2 : Int) + 1 + t - 53) (-1074) - t).toNat = 1 := by
      rw [Nat.log2_two_pow]
      omega
    rw [hone]
    refine ⟨⟨by decide, by omega, .inl (by decide)⟩, ?_⟩
    have hsucc : (t + 1 + 1074).toNat = (t + 1074).toNat + 1 := by omega
    change 2 ^ 52 * 2 ^ (t + 1 + 1074).toNat = 2 ^ 53 * 2 ^ (t + 1074).toNat
    rw [hsucc, Nat.pow_succ]
    omega

theorem roundWithAccuracy_eq (sign : Sign) (m : Nat) (e : Int) :
    roundWithAccuracy Format.binary64 sign m e .exact =
      let rounded := shiftToTargetExponent Format.binary64 m e .exact
      let carried :=
        shiftToTargetExponent Format.binary64 rounded.1.roundedMantissa rounded.2 .exact
      if h : carried.1.mantissa = 0 then .zero sign
      else .finite sign carried.1.mantissa carried.2 (Nat.pos_of_ne_zero h) := rfl

theorem roundsTo_roundWithAccuracy (sign : Sign) {m : Nat} {e : Int} (hm : 0 < m)
    (hleast : -2148 ≤ e) (htarget : e ≤ max ((m.log2 : Int) + 1 + e - 53) (-1074)) :
    RoundsTo sign (m * 2 ^ (e + 2148).toNat)
      (roundWithAccuracy Format.binary64 sign m e .exact) := by
  generalize hj : (e + 2148).toNat = j
  generalize hn : m * 2 ^ j = n
  obtain ⟨shift, hshift⟩ : ∃ shift : Nat,
      (max ((m.log2 : Int) + 1 + e - 53) (-1074) - e).toNat = shift := ⟨_, rfl⟩
  have hexcess : excess n = shift + j := by
    have hlog := log2_mul_two_pow hm j
    rw [hn] at hlog
    unfold excess
    omega
  have hrounded : shiftToTargetExponent Format.binary64 m e .exact =
      (ExtendedMantissa.ofMantissaAndAccuracy m .exact >>> shift, e + shift) := by
    rw [shiftToTargetExponent, shiftToExponent, targetExponent_eq, totalExponent, hshift]
  have hquotient : (ExtendedMantissa.ofMantissaAndAccuracy m .exact >>> shift).roundedMantissa =
      roundedQuotient n (excess n) := by
    rw [(isShifted_shiftRight m shift).roundedMantissa, hexcess, ← hn, roundedQuotient_mul]
  -- the significand is full, unless the number is too small for that
  have hnormal : 2 ^ 52 ≤ roundedQuotient n (excess n) ∨ e + (shift : Int) = -1074 := by
    rcases Nat.lt_or_ge 1074 (excess n) with hmany | hfew
    · exact .inl (le_roundedQuotient_excess hmany)
    · right
      omega
  obtain ⟨hcanonical, hunits⟩ := isCanonical_shiftToTargetExponent
    (roundedQuotient_excess_le n) (by omega : -1074 ≤ e + (shift : Int)) hnormal
  have hnearest : units (roundedQuotient n (excess n)) (e + shift) = nearest n := by
    have hpower : (e + shift + 1074).toNat = excess n - 1074 := by omega
    rw [units, hpower, nearest]
  rw [hnearest] at hunits
  rw [roundWithAccuracy_eq]
  dsimp only
  rw [hrounded]
  dsimp only
  rw [hquotient]
  by_cases hzero : (shiftToTargetExponent Format.binary64 (roundedQuotient n (excess n))
      (e + shift) .exact).1.mantissa = 0
  · rw [dif_pos hzero]
    rw [hzero, units, Nat.zero_mul] at hunits
    exact .zero hunits.symm
  · rw [dif_neg hzero]
    exact .finite _ hcanonical hunits

theorem roundsTo_round (sign : Sign) {m : Nat} {e : Int} (hm : 0 < m) (hleast : -1074 ≤ e) :
    RoundsTo sign (m * 2 ^ (e + 2148).toNat)
      (UnpackedFloat.round Format.binary64 sign m e) := by
  obtain ⟨k, hk⟩ : ∃ k : Nat, (e - max ((m.log2 : Int) + 1 + e - 53) (-1074)).toNat = k :=
    ⟨_, rfl⟩
  have hround : UnpackedFloat.round Format.binary64 sign m e =
      roundWithAccuracy Format.binary64 sign (m * 2 ^ k) (e - k) .exact := by
    simp only [UnpackedFloat.round, decreaseExponent, targetExponent_eq, totalExponent, hk,
      Nat.shiftLeft_eq]
  have hlog := log2_mul_two_pow hm k
  have hpower : (e + 2148).toNat = k + (e - k + 2148).toNat := by omega
  rw [hround, hpower, Nat.pow_add, ← Nat.mul_assoc]
  exact roundsTo_roundWithAccuracy sign (Nat.mul_pos hm (Nat.two_pow_pos k)) (by omega) (by omega)

/-- The units in the least power of two that is too large for a float. -/
def tooLarge : Nat := 2 ^ 2098

theorem tooLarge_pos : 0 < tooLarge := by
  rw [tooLarge]
  apply Nat.two_pow_pos

theorem tooLarge_le {k : Nat} (h : 2098 ≤ k) : tooLarge ≤ 2 ^ k := by
  rw [tooLarge, Nat.pow_le_pow_iff_right Nat.one_lt_two]
  exact h

theorem le_tooLarge {k : Nat} (h : k ≤ 2098) : 2 ^ k ≤ tooLarge := by
  rw [tooLarge, Nat.pow_le_pow_iff_right Nat.one_lt_two]
  exact h

attribute [irreducible] tooLarge

theorem units_lt_tooLarge_iff {m : Nat} {e : Int} (h : IsCanonical m e) :
    units m e < tooLarge ↔ e ≤ 971 := by
  obtain ⟨hm, hleast, hnormal⟩ := h
  constructor
  · intro hlt
    apply Int.not_lt.mp
    intro hlarge
    have hfull : 2 ^ 52 ≤ m := by omega
    have hpower : 2098 ≤ 52 + (e + 1074).toNat := by omega
    apply Nat.not_le.mpr hlt
    calc tooLarge
        ≤ 2 ^ (52 + (e + 1074).toNat) := tooLarge_le hpower
      _ = 2 ^ 52 * 2 ^ (e + 1074).toNat := Nat.pow_add ..
      _ ≤ units m e := Nat.mul_le_mul_right _ hfull
  · intro hsmall
    have hpower : 53 + (e + 1074).toNat ≤ 2098 := by omega
    calc units m e
        < 2 ^ 53 * 2 ^ (e + 1074).toNat := Nat.mul_lt_mul_of_pos_right hm (Nat.two_pow_pos _)
      _ = 2 ^ (53 + (e + 1074).toNat) := (Nat.pow_add ..).symm
      _ ≤ tooLarge := le_tooLarge hpower

theorem unpack_pack_of_small {sign : Sign} {m : Nat} {e : Int} {hm : 0 < m} (h : IsCanonical m e)
    (hsmall : e ≤ 971) : (Float.Model.pack (.finite sign m e hm)).unpack = .finite sign m e hm := by
  obtain ⟨hhigh, hleast, hnormal⟩ := h
  rcases Nat.lt_or_ge m (2 ^ 52) with hlow | hlow
  · obtain rfl : e = -1074 := by omega
    have hlog : m.log2 < 52 := (Nat.log2_lt (Nat.ne_of_gt hm)).mpr hlow
    have hbits : Format.binary64.mantissaBits = 53 := rfl
    have hpack : UnpackedFloat.pack Format.binary64 (.finite sign m (-1074) hm) =
        packComponents Format.binary64 sign 0#11 (BitVec.ofNat 52 m) := by
      unfold UnpackedFloat.pack
      dsimp only
      rw [if_neg (by decide),
        if_neg (show m.log2 + 1 ≠ Format.binary64.mantissaBits from hbits ▸ by omega)]
    have hmantissa : (BitVec.ofNat 52 m).toNat = m :=
      (BitVec.toNat_ofNat _ _).trans (Nat.mod_eq_of_lt hlow)
    have hne : BitVec.ofNat 52 m ≠ 0#52 := by
      rw [← BitVec.toNat_ne_iff_ne, hmantissa]
      exact Nat.ne_of_gt hm
    have hunpackExponent : unpackExponent (packComponents Format.binary64 sign 0#11
      (BitVec.ofNat 52 m)) = 0#11 := unpackExponent_packComponents
    have hunpackMantissa : unpackMantissa (packComponents Format.binary64 sign 0#11
      (BitVec.ofNat 52 m)) = BitVec.ofNat 52 m := unpackMantissa_packComponents
    change UnpackedFloat.unpack _ (UnpackedFloat.pack _ _) = _
    rw [hpack]
    unfold UnpackedFloat.unpack
    dsimp only
    rw [if_neg (fun h => absurd (hunpackExponent.symm.trans h) (by decide)),
      if_pos hunpackExponent, dif_neg (fun h => hne (hunpackMantissa.symm.trans h))]
    refine finite_congr ?_ ?_ ?_
    · exact ofBitVec_unpackSign_packComponents _ _ _
    · rw [hunpackMantissa, hmantissa]
    · rw [hunpackExponent]
      rfl
  · exact unpack_pack_of_normal hlow hhigh hleast hsmall

theorem unpack_pack_of_large {sign : Sign} {m : Nat} {e : Int} {hm : 0 < m} (hlarge : 971 < e) :
    (Float.Model.pack (.finite sign m e hm)).unpack = .infinity sign := by
  have hbiased : (e + Format.binary64.exponentBias + Format.binary64.mantissaBitsWithoutImplicit) =
      e + 1075 := Int.add_assoc e 1023 52
  have hpack : UnpackedFloat.pack Format.binary64 (.finite sign m e hm) =
      packedInfinity Format.binary64 sign := by
    unfold UnpackedFloat.pack
    dsimp only
    rw [hbiased]
    exact if_pos (show 2048 ≤ (e + 1075).toNat + 1 by omega)
  change UnpackedFloat.unpack _ (UnpackedFloat.pack _ _) = _
  rw [hpack]
  cases sign <;> rfl

end Binary64

end EngineBridge
