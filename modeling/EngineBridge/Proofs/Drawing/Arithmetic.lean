import EngineBridge.Proofs.Drawing.Rounding

/-! Sums and products of floats. A float is a whole number of the least positive ones, and a sum or
a product is the exact one rounded. Neither turns the order of numbers around. -/
namespace EngineBridge

open Float.Model (Format UnpackedFloat)
open Float.Model.UnpackedFloat

namespace Binary64

def rounded (z : Int) : Int := z.sign * (min (nearest z.natAbs) tooLarge : Nat)

theorem rounded_zero : rounded 0 = 0 := by
  rw [rounded, Int.sign_zero, Int.zero_mul]

theorem rounded_neg (z : Int) : rounded (-z) = -rounded z := by
  rw [rounded, rounded, Int.sign_neg, Int.natAbs_neg, Int.neg_mul]

theorem rounded_natCast (n : Nat) : rounded n = (min (nearest n) tooLarge : Nat) := by
  rcases Nat.eq_zero_or_pos n with rfl | hpos
  · rw [Int.natCast_zero, rounded_zero, nearest_zero, Nat.zero_min, Int.natCast_zero]
  · rw [rounded, Int.sign_eq_one_of_pos (by omega), Int.one_mul, Int.natAbs_natCast]

theorem rounded_apply (sign : Sign) (n : Nat) :
    rounded (sign.apply n) = sign.apply (min (nearest n) tooLarge : Nat) := by
  cases sign with
  | positive => exact rounded_natCast n
  | negative =>
    change rounded (-(n : Int)) = -_
    rw [rounded_neg, rounded_natCast]

theorem natAbs_rounded_le (z : Int) : (rounded z).natAbs ≤ tooLarge := by
  unfold rounded
  rw [Int.natAbs_mul, Int.natAbs_natCast]
  have hsign : z.sign.natAbs ≤ 1 := by
    rw [Int.natAbs_sign]
    split <;> omega
  calc z.sign.natAbs * min (nearest z.natAbs) tooLarge
      ≤ 1 * min (nearest z.natAbs) tooLarge := Nat.mul_le_mul_right _ hsign
    _ ≤ tooLarge := by omega

theorem rounded_mono {z z' : Int} (h : z ≤ z') : rounded z ≤ rounded z' := by
  have hpositive {n n' : Nat} (hle : n ≤ n') : rounded n ≤ rounded n' := by
    have hnearest := nearest_mono hle
    rw [rounded_natCast, rounded_natCast]
    omega
  rcases Int.eq_nat_or_neg z with ⟨n, rfl | rfl⟩ <;>
    rcases Int.eq_nat_or_neg z' with ⟨n', rfl | rfl⟩
  · exact hpositive (by omega)
  · obtain ⟨rfl, rfl⟩ : n = 0 ∧ n' = 0 := by omega
    exact Int.le_refl _
  · rw [rounded_neg, rounded_natCast, rounded_natCast]
    omega
  · rw [rounded_neg, rounded_neg]
    exact Int.neg_le_neg (hpositive (by omega))

/-- The units in a float, none of which are in what is no number. An infinity counts as the least
number that is too large. -/
def unpackedUnits? : UnpackedFloat → Option Int
  | .finite sign m e _ => some (sign.apply (units m e))
  | .infinity sign => some (sign.apply tooLarge)
  | .zero _ => some 0
  | .notANumber => none

def units? (x : Float) : Option Int := unpackedUnits? x.toModel.unpack

structure IsFloat (z : Int) : Prop where
  le : z.natAbs ≤ tooLarge
  rounded : z.natAbs < tooLarge → rounded (z * perUnit) = z

theorem natAbs_apply (sign : Sign) (n : Nat) : (sign.apply n).natAbs = n := by
  cases sign <;> simp [Sign.apply]

theorem apply_mul (sign sign' : Sign) (n n' : Nat) :
    sign.apply n * sign'.apply n' = (sign * sign').apply (n * n' : Nat) := by
  cases sign <;> cases sign'
  · change -(n : Int) * -n' = (n * n' : Nat)
    rw [Int.neg_mul_neg, Int.natCast_mul]
  · change -(n : Int) * n' = -(n * n' : Nat)
    rw [Int.neg_mul, Int.natCast_mul]
  · change (n : Int) * -n' = -(n * n' : Nat)
    rw [Int.mul_neg, Int.natCast_mul]
  · exact (Int.natCast_mul ..).symm

theorem isFloat_zero : IsFloat 0 :=
  ⟨Nat.zero_le _, fun _ => by rw [Int.zero_mul, rounded_zero]⟩

theorem isFloat_tooLarge (sign : Sign) : IsFloat (sign.apply tooLarge) := by
  have habs := natAbs_apply sign tooLarge
  exact ⟨Nat.le_of_eq habs, fun hlt => absurd (habs ▸ hlt) (Nat.lt_irrefl _)⟩

theorem units_lt_tooLarge {m : Nat} {e : Int} (h : IsCanonical m e ∧ e ≤ 971) :
    units m e < tooLarge :=
  (units_lt_tooLarge_iff h.1).mpr h.2

theorem natAbs_units_lt (sign : Sign) {m : Nat} {e : Int} (h : IsCanonical m e ∧ e ≤ 971) :
    (sign.apply (units m e)).natAbs < tooLarge := by
  rw [natAbs_apply]
  exact units_lt_tooLarge h

theorem isFloat_units (sign : Sign) {m : Nat} {e : Int} (h : IsCanonical m e ∧ e ≤ 971) :
    IsFloat (sign.apply (units m e)) := by
  refine ⟨Nat.le_of_lt (natAbs_units_lt sign h), fun _ => ?_⟩
  have hproduct := apply_mul sign .positive (units m e) perUnit
  have hsign : sign * Sign.positive = sign := by cases sign <;> rfl
  change sign.apply (units m e) * perUnit = _ at hproduct
  rw [hproduct, hsign, rounded_apply, nearest_units h.1,
    Nat.min_eq_left (Nat.le_of_lt (units_lt_tooLarge h))]

theorem isFloat_of_units? {x : Float} {z : Int} (h : units? x = some z) : IsFloat z := by
  have hcanonical := @isCanonical_of_unpack x
  unfold units? at h
  generalize x.toModel.unpack = u at h hcanonical
  cases u with
  | notANumber => cases h
  | zero sign =>
    cases h
    exact isFloat_zero
  | infinity sign =>
    cases h
    exact isFloat_tooLarge sign
  | finite sign m e hm =>
    cases h
    exact isFloat_units sign (hcanonical rfl)

theorem unpack_pack_notANumber : (Float.Model.pack .notANumber).unpack = .notANumber := rfl

theorem unpack_pack_infinity (sign : Sign) :
    (Float.Model.pack (.infinity sign)).unpack = .infinity sign := by
  cases sign <;> rfl

theorem unpack_pack_zero (sign : Sign) : (Float.Model.pack (.zero sign)).unpack = .zero sign := by
  cases sign <;> rfl

theorem RoundsTo.units?_pack {sign : Sign} {n : Nat} {u : UnpackedFloat} (h : RoundsTo sign n u) :
    unpackedUnits? (Float.Model.pack u).unpack = some (rounded (sign.apply n)) := by
  rw [rounded_apply]
  cases h with
  | zero h =>
    rw [unpack_pack_zero, h, Nat.zero_min]
    cases sign <;> rfl
  | finite hm hcanonical hunits =>
    rename_i m e
    rcases Int.lt_or_le 971 e with hlarge | hsmall
    · have hge : tooLarge ≤ nearest n := by
        rw [← hunits, ← Nat.not_lt, units_lt_tooLarge_iff hcanonical]
        exact Int.not_le.mpr hlarge
      rw [unpack_pack_of_large hlarge, Nat.min_eq_right hge]
      rfl
    · have hlt := (units_lt_tooLarge_iff hcanonical).mpr hsmall
      rw [unpack_pack_of_small hcanonical hsmall, ← hunits, Nat.min_eq_left (Nat.le_of_lt hlt)]
      rfl

/-- The product of numbers of units, of which those that are too large have no exact product. -/
def product? (a b : Int) : Option Int :=
  if a.natAbs = tooLarge ∨ b.natAbs = tooLarge then
    if a * b = 0 then none else if 0 < a * b then some tooLarge else some (-tooLarge)
  else some (rounded (a * b))

section Product

variable {sign sign' : Sign} {n n' : Nat}

theorem product?_of_large (hlarge : n = tooLarge ∨ n' = tooLarge) (hn : 0 < n) (hn' : 0 < n') :
    product? (sign.apply n) (sign'.apply n') = some ((sign * sign').apply tooLarge) := by
  have hpos : 0 < n * n' := Nat.mul_pos hn hn'
  unfold product?
  rw [natAbs_apply, natAbs_apply, if_pos hlarge, apply_mul]
  generalize n * n' = k at hpos
  cases sign * sign' with
  | positive =>
    change (if (k : Int) = 0 then none else if 0 < (k : Int) then _ else _) = _
    rw [if_neg (by omega), if_pos (by omega)]
    rfl
  | negative =>
    change (if -(k : Int) = 0 then none else if 0 < -(k : Int) then _ else _) = _
    rw [if_neg (by omega), if_neg (by omega)]
    rfl

theorem product?_of_small (hn : n < tooLarge) (hn' : n' < tooLarge) :
    product? (sign.apply n) (sign'.apply n') =
      some (rounded ((sign * sign').apply (n * n' : Nat))) := by
  unfold product?
  rw [natAbs_apply, natAbs_apply, apply_mul]
  exact if_neg (by omega)

theorem product?_zero_right (z : Int) :
    product? z 0 = if z.natAbs = tooLarge then none else some 0 := by
  have hpos : (0 : Int).natAbs ≠ tooLarge := Nat.ne_of_lt tooLarge_pos
  unfold product?
  rw [Int.mul_zero, rounded_zero]
  simp only [hpos, or_false, if_true]

theorem product?_comm (a b : Int) : product? a b = product? b a := by
  simp only [product?, Int.mul_comm b a, or_comm]

theorem roundsTo_mul {sign sign' : Sign} {m m' : Nat} {e e' : Int} {hm : 0 < m} {hm' : 0 < m'}
    (h : IsCanonical m e) (h' : IsCanonical m' e') :
    RoundsTo (sign * sign') (units m e * units m' e')
      (UnpackedFloat.mul Format.binary64 (.finite sign m e hm) (.finite sign' m' e' hm')) := by
  have hsplit : (e + e' + 2148).toNat = (e + 1074).toNat + (e' + 1074).toNat := by
    have := h.exponent
    have := h'.exponent
    omega
  have hproduct : units m e * units m' e' = m * m' * 2 ^ (e + e' + 2148).toNat := by
    rw [hsplit, Nat.pow_add, units, units]
    exact Nat.mul_mul_mul_comm ..
  have hpos : 0 < m * m' := Nat.mul_pos hm hm'
  rw [hproduct]
  apply roundsTo_roundWithAccuracy _ hpos
  · have := h.exponent
    have := h'.exponent
    omega
  -- One of the two significands has all its bits, or both numbers are as small as they can be.
  · have hlog : 2 ^ 52 ≤ m ∨ 2 ^ 52 ≤ m' → 52 ≤ (m * m').log2 := by
      intro hfull
      rw [Nat.le_log2 (Nat.ne_of_gt hpos)]
      rcases hfull with hfull | hfull
      · exact Nat.le_trans hfull (Nat.le_mul_of_pos_right m hm')
      · exact Nat.le_trans hfull (Nat.le_mul_of_pos_left m' hm)
    have := h.isNormal_or
    have := h'.isNormal_or
    omega

end Product

theorem units?_mul (x y : Float) :
    units? (x * y) = (do product? (← units? x) (← units? y)) := by
  have hx := @isCanonical_of_unpack x
  have hy := @isCanonical_of_unpack y
  change unpackedUnits? (Float.Model.pack
    (UnpackedFloat.mul Format.binary64 x.toModel.unpack y.toModel.unpack)).unpack =
      (do product? (← unpackedUnits? x.toModel.unpack) (← unpackedUnits? y.toModel.unpack))
  -- what is left is a table over the kinds of two unpacked numbers
  generalize x.toModel.unpack = u at hx ⊢
  generalize y.toModel.unpack = v at hy ⊢
  cases u with
  | notANumber => exact congrArg unpackedUnits? unpack_pack_notANumber
  | infinity sign =>
    cases v with
    | notANumber => exact congrArg unpackedUnits? unpack_pack_notANumber
    | infinity sign' =>
      change _ = product? (sign.apply tooLarge) (sign'.apply tooLarge)
      rw [product?_of_large (.inl rfl) tooLarge_pos tooLarge_pos]
      exact congrArg unpackedUnits? (unpack_pack_infinity _)
    | zero sign' =>
      change _ = product? (sign.apply tooLarge) 0
      rw [product?_zero_right, natAbs_apply, if_pos rfl]
      exact congrArg unpackedUnits? unpack_pack_notANumber
    | finite sign' m' e' hm' =>
      change _ = product? (sign.apply tooLarge) (sign'.apply (units m' e'))
      rw [product?_of_large (.inl rfl) tooLarge_pos (units_pos hm')]
      exact congrArg unpackedUnits? (unpack_pack_infinity _)
  | zero sign =>
    cases v with
    | notANumber => exact congrArg unpackedUnits? unpack_pack_notANumber
    | infinity sign' =>
      change _ = product? 0 (sign'.apply tooLarge)
      rw [product?_comm, product?_zero_right, natAbs_apply, if_pos rfl]
      exact congrArg unpackedUnits? unpack_pack_notANumber
    | zero sign' =>
      change _ = product? 0 0
      rw [product?_zero_right, Int.natAbs_zero, if_neg (Nat.ne_of_lt tooLarge_pos)]
      exact congrArg unpackedUnits? (unpack_pack_zero _)
    | finite sign' m' e' hm' =>
      have hlt := units_lt_tooLarge (hy rfl)
      change _ = product? 0 (sign'.apply (units m' e'))
      rw [product?_comm, product?_zero_right, natAbs_apply, if_neg (Nat.ne_of_lt hlt)]
      exact congrArg unpackedUnits? (unpack_pack_zero _)
  | finite sign m e hm =>
    have hlt := units_lt_tooLarge (hx rfl)
    cases v with
    | notANumber => exact congrArg unpackedUnits? unpack_pack_notANumber
    | infinity sign' =>
      change _ = product? (sign.apply (units m e)) (sign'.apply tooLarge)
      rw [product?_of_large (.inr rfl) (units_pos hm) tooLarge_pos]
      exact congrArg unpackedUnits? (unpack_pack_infinity _)
    | zero sign' =>
      change _ = product? (sign.apply (units m e)) 0
      rw [product?_zero_right, natAbs_apply, if_neg (Nat.ne_of_lt hlt)]
      exact congrArg unpackedUnits? (unpack_pack_zero _)
    | finite sign' m' e' hm' =>
      change _ = product? (sign.apply (units m e)) (sign'.apply (units m' e'))
      rw [product?_of_small hlt (units_lt_tooLarge (hy rfl))]
      exact (roundsTo_mul (hx rfl).1 (hy rfl).1).units?_pack

/-- The sum of numbers of units. One that is too large takes anything but its opposite. -/
def sum? (a b : Int) : Option Int :=
  if a.natAbs = tooLarge ∨ b.natAbs = tooLarge then
    if a + b = 0 then none else if a.natAbs = tooLarge then some a else some b
  else some (rounded ((a + b) * perUnit))

section Sum

variable {a b : Int}

theorem sum?_of_small (ha : a.natAbs < tooLarge) (hb : b.natAbs < tooLarge) :
    sum? a b = some (rounded ((a + b) * perUnit)) :=
  if_neg (by omega)

theorem sum?_of_large (ha : a.natAbs = tooLarge) :
    sum? a b = if a + b = 0 then none else some a := by
  unfold sum?
  rw [if_pos (.inl ha), if_pos ha]

theorem sum?_of_large_left (ha : a.natAbs = tooLarge) (hb : b.natAbs < tooLarge) :
    sum? a b = some a := by
  rw [sum?_of_large ha, if_neg (by omega)]

theorem sum?_of_large_right (ha : a.natAbs < tooLarge) (hb : b.natAbs = tooLarge) :
    sum? a b = some b := by
  unfold sum?
  rw [if_pos (.inr hb), if_neg (by omega), if_neg (by omega)]

theorem sum?_zero_right (ha : IsFloat a) : sum? a 0 = some a := by
  have hzero : (0 : Int).natAbs < tooLarge := tooLarge_pos
  rcases Nat.lt_or_eq_of_le ha.le with hsmall | hlarge
  · rw [sum?_of_small hsmall hzero, Int.add_zero, ha.rounded hsmall]
  · exact sum?_of_large_left hlarge hzero

theorem sum?_zero_left (ha : IsFloat a) : sum? 0 a = some a := by
  have hzero : (0 : Int).natAbs < tooLarge := tooLarge_pos
  rcases Nat.lt_or_eq_of_le ha.le with hsmall | hlarge
  · rw [sum?_of_small hzero hsmall, Int.zero_add, ha.rounded hsmall]
  · exact sum?_of_large_right hzero hlarge

theorem sum?_self (ha : a.natAbs = tooLarge) : sum? a a = some a := by
  have hpos := tooLarge_pos
  rw [sum?_of_large ha, if_neg (by omega)]

theorem sum?_of_eq_neg (ha : a.natAbs = tooLarge) (hb : b = -a) : sum? a b = none := by
  rw [sum?_of_large ha, hb, if_pos (Int.add_right_neg a)]

theorem units?_normalize (z : Int) {e : Int} (he : -1074 ≤ e) (zeroSign : Sign) :
    unpackedUnits?
        (Float.Model.pack (UnpackedFloat.normalize Format.binary64 z e zeroSign)).unpack =
      some (rounded (z * (2 ^ (e + 2148).toNat : Nat))) := by
  unfold UnpackedFloat.normalize
  rcases Int.lt_trichotomy z 0 with hz | rfl | hz
  · have hcompare : compare z 0 = .lt := Int.compare_eq_lt.mpr hz
    obtain ⟨k, hk⟩ : ∃ k : Nat, z = -k := ⟨z.natAbs, by omega⟩
    subst hk
    rw [hcompare, Int.neg_neg, Int.toNat_natCast]
    dsimp only
    rw [(roundsTo_round .negative (by omega) he).units?_pack, Int.neg_mul, ← Int.natCast_mul]
    rfl
  · have hcompare : compare (0 : Int) 0 = .eq := rfl
    rw [hcompare, Int.zero_mul, rounded_zero]
    exact congrArg unpackedUnits? (unpack_pack_zero _)
  · have hcompare : compare z 0 = .gt := Int.compare_eq_gt.mpr hz
    obtain ⟨k, hk⟩ : ∃ k : Nat, z = k := ⟨z.natAbs, by omega⟩
    subst hk
    rw [hcompare, Int.toNat_natCast]
    dsimp only
    rw [(roundsTo_round .positive (by omega) he).units?_pack, ← Int.natCast_mul]
    rfl

theorem shifted_mul (sign : Sign) {m : Nat} {e least : Int} (hleast : -1074 ≤ least)
    (hle : least ≤ e) :
    sign.apply (m <<< (e - least).toNat : Nat) * (2 ^ (least + 2148).toNat : Nat) =
      sign.apply (units m e) * perUnit := by
  have hpower : (e - least).toNat + (least + 2148).toNat = (e + 1074).toNat + 1074 := by omega
  have hunits : m <<< (e - least).toNat * 2 ^ (least + 2148).toNat = units m e * perUnit := by
    rw [units, mul_perUnit, Nat.shiftLeft_eq, Nat.mul_assoc, ← Nat.pow_add, hpower]
  have hmul (n n' : Nat) : sign.apply n * (n' : Int) = sign.apply (n * n' : Nat) := by
    cases sign with
    | positive => exact (Int.natCast_mul ..).symm
    | negative =>
      change -(n : Int) * n' = -(n * n' : Nat)
      rw [Int.neg_mul, Int.natCast_mul]
  rw [hmul, hmul, hunits]

end Sum

theorem units?_add (x y : Float) :
    units? (x + y) = (do sum? (← units? x) (← units? y)) := by
  have hx := @isCanonical_of_unpack x
  have hy := @isCanonical_of_unpack y
  change unpackedUnits? (Float.Model.pack
    (UnpackedFloat.add Format.binary64 x.toModel.unpack y.toModel.unpack)).unpack =
      (do sum? (← unpackedUnits? x.toModel.unpack) (← unpackedUnits? y.toModel.unpack))
  generalize x.toModel.unpack = u at hx ⊢
  generalize y.toModel.unpack = v at hy ⊢
  cases u with
  | notANumber => exact congrArg unpackedUnits? unpack_pack_notANumber
  | infinity sign =>
    cases v with
    | notANumber => exact congrArg unpackedUnits? unpack_pack_notANumber
    | infinity sign' =>
      change _ = sum? (sign.apply tooLarge) (sign'.apply tooLarge)
      cases sign <;> cases sign'
      · rw [sum?_self (natAbs_apply ..)]
        exact congrArg unpackedUnits? (unpack_pack_infinity _)
      · have hnone := sum?_of_eq_neg (natAbs_apply .negative tooLarge) (Int.neg_neg _).symm
        exact (congrArg unpackedUnits? unpack_pack_notANumber).trans hnone.symm
      · have hnone := sum?_of_eq_neg (natAbs_apply .positive tooLarge) rfl
        exact (congrArg unpackedUnits? unpack_pack_notANumber).trans hnone.symm
      · rw [sum?_self (natAbs_apply ..)]
        exact congrArg unpackedUnits? (unpack_pack_infinity _)
    | zero sign' =>
      change _ = sum? (sign.apply tooLarge) 0
      rw [sum?_zero_right (isFloat_tooLarge sign)]
      exact congrArg unpackedUnits? (unpack_pack_infinity _)
    | finite sign' m' e' hm' =>
      change _ = sum? (sign.apply tooLarge) (sign'.apply (units m' e'))
      rw [sum?_of_large_left (natAbs_apply ..) (natAbs_units_lt sign' (hy rfl))]
      exact congrArg unpackedUnits? (unpack_pack_infinity _)
  | zero sign =>
    cases v with
    | notANumber => exact congrArg unpackedUnits? unpack_pack_notANumber
    | infinity sign' =>
      change _ = sum? 0 (sign'.apply tooLarge)
      rw [sum?_zero_left (isFloat_tooLarge sign')]
      exact congrArg unpackedUnits? (unpack_pack_infinity _)
    | zero sign' =>
      change _ = sum? 0 0
      rw [sum?_zero_left isFloat_zero]
      cases sign <;> cases sign' <;> exact congrArg unpackedUnits? (unpack_pack_zero _)
    | finite sign' m' e' hm' =>
      change _ = sum? 0 (sign'.apply (units m' e'))
      rw [sum?_zero_left (isFloat_units sign' (hy rfl))]
      exact congrArg unpackedUnits? (unpack_pack_of_small (hy rfl).1 (hy rfl).2)
  | finite sign m e hm =>
    have hlt := natAbs_units_lt sign (hx rfl)
    cases v with
    | notANumber => exact congrArg unpackedUnits? unpack_pack_notANumber
    | infinity sign' =>
      change _ = sum? (sign.apply (units m e)) (sign'.apply tooLarge)
      rw [sum?_of_large_right hlt (natAbs_apply ..)]
      exact congrArg unpackedUnits? (unpack_pack_infinity _)
    | zero sign' =>
      change _ = sum? (sign.apply (units m e)) 0
      rw [sum?_zero_right (isFloat_units sign (hx rfl))]
      exact congrArg unpackedUnits? (unpack_pack_of_small (hx rfl).1 (hx rfl).2)
    | finite sign' m' e' hm' =>
      have hleast := (hx rfl).1.exponent
      have hleast' := (hy rfl).1.exponent
      -- both are brought to the smaller exponent, where nothing is lost, and then rounded once
      change _ = sum? (sign.apply (units m e)) (sign'.apply (units m' e'))
      rw [sum?_of_small hlt (natAbs_units_lt sign' (hy rfl))]
      change unpackedUnits? (Float.Model.pack (UnpackedFloat.normalize Format.binary64
        (sign.apply (m <<< (e - min e e').toNat : Nat) +
          sign'.apply (m' <<< (e' - min e e').toNat : Nat)) (min e e') .positive)).unpack = _
      rw [units?_normalize _ (by omega), Int.add_mul, Int.add_mul,
        shifted_mul sign (by omega) (by omega), shifted_mul sign' (by omega) (by omega)]

section Order

variable {s a b w t z : Int}

theorem product?_cases (hs : 0 < s) (h : product? s a = some z) :
    (s.natAbs = tooLarge ∨ a.natAbs = tooLarge) ∧ (0 < a ∧ z = tooLarge ∨ a < 0 ∧ z = -tooLarge) ∨
      s.natAbs ≠ tooLarge ∧ a.natAbs ≠ tooLarge ∧ z = rounded (s * a) := by
  unfold product? at h
  split_ifs at h with hlarge hzero hpos <;> cases h
  · exact .inl ⟨hlarge, .inl ⟨Int.pos_of_mul_pos_right hpos hs, rfl⟩⟩
  · refine .inl ⟨hlarge, .inr ⟨?_, rfl⟩⟩
    have hne : a ≠ 0 := fun ha => hzero (ha ▸ Int.mul_zero s)
    have hnot : ¬0 < a := fun ha => hpos (Int.mul_pos hs ha)
    omega
  · exact .inr ⟨fun hs' => hlarge (.inl hs'), fun ha => hlarge (.inr ha), rfl⟩

theorem natAbs_le_of_product? (hs : 0 < s) (h : product? s a = some z) : z.natAbs ≤ tooLarge := by
  rcases product?_cases hs h with ⟨-, ⟨-, rfl⟩ | ⟨-, rfl⟩⟩ | ⟨-, -, rfl⟩
  · omega
  · omega
  · exact natAbs_rounded_le _

theorem exists_sum? (ha : IsFloat a) (hw : IsFloat w) (hpos : 0 ≤ w) (hlt : w.natAbs < tooLarge) :
    ∃ z, sum? a w = some z ∧ a ≤ z ∧ (0 ≤ a → w ≤ z) := by
  rcases Nat.lt_or_eq_of_le ha.le with hsmall | hlarge
  · have hleft : a * perUnit ≤ (a + w) * perUnit :=
      Int.mul_le_mul_of_nonneg_right (by omega) (Int.natCast_nonneg _)
    have hleft := rounded_mono hleft
    rw [ha.rounded hsmall] at hleft
    refine ⟨_, sum?_of_small hsmall hlt, hleft, fun hnonneg => ?_⟩
    have hright : w * perUnit ≤ (a + w) * perUnit :=
      Int.mul_le_mul_of_nonneg_right (by omega) (Int.natCast_nonneg _)
    have hright := rounded_mono hright
    rw [hw.rounded hlt] at hright
    exact hright
  · exact ⟨a, sum?_of_large_left hlarge hlt, Int.le_refl a, by omega⟩

theorem product?_mono (hs : 0 < s) (ha : a.natAbs ≤ tooLarge) (hb : b.natAbs ≤ tooLarge)
    (hle : a ≤ b) {p q : Int} (hp : product? s a = some p) (hq : product? s b = some q) :
    p ≤ q := by
  have hpabs := natAbs_le_of_product? hs hp
  have hqabs := natAbs_le_of_product? hs hq
  rcases product?_cases hs hp with ⟨hlarge, ⟨hpos, rfl⟩ | ⟨hneg, rfl⟩⟩ | ⟨hs', ha', rfl⟩
  · rcases product?_cases hs hq with ⟨-, ⟨-, rfl⟩ | ⟨hneg, -⟩⟩ | ⟨hs', hb', -⟩ <;> omega
  · omega
  · rcases product?_cases hs hq with ⟨hlarge, ⟨-, rfl⟩ | ⟨hneg, rfl⟩⟩ | ⟨-, -, rfl⟩
    · omega
    · omega
    · exact rounded_mono (Int.mul_le_mul_of_nonneg_left hle (Int.le_of_lt hs))

theorem sum?_of_large_or (ha : a.natAbs ≤ tooLarge) (hb : b.natAbs = tooLarge) :
    sum? a b = none ∨ sum? a b = some b := by
  rcases Nat.lt_or_eq_of_le ha with hsmall | hlarge
  · exact .inr (sum?_of_large_right hsmall hb)
  · rw [sum?_of_large hlarge]
    split_ifs with hsum
    · exact .inl rfl
    · exact .inr (congrArg some (by omega))

theorem sum?_eq_none (h : sum? a b = none) : a.natAbs = tooLarge ∧ b = -a := by
  unfold sum? at h
  split_ifs at h
  omega

theorem product?_eq_none (hs : 0 < s) (h : product? s a = none) :
    a = 0 ∧ s.natAbs = tooLarge := by
  unfold product? at h
  split_ifs at h with hlarge hzero
  have ha : a = 0 := by
    rcases Int.mul_eq_zero.mp hzero with hs' | ha
    · omega
    · exact ha
  have hpos := tooLarge_pos
  omega

theorem product?_of_infinite (hs : 0 < s) (hlarge : s.natAbs = tooLarge) (ha : a ≠ 0) :
    product? s a = some (if 0 < a then (tooLarge : Int) else -tooLarge) := by
  cases h : product? s a with
  | none => exact absurd (product?_eq_none hs h).1 ha
  | some z =>
    rcases product?_cases hs h with ⟨-, ⟨hpos, rfl⟩ | ⟨hneg, rfl⟩⟩ | ⟨hs', -⟩
    · rw [if_pos hpos]
    · rw [if_neg (by omega)]
    · exact absurd hlarge hs'

end Order

theorem units?_eq_none_iff {x : Float} : units? x = none ↔ x.toModel.unpack = .notANumber := by
  unfold units?
  generalize x.toModel.unpack = u
  cases u with
  | notANumber => exact iff_of_true rfl rfl
  | infinity | zero | finite => exact iff_of_false nofun nofun

theorem unpack_of_units?_eq_tooLarge {x : Float} (sign : Sign)
    (h : units? x = some (sign.apply tooLarge)) : x.toModel.unpack = .infinity sign := by
  have hcanonical := @isCanonical_of_unpack x
  have hpos := tooLarge_pos
  unfold units? at h
  generalize x.toModel.unpack = u at h hcanonical ⊢
  have habs (sign' : Sign) (n : Nat) (heq : sign'.apply n = sign.apply tooLarge) :
      n = tooLarge := by
    have := congrArg Int.natAbs heq
    rwa [natAbs_apply, natAbs_apply] at this
  cases u with
  | notANumber => cases h
  | zero sign' => exact absurd (habs .positive 0 (Option.some.inj h)) (Nat.ne_of_lt hpos)
  | infinity sign' =>
    have heq : sign'.apply tooLarge = sign.apply tooLarge := Option.some.inj h
    cases sign <;> cases sign'
    · rfl
    · change (tooLarge : Int) = -tooLarge at heq
      omega
    · change -(tooLarge : Int) = tooLarge at heq
      omega
    · rfl
  | finite sign' m e hm =>
    have hlt := units_lt_tooLarge (hcanonical rfl)
    exact absurd (habs sign' _ (Option.some.inj h)) (Nat.ne_of_lt hlt)

theorem units?_pos {x : Float} (hx : ¬x ≤ Scalar.ofNat 0) {z : Int} (h : units? x = some z) :
    0 < z := by
  have hzero : (Scalar.ofNat 0 : Float).toModel.unpack = .zero .positive := rfl
  have hpos := tooLarge_pos
  rw [float_le_iff, hzero] at hx
  unfold units? at h
  generalize x.toModel.unpack = u at h hx
  cases u with
  | notANumber => cases h
  | zero sign => exact absurd rfl hx
  | infinity sign =>
    cases sign with
    | negative => exact absurd rfl hx
    | positive =>
      cases h
      exact Int.natCast_pos.mpr hpos
  | finite sign m e hm =>
    cases sign with
    | negative => exact absurd rfl hx
    | positive =>
      cases h
      exact Int.natCast_pos.mpr (units_pos hm)

theorem units?_ofNat {n : Nat} (hpos : 0 < n) (hn : n < 2 ^ 32) :
    ∃ z, units? (Scalar.ofNat n) = some z ∧ 0 < z ∧ z.natAbs < tooLarge := by
  obtain ⟨hm, hunpack⟩ := unpack_ofNat hpos hn
  exact ⟨_, congrArg unpackedUnits? hunpack, Int.natCast_pos.mpr (units_pos hm),
    natAbs_units_lt .positive (isCanonical_of_unpack hunpack)⟩

end Binary64

end EngineBridge
