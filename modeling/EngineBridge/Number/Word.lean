/-! Integers that fit the words of the machine. -/
namespace EngineBridge.Word

def unsigned? (n : Int) : Option UInt32 :=
  if 0 ≤ n ∧ n < 0x100000000 then some (.ofNat n.toNat) else none

def signed? (n : Int) : Option Int32 :=
  if -0x80000000 ≤ n ∧ n < 0x80000000 then some (.ofInt n) else none

def isLong (n : Int) : Bool := decide (-0x8000000000000000 ≤ n ∧ n < 0x8000000000000000)

@[simp] theorem unsigned?_toNat (w : UInt32) : unsigned? w.toNat = some w := by
  have h := w.toNat_lt
  unfold unsigned?
  rw [if_pos (by omega)]
  simp

theorem unsigned?_eq_some {n : Int} {w : UInt32} (h : unsigned? n = some w) : n = w.toNat := by
  unfold unsigned? at h
  split at h
  · cases h
    simp only [UInt32.toNat_ofNat']
    omega
  · contradiction

@[simp] theorem signed?_toInt (w : Int32) : signed? w.toInt = some w := by
  have low := w.le_toInt
  have high := w.toInt_lt
  unfold signed?
  rw [if_pos (by omega)]
  simp

theorem signed?_eq_some {n : Int} {w : Int32} (h : signed? n = some w) : n = w.toInt := by
  unfold signed? at h
  split at h
  case isTrue range =>
    cases h
    exact (Int32.toInt_ofInt_of_le (by omega) (by omega)).symm
  case isFalse => contradiction

end EngineBridge.Word
