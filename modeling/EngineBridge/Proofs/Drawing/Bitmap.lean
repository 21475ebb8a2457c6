import EngineBridge.Drawing.Bitmap

/-! Which sizes and bytes make a bitmap. -/
namespace EngineBridge

theorem PhysicalSize.checkLimit_eq_ok {size : PhysicalSize} :
    size.checkLimit = .ok () ↔ size.area ≤ maxArea := by
  unfold checkLimit
  split
  · rename_i h
    exact ⟨nofun, fun h' => absurd h' (Nat.not_le.mpr h)⟩
  · rename_i h
    exact ⟨fun _ => Nat.not_lt.mp h, fun _ => rfl⟩

namespace Bitmap

theorem ofBytes_eq_ok {width height : UInt32} {bytes : ByteArray} {b : Bitmap} :
    ofBytes width height bytes = .ok b ↔
      b.size.area ≤ PhysicalSize.maxArea ∧ b.width = width ∧ b.height = height ∧
        b.bytes = bytes := by
  unfold ofBytes
  constructor
  · intro h
    cases hlimit : PhysicalSize.checkLimit ⟨width, height⟩ with
    | error v =>
      rw [hlimit] at h
      contradiction
    | ok u =>
      rw [hlimit] at h
      change (if h : bytes.size = 4 * (width.toNat * height.toNat) then _ else _) = _ at h
      split at h
      · cases h
        exact ⟨PhysicalSize.checkLimit_eq_ok.mp hlimit, rfl, rfl, rfl⟩
      · contradiction
  · rintro ⟨harea, rfl, rfl, rfl⟩
    have hlimit : PhysicalSize.checkLimit ⟨b.width, b.height⟩ = .ok () :=
      PhysicalSize.checkLimit_eq_ok.mpr harea
    rw [hlimit]
    exact dif_pos b.size_bytes

theorem ofBytes_of_le {b : Bitmap} (h : b.size.area ≤ PhysicalSize.maxArea) :
    ofBytes b.width b.height b.bytes = .ok b :=
  ofBytes_eq_ok.mpr ⟨h, rfl, rfl, rfl⟩

theorem ofBytes_of_lt {width height : UInt32} (bytes : ByteArray)
    (h : PhysicalSize.maxArea < PhysicalSize.area ⟨width, height⟩) :
    ofBytes width height bytes = .error (.surfaceTooLarge width height PhysicalSize.maxArea) := by
  rw [ofBytes, PhysicalSize.checkLimit, if_pos h]
  rfl

end Bitmap

end EngineBridge
