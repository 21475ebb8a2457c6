import EngineBridge.Proofs.Call.Engine
import Mathlib.Algebra.Group.Nat.Defs

/-! Images on their way to the host. An image made of bytes is within the limit, one in a single
colour need not be, and the host takes no other than those within it. -/
namespace EngineBridge

namespace Bitmap

variable {width height : UInt32} {p : Pixel}

theorem toNat_byteCount (width height : UInt32) :
    (byteCount width height).toNat = 4 * (width.toNat * height.toNat) % 2 ^ 64 := by
  have hfits : width.toNat * height.toNat < 2 ^ 64 :=
    calc
      width.toNat * height.toNat < 2 ^ 32 * 2 ^ 32 :=
        Nat.mul_lt_mul'' width.toNat_lt height.toNat_lt
      _ = 2 ^ 64 := rfl
  rw [byteCount, UInt64.toNat_mul, UInt64.toNat_mul, UInt32.toNat_toUInt64,
    UInt32.toNat_toUInt64, Nat.mod_eq_of_lt hfits, Nat.mul_comm]
  rfl

theorem size_solidBytes (width height : UInt32) (p : Pixel) :
    (solidBytes width height p).size = 4 * (width.toNat * height.toNat) % 2 ^ 64 := by
  rw [solidBytes, Pixel.size_fill, ByteArray.size_empty, toNat_byteCount]
  omega

/-- Words count the bytes of an image of less than `2 ^ 62` pixels, and of no other. -/
theorem size_solidBytes_eq_iff :
    (solidBytes width height p).size = 4 * (width.toNat * height.toNat) ↔
      width.toNat * height.toNat < 2 ^ 62 := by
  rw [size_solidBytes]
  omega

theorem solidBytes_of_lt (h : width.toNat * height.toNat < 2 ^ 62) :
    solidBytes width height p = (solid width height p).bytes := by
  have hcount : (byteCount width height).toNat / 4 = width.toNat * height.toNat := by
    rw [toNat_byteCount]
    omega
  rw [solidBytes, hcount]
  rfl

theorem solid?_of_lt (h : width.toNat * height.toNat < 2 ^ 62) :
    solid? width height p = some (solid width height p) := by
  unfold solid?
  simp only [solidBytes_of_lt h]
  exact dif_pos (solid width height p).size_bytes

theorem solid?_of_le (h : 2 ^ 62 ≤ width.toNat * height.toNat) : solid? width height p = none :=
  dif_neg (size_solidBytes_eq_iff.not.mpr (Nat.not_lt.mpr h))

theorem solid?_eq_some {b : Bitmap} :
    solid? width height p = some b ↔
      width.toNat * height.toNat < 2 ^ 62 ∧ b = solid width height p := by
  rcases Nat.lt_or_ge (width.toNat * height.toNat) (2 ^ 62) with hfew | hmany
  · rw [solid?_of_lt hfew, Option.some.injEq]
    exact ⟨fun h => ⟨hfew, h.symm⟩, fun h => h.2.symm⟩
  · rw [solid?_of_le hmany]
    exact ⟨nofun, fun h => absurd h.1 (Nat.not_lt.mpr hmany)⟩

theorem exists_ofBytes_iff {bytes : ByteArray} :
    (∃ b, ofBytes width height bytes = .ok b) ↔
      PhysicalSize.area ⟨width, height⟩ ≤ PhysicalSize.maxArea ∧
        bytes.size = 4 * PhysicalSize.area ⟨width, height⟩ := by
  constructor
  · rintro ⟨b, hb⟩
    obtain ⟨harea, rfl, rfl, rfl⟩ := ofBytes_eq_ok.mp hb
    exact ⟨harea, b.size_bytes⟩
  · rintro ⟨harea, hsize⟩
    exact ⟨⟨width, height, bytes, hsize⟩, ofBytes_eq_ok.mpr ⟨harea, rfl, rfl, rfl⟩⟩

theorem exists_solid?_iff :
    (∃ b, solid? width height p = some b) ↔ width.toNat * height.toNat < 2 ^ 62 := by
  simp [solid?_eq_some]

end Bitmap

namespace EngineCall

variable {handle : UInt32} {b : Bitmap}

theorem ofFrame_frame_windowShow :
    ofFrame (windowShow handle b).frame =
      (Bitmap.ofBytes b.width b.height b.bytes).map (windowShow handle) := by
  unfold ofFrame
  rw [parse_frame_eq, ok_bind, decode, encode, EngineMethod.ofName?_name]
  simp only [ofArgs, args, method, Argument.unsigned_ofUInt32, Argument.bitmap_ofBitmap, ok_bind]
  rfl

theorem ofFrame_of_lt (h : PhysicalSize.maxArea < b.size.area) :
    ofFrame (windowShow handle b).frame =
      .error (.surfaceTooLarge b.width b.height PhysicalSize.maxArea) := by
  rw [ofFrame_frame_windowShow, Bitmap.ofBytes_of_lt _ h]
  rfl

theorem ofFrame_eq_ok_iff :
    ofFrame (windowShow handle b).frame = .ok (windowShow handle b) ↔
      b.size.area ≤ PhysicalSize.maxArea := by
  rcases Nat.lt_or_ge PhysicalSize.maxArea b.size.area with hover | hwithin
  · rw [ofFrame_of_lt hover]
    exact ⟨nofun, fun h => absurd h (Nat.not_le.mpr hover)⟩
  · rw [ofFrame_frame_windowShow, Bitmap.ofBytes_of_le hwithin]
    exact ⟨fun _ => hwithin, fun _ => rfl⟩

end EngineCall

end EngineBridge
