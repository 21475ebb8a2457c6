import EngineBridge.Error
import EngineBridge.Drawing.Scalar

/-! Sizes in the units that engines ask for, and in pixels. -/
namespace EngineBridge

structure LogicalSize where
  width : UInt32 := 0
  height : UInt32 := 0
  deriving DecidableEq, Repr, Inhabited

structure PhysicalSize where
  width : UInt32 := 0
  height : UInt32 := 0
  deriving DecidableEq, Repr, Inhabited

namespace PhysicalSize

def maxArea : Nat := 8192 * 8192

def area (size : PhysicalSize) : Nat :=
  size.width.toNat * size.height.toNat

/-- The pixels along one axis; what does not fit a word becomes the largest one. -/
@[specialize] def scaleAxis {α : Type} [Scalar α] (units : UInt32) (factor : α) : UInt32 :=
  .ofNat (min (Scalar.truncate (Scalar.ofNat units.toNat * factor)) 0xFFFFFFFF)

@[specialize] def ofLogical {α : Type} [Scalar α] (size : LogicalSize) (factor : α) :
    PhysicalSize :=
  ⟨scaleAxis size.width factor, scaleAxis size.height factor⟩

def checkLimit (size : PhysicalSize) : Except Violation Unit :=
  if size.area > maxArea then .error (.surfaceTooLarge size.width size.height maxArea) else .ok ()

end PhysicalSize

end EngineBridge
