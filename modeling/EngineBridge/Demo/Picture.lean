import EngineBridge.Drawing.Bitmap
import EngineBridge.Settings.Basic

/-! The pictures that the built-in engines paint, as functions of the column, the row and the
number of the frame. -/
namespace EngineBridge

def Bitmap.ofFn (width height : UInt32) (color : Nat → Nat → Pixel) : Bitmap :=
  (Bitmap.solid width height .clear).paint 0 width.toNat 0 height.toNat color

namespace DemoProgram

def cell : UInt32 := 8

def checkerColor (x y frame : UInt32) : Pixel :=
  if ((x + frame) / cell + y / cell) % 2 = 0 then ⟨0x20, 0x24, 0x30, 0xFF⟩
  else ⟨0xE0, 0xC8, 0x40, 0xFF⟩

def gradientColor (x y width height frame : UInt32) : Pixel :=
  ⟨(x * 255 / max width 1).toUInt8, (y * 255 / max height 1).toUInt8,
    (frame * 40 % 256).toUInt8, 0xFF⟩

def color (program : DemoProgram) (x y width height frame : UInt32) : Pixel :=
  match program with
  | .hello => checkerColor x y frame
  | .gradient => gradientColor x y width height frame

def render (program : DemoProgram) (width height frame : UInt32) : Except Violation Bitmap := do
  PhysicalSize.checkLimit ⟨width, height⟩
  return .ofFn width height fun y x => program.color (.ofNat x) (.ofNat y) width height frame

end DemoProgram

end EngineBridge
