import EngineBridge.Json.Value
import EngineBridge.Drawing.Canvas

/-! One window of an engine. -/
namespace EngineBridge

structure Window (α : Type) where
  handle : UInt32
  title : String
  canvas : Canvas α
  scaleFactor : α

namespace Window

variable {α : Type} [Scalar α]

def new (handle : UInt32) : Window α := ⟨handle, "", .empty, Scalar.ofNat 1⟩

@[specialize] def onCanvas (update : Update (Canvas α) Unit) : Update (Window α) Unit :=
  Update.onPart Window.canvas (fun canvas w => { w with canvas := canvas }) update

/-- Gives the window the pixels of a size in units. Whatever the drawing state was, drawing then
takes units and does not smooth. -/
@[specialize] def resize (size : LogicalSize) (factor : α) : Update (Window α) Unit := do
  onCanvas (Canvas.setSize (.ofLogical size factor))
  onCanvas (Canvas.setStyleSize size)
  onCanvas (Canvas.onContext fun _ => .initial)
  onCanvas (Canvas.onContext (·.setSmoothing false))
  onCanvas (Canvas.onContext (·.scale factor factor))
  modify fun w => { w with scaleFactor := factor }

@[specialize] def present (w : Window α) (b : Bitmap) : Window α :=
  { w with canvas := w.canvas.draw b (Scalar.ofNat 0) (Scalar.ofNat 0) }

structure Info (α : Type) where
  handle : UInt32
  title : String
  logical : LogicalSize
  physical : PhysicalSize
  scaleFactor : α
  deriving DecidableEq, Repr

def info (w : Window α) : Info α :=
  ⟨w.handle, w.title, w.canvas.styleSize, w.canvas.size, w.scaleFactor⟩

end Window

def Json.ofSize (width height : UInt32) : Json :=
  .object [("width", .int width.toNat), ("height", .int height.toNat)]

def Window.Info.toJson (i : Window.Info Float) : Json :=
  .object [
    ("handle", .int i.handle.toNat),
    ("title", .text i.title),
    ("logical", .ofSize i.logical.width i.logical.height),
    ("physical", .ofSize i.physical.width i.physical.height),
    ("scale_factor", .float i.scaleFactor)]

end EngineBridge
