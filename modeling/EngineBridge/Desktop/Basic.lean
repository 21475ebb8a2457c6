import EngineBridge.Desktop.Window

/-! The windows of an engine on a display. Windows are told apart by the handles that the engine
gives them; a handle may be given again once its window is destroyed. -/
namespace EngineBridge

structure Desktop (α : Type) where
  /-- the live windows, by ascending handle -/
  windows : List (Window α) := []
  /-- what the display reports as its pixels per unit, which may be unusable -/
  displayScale : α
  /-- how often a window has appeared, disappeared, or changed its title or size -/
  changes : Nat := 0

inductive WindowOp (α : Type) where
  | create (handle : UInt32)
  | setTitle (handle : UInt32) (title : String)
  | setSize (handle : UInt32) (size : LogicalSize)
  | show (handle : UInt32) (bitmap : Bitmap)
  | destroy (handle : UInt32)
  | setDisplayScale (scale : α)

def WindowOp.handle? {α : Type} : WindowOp α → Option UInt32
  | .create handle | .setTitle handle _ | .setSize handle _ | .show handle _
  | .destroy handle => some handle
  | .setDisplayScale _ => none

namespace Desktop

variable {α : Type} [Scalar α]

def get? (d : Desktop α) (handle : UInt32) : Option (Window α) :=
  d.windows.find? (fun w => w.handle = handle)

def handles (d : Desktop α) : List UInt32 := d.windows.map (·.handle)

def size (d : Desktop α) : Nat := d.windows.length

def isEmpty (d : Desktop α) : Bool := d.windows.isEmpty

def infos (d : Desktop α) : List (Window.Info α) := d.windows.map Window.info

/-- The scale factor of a resize: the display's if it is finite and positive, and otherwise 1. -/
def scaleFactor (d : Desktop α) : α :=
  if Scalar.isFinite d.displayScale && Scalar.ofNat 0 < d.displayScale then d.displayScale
  else Scalar.ofNat 1

def insert (w : Window α) : List (Window α) → List (Window α)
  | [] => [w]
  | v :: rest => if w.handle < v.handle then w :: v :: rest else v :: insert w rest

def replace (w : Window α) (windows : List (Window α)) : List (Window α) :=
  windows.map fun v => if v.handle = w.handle then w else v

@[specialize] def onWindow (handle : UInt32) (update : Update (Window α) Unit) :
    Update (Desktop α) Unit := do
  match (← get).get? handle with
  | none => throw (.unknownWindow handle)
  | some w =>
    Update.onPart (fun _ => w) (fun w d => { d with windows := replace w d.windows }) update

def notify : Update (Desktop α) Unit :=
  modify fun d => { d with changes := d.changes + 1 }

def create (handle : UInt32) : Update (Desktop α) Unit := do
  if ((← get).get? handle).isSome then throw (.duplicateWindow handle)
  modify fun d => { d with windows := insert (.new handle) d.windows }
  notify

def setTitle (handle : UInt32) (title : String) : Update (Desktop α) Unit := do
  onWindow handle (modify fun w => { w with title := title })
  notify

@[specialize] def setSize (handle : UInt32) (size : LogicalSize) : Update (Desktop α) Unit := do
  let factor := (← get).scaleFactor
  onWindow handle (Window.resize size factor)
  notify

@[specialize] def «show» (handle : UInt32) (bitmap : Bitmap) : Update (Desktop α) Unit :=
  onWindow handle (modify fun w => w.present bitmap)

def destroy (handle : UInt32) : Update (Desktop α) Unit := do
  let live := ((← get).get? handle).isSome
  modify fun d => { d with windows := d.windows.filter (·.handle ≠ handle) }
  if !live then throw (.unknownWindow handle)
  notify

@[specialize] def perform : WindowOp α → Update (Desktop α) Unit
  | .create handle => create handle
  | .setTitle handle title => setTitle handle title
  | .setSize handle size => setSize handle size
  | .show handle bitmap => «show» handle bitmap
  | .destroy handle => destroy handle
  | .setDisplayScale scale => modify fun d => { d with displayScale := scale }

def run (d : Desktop α) (ops : List (WindowOp α)) : Desktop α :=
  ops.foldl (fun d op => (perform op).after d) d

end Desktop

end EngineBridge
