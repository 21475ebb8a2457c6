import EngineBridge.Proofs.Desktop.Handles
import EngineBridge.Proofs.Drawing.Canvas

/-! Each operation on a desktop as a whole: when it is refused and with which fault, and otherwise
what becomes of the windows. -/
namespace EngineBridge

namespace Window

variable {α : Type} [Scalar α]

/-- The window at a new size. Only its handle and title are left of what it was. -/
def resized (w : Window α) (size : LogicalSize) (factor : α) : Window α where
  handle := w.handle
  title := w.title
  canvas := {
    surface := .solid (PhysicalSize.scaleAxis size.width factor)
      (PhysicalSize.scaleAxis size.height factor) .clear
    styleSize := size
    context := (DrawContext.initial.setSmoothing false).scale factor factor }
  scaleFactor := factor

theorem run_resize (size : LogicalSize) (factor : α) (w : Window α) :
    (resize size factor).run w =
      match (PhysicalSize.ofLogical size factor).checkLimit with
      | .ok _ => .ok () (w.resized size factor)
      | .error v => .error v w := by
  have hset : (onCanvas (Canvas.setSize (α := α) (.ofLogical size factor))).run w =
      match (PhysicalSize.ofLogical size factor).checkLimit with
      | .ok _ => .ok () { w with canvas := { w.canvas with
          surface := .solid (PhysicalSize.scaleAxis size.width factor)
            (PhysicalSize.scaleAxis size.height factor) .clear } }
      | .error v => .error v w := by
    unfold onCanvas
    rw [Update.run_onPart, Canvas.run_setSize]
    cases hlimit : (PhysicalSize.ofLogical size factor).checkLimit <;> rfl
  unfold resize
  rw [EStateM.run_bind, hset]
  cases hlimit : (PhysicalSize.ofLogical size factor).checkLimit <;> rfl

end Window

namespace Desktop

variable {α : Type}

theorem run_onWindow (handle : UInt32) (update : Update (Window α) Unit) (d : Desktop α) :
    (onWindow handle update).run d =
      match d.get? handle with
      | none => .error (.unknownWindow handle) d
      | some w =>
        match update.run w with
        | .ok _ w' => .ok () { d with windows := replace w' d.windows }
        | .error v w' => .error v { d with windows := replace w' d.windows } := by
  change EStateM.run (match d.get? handle with | none => _ | some w => _) d = _
  cases d.get? handle with
  | none => rfl
  | some w =>
    dsimp only
    rw [Update.run_onPart]
    cases update.run w <;> rfl

theorem run_setTitle (handle : UInt32) (title : String) (d : Desktop α) :
    (setTitle handle title).run d =
      match d.get? handle with
      | none => .error (.unknownWindow handle) d
      | some w => .ok () { d with
          windows := replace { w with title := title } d.windows
          changes := d.changes + 1 } := by
  unfold setTitle
  rw [EStateM.run_bind, run_onWindow]
  cases d.get? handle <;> rfl

variable [Scalar α]

theorem run_setSize (handle : UInt32) (size : LogicalSize) (d : Desktop α) :
    (setSize handle size).run d =
      match d.get? handle with
      | none => .error (.unknownWindow handle) d
      | some w =>
        match (PhysicalSize.ofLogical size d.scaleFactor).checkLimit with
        | .ok _ => .ok () { d with
            windows := replace (w.resized size d.scaleFactor) d.windows
            changes := d.changes + 1 }
        | .error v => .error v { d with windows := replace w d.windows } := by
  change EStateM.run (onWindow handle (Window.resize size d.scaleFactor) >>= fun _ => notify) d = _
  rw [EStateM.run_bind, run_onWindow]
  cases d.get? handle with
  | none => rfl
  | some w =>
    simp only [Window.run_resize]
    cases (PhysicalSize.ofLogical size d.scaleFactor).checkLimit <;> rfl

theorem run_show (handle : UInt32) (bitmap : Bitmap) (d : Desktop α) :
    («show» handle bitmap).run d =
      match d.get? handle with
      | none => .error (.unknownWindow handle) d
      | some w => .ok () { d with windows := replace (w.present bitmap) d.windows } := by
  unfold «show»
  rw [run_onWindow]
  cases d.get? handle <;> rfl

/-- What an operation comes to that is not refused. -/
inductive Step : Desktop α → WindowOp α → Desktop α → Prop
  | create {d : Desktop α} {handle : UInt32} (h : d.get? handle = none) :
    Step d (.create handle) { d with
      windows := insert (.new handle) d.windows
      changes := d.changes + 1 }
  | setTitle {d : Desktop α} {handle : UInt32} {w : Window α} (h : d.get? handle = some w)
      (title : String) :
    Step d (.setTitle handle title) { d with
      windows := replace { w with title := title } d.windows
      changes := d.changes + 1 }
  | setSize {d : Desktop α} {handle : UInt32} {w : Window α} (h : d.get? handle = some w)
      {size : LogicalSize}
      (harea : (PhysicalSize.ofLogical size d.scaleFactor).area ≤ PhysicalSize.maxArea) :
    Step d (.setSize handle size) { d with
      windows := replace (w.resized size d.scaleFactor) d.windows
      changes := d.changes + 1 }
  | «show» {d : Desktop α} {handle : UInt32} {w : Window α} (h : d.get? handle = some w)
      (bitmap : Bitmap) :
    Step d (.show handle bitmap) { d with windows := replace (w.present bitmap) d.windows }
  | destroy {d : Desktop α} {handle : UInt32} (h : (d.get? handle).isSome) :
    Step d (.destroy handle) { d with
      windows := d.windows.filter (·.handle ≠ handle)
      changes := d.changes + 1 }
  | setDisplayScale (d : Desktop α) (scale : α) :
    Step d (.setDisplayScale scale) { d with displayScale := scale }

theorem step_of_run_perform {d d' : Desktop α} {op : WindowOp α}
    (h : (perform op).run d = .ok () d') : Step d op d' := by
  cases op with
  | create handle =>
    change (create handle).run d = _ at h
    rw [run_create] at h
    split at h
    · contradiction
    · rename_i hlive
      cases h
      exact .create (by simpa using hlive)
  | setTitle handle title =>
    change (setTitle handle title).run d = _ at h
    rw [run_setTitle] at h
    split at h
    · contradiction
    · rename_i w hget
      cases h
      exact .setTitle hget title
  | setSize handle size =>
    change (setSize handle size).run d = _ at h
    rw [run_setSize] at h
    split at h
    · contradiction
    · rename_i w hget
      split at h
      · rename_i hlimit
        cases h
        exact .setSize hget (PhysicalSize.checkLimit_eq_ok.mp hlimit)
      · contradiction
  | «show» handle bitmap =>
    change («show» handle bitmap).run d = _ at h
    rw [run_show] at h
    split at h
    · contradiction
    · rename_i w hget
      cases h
      exact .show hget bitmap
  | destroy handle =>
    change (destroy handle).run d = _ at h
    rw [run_destroy] at h
    split at h
    · rename_i hlive
      cases h
      exact .destroy hlive
    · contradiction
  | setDisplayScale scale =>
    cases h
    exact .setDisplayScale d scale

end Desktop

end EngineBridge
