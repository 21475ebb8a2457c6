import EngineBridge.Proofs.Drawing.Bitmap
import EngineBridge.Proofs.Drawing.Checked
import EngineBridge.Proofs.Update

/-! A canvas under its operations, in any order and with any numbers. It never has more pixels than
a surface may have, and drawing on it never leaves a buffer. -/
namespace EngineBridge

inductive CanvasOp (α : Type) where
  | setSize (size : PhysicalSize)
  | setStyleSize (size : LogicalSize)
  | scale (sx sy : α)
  | translate (tx ty : α)
  | reset
  | setSmoothing (on : Bool)
  | draw (b : Bitmap) (x y : α)

namespace Canvas

open Update

variable {α : Type}

theorem size_bytes (c : Canvas α) : c.surface.bytes.size = 4 * c.size.area :=
  c.surface.size_bytes

theorem run_setSize (size : PhysicalSize) (c : Canvas α) :
    (setSize size).run c =
      match size.checkLimit with
      | .ok _ => .ok () { c with surface := .solid size.width size.height .clear }
      | .error v => .error v c := by
  unfold setSize
  rw [EStateM.run_bind]
  cases hlimit : size.checkLimit <;> rfl

variable [Scalar α]

theorem exists_draw_eq (c : Canvas α) (b : Bitmap) (x y : α) :
    ∃ surface : Bitmap, surface.size = c.size ∧ c.draw b x y = { c with surface := surface } := by
  unfold draw
  dsimp only
  split
  · exact ⟨c.surface, rfl, rfl⟩
  · refine ⟨_, ?_, rfl⟩
    rfl

def perform : CanvasOp α → Update (Canvas α) Unit
  | .setSize size => setSize size
  | .setStyleSize size => setStyleSize size
  | .scale sx sy => onContext (·.scale sx sy)
  | .translate tx ty => onContext (·.translate tx ty)
  | .reset => onContext fun _ => .initial
  | .setSmoothing on => onContext (·.setSmoothing on)
  | .draw b x y => modify (·.draw b x y)

/-- What operations make of a canvas, refused ones included. -/
def performed (c : Canvas α) (ops : List (CanvasOp α)) : Canvas α :=
  ops.foldl (fun c op => (perform op).after c) c

/-- Only a size is refused, if it is too large. That leaves the canvas as it was. -/
theorem run_perform_eq_error {op : CanvasOp α} {c c' : Canvas α} {v : Violation} :
    (perform op).run c = .error v c' ↔
      c' = c ∧ ∃ size, op = .setSize size ∧ PhysicalSize.maxArea < size.area ∧
        v = .surfaceTooLarge size.width size.height PhysicalSize.maxArea := by
  cases op with
  | setSize size =>
    rw [perform, run_setSize]
    by_cases hlarge : PhysicalSize.maxArea < size.area
    · have hlimit : size.checkLimit =
          .error (.surfaceTooLarge size.width size.height PhysicalSize.maxArea) := if_pos hlarge
      rw [hlimit]
      constructor
      · rintro ⟨⟩
        exact ⟨rfl, size, rfl, hlarge, rfl⟩
      · rintro ⟨rfl, _, ⟨⟩, -, rfl⟩
        rfl
    · rw [PhysicalSize.checkLimit_eq_ok.mpr (Nat.not_lt.mp hlarge)]
      refine iff_of_false nofun ?_
      rintro ⟨-, _, ⟨⟩, hover, -⟩
      exact hlarge hover
  | setStyleSize | scale | translate | reset | setSmoothing | draw =>
    refine iff_of_false (cannotRefuse_modify _ c v c') ?_
    rintro ⟨-, _, ⟨⟩, -⟩

theorem keeps_area_le_perform (op : CanvasOp α) :
    Keeps (fun c => c.size.area ≤ PhysicalSize.maxArea) (perform op) := by
  intro c hc
  cases op with
  | setSize size =>
    rw [after_eq, perform, run_setSize]
    cases hlimit : size.checkLimit with
    | ok => exact PhysicalSize.checkLimit_eq_ok.mp hlimit
    | error v => exact hc
  | setStyleSize | scale | translate | reset | setSmoothing => exact hc
  | draw b x y =>
    obtain ⟨surface, hsize, hdraw⟩ := c.exists_draw_eq b x y
    change (c.draw b x y).size.area ≤ _
    rw [hdraw]
    change surface.size.area ≤ _
    rwa [hsize]

theorem area_performed_le {c : Canvas α} (hc : c.size.area ≤ PhysicalSize.maxArea)
    (ops : List (CanvasOp α)) : (c.performed ops).size.area ≤ PhysicalSize.maxArea := by
  induction ops generalizing c with
  | nil => exact hc
  | cons op rest ih => exact ih (keeps_area_le_perform op c hc)

/-- Whatever has been done to a canvas, its bytes are those of its size, which is within the limit.
Only a size above the limit is refused, and that changes nothing. A pixel is read from the bytes of
the surface if its place is on the surface. To draw any image anywhere, no buffer has to be left,
and nothing but the surface changes, which keeps its size. -/
theorem performed_stays_in_bounds (ops : List (CanvasOp Float)) :
    let c := (empty : Canvas Float).performed ops
    c.surface.bytes.size = 4 * (c.size.width.toNat * c.size.height.toNat) ∧
    c.size.area ≤ PhysicalSize.maxArea ∧
    (∀ op v c', (perform op).run c = .error v c' ↔
      c' = c ∧ ∃ size, op = .setSize size ∧ PhysicalSize.maxArea < size.area ∧
        v = .surfaceTooLarge size.width size.height PhysicalSize.maxArea) ∧
    (∀ x y, c.surface.readPixel? x y = c.surface.pixel? x y ∧
      ((c.surface.pixel? x y).isSome ↔ x < c.size.width.toNat ∧ y < c.size.height.toNat)) ∧
    ∀ b x y, c.draw? b x y = some (c.draw b x y) ∧
      ∃ surface : Bitmap, surface.size = c.size ∧ c.draw b x y = { c with surface := surface } := by
  intro c
  have hempty : (empty : Canvas Float).size.area ≤ PhysicalSize.maxArea := Nat.zero_le _
  refine ⟨c.size_bytes, area_performed_le hempty ops, fun op v c' => run_perform_eq_error,
    fun x y => ⟨c.surface.readPixel?_eq x y, ?_⟩,
    fun b x y => ⟨c.draw?_eq b x y, c.exists_draw_eq b x y⟩⟩
  unfold Bitmap.pixel?
  split
  · rename_i h
    exact iff_of_true rfl h
  · rename_i h
    exact iff_of_false nofun h

end Canvas

end EngineBridge
