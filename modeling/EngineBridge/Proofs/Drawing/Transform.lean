import EngineBridge.Proofs.Drawing.Painting
import Mathlib.Data.List.Induction
import Mathlib.Tactic.Ring

/-! Changes of a drawing state, one after the other. Over exact numbers the transform that they
leave takes a point through all of them since the last reset, beginning with the last one. -/
namespace EngineBridge

inductive ContextOp (α : Type) where
  | scale (sx sy : α)
  | translate (tx ty : α)
  | setSmoothing (on : Bool)
  | reset

namespace ContextOp

/-- Where a point goes that is drawn after the operation. -/
def moves : ContextOp Rat → Rat × Rat → Rat × Rat
  | .scale sx sy, (x, y) => (sx * x, sy * y)
  | .translate tx ty, (x, y) => (x + tx, y + ty)
  | .setSmoothing _, p | .reset, p => p

variable {α : Type}

def keepSince (since : List (ContextOp α)) : ContextOp α → List (ContextOp α)
  | .reset => []
  | op => since ++ [op]

/-- The operations after the last reset, or all of them if there is none. -/
def sinceReset (ops : List (ContextOp α)) : List (ContextOp α) := ops.foldl keepSince []

theorem sinceReset_concat (ops : List (ContextOp α)) (op : ContextOp α) :
    sinceReset (ops ++ [op]) = keepSince (sinceReset ops) op := by
  rw [sinceReset, List.foldl_append]
  rfl

end ContextOp

namespace DrawContext

open ContextOp

section Any

variable {α : Type} [Scalar α]

def perform (c : DrawContext α) : ContextOp α → DrawContext α
  | .scale sx sy => c.scale sx sy
  | .translate tx ty => c.translate tx ty
  | .setSmoothing on => c.setSmoothing on
  | .reset => .initial

def performed (c : DrawContext α) (ops : List (ContextOp α)) : DrawContext α :=
  ops.foldl perform c

theorem performed_append (c : DrawContext α) (ops later : List (ContextOp α)) :
    c.performed (ops ++ later) = (c.performed ops).performed later :=
  List.foldl_append

theorem performed_append_reset (c : DrawContext α) (before ops : List (ContextOp α)) :
    c.performed (before ++ .reset :: ops) = initial.performed ops := by
  rw [performed_append]
  rfl

end Any

theorem apply_initial (x y : Rat) : (initial : DrawContext Rat).transform.apply x y = (x, y) := by
  change ((1 : Rat) * x + 0, (1 : Rat) * y + 0) = (x, y)
  rw [one_mul, one_mul, add_zero, add_zero]

/-- An operation that is no reset comes before all that were there, as far as points are
concerned: its scale is scaled, and its way is measured in the units of that moment. -/
theorem apply_perform (c : DrawContext Rat) {op : ContextOp Rat} (hop : op ≠ .reset)
    (p : Rat × Rat) :
    (c.perform op).transform.apply p.1 p.2 =
      c.transform.apply (op.moves p).1 (op.moves p).2 := by
  cases op with
  | scale sx sy =>
    apply Prod.ext
    · change c.transform.scaleX * sx * p.1 + c.transform.translateX =
        c.transform.scaleX * (sx * p.1) + c.transform.translateX
      rw [mul_assoc]
    · change c.transform.scaleY * sy * p.2 + c.transform.translateY =
        c.transform.scaleY * (sy * p.2) + c.transform.translateY
      rw [mul_assoc]
  | translate tx ty =>
    apply Prod.ext
    · change c.transform.scaleX * p.1 + (c.transform.translateX + c.transform.scaleX * tx) =
        c.transform.scaleX * (p.1 + tx) + c.transform.translateX
      ring
    · change c.transform.scaleY * p.2 + (c.transform.translateY + c.transform.scaleY * ty) =
        c.transform.scaleY * (p.2 + ty) + c.transform.translateY
      ring
  | setSmoothing on => rfl
  | reset => exact absurd rfl hop

theorem apply_performed (ops : List (ContextOp Rat)) (p : Rat × Rat) :
    ((initial : DrawContext Rat).performed ops).transform.apply p.1 p.2 =
      (sinceReset ops).foldr moves p := by
  induction ops using List.reverseRecOn generalizing p with
  | nil => exact apply_initial p.1 p.2
  | append_singleton ops op ih =>
    rw [performed_append, sinceReset_concat]
    change (perform _ op).transform.apply p.1 p.2 = _
    by_cases hop : op = .reset
    · rw [hop]
      exact apply_initial p.1 p.2
    · have hkept : keepSince (sinceReset ops) op = sinceReset ops ++ [op] := by
        cases op with
        | reset => exact absurd rfl hop
        | _ => rfl
      rw [apply_perform _ hop, ih, hkept, List.foldr_append]
      rfl

end DrawContext

namespace CanvasOp

variable {α : Type}

def contextOp? : CanvasOp α → Option (ContextOp α)
  | .scale sx sy => some (.scale sx sy)
  | .translate tx ty => some (.translate tx ty)
  | .setSmoothing on => some (.setSmoothing on)
  | .reset => some .reset
  | .setSize _ | .setStyleSize _ | .draw .. => none

end CanvasOp

namespace Canvas

open Update

variable {α : Type} [Scalar α]

theorem context_after_perform (c : Canvas α) (op : CanvasOp α) :
    ((perform op).after c).context = c.context.performed op.contextOp?.toList := by
  cases op with
  | setSize size =>
    rw [after_eq, perform, run_setSize]
    cases size.checkLimit <;> rfl
  | draw b x y => exact context_draw c b x y
  | setStyleSize | scale | translate | reset | setSmoothing => rfl

theorem context_performed (c : Canvas α) (ops : List (CanvasOp α)) :
    (c.performed ops).context = c.context.performed (ops.filterMap CanvasOp.contextOp?) := by
  induction ops generalizing c with
  | nil => rfl
  | cons op ops ih =>
    change (performed ((perform op).after c) ops).context = _
    rw [ih, context_after_perform, ← DrawContext.performed_append]
    cases h : op.contextOp? with
    | none => rw [List.filterMap_cons_none h, Option.toList_none, List.nil_append]
    | some contextOp => rw [List.filterMap_cons_some h, Option.toList_some, List.singleton_append]

end Canvas

/-- Whatever was done to a drawing state, its transform takes a point through the operations since
the last reset, or since the beginning: the last operation moves the point first, and the first one
last. What came before a reset has no effect on anything. A canvas has the transform of its own
operations on the drawing state, whatever sizes and drawings come between them. -/
theorem DrawContext.transform_eq_composed (x y : Rat) :
    (∀ ops : List (ContextOp Rat),
      ((initial : DrawContext Rat).performed ops).transform.apply x y =
        (ContextOp.sinceReset ops).foldr ContextOp.moves (x, y)) ∧
    (∀ (c : DrawContext Rat) (before ops : List (ContextOp Rat)),
      c.performed (before ++ .reset :: ops) = initial.performed ops) ∧
    ∀ ops : List (CanvasOp Rat),
      ((Canvas.empty : Canvas Rat).performed ops).context.transform.apply x y =
        (ContextOp.sinceReset (ops.filterMap CanvasOp.contextOp?)).foldr ContextOp.moves
          (x, y) := by
  refine ⟨fun ops => apply_performed ops (x, y), performed_append_reset, fun ops => ?_⟩
  rw [Canvas.context_performed]
  exact apply_performed _ (x, y)

/-- A translation between two scales is in the units of the first. -/
example : ((DrawContext.initial : DrawContext Rat).performed
    [.scale 2 3, .translate 5 1, .setSmoothing false, .scale 10 10]).transform.apply 1 1 =
      (30, 33) := by decide +kernel

end EngineBridge
