import EngineBridge.Proofs.Desktop.Locality
import Mathlib.Data.List.DropRight

/-! What is left of a window's history. A window is what its last title, its last resize and the
frames since then make of a new one. Nothing else that happened leaves a trace. -/
namespace EngineBridge

variable {α : Type}

namespace WindowOp

def creates (handle : UInt32) : WindowOp α → Bool
  | .create other => other = handle
  | _ => false

def title? (handle : UInt32) : WindowOp α → Option String
  | .setTitle other title => if other = handle then some title else none
  | _ => none

def size? (handle : UInt32) : WindowOp α → Option LogicalSize
  | .setSize other size => if other = handle then some size else none
  | _ => none

def frame? (handle : UInt32) : WindowOp α → Option Bitmap
  | .show other bitmap => if other = handle then some bitmap else none
  | _ => none

end WindowOp

variable [Scalar α]

namespace Window

theorem foldl_present_title (frames : List Bitmap) (w : Window α) (title : String) :
    frames.foldl present { w with title := title } =
      { frames.foldl present w with title := title } := by
  induction frames generalizing w with
  | nil => rfl
  | cons frame rest ih => exact ih (w.present frame)

theorem handle_foldl_present (frames : List Bitmap) (w : Window α) :
    (frames.foldl present w).handle = w.handle := by
  induction frames generalizing w with
  | nil => rfl
  | cons frame rest ih => exact ih (w.present frame)

theorem after_resize_title (size : LogicalSize) (factor : α) (w : Window α) (title : String) :
    (resize size factor).after { w with title := title } =
      { (resize size factor).after w with title := title } := by
  rw [Update.after_eq, Update.after_eq, run_resize, run_resize]
  cases (PhysicalSize.ofLogical size factor).checkLimit <;> rfl

theorem after_resize {size : LogicalSize} {factor : α} (w : Window α)
    (h : (PhysicalSize.ofLogical size factor).checkLimit = .ok ()) :
    (resize size factor).after w = w.resized size factor := by
  refine Update.after_of_run_ok (a := ()) ?_
  rw [run_resize, h]

theorem present_new (handle : UInt32) (frame : Bitmap) :
    (new handle : Window α).present frame = new handle := by
  have hempty : (Bitmap.solid 0 0 .clear).bytes.isEmpty = true := rfl
  simp [present, new, Canvas.draw, Canvas.empty, hempty]

end Window

namespace Desktop

open Update

/-- What has been done since the window of the handle was created. -/
def life (handle : UInt32) (done : List (Entry (Desktop α) (WindowOp α))) :
    List (Entry (Desktop α) (WindowOp α)) :=
  done.rtakeWhile fun e => !e.input.creates handle

variable (handle : UInt32) (past : List (Entry (Desktop α) (WindowOp α)))

def lastTitle : String := (past.filterMap (·.input.title? handle)).getLast?.getD ""

def resize? (e : Entry (Desktop α) (WindowOp α)) : Option (LogicalSize × α) :=
  (e.input.size? handle).map (·, e.before.scaleFactor)

def lastResize? : Option (LogicalSize × α) := (past.filterMap (resize? handle)).getLast?

def framesSinceResize : List Bitmap :=
  (past.rtakeWhile fun e => (resize? handle e).isNone).filterMap (·.input.frame? handle)

/-- The window that is made at once of what a past has left. -/
def remade : Window α :=
  let w : Window α := { Window.new handle with title := lastTitle handle past }
  match lastResize? handle past with
  | none => w
  | some (size, factor) =>
    (framesSinceResize handle past).foldl Window.present ((Window.resize size factor).after w)

def drawn : Window α :=
  match lastResize? handle past with
  | none => .new handle
  | some (size, factor) =>
    (framesSinceResize handle past).foldl Window.present
      ((Window.resize size factor).after (.new handle))

variable {handle past}

theorem remade_eq : remade handle past =
    { drawn handle past with title := lastTitle handle past } := by
  unfold remade drawn
  cases lastResize? handle past with
  | none => rfl
  | some sized => simp only [Window.after_resize_title, Window.foldl_present_title]

variable {e : Entry (Desktop α) (WindowOp α)}

omit [Scalar α] in
theorem life_concat : life handle (past ++ [e]) =
    if e.input.creates handle then [] else life handle past ++ [e] := by
  unfold life
  cases h : e.input.creates handle <;> simp [h]

omit [Scalar α] in
theorem lastTitle_concat : lastTitle handle (past ++ [e]) =
    (e.input.title? handle).getD (lastTitle handle past) := by
  unfold lastTitle
  cases h : e.input.title? handle <;> simp [List.filterMap_append, h]

theorem lastResize?_concat : lastResize? handle (past ++ [e]) =
    (resize? handle e <|> lastResize? handle past) := by
  unfold lastResize?
  cases h : resize? handle e <;> simp [List.filterMap_append, h]

theorem framesSinceResize_concat : framesSinceResize handle (past ++ [e]) =
    if (resize? handle e).isSome then []
    else framesSinceResize handle past ++ (e.input.frame? handle).toList := by
  unfold framesSinceResize
  cases h : resize? handle e <;> cases hf : e.input.frame? handle <;>
    simp [List.filterMap_append, h, hf]

theorem drawn_concat_of_none (h : resize? handle e = none) :
    drawn handle (past ++ [e]) =
      (e.input.frame? handle).toList.foldl Window.present (drawn handle past) := by
  unfold drawn
  rw [lastResize?_concat, framesSinceResize_concat, h]
  cases hlast : lastResize? handle past with
  | none =>
    cases e.input.frame? handle with
    | none => rfl
    | some frame => exact (Window.present_new handle frame).symm
  | some sized =>
    simp only [Option.isSome_none, Bool.false_eq_true, if_false, List.foldl_append]
    rfl

theorem drawn_concat_of_some {size : LogicalSize} {factor : α}
    (h : resize? handle e = some (size, factor)) :
    drawn handle (past ++ [e]) = (Window.resize size factor).after (.new handle) := by
  unfold drawn
  rw [lastResize?_concat, framesSinceResize_concat, h]
  rfl

theorem handle_drawn : (drawn handle past).handle = handle := by
  unfold drawn
  cases lastResize? handle past with
  | none => rfl
  | some sized =>
    dsimp only
    rw [Window.handle_foldl_present, Update.after_eq, Window.run_resize]
    cases (PhysicalSize.ofLogical sized.1 sized.2).checkLimit <;> rfl

variable {d d' : Desktop α} {op : WindowOp α} {w : Window α}
  {done : List (Entry (Desktop α) (WindowOp α))}

theorem remade_concat (h : e.input.creates handle = false) :
    remade handle (life handle (done ++ [e])) =
      { drawn handle (life handle done ++ [e]) with
        title := (e.input.title? handle).getD (lastTitle handle (life handle done)) } := by
  rw [life_concat, h, if_neg Bool.false_ne_true, remade_eq, lastTitle_concat]

theorem remade_concat_of_ne (h : e.input.handle? ≠ some handle) :
    remade handle (life handle (done ++ [e])) = remade handle (life handle done) := by
  obtain ⟨before, op⟩ := e
  have hnone : op.creates handle = false ∧ op.title? handle = none ∧ op.size? handle = none ∧
      op.frame? handle = none := by
    cases op <;>
      simp_all [WindowOp.handle?, WindowOp.creates, WindowOp.title?, WindowOp.size?,
        WindowOp.frame?]
  obtain ⟨hcreates, htitle, hsize, hframe⟩ := hnone
  have hresize : resize? handle ⟨before, op⟩ = none := by simp [resize?, hsize]
  rw [remade_concat hcreates, remade_eq, drawn_concat_of_none hresize, htitle, hframe]
  rfl

theorem eq_remade_of_step (hstep : Step d op d')
    (h : ∀ w, d.get? handle = some w → w = remade handle (life handle done))
    (hw : d'.get? handle = some w) : w = remade handle (life handle (done ++ [⟨d, op⟩])) := by
  by_cases hop : op.handle? = some handle
  · have hown := hstep.onOwn_eq hop
    rw [hw] at hown
    cases hget : d.get? handle with
    | none =>
      -- only a creation goes through without a window, and it begins a new life
      rw [hget] at hown
      cases op <;> cases hop <;> cases hown
      rw [life_concat]
      simp only [WindowOp.creates, decide_true, if_true]
      rfl
    | some v =>
      rw [hget] at hown
      have hv := (h v hget).trans remade_eq
      cases op with
      | create k => cases hown
      | setTitle k title =>
        cases hop
        cases hown
        have hresize : resize? handle ⟨d, .setTitle handle title⟩ = none := rfl
        rw [remade_concat rfl, drawn_concat_of_none hresize, hv]
        simp [WindowOp.title?, WindowOp.frame?]
      | setSize k size =>
        cases hop
        cases hstep with
        | setSize hget' harea =>
          have hlimit := PhysicalSize.checkLimit_eq_ok.mpr harea
          have hresize : resize? handle ⟨d, .setSize handle size⟩ =
              some (size, d.scaleFactor) := by
            simp [resize?, WindowOp.size?]
          rw [WindowOp.onOwn, hlimit] at hown
          cases hown
          rw [remade_concat rfl, drawn_concat_of_some hresize, Window.after_resize _ hlimit, hv]
          simp [Window.resized, handle_drawn, WindowOp.title?, Window.new]
      | «show» k bitmap =>
        cases hop
        cases hown
        have hresize : resize? handle ⟨d, .show handle bitmap⟩ = none := rfl
        rw [remade_concat rfl, drawn_concat_of_none hresize, hv]
        simp [WindowOp.title?, WindowOp.frame?, Window.present]
      | destroy k => cases hown
      | setDisplayScale scale => cases hop
  · rw [hstep.get?_eq hop] at hw
    rw [h w hw, remade_concat_of_ne hop]

theorem eq_remade_of_get?_run (scale : α) (ops : List (WindowOp α)) :
    ∀ w, (run { displayScale := scale } ops).get? handle = some w →
      w = remade handle (life handle (journal perform { displayScale := scale } ops)) := by
  refine (journal_induction_of_isAtomicAt (I := IsSorted) (s := { displayScale := scale })
    (P := fun d done => ∀ w, d.get? handle = some w → w = remade handle (life handle done))
    keeps_isSorted_perform (fun _ hsorted op => isAtomicAt_perform hsorted op) .nil ?_ ?_ ops).2
  · exact nofun
  · exact fun d done op d' h hrun w hw => eq_remade_of_step (step_of_run_perform hrun) h hw

/-- A window is there if it was created and not destroyed since, and it is then a new one with the
last title that it was given since, the last size, and the frames shown since that. Earlier titles,
sizes and frames leave no trace, nor do refusals, other windows, or one of the same handle before
it. -/
theorem get?_run_eq_some (scale : α) (ops : List (WindowOp α)) (handle : UInt32) (w : Window α) :
    let done := journal perform { displayScale := scale } ops
    (run { displayScale := scale } ops).get? handle = some w ↔
      IsLive handle done ∧ w = remade handle (life handle done) := by
  intro done
  have hlive : handle ∈ (run { displayScale := scale } ops).handles ↔ IsLive handle done :=
    (follows_run scale ops).2.mem_handles handle
  rw [mem_handles] at hlive
  constructor
  · intro hget
    exact ⟨hlive.mp (Option.isSome_of_mem hget), eq_remade_of_get?_run scale ops w hget⟩
  · rintro ⟨hsince, rfl⟩
    obtain ⟨v, hv⟩ := Option.isSome_iff_exists.mp (hlive.mpr hsince)
    rw [hv, eq_remade_of_get?_run scale ops v hv]

end Desktop

end EngineBridge
