import EngineBridge.Proofs.Desktop.Operations
import EngineBridge.Proofs.Journal

/-! The geometry of windows. The sizes of a window, its pixels, its scale factor and its drawing
state agree at all times: they are those of its last resize, whatever else has happened. -/
namespace EngineBridge

variable {α : Type} [Scalar α]

namespace Window

structure IsUnsized (w : Window α) : Prop where
  scaleFactor : w.scaleFactor = Scalar.ofNat 1
  logical : w.canvas.styleSize = ⟨0, 0⟩
  physical : w.canvas.size = ⟨0, 0⟩
  pixels : w.canvas.surface.bytes.size = 0
  transform : w.canvas.context.transform = .identity
  smoothing : w.canvas.context.smoothing = true

/-- Whether the window has the geometry of a resize. -/
structure IsSized (w : Window α) (size : LogicalSize) (factor : α) : Prop where
  scaleFactor : w.scaleFactor = factor
  logical : w.canvas.styleSize = size
  physical : w.canvas.size = .ofLogical size factor
  area_le : w.canvas.size.area ≤ PhysicalSize.maxArea
  pixels : w.canvas.surface.bytes.size = 4 * w.canvas.size.area
  transform : w.canvas.context.transform =
    ⟨Scalar.ofNat 1 * factor, Scalar.ofNat 1 * factor, Scalar.ofNat 0, Scalar.ofNat 0⟩
  scale : Scalar.ofNat 1 * factor = factor →
    w.canvas.context.transform.scaleX = factor ∧ w.canvas.context.transform.scaleY = factor
  smoothing : w.canvas.context.smoothing = false

theorem isUnsized_new (handle : UInt32) : (new handle : Window α).IsUnsized :=
  ⟨rfl, rfl, rfl, rfl, rfl, rfl⟩

theorem isSized_resized (w : Window α) {size : LogicalSize} {factor : α}
    (h : (PhysicalSize.ofLogical size factor).area ≤ PhysicalSize.maxArea) :
    (w.resized size factor).IsSized size factor where
  scaleFactor := rfl
  logical := rfl
  physical := rfl
  area_le := h
  pixels := Canvas.size_bytes _
  transform := rfl
  scale := fun hone => ⟨hone, hone⟩
  smoothing := rfl

/-- Whether two windows differ at most in their titles and in the colours of their pixels. -/
structure SameGeometry (v w : Window α) : Prop where
  handle : v.handle = w.handle
  size : v.canvas.size = w.canvas.size
  styleSize : v.canvas.styleSize = w.canvas.styleSize
  context : v.canvas.context = w.canvas.context
  scaleFactor : v.scaleFactor = w.scaleFactor

variable {v w : Window α}

theorem sameGeometry_present (w : Window α) (b : Bitmap) : SameGeometry (w.present b) w := by
  obtain ⟨surface, hsize, hdraw⟩ :=
    w.canvas.exists_draw_eq b (Scalar.ofNat 0) (Scalar.ofNat 0)
  unfold present
  rw [hdraw]
  exact ⟨rfl, hsize, rfl, rfl, rfl⟩

theorem SameGeometry.isUnsized (h : SameGeometry v w) (hw : w.IsUnsized) : v.IsUnsized where
  scaleFactor := h.scaleFactor.trans hw.scaleFactor
  logical := h.styleSize.trans hw.logical
  physical := h.size.trans hw.physical
  pixels := by
    rw [Canvas.size_bytes, h.size, hw.physical]
    rfl
  transform := by rw [h.context, hw.transform]
  smoothing := by rw [h.context, hw.smoothing]

theorem SameGeometry.isSized (h : SameGeometry v w) {size : LogicalSize} {factor : α}
    (hw : w.IsSized size factor) : v.IsSized size factor where
  scaleFactor := h.scaleFactor.trans hw.scaleFactor
  logical := h.styleSize.trans hw.logical
  physical := h.size.trans hw.physical
  area_le := h.size ▸ hw.area_le
  pixels := Canvas.size_bytes _
  transform := by rw [h.context, hw.transform]
  scale := by
    rw [h.context]
    exact hw.scale
  smoothing := by rw [h.context, hw.smoothing]

end Window

def WindowOp.Shapes {α : Type} (handle : UInt32) : WindowOp α → Prop
  | .create other | .setSize other _ | .destroy other => other = handle
  | .setTitle _ _ | .show _ _ | .setDisplayScale _ => False

namespace Desktop

open Update

/-- Whether the entry is a resize at a factor: the display's, if that is finite and positive at the
time. -/
def IsResize (handle : UInt32) (size : LogicalSize) (factor : α)
    (e : Entry (Desktop α) (WindowOp α)) : Prop :=
  e.input = .setSize handle size ∧
    factor = if Scalar.isFinite e.before.displayScale ∧ Scalar.ofNat 0 < e.before.displayScale
      then e.before.displayScale else Scalar.ofNat 1

/-- Whether the window has the geometry of its last resize, or its first one if there was none
since it was created. -/
def HasShape (handle : UInt32) (done : List (Entry (Desktop α) (WindowOp α))) (w : Window α) :
    Prop :=
  Since (·.input = .create handle) (·.input.Shapes handle) done ∧ w.IsUnsized ∨
    ∃ size factor, Since (IsResize handle size factor) (·.input.Shapes handle) done ∧
      w.IsSized size factor

variable {d d' : Desktop α} {done : List (Entry (Desktop α) (WindowOp α))} {handle : UInt32}
  {v w : Window α} {op : WindowOp α}

theorem HasShape.concat (h : HasShape handle done w) (hop : ¬op.Shapes handle) :
    HasShape handle (done ++ [⟨d, op⟩]) w := by
  rcases h with ⟨hsince, hw⟩ | ⟨size, factor, hsince, hw⟩
  · exact .inl ⟨since_concat.mpr (.inr ⟨hsince, hop⟩), hw⟩
  · exact .inr ⟨size, factor, since_concat.mpr (.inr ⟨hsince, hop⟩), hw⟩

theorem HasShape.of_sameGeometry (h : HasShape handle done w) (hv : v.SameGeometry w) :
    HasShape handle done v := by
  rcases h with ⟨hsince, hw⟩ | ⟨size, factor, hsince, hw⟩
  · exact .inl ⟨hsince, hv.isUnsized hw⟩
  · exact .inr ⟨size, factor, hsince, hv.isSized hw⟩

theorem isResize_setSize (d : Desktop α) (handle : UInt32) (size : LogicalSize) :
    IsResize handle size d.scaleFactor ⟨d, .setSize handle size⟩ := by
  refine ⟨rfl, ?_⟩
  unfold scaleFactor
  simp only [Bool.and_eq_true, decide_eq_true_eq]

omit [Scalar α] in
theorem mem_replace {windows : List (Window α)} (h : v ∈ replace w windows) :
    v = w ∨ v ∈ windows ∧ v.handle ≠ w.handle := by
  obtain ⟨u, hu, rfl⟩ := List.mem_map.mp h
  split
  · exact .inl rfl
  · exact .inr ⟨hu, ‹_›⟩

theorem hasShape_replace (h : ∀ w ∈ d.windows, HasShape w.handle done w)
    (hop : ∀ k ≠ w.handle, ¬op.Shapes k)
    (hw : HasShape w.handle (done ++ [⟨d, op⟩]) w) (hv : v ∈ replace w d.windows) :
    HasShape v.handle (done ++ [⟨d, op⟩]) v := by
  rcases mem_replace hv with rfl | ⟨hv, hne⟩
  · exact hw
  · exact (h v hv).concat (hop v.handle hne)

theorem Step.hasShape (hstep : Step d op d') (h : ∀ w ∈ d.windows, HasShape w.handle done w) :
    ∀ w ∈ d'.windows, HasShape w.handle (done ++ [⟨d, op⟩]) w := by
  intro v hv
  cases hstep with
  | @create handle hget =>
    rcases mem_insert.mp hv with rfl | hv
    · exact .inl ⟨since_concat.mpr (.inl rfl), Window.isUnsized_new handle⟩
    · refine (h v hv).concat fun heq => ?_
      have hsome := isSome_get?_iff.mpr ⟨v, hv, heq.symm⟩
      rw [hget] at hsome
      contradiction
  | @setTitle handle w hget title =>
    obtain ⟨hw, hhandle⟩ := get?_eq_some hget
    refine hasShape_replace h (fun _ _ => id) ?_ hv
    exact ((h w hw).concat id).of_sameGeometry ⟨rfl, rfl, rfl, rfl, rfl⟩
  | @setSize handle w hget size harea =>
    obtain ⟨hw, rfl⟩ := get?_eq_some hget
    refine hasShape_replace (w := w.resized size d.scaleFactor) h
      (fun k hk heq => hk heq.symm) (.inr ⟨size, d.scaleFactor, ?_, w.isSized_resized harea⟩) hv
    exact since_concat.mpr (.inl (isResize_setSize d w.handle size))
  | @«show» handle w hget bitmap =>
    obtain ⟨hw, hhandle⟩ := get?_eq_some hget
    have hsame := w.sameGeometry_present bitmap
    refine hasShape_replace h (fun _ _ => id) ?_ hv
    rw [hsame.handle]
    exact ((h w hw).concat id).of_sameGeometry hsame
  | @destroy handle hlive =>
    obtain ⟨hv, hne⟩ := List.mem_filter.mp hv
    exact (h v hv).concat fun heq => of_decide_eq_true hne heq.symm
  | setDisplayScale scale => exact (h v hv).concat id

theorem hasShape_of_mem_run (scale : α) (ops : List (WindowOp α)) :
    ∀ w ∈ (run { displayScale := scale } ops).windows,
      HasShape w.handle (journal perform { displayScale := scale } ops) w := by
  refine (journal_induction_of_isAtomicAt (I := IsSorted) (s := { displayScale := scale })
    (P := fun d done => ∀ w ∈ d.windows, HasShape w.handle done w)
    keeps_isSorted_perform (fun _ hsorted op => isAtomicAt_perform hsorted op) .nil ?_ ?_ ops).2
  · exact nofun
  · exact fun d done op d' h hrun => (step_of_run_perform hrun).hasShape h

/-- After any operations, on a display that may have reported anything, a live window has the
geometry of its last resize, or the first one if it was never resized. -/
theorem hasShape_run (scale : α) (ops : List (WindowOp α)) {handle : UInt32} {w : Window α}
    (h : (run { displayScale := scale } ops).get? handle = some w) :
    HasShape handle (journal perform { displayScale := scale } ops) w := by
  obtain ⟨hw, rfl⟩ := get?_eq_some h
  exact hasShape_of_mem_run scale ops w hw

theorem hasShape_run_refused :
    ∃ w, (run { displayScale := (3 / 2 : Rat) } [.create 7, .setSize 7 ⟨3, 2⟩, .setDisplayScale 0,
        .show 7 (.solid 1 1 .clear), .setSize 7 ⟨9000, 9000⟩]).get? 7 = some w ∧
      w.canvas.size = ⟨4, 3⟩ ∧
      HasShape 7 (journal perform { displayScale := (3 / 2 : Rat) } [.create 7, .setSize 7 ⟨3, 2⟩,
        .setDisplayScale 0, .show 7 (.solid 1 1 .clear), .setSize 7 ⟨9000, 9000⟩]) w := by
  have hlive : ((run { displayScale := (3 / 2 : Rat) } [.create 7, .setSize 7 ⟨3, 2⟩,
      .setDisplayScale 0, .show 7 (.solid 1 1 .clear), .setSize 7 ⟨9000, 9000⟩]).get? 7).map
        (·.canvas.size) = some ⟨4, 3⟩ := by decide +kernel
  obtain ⟨w, hget, hsize⟩ := Option.map_eq_some_iff.mp hlive
  exact ⟨w, hget, hsize, hasShape_run _ _ hget⟩

end Desktop

end EngineBridge
