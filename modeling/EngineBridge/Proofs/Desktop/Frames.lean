import EngineBridge.Proofs.Desktop.Geometry
import EngineBridge.Proofs.Drawing.Nearest

/-! Frames over exact numbers. A frame that is no smaller than its window leaves nothing of what was
shown before, whatever the scale factor; a smaller one replaces what its scaled rectangle covers. -/
namespace EngineBridge

theorem centreWithin_zero_iff {scale : Rat} {count p : Nat} :
    CentreWithin 0 scale count p ↔ (p : Rat) + 1 / 2 < scale * count := by
  have hp : (0 : Rat) ≤ p := Nat.cast_nonneg p
  unfold CentreWithin
  rw [zero_add]
  exact and_iff_right (by linarith)

namespace Canvas

variable {α : Type} [Scalar α]

/-- What is drawn over a whole surface does not depend on what was there. -/
theorem draw_eq_of_covers {c c' : Canvas α} (hsize : c.size = c'.size)
    (hcontext : c.context = c'.context) (hstyle : c.styleSize = c'.styleSize) {b : Bitmap} {x y : α}
    (h : ∀ px py, px < c.size.width.toNat → py < c.size.height.toNat →
      (written c.size c.context b x y).Contains px py) : c.draw b x y = c'.draw b x y := by
  apply eq_of_pixel?
  · rw [size_draw, size_draw, hsize]
  · rw [context_draw, context_draw, hcontext]
  · rw [styleSize_draw, styleSize_draw, hstyle]
  · intro px py
    rw [pixel?_draw, pixel?_draw, ← hsize, ← hcontext]
    split
    · rfl
    · rename_i hout
      have hoff : ¬(px < c.size.width.toNat ∧ py < c.size.height.toNat) := fun hon =>
        hout (h px py hon.1 hon.2)
      have hoff' : ¬(px < c'.size.width.toNat ∧ py < c'.size.height.toNat) := hsize ▸ hoff
      exact (if_neg hoff).trans (if_neg hoff').symm

end Canvas

namespace Window

open Canvas

variable {w : Window Rat} {size : LogicalSize} {factor : Rat}

theorem IsSized.context_eq (h : w.IsSized size factor) :
    w.canvas.context = ⟨⟨factor, factor, 0, 0⟩, false⟩ := by
  have htransform : w.canvas.context.transform = ⟨1 * factor, 1 * factor, 0, 0⟩ := h.transform
  rw [one_mul] at htransform
  rw [← htransform, ← h.smoothing]

theorem apply_origin (factor : Rat) :
    (Transform.mk factor factor 0 0).apply (0 : Rat) 0 = (0, 0) := by
  simp [Transform.apply]

theorem ink_at_origin (hfactor : 0 < factor) {b : Bitmap} {px py : Nat}
    (hx : (px : Rat) + 1 / 2 < factor * b.width.toNat)
    (hy : (py : Rat) + 1 / 2 < factor * b.height.toNat) :
    some (ink ⟨⟨factor, factor, 0, 0⟩, false⟩ b 0 0 py px) =
      b.pixel? (((px : Rat) + 1 / 2) / factor).floor.toNat
        (((py : Rat) + 1 / 2) / factor).floor.toNat := by
  have hcentreX : CentreWithin ((Transform.mk factor factor 0 0).apply (0 : Rat) 0).1 factor
      b.width.toNat px := by
    rw [apply_origin]
    exact centreWithin_zero_iff.mpr hx
  have hcentreY : CentreWithin ((Transform.mk factor factor 0 0).apply (0 : Rat) 0).2 factor
      b.height.toNat py := by
    rw [apply_origin]
    exact centreWithin_zero_iff.mpr hy
  have hink : some (ink ⟨⟨factor, factor, 0, 0⟩, false⟩ b 0 0 py px) = _ :=
    ink_of_centreWithin rfl hfactor hfactor hcentreX hcentreY
  rw [apply_origin, sourceIndex, sourceIndex, sub_zero, sub_zero] at hink
  exact hink

section Frame

variable (h : w.IsSized size factor) (hfactor : 0 < factor) {b : Bitmap} {px py : Nat}

include h hfactor

theorem contains_written_frame_iff (hx : px < w.canvas.size.width.toNat)
    (hy : py < w.canvas.size.height.toNat) :
    (written w.canvas.size w.canvas.context b 0 0).Contains px py ↔
      (px : Rat) + 1 / 2 < factor * b.width.toNat ∧
        (py : Rat) + 1 / 2 < factor * b.height.toNat := by
  rw [h.context_eq, contains_written_iff_centres hfactor hfactor hx hy, apply_origin,
    centreWithin_zero_iff, centreWithin_zero_iff]

theorem pixel?_present (hx : px < w.canvas.size.width.toNat)
    (hy : py < w.canvas.size.height.toNat) :
    (w.present b).canvas.surface.pixel? px py =
      if (px : Rat) + 1 / 2 < factor * b.width.toNat ∧
          (py : Rat) + 1 / 2 < factor * b.height.toNat then
        b.pixel? (((px : Rat) + 1 / 2) / factor).floor.toNat
          (((py : Rat) + 1 / 2) / factor).floor.toNat
      else w.canvas.surface.pixel? px py := by
  have hwritten := contains_written_frame_iff h hfactor (b := b) hx hy
  change (w.canvas.draw b 0 0).surface.pixel? px py = _
  rw [pixel?_draw]
  by_cases hin : (written w.canvas.size w.canvas.context b 0 0).Contains px py
  · have hcovered := hwritten.mp hin
    rw [if_pos hin, if_pos hcovered, h.context_eq, ink_at_origin hfactor hcovered.1 hcovered.2]
  · rw [if_neg hin, if_neg (hwritten.not.mp hin)]

/-- A frame that is no smaller than its window covers every pixel, also where the last one is only
begun by the units of the window. -/
theorem contains_written_full_frame (hw : size.width ≤ b.width) (hh : size.height ≤ b.height)
    (hx : px < w.canvas.size.width.toNat) (hy : py < w.canvas.size.height.toNat) :
    (written w.canvas.size w.canvas.context b 0 0).Contains px py := by
  have hcentre {units count : UInt32} {p : Nat} (hp : p < (PhysicalSize.scaleAxis units factor).toNat)
      (hle : units ≤ count) : (p : Rat) + 1 / 2 < factor * count.toNat := by
    have hunits := PhysicalSize.add_one_le_of_lt_scaleAxis hp
    have hcount : (units.toNat : Rat) ≤ count.toNat := by
      exact_mod_cast UInt32.le_iff_toNat_le.mp hle
    calc (p : Rat) + 1 / 2 < p + 1 := by linarith
      _ ≤ units.toNat * factor := hunits
      _ ≤ count.toNat * factor := mul_le_mul_of_nonneg_right hcount hfactor.le
      _ = factor * count.toNat := mul_comm _ _
  apply (contains_written_frame_iff h hfactor hx hy).mpr
  rw [h.physical] at hx hy
  exact ⟨hcentre hx hw, hcentre hy hh⟩

end Frame

end Window

namespace Desktop

open Update

theorem IsResize.factor_pos {handle : UInt32} {size : LogicalSize} {factor : Rat}
    {e : Entry (Desktop Rat) (WindowOp Rat)} (h : IsResize handle size factor e) : 0 < factor := by
  rw [h.2]
  split
  · rename_i husable
    exact husable.2
  · exact one_pos

variable {α : Type} [Scalar α]

theorem shapes_of_isResize {handle : UInt32} {size : LogicalSize} {factor : α}
    (e : Entry (Desktop α) (WindowOp α)) (h : IsResize handle size factor e) :
    e.input.Shapes handle := by
  rw [h.1]
  rfl

theorem HasShape.isSized {handle : UInt32} {done : List (Entry (Desktop α) (WindowOp α))}
    {w : Window α} (h : HasShape handle done w) {size : LogicalSize} {factor : α}
    (hresize : Since (IsResize handle size factor) (·.input.Shapes handle) done) :
    w.IsSized size factor := by
  rcases h with ⟨hcreate, -⟩ | ⟨size', factor', hresize', hsized⟩
  · obtain ⟨e, he, he'⟩ := hresize.exists_common hcreate shapes_of_isResize (by
      intro e he
      rw [he]
      rfl)
    cases he.1.symm.trans he'
  · obtain ⟨e, he, he'⟩ := hresize.exists_common hresize' shapes_of_isResize
      shapes_of_isResize
    cases he.1.symm.trans he'.1
    rw [he.2, ← he'.2]
    exact hsized

/-- A frame on a window that was last resized at some factor. A pixel of the surface is written if
and only if its centre is on the frame as scaled by the factor, and shows the pixel of the frame
under that centre; all others stay as they were. So a frame that is no smaller than the window in
units leaves nothing of what was there: the canvas is that of a new window after the resize and the
frame. -/
theorem present_replaces (scale : Rat) (ops : List (WindowOp Rat)) {handle : UInt32}
    {w : Window Rat} (hlive : (run { displayScale := scale } ops).get? handle = some w)
    {size : LogicalSize} {factor : Rat}
    (hresize : Since (IsResize handle size factor) (·.input.Shapes handle)
      (journal perform { displayScale := scale } ops)) (b : Bitmap) :
    let isWritten := (Canvas.written w.canvas.size w.canvas.context b 0 0).Contains
    (∀ px py, px < w.canvas.size.width.toNat → py < w.canvas.size.height.toNat →
      let isOnFrame := (px : Rat) + 1 / 2 < factor * b.width.toNat ∧
        (py : Rat) + 1 / 2 < factor * b.height.toNat
      (isWritten px py ↔ isOnFrame) ∧
      (w.present b).canvas.surface.pixel? px py =
        if isOnFrame then
          b.pixel? (((px : Rat) + 1 / 2) / factor).floor.toNat
            (((py : Rat) + 1 / 2) / factor).floor.toNat
        else w.canvas.surface.pixel? px py) ∧
    (size.width ≤ b.width → size.height ≤ b.height →
      (∀ px py, px < w.canvas.size.width.toNat → py < w.canvas.size.height.toNat →
        isWritten px py) ∧
      (w.present b).canvas = (((Window.new handle).resized size factor).present b).canvas) := by
  obtain ⟨hw, rfl⟩ := get?_eq_some hlive
  have hsized : w.IsSized size factor := (hasShape_of_mem_run scale ops w hw).isSized hresize
  have hfactor : 0 < factor := by
    obtain ⟨e, he, -⟩ := hresize.exists_common hresize shapes_of_isResize shapes_of_isResize
    exact he.factor_pos
  refine ⟨fun px py hx hy => ⟨?_, ?_⟩, fun hwidth hheight => ⟨?_, ?_⟩⟩
  · exact Window.contains_written_frame_iff hsized hfactor hx hy
  · exact Window.pixel?_present hsized hfactor hx hy
  · exact fun px py => Window.contains_written_full_frame hsized hfactor hwidth hheight
  · have harea : (PhysicalSize.ofLogical size factor).area ≤ PhysicalSize.maxArea :=
      hsized.physical ▸ hsized.area_le
    have hnew := (Window.new w.handle).isSized_resized harea
    apply Canvas.draw_eq_of_covers
    · exact hsized.physical
    · exact hsized.context_eq.trans hnew.context_eq.symm
    · exact hsized.logical
    · exact fun px py => Window.contains_written_full_frame hsized hfactor hwidth hheight

section Last

variable {α : Type} [Scalar α] {d : Desktop α} {ops : List (WindowOp α)} {handle : UInt32}
  {size : LogicalSize}

theorem since_isResize_setSize
    (h : ((perform (.setSize handle size)).apply (d.run ops)).2 = .ok ()) :
    Since (IsResize handle size (d.run ops).scaleFactor) (·.input.Shapes handle)
      (journal perform d (ops ++ [.setSize handle size])) := by
  have hrun : (perform (.setSize handle size)).run (runAll perform d ops) = _ :=
    run_of_snd_apply h
  rw [journal_concat, hrun]
  exact since_concat.mpr (.inl (isResize_setSize (d.run ops) handle size))

theorem since_isResize_concat {factor : α} {op : WindowOp α} (hop : ¬op.Shapes handle)
    (h : Since (IsResize handle size factor) (·.input.Shapes handle) (journal perform d ops)) :
    Since (IsResize handle size factor) (·.input.Shapes handle)
      (journal perform d (ops ++ [op])) := by
  rw [journal_concat]
  cases (perform op).run (runAll perform d ops) with
  | ok _ d' => exact since_concat.mpr (.inr ⟨h, hop⟩)
  | error v d' =>
    rw [List.append_nil]
    exact h

end Last

/-- A window of 3 by 1 units has 4 pixels at 1.5, of which a frame of 1 by 1 covers the first. After
a red frame, a green one of that size leaves red behind, and one of the size of the window does
not. -/
theorem present_replaces_red :
    let red : Pixel := ⟨255, 0, 0, 255⟩
    let green : Pixel := ⟨0, 255, 0, 255⟩
    let ops : List (WindowOp Rat) := [.create 7, .setSize 7 ⟨3, 1⟩, .show 7 (.solid 3 1 red)]
    ∃ w, (run { displayScale := (3 / 2 : Rat) } ops).get? 7 = some w ∧
      Since (IsResize 7 ⟨3, 1⟩ (3 / 2)) (·.input.Shapes 7)
        (journal perform { displayScale := (3 / 2 : Rat) } ops) ∧
      (w.present (.solid 1 1 green)).canvas.surface.pixel? 0 0 = some green ∧
      (w.present (.solid 1 1 green)).canvas.surface.pixel? 1 0 = some red ∧
      (w.present (.solid 3 1 green)).canvas =
        (((Window.new 7).resized ⟨3, 1⟩ (3 / 2)).present (.solid 3 1 green)).canvas := by
  intro red green ops
  have hlive : ((run { displayScale := (3 / 2 : Rat) } ops).get? 7).map
      (fun w => (w.canvas.size, w.canvas.surface.pixel? 1 0)) = some (⟨4, 1⟩, some red) := by
    decide +kernel
  obtain ⟨w, hget, hw⟩ := Option.map_eq_some_iff.mp hlive
  obtain ⟨hsize, hred⟩ := Prod.mk.inj hw
  have hok : ((perform (.setSize 7 ⟨3, 1⟩)).apply
      (run { displayScale := (3 / 2 : Rat) } [.create 7])).2 = .ok () := by decide +kernel
  have hfactor : (run { displayScale := (3 / 2 : Rat) } [.create 7]).scaleFactor = 3 / 2 := by
    decide +kernel
  have hlast := since_isResize_setSize hok
  rw [hfactor] at hlast
  have hresize : Since (IsResize 7 ⟨3, 1⟩ (3 / 2)) (·.input.Shapes 7)
      (journal perform { displayScale := (3 / 2 : Rat) } ops) :=
    since_isResize_concat id hlast
  obtain ⟨hpixels, -⟩ := present_replaces _ ops hget hresize (.solid 1 1 green)
  obtain ⟨-, hfull⟩ := present_replaces _ ops hget hresize (.solid 3 1 green)
  rw [hsize] at hpixels
  refine ⟨w, hget, hresize, ?_, ?_, (hfull (by decide) (by decide)).2⟩
  · rw [(hpixels 0 0 (by decide) (by decide)).2, if_pos (by decide +kernel)]
    decide +kernel
  · rw [(hpixels 1 0 (by decide) (by decide)).2, if_neg (by decide +kernel), hred]

end Desktop

end EngineBridge
