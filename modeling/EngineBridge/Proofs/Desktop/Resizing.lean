import EngineBridge.Proofs.Desktop.Locality
import EngineBridge.Proofs.Drawing.Size

/-! Resizes beyond what a word can tell. A resize is accepted exactly if the scaled area is within
the limit, so an axis is only ever cut short on a surface that the other axis leaves without a
pixel. This holds of floats as of exact numbers. -/
namespace EngineBridge

namespace Desktop

open Update PhysicalSize

variable {α : Type} [Scalar α]

/-- What comes of a resize for which so many pixels are wanted along each axis. -/
structure Resizes (d : Desktop α) (handle : UInt32) (size : LogicalSize) (width height : ℕ∞) :
    Prop where
  accepted_iff : d.outcome (.setSize handle size) = .ok () ↔ width * height ≤ (maxArea : ℕ∞)
  refused : d.outcome (.setSize handle size) ≠ .ok () →
    ∃ w h, d.outcome (.setSize handle size) = .error (.surfaceTooLarge w h maxArea)
  exact : d.outcome (.setSize handle size) = .ok () →
    ∃ w, ((perform (.setSize handle size)).after d).get? handle = some w ∧
      IsExactOrIdle w.canvas.size.width width height ∧
      IsExactOrIdle w.canvas.size.height height width

variable {d : Desktop α} {handle : UInt32} {size : LogicalSize}

theorem outcome_setSize_of_isSome (hlive : (d.get? handle).isSome) :
    d.outcome (.setSize handle size) = (ofLogical size d.scaleFactor).checkLimit := by
  rw [outcome_setSize, if_pos hlive]

theorem get?_after_setSize {w : Window α} (hget : d.get? handle = some w)
    (harea : (ofLogical size d.scaleFactor).area ≤ maxArea) :
    ((perform (.setSize handle size)).after d).get? handle =
      some (w.resized size d.scaleFactor) := by
  have hlimit := checkLimit_eq_ok.mpr harea
  have hok : d.outcome (.setSize handle size) = .ok () := by
    rw [outcome_setSize_of_isSome (hget ▸ rfl), hlimit]
  have hown := (step_of_run_perform (run_of_snd_apply hok)).onOwn_eq (k := handle) rfl
  rw [hget, WindowOp.onOwn, hlimit] at hown
  exact (Except.ok.inj hown).symm

theorem resizes_of_isCapped (hlive : (d.get? handle).isSome) {width height : ℕ∞}
    (hwidth : IsCapped (scaleAxis size.width d.scaleFactor) width)
    (hheight : IsCapped (scaleAxis size.height d.scaleFactor) height) :
    d.Resizes handle size width height := by
  have houtcome : d.outcome (.setSize handle size) = (ofLogical size d.scaleFactor).checkLimit :=
    outcome_setSize_of_isSome hlive
  refine ⟨?_, ?_, ?_⟩
  · rw [houtcome, checkLimit_eq_ok]
    exact area_le_iff hwidth hheight
  · intro hrefused
    rw [houtcome] at hrefused ⊢
    exact ⟨_, _, if_pos (Nat.not_le.mp (checkLimit_eq_ok.not.mp hrefused))⟩
  · intro hok
    obtain ⟨w, hget⟩ := Option.isSome_iff_exists.mp hlive
    rw [houtcome, checkLimit_eq_ok] at hok
    have hok' : (scaleAxis size.height d.scaleFactor).toNat *
        (scaleAxis size.width d.scaleFactor).toNat ≤ maxArea := Nat.mul_comm _ _ ▸ hok
    exact ⟨_, get?_after_setSize hget hok, isExactOrIdle_of_mul_le hwidth hheight hok,
      isExactOrIdle_of_mul_le hheight hwidth hok'⟩

theorem scaleFactor_of_usable (hfinite : Scalar.isFinite d.displayScale)
    (hpos : Scalar.ofNat 0 < d.displayScale) : d.scaleFactor = d.displayScale := by
  unfold scaleFactor
  rw [hfinite, decide_eq_true hpos]
  rfl

/-- A resize of a live window at the display's factor, over exact numbers and over floats, whose
product is rounded and then read as the number it is. It is accepted if and only if the product of
both axes, each without its fraction, is within the limit, and refused as too large otherwise. The
axes of an accepted one are exactly those, except that an axis which does not fit a word is as long
as a word can tell where the other axis has no pixel. -/
theorem setSize_exact_or_idle :
    (∀ (scale : Rat) (ops : List (WindowOp Rat)) (handle : UInt32) (size : LogicalSize),
      let d := run { displayScale := scale } ops
      (d.get? handle).isSome → 0 < d.displayScale →
        d.Resizes handle size (size.width.toNat * d.displayScale : Rat).floor.toNat
          (size.height.toNat * d.displayScale : Rat).floor.toNat) ∧
    ∀ (scale : Float) (ops : List (WindowOp Float)) (handle : UInt32) (size : LogicalSize),
      let d := run { displayScale := scale } ops
      (d.get? handle).isSome → d.displayScale.isFinite → Scalar.ofNat 0 < d.displayScale →
        d.Resizes handle size (Binary64.whole (Scalar.ofNat size.width.toNat * d.displayScale))
          (Binary64.whole (Scalar.ofNat size.height.toNat * d.displayScale)) := by
  constructor
  · intro scale ops handle size d hlive hpos
    have hfactor : d.scaleFactor = d.displayScale := scaleFactor_of_usable rfl hpos
    rw [← hfactor]
    exact resizes_of_isCapped hlive (isCapped_scaleAxis_rat _ _) (isCapped_scaleAxis_rat _ _)
  · intro scale ops handle size d hlive hfinite hpos
    have hfactor : d.scaleFactor = d.displayScale := scaleFactor_of_usable hfinite hpos
    rw [← hfactor]
    exact resizes_of_isCapped hlive (isCapped_scaleAxis_float _ _) (isCapped_scaleAxis_float _ _)

theorem setSize_exact_or_idle_at_half :
    let d : Desktop Rat := run { displayScale := 3 / 2 } [.create 1]
    let f : Desktop Float := run { displayScale := 1.5 } [.create 1]
    ((d.get? 1).isSome ∧ 0 < d.displayScale) ∧
      ((f.get? 1).isSome ∧ f.displayScale.isFinite ∧ Scalar.ofNat 0 < f.displayScale) ∧
      d.Resizes 1 ⟨0xFFFFFFFF, 1⟩ (6442450942 : Nat) (1 : Nat) ∧
      f.Resizes 1 ⟨5, 3⟩ (7 : Nat) (4 : Nat) := by
  intro d f
  have hlive : (d.get? 1).isSome := by decide +kernel
  have hpos : 0 < d.displayScale := by decide +kernel
  have hlive' : (f.get? 1).isSome := by decide +kernel
  have hfinite : f.displayScale.isFinite := by decide +kernel
  have hpos' : Scalar.ofNat 0 < f.displayScale := by decide +kernel
  obtain ⟨hexact, hfloat⟩ := setSize_exact_or_idle
  refine ⟨⟨hlive, hpos⟩, ⟨hlive', hfinite, hpos'⟩, ?_, ?_⟩
  · have hresizes := hexact (3 / 2) [.create 1] 1 ⟨0xFFFFFFFF, 1⟩ hlive hpos
    have hwidth : (((0xFFFFFFFF : UInt32).toNat : Rat) * d.displayScale).floor.toNat = 6442450942 := by
      decide +kernel
    have hheight : (((1 : UInt32).toNat : Rat) * d.displayScale).floor.toNat = 1 := by
      decide +kernel
    dsimp only at hresizes
    rw [hwidth, hheight] at hresizes
    exact hresizes
  · have hresizes := hfloat 1.5 [.create 1] 1 ⟨5, 3⟩ hlive' hfinite hpos'
    have hscale : f.displayScale = 1.5 := rfl
    have hunpack : (Scalar.ofNat (5 : UInt32).toNat * 1.5 : Float).toModel.unpack =
        .finite .positive (15 * 2 ^ 49) (-50) (by decide) := rfl
    have hunpack' : (Scalar.ofNat (3 : UInt32).toNat * 1.5 : Float).toModel.unpack =
        .finite .positive (9 * 2 ^ 49) (-50) (by decide) := rfl
    have hwidth : (Binary64.exact .positive (15 * 2 ^ 49) (-50)).floor.toNat = 7 := by
      decide +kernel
    have hheight : (Binary64.exact .positive (9 * 2 ^ 49) (-50)).floor.toNat = 4 := by
      decide +kernel
    dsimp only at hresizes
    rw [hscale, Binary64.whole_of_unpack hunpack, Binary64.whole_of_unpack hunpack', hwidth,
      hheight] at hresizes
    exact hresizes

/-- At a scale factor of 2, the longest axis a word can tell is accepted beside one of no length,
and half of its pixels are left out without a word. -/
theorem setSize_cuts_idle_axis_short :
    let d : Desktop Rat := run { displayScale := 2 } [.create 1]
    let f : Desktop Float := run { displayScale := 2 } [.create 1]
    let size : LogicalSize := ⟨0xFFFFFFFF, 0⟩
    ((d.get? 1).isSome ∧ 0 < d.displayScale ∧ d.outcome (.setSize 1 size) = .ok () ∧
      (((perform (.setSize 1 size)).after d).get? 1).map (·.canvas.size.width) =
        some 0xFFFFFFFF ∧
      (size.width.toNat * d.displayScale : Rat).floor = 0x1FFFFFFFE) ∧
    ((f.get? 1).isSome ∧ f.displayScale.isFinite ∧ Scalar.ofNat 0 < f.displayScale ∧
      f.outcome (.setSize 1 size) = .ok () ∧
      (((perform (.setSize 1 size)).after f).get? 1).map (·.canvas.size.width) =
        some 0xFFFFFFFF ∧
      Binary64.whole (Scalar.ofNat size.width.toNat * f.displayScale) = (0x1FFFFFFFE : Nat)) := by
  intro d f size
  refine ⟨?_, ?_⟩
  · decide +kernel
  · refine ⟨?_, ?_, ?_, ?_, ?_, ?_⟩
    · decide +kernel
    · decide +kernel
    · decide +kernel
    · decide +kernel
    · decide +kernel
    · have hscale : f.displayScale = 2 := rfl
      have hunits : size.width.toNat = 0xFFFFFFFF := rfl
      have hunpack : (Scalar.ofNat 0xFFFFFFFF * 2 : Float).toModel.unpack =
          .finite .positive (0x1FFFFFFFE * 2 ^ 20) (-20) (by decide) := rfl
      have hwhole : (Binary64.exact .positive (0x1FFFFFFFE * 2 ^ 20) (-20)).floor.toNat =
          0x1FFFFFFFE := by
        decide +kernel
      rw [hscale, hunits, Binary64.whole_of_unpack hunpack, hwhole]

end Desktop

end EngineBridge
