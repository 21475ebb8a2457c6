import EngineBridge.Desktop.Basic
import EngineBridge.Proofs.Drawing.Float
import EngineBridge.Settings.Validation

/-! What accepted settings have in common. Each is in its own range, and the scale factor is one that
a display can use. No setting is weighed against another. -/
namespace EngineBridge

namespace Validation

theorem word_eq_none {b : Bounds} {n : UInt32} :
    word b n = none ↔ b.least ≤ n.toNat ∧ n.toNat ≤ b.most := by
  unfold word
  split <;> simp_all

theorem scaleFactor_eq_none {x : Float} : scaleFactor x = none ↔ 0.25 ≤ x ∧ x ≤ 8 := by
  unfold scaleFactor
  split <;> simp_all

theorem level_eq_none {name value : String} : level name value = none ↔ value ∈ levels := by
  unfold level
  split <;> simp_all

end Validation

namespace Settings

open Validation

structure InRange (s : Settings) : Prop where
  scaleFactor : 0.25 ≤ s.display.scaleFactor ∧ s.display.scaleFactor ≤ 8
  frames : 1 ≤ s.engine.frames.toNat ∧ s.engine.frames.toNat ≤ 600
  width : 1 ≤ s.engine.width.toNat ∧ s.engine.width.toNat ≤ 4096
  height : 1 ≤ s.engine.height.toNat ∧ s.engine.height.toNat ≤ 4096
  level : s.logging.level ∈ levels
  engineLevel : s.logging.engineLevel ∈ levels

theorem validate_eq_ok {s : Settings} : s.validate = .ok () ↔ s.InRange := by
  have hfaults : s.validate = .ok () ↔ s.faults = [] := by
    unfold validate
    split <;> simp_all
  rw [hfaults, faults, List.filterMap_eq_nil_iff]
  simp only [List.forall_mem_cons, id_eq, List.not_mem_nil, false_implies, implies_true, and_true,
    word_eq_none, scaleFactor_eq_none, level_eq_none]
  exact ⟨fun ⟨hscale, hframes, hwidth, hheight, hlevel, hengine⟩ =>
      ⟨hscale, hframes, hwidth, hheight, hlevel, hengine⟩,
    fun h => ⟨h.scaleFactor, h.frames, h.width, h.height, h.level, h.engineLevel⟩⟩

end Settings

theorem Scalar.isFinite_and_pos {x : Float} (hlow : 0.25 ≤ x) (hhigh : x ≤ 8) :
    Scalar.isFinite x = true ∧ Scalar.ofNat 0 < x := by
  have hleast : (0.25 : Float).toModel.unpack =
      .finite .positive 0x10000000000000 (-54) (by decide) := rfl
  have hmost : (8 : Float).toModel.unpack =
      .finite .positive 0x10000000000000 (-49) (by decide) := rfl
  have hzero : (Scalar.ofNat 0 : Float).toModel.unpack = .zero .positive := rfl
  rw [float_le_iff, hleast] at hlow
  rw [float_le_iff, hmost] at hhigh
  rw [float_lt_iff, hzero]
  change x.toModel.unpack.isFinite = true ∧ _
  generalize x.toModel.unpack = u at hlow hhigh ⊢
  -- infinities are beyond the bounds, and what is left must be positive
  cases u with
  | notANumber => cases hlow
  | infinity sign =>
    cases sign with
    | negative => cases hlow
    | positive => cases hhigh
  | zero sign => cases hlow
  | finite sign m e hm =>
    cases sign with
    | negative => cases hlow
    | positive => exact ⟨rfl, rfl⟩

theorem Desktop.scaleFactor_of_inRange {s : Settings} (h : s.InRange) {d : Desktop Float}
    (hd : d.displayScale = s.display.scaleFactor) : d.scaleFactor = s.display.scaleFactor := by
  obtain ⟨hfinite, hpos⟩ := Scalar.isFinite_and_pos h.scaleFactor.1 h.scaleFactor.2
  unfold Desktop.scaleFactor
  rw [hd, hfinite, decide_eq_true hpos]
  rfl

end EngineBridge
