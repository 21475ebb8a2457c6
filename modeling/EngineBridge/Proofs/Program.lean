import EngineBridge.Program
import EngineBridge.Proofs.Application
import EngineBridge.Proofs.Export

/-! A whole run of the built-in engine, with the final images that are written at its end. -/
namespace EngineBridge

namespace Program

open Application

variable {s : Settings} {place : List String} {files : FileTree}

theorem report_finished (hrange : s.InRange) (hfits : s.Fits)
    (hwritable : ∀ directory ∈ s.output.framesDir,
      files.CanHold place directory (Export.fileName Demo.window)) :
    (report s place files (finished s).bridge.session (.ok ())).result = .ok 0 := by
  obtain ⟨hopen, hexit⟩ := Session.performed_calls hrange hfits
  rw [← session_finished] at hopen hexit
  unfold report
  cases hdirectory : s.output.framesDir with
  | none => simp [hexit, Except.map]
  | some directory =>
    have hwrite := Export.write_ofDesktop hopen.handles (hwritable directory hdirectory)
    simp [hwrite, hexit, Except.map]

/-- Settings that are accepted, with a window that fits the display at their scale factor: whatever
turns engine and host take, neither fails, the size that the engine asks for is accepted, and what
is reported at the end is the exit code 0. The end is reached in every schedule that gives both a
turn often enough, and in that of the program itself. -/
theorem runs_of_fits (hvalid : s.validate = .ok ())
    (hfits : (PhysicalSize.ofLogical ⟨s.engine.width, s.engine.height⟩
      s.display.scaleFactor).checkLimit = .ok ())
    (hwritable : ∀ directory ∈ s.output.framesDir,
      files.CanHold place directory (Export.fileName Demo.window)) :
    (∀ schedule,
      let a := (initial s).play s.engine schedule
      (∀ failure, a.host ≠ .ended (.error failure) ∧ a.engine ≠ .stopped (.error failure)) ∧
      ((a.bridge.session.desktop.get? Demo.window).isSome →
        a.bridge.session.desktop.outcome
          (.setSize Demo.window ⟨s.engine.width, s.engine.height⟩) = .ok ()) ∧
      ∀ result, a.host = .ended result →
        (report s place files a.bridge.session result).result = .ok 0) ∧
    (∀ rounds : List (List Mover), (∀ round ∈ rounds, ∀ m, m ∈ round) →
      2 * (Demo.script s.engine).length + 5 ≤ rounds.length →
      ∃ result, ((initial s).play s.engine rounds.flatten).host = .ended result) ∧
    (serve s place files).result = .ok 0 := by
  have hrange := Settings.validate_eq_ok.mp hvalid
  have hreport : (report s place files (finished s).bridge.session (.ok ())).result = .ok 0 :=
    report_finished hrange hfits hwritable
  refine ⟨?_, ?_, ?_⟩
  · intro schedule a
    have hstage : Stage s a := Stage.initial.play hrange hfits schedule
    refine ⟨hstage.not_error, fun hsome => ?_, fun result hended => ?_⟩
    · exact ((hstage.isOpen hrange hfits hsome).outcome_setSize hrange).trans hfits
    · obtain ⟨rfl, heq⟩ := hstage.eq_finished hended
      rw [heq]
      exact hreport
  · intro rounds hrounds hlength
    rw [← remaining_initial] at hlength
    rw [Stage.initial.play_flatten hrange hfits hrounds hlength]
    exact ⟨.ok (), rfl⟩
  · unfold serve
    rw [run_eq hrange hfits, ← session_finished]
    exact hreport

/-- At twice its size, a window of 4096 by 4096 has as many pixels as a surface may have. Its image
goes into the place itself. -/
theorem runs_of_fits_at_limit :
    let s : Settings := {
      display := { scaleFactor := 2 }
      output := { framesDir := some "" }
      engine := { width := 4096, height := 4096 } }
    s.validate = .ok () ∧
      (PhysicalSize.ofLogical ⟨4096, 4096⟩ s.display.scaleFactor).area = PhysicalSize.maxArea ∧
      FileTree.CanHold {} [] "" (Export.fileName Demo.window) ∧
      (∀ schedule failure,
        ((initial s).play s.engine schedule).host ≠ .ended (.error failure)) ∧
      (serve s [] {}).result = .ok 0 := by
  intro s
  have hvalid : s.validate = .ok () := Settings.validate_eq_ok.mpr
    ⟨by decide +kernel, by decide, by decide, by decide, by decide, by decide⟩
  have harea : (PhysicalSize.ofLogical ⟨4096, 4096⟩ s.display.scaleFactor).area =
      PhysicalSize.maxArea := by decide +kernel
  have hname : Export.fileName Demo.window = "window-1.png" := by decide +kernel
  have hcheck : FileTree.check (FileTree.join "" "window-1.png") = .ok () := by
    rw [FileTree.check, String.contains_char_eq]
    rfl
  have hwritable : FileTree.CanHold {} [] "" (Export.fileName Demo.window) := by
    rw [hname]
    exact ⟨{}, [], ["window-1.png"], rfl, hcheck, rfl, by decide⟩
  have hruns := runs_of_fits (s := s) hvalid
    (PhysicalSize.checkLimit_eq_ok.mpr (Nat.le_of_eq harea))
    (fun directory hdirectory => Option.mem_some.mp hdirectory ▸ hwritable)
  exact ⟨hvalid, harea, hwritable, fun schedule failure => ((hruns.1 schedule).1 failure).1,
    hruns.2.2⟩

/-- Width, height and scale factor can all be in range and yet be too much together. -/
theorem too_large_at_scale_8 :
    let s : Settings := {
      display := { scaleFactor := 8 }
      engine := { width := 1025, height := 1024 } }
    s.validate = .ok () ∧ s.output.framesDir = none ∧
      ∃ schedule, ((initial s).play s.engine schedule).host =
        .ended (.error (.violation (.surfaceTooLarge 8200 8192 (8192 * 8192)))) := by
  intro s
  have hvalid : s.validate = .ok () := Settings.validate_eq_ok.mpr
    ⟨by decide +kernel, by decide, by decide, by decide, by decide, by decide⟩
  have hsize : PhysicalSize.ofLogical ⟨1025, 1024⟩ s.display.scaleFactor = ⟨8200, 8192⟩ := by
    decide +kernel
  have hlimit : (PhysicalSize.ofLogical ⟨1025, 1024⟩ s.display.scaleFactor).checkLimit =
      .error (.surfaceTooLarge 8200 8192 (8192 * 8192)) := by
    rw [hsize]
    rfl
  exact ⟨hvalid, rfl, exists_ended_of_too_large (Settings.validate_eq_ok.mp hvalid) hlimit⟩

end Program

end EngineBridge
