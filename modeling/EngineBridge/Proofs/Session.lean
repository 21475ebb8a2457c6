import EngineBridge.Session
import EngineBridge.Proofs.Desktop.Handles

/-! A call that fails does nothing. Whatever a session has been through, a frame or a call that is
refused leaves every part of it as it was. -/
namespace EngineBridge

/-- What can happen to a session: the engine sends a frame, a call is made without one, or the
display changes. -/
inductive Stimulus where
  | frame (frame : String)
  | call (call : EngineCall)
  | display (scale : Float)

namespace Session

open Update

def undergo : Stimulus → Update Session Unit
  | .frame frame => handle frame
  | .call call => perform call
  | .display scale => onDesktop (.setDisplayScale scale)

/-- The sessions that can come about, failures among what they have been through. -/
inductive IsReachable : Session → Prop
  | new (displayScale : Float) : IsReachable (new displayScale)
  | undergo {s : Session} (h : IsReachable s) (stimulus : Stimulus) :
    IsReachable ((undergo stimulus).after s)

theorem withDesktop_self (s : Session) : s.withDesktop s.desktop = s := by
  unfold withDesktop
  simp

theorem desktop_tell (s : Session) (event : HostEvent) : (s.tell event).desktop = s.desktop := rfl

theorem desktop_tellOutput (s : Session) (text : String) :
    (s.tellOutput text).desktop = s.desktop := by
  unfold tellOutput
  split <;> rfl

theorem exitCode_tellOutput (s : Session) (text : String) :
    (s.tellOutput text).exitCode = s.exitCode := by
  unfold tellOutput
  split <;> rfl

theorem keeps_isSorted_onDesktop (op : WindowOp Float) :
    Keeps (fun s => s.desktop.IsSorted) (onDesktop op) :=
  (Desktop.keeps_isSorted_perform op).onPart (fun _ h => h) fun _ _ _ h => h

theorem keeps_isSorted_perform (call : EngineCall) :
    Keeps (fun s => s.desktop.IsSorted) (perform call) := by
  cases call with
  | windowCreate handle => exact keeps_isSorted_onDesktop _
  | windowSetTitle handle title => exact keeps_isSorted_onDesktop _
  | windowSetSize handle size => exact keeps_isSorted_onDesktop _
  | windowShow handle bitmap => exact keeps_isSorted_onDesktop _
  | windowDestroy handle => exact keeps_isSorted_onDesktop _
  | log level message =>
    refine keeps_modify fun s h => ?_
    unfold log
    split <;> exact h
  | write bytes =>
    refine keeps_modify fun s h => ?_
    rw [write, desktop_tellOutput]
    exact h
  | exit code =>
    refine keeps_modify fun s h => ?_
    rw [exit, desktop_tell, desktop_tellOutput]
    exact h

theorem keeps_isSorted_undergo (stimulus : Stimulus) :
    Keeps (fun s => s.desktop.IsSorted) (undergo stimulus) := by
  cases stimulus with
  | frame frame => exact (keeps_ofExcept _).bind fun call => keeps_isSorted_perform call
  | call call => exact keeps_isSorted_perform call
  | display scale => exact keeps_isSorted_onDesktop _

theorem IsReachable.isSorted {s : Session} (h : s.IsReachable) : s.desktop.IsSorted := by
  induction h with
  | new displayScale => exact .nil
  | undergo _ stimulus ih => exact keeps_isSorted_undergo stimulus _ ih

section Refused

variable {s : Session} (h : s.desktop.IsSorted)

include h

theorem isAtomicAt_onDesktop (op : WindowOp Float) : IsAtomicAt s (onDesktop op) :=
  (Desktop.isAtomicAt_perform h op).onPart s.withDesktop_self

theorem isAtomicAt_perform (call : EngineCall) : IsAtomicAt s (perform call) := by
  cases call with
  | windowCreate handle => exact isAtomicAt_onDesktop h _
  | windowSetTitle handle title => exact isAtomicAt_onDesktop h _
  | windowSetSize handle size => exact isAtomicAt_onDesktop h _
  | windowShow handle bitmap => exact isAtomicAt_onDesktop h _
  | windowDestroy handle => exact isAtomicAt_onDesktop h _
  | log level message => exact (cannotRefuse_modify _).isAtomicAt s
  | write bytes => exact (cannotRefuse_modify _).isAtomicAt s
  | exit code => exact (cannotRefuse_modify _).isAtomicAt s

theorem isAtomicAt_handle (frame : String) : IsAtomicAt s (handle frame) :=
  isAtomicAt_ofExcept_bind fun call => isAtomicAt_perform h call

end Refused

theorem IsReachable.eq_of_handle_error {s s' : Session} {frame : String} {v : Violation}
    (h : s.IsReachable) (hrun : (handle frame).apply s = (s', .error v)) : s' = s :=
  isAtomicAt_handle h.isSorted frame v s' (apply_eq_error.mp hrun)

/-- Whatever the fault, a frame or call that is refused leaves the session as it was. -/
theorem eq_of_refused {s s' : Session} {v : Violation} (h : s.IsReachable) :
    (∀ frame, (handle frame).apply s = (s', .error v) → s' = s) ∧
      ∀ call, (perform call).apply s = (s', .error v) → s' = s :=
  ⟨fun _ hrun => h.eq_of_handle_error hrun,
    fun call hrun => isAtomicAt_perform h.isSorted call v s' (apply_eq_error.mp hrun)⟩

/-- A window with pixels and two bytes of a character are held when a size is refused. -/
theorem eq_of_refused_oversized :
    let opened := (undergo (.call (.windowCreate 7))).after (new 2)
    let sized := (undergo (.call (.windowSetSize 7 ⟨2, 1⟩))).after opened
    let s := (undergo (.call (.write ⟨#[0xE2, 0x9C]⟩))).after sized
    let oversized := perform (.windowSetSize 7 ⟨8192, 4097⟩)
    IsReachable s ∧ (s.desktop.get? 7).map (·.canvas.size) = some ⟨4, 2⟩ ∧
      s.output.held = [0xE2, 0x9C] ∧
      oversized.apply s =
        (oversized.after s, .error (.surfaceTooLarge 16384 8194 PhysicalSize.maxArea)) ∧
      oversized.after s = s := by
  intro opened sized s oversized
  have hs : IsReachable s := .undergo (.undergo (.undergo (.new 2) _) _) _
  have hsize : (s.desktop.get? 7).map (·.canvas.size) = some ⟨4, 2⟩ := by decide +kernel
  have hheld : s.output.held = [0xE2, 0x9C] := by decide +kernel
  have hanswer : (oversized.apply s).2 =
      .error (.surfaceTooLarge 16384 8194 PhysicalSize.maxArea) := by decide +kernel
  have hrefused : oversized.apply s =
      (oversized.after s, .error (.surfaceTooLarge 16384 8194 PhysicalSize.maxArea)) :=
    Prod.ext rfl hanswer
  exact ⟨hs, hsize, hheld, hrefused, (eq_of_refused hs).2 _ hrefused⟩

end Session

end EngineBridge
