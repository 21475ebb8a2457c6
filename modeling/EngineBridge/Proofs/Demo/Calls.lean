import EngineBridge.Demo.Engine
import EngineBridge.Proofs.Bridge
import EngineBridge.Proofs.Call.Engine
import EngineBridge.Proofs.Desktop.Locality
import EngineBridge.Proofs.Settings

/-! The calls of the built-in engine. Where its settings are in range, it can paint all its frames,
and where its window fits the display besides, its host accepts every call. -/
namespace EngineBridge

namespace Session

open Update

/-- A frame that carries a call does what the call does. -/
theorem handle_frame {call : EngineCall} (h : call.HasValidImage) :
    handle call.frame = perform call := by
  have hread : EngineCall.ofFrame call.frame = .ok call := by
    unfold EngineCall.ofFrame
    rw [call.parse_frame_eq]
    exact EngineCall.decode_encode h
  unfold handle
  rw [hread]
  rfl

theorem snd_apply_onDesktop (op : WindowOp Float) (s : Session) :
    ((onDesktop op).apply s).2 = s.desktop.outcome op := by
  unfold Desktop.outcome onDesktop
  rw [snd_apply, snd_apply, run_onPart]
  cases (Desktop.perform op).run s.desktop <;> rfl

theorem desktop_after_onDesktop (op : WindowOp Float) (s : Session) :
    ((onDesktop op).after s).desktop = (Desktop.perform op).after s.desktop := by
  unfold onDesktop
  rw [after_eq, after_eq, run_onPart]
  cases (Desktop.perform op).run s.desktop <;> rfl

end Session

theorem Desktop.Step.handles_eq {α : Type} [Scalar α] {d d' : Desktop α} {op : WindowOp α}
    (h : Step d op d') (hcreate : ∀ handle, op ≠ .create handle)
    (hdestroy : ∀ handle, op ≠ .destroy handle) : d'.handles = d.handles := by
  cases h with
  | create _ => exact absurd rfl (hcreate _)
  | destroy _ => exact absurd rfl (hdestroy _)
  | setDisplayScale _ => rfl
  | _ => exact map_handle_replace _ _

namespace Demo

variable {e : EngineSettings}

def image (e : EngineSettings) (frame : UInt32) : Bitmap :=
  .ofFn e.width e.height fun y x =>
    e.program.color (.ofNat x) (.ofNat y) e.width e.height frame

def Action.call? (e : EngineSettings) : Action → Option EngineCall
  | .send call => some call
  | .paint frame => some (.windowShow window (image e frame))
  | .announce | .awaitStart | .rest => none

def calls (e : EngineSettings) (actions : List Action) : List EngineCall :=
  actions.filterMap (Action.call? e)

def body (e : EngineSettings) : List Action := (script e).drop 2

theorem script_eq (e : EngineSettings) : script e = .announce :: .awaitStart :: body e := rfl

/-- The calls that an engine may make while its window is open. -/
inductive Steady (e : EngineSettings) : EngineCall → Prop
  | setTitle (title : String) : Steady e (.windowSetTitle window title)
  | setSize : Steady e (.windowSetSize window ⟨e.width, e.height⟩)
  | «show» (frame : UInt32) : Steady e (.windowShow window (image e frame))
  | log (level : LogLevel) (message : String) : Steady e (.log level message)
  | write (bytes : ByteArray) : Steady e (.write bytes)
  | exit : Steady e (.exit 0)

inductive Action.IsSteady (e : EngineSettings) : Action → Prop
  | send {call : EngineCall} (h : Steady e call) : IsSteady e (.send call)
  | paint (frame : UInt32) : IsSteady e (.paint frame)
  | rest : IsSteady e .rest

theorem isSteady_of_mem_frameActions {i : Nat} {action : Action} (h : action ∈ frameActions e i) :
    action.IsSteady e := by
  unfold frameActions at h
  rw [List.cons_append, List.mem_cons, List.mem_append, List.mem_map] at h
  rcases h with rfl | ⟨bytes, -, rfl⟩ | h
  · exact .paint _
  · exact .send (.write bytes)
  · simp only [List.mem_cons, List.not_mem_nil, or_false] at h
    rcases h with rfl | rfl
    · exact .send (.log _ _)
    · exact .rest

/-- The window is opened first and then never again, and the last call is the exit. -/
theorem body_eq (e : EngineSettings) :
    ∃ actions, body e = .send (.windowCreate window) :: actions ++ [.send (.exit 0)] ∧
      ∀ action ∈ actions, action.IsSteady e := by
  refine ⟨[.send (.windowSetTitle window (title e.program)),
    .send (.windowSetSize window ⟨e.width, e.height⟩)] ++
      (List.range e.frames.toNat).flatMap (frameActions e) ++
        [.send (.log .info s!"{e.frames} frames rendered")], ?_, fun action h => ?_⟩
  · simp [body, script]
  · simp only [List.mem_append, List.mem_cons, List.not_mem_nil, or_false, List.mem_flatMap] at h
    rcases h with ((rfl | rfl) | ⟨i, -, h⟩) | rfl
    · exact .send (.setTitle _)
    · exact .send .setSize
    · exact isSteady_of_mem_frameActions h
    · exact .send (.log _ _)

theorem calls_eq (e : EngineSettings) :
    ∃ middle, calls e (body e) = .windowCreate window :: middle ++ [.exit 0] ∧
      ∀ call ∈ middle, Steady e call := by
  obtain ⟨actions, hbody, hsteady⟩ := body_eq e
  refine ⟨calls e actions, ?_, fun call hcall => ?_⟩
  · rw [hbody]
    simp [calls, Action.call?]
  · obtain ⟨action, haction, hsome⟩ := List.mem_filterMap.mp hcall
    cases hsteady action haction with
    | send h =>
      cases hsome
      exact h
    | paint frame =>
      cases hsome
      exact .show frame
    | rest => cases hsome

end Demo

def Link.queued (l : Link) (calls : List EngineCall) : Link :=
  { l with toHost := { l.toHost with queue := l.toHost.queue ++ calls.map EngineCall.frame } }

theorem Link.queued_nil (l : Link) : l.queued [] = l := by
  simp [queued]

theorem Link.queued_append (l : Link) (calls others : List EngineCall) :
    l.queued (calls ++ others) = (l.queued calls).queued others := by
  simp [queued]

theorem Link.send_eq {l : Link} (h : l.toHost.hasReceiver) (call : EngineCall) :
    l.send call = .ok (l.queued [call]) := by
  unfold Link.send Link.post Pipe.send
  rw [if_pos h]
  rfl

namespace Demo

variable {link : Link} (hopen : link.toHost.hasReceiver)

include hopen

theorem Action.perform_send (e : EngineSettings) (call : EngineCall) :
    (Action.send call).perform e link = .completed (link.queued [call]) := by
  rw [perform, Link.send_eq hopen]
  rfl

theorem turn_send_append (e : EngineSettings) (calls : List EngineCall) (todo : List Action) :
    turn e link (calls.map .send ++ todo) = turn e (link.queued calls) todo := by
  induction calls generalizing link with
  | nil => rw [Link.queued_nil, List.map_nil, List.nil_append]
  | cons call calls ih =>
    have hstill : (link.queued [call]).toHost.hasReceiver := hopen
    calc
      _ = turn e (link.queued [call]) (calls.map Action.send ++ todo) := by
        simp only [List.map_cons, List.cons_append, turn, Action.perform_send hopen]
      _ = turn e ((link.queued [call]).queued calls) todo := ih hstill
      _ = _ := by rw [← Link.queued_append, List.singleton_append]

end Demo

/-- Whether the engine's window, at the scale factor of the settings, is within the limit. -/
def Settings.Fits (s : Settings) : Prop :=
  (PhysicalSize.ofLogical ⟨s.engine.width, s.engine.height⟩ s.display.scaleFactor).checkLimit =
    .ok ()

section Paint

variable {s : Settings} (h : s.InRange)

include h

theorem Settings.InRange.area_le :
    PhysicalSize.area ⟨s.engine.width, s.engine.height⟩ ≤ PhysicalSize.maxArea :=
  Nat.le_trans (Nat.mul_le_mul h.width.2 h.height.2) (by decide)

theorem Settings.InRange.render_eq (frame : UInt32) :
    s.engine.program.render s.engine.width s.engine.height frame =
      .ok (Demo.image s.engine frame) := by
  unfold DemoProgram.render
  rw [PhysicalSize.checkLimit_eq_ok.mpr h.area_le]
  rfl

theorem Settings.InRange.perform_eq {action : Demo.Action} (haction : action ∈ Demo.body s.engine)
    {link : Link} (hlink : link.toHost.hasReceiver) :
    action.perform s.engine link = .completed (link.queued (Demo.calls s.engine [action])) := by
  obtain ⟨actions, hbody, hsteady⟩ := Demo.body_eq s.engine
  have hsend := Demo.Action.perform_send hlink s.engine
  rw [hbody, List.cons_append, List.mem_cons, List.mem_append, List.mem_singleton] at haction
  rcases haction with rfl | hmem | rfl
  · exact hsend _
  · cases hsteady action hmem with
    | send _ => exact hsend _
    | paint frame =>
      simp only [Demo.Action.perform, h.render_eq frame, Link.send_eq hlink]
      rfl
    | rest => exact congrArg _ link.queued_nil.symm
  · exact hsend _

theorem Settings.InRange.hasValidImage {call : EngineCall}
    (hcall : call ∈ Demo.calls s.engine (Demo.body s.engine)) : call.HasValidImage := by
  obtain ⟨middle, hcalls, hsteady⟩ := Demo.calls_eq s.engine
  rw [hcalls, List.cons_append, List.mem_cons, List.mem_append, List.mem_singleton] at hcall
  rcases hcall with rfl | hmem | rfl
  · trivial
  · cases hsteady call hmem with
    | «show» frame => exact ⟨_, _, _, Bitmap.ofBytes_eq_ok.mpr ⟨h.area_le, rfl, rfl, rfl⟩⟩
    | _ => trivial
  · trivial

end Paint

namespace Session

open Update

def performed (s : Session) (calls : List EngineCall) : Session :=
  calls.foldl (fun s call => (perform call).after s) s

/-- Whether the engine's window is there, alone and on the display of the settings. -/
structure IsOpen (s : Settings) (session : Session) : Prop where
  handles : session.desktop.handles = [Demo.window]
  displayScale : session.desktop.displayScale = s.display.scaleFactor

theorem isOpen_create (s : Settings) :
    ((perform (.windowCreate Demo.window)).after (new s.display.scaleFactor)).IsOpen s :=
  ⟨rfl, rfl⟩

variable {s : Settings} {session : Session}

theorem IsOpen.isSome_get? (h : session.IsOpen s) :
    (session.desktop.get? Demo.window).isSome = true := by
  rw [← Desktop.mem_handles, h.handles]
  exact List.mem_singleton.mpr rfl

theorem IsOpen.isSorted (h : session.IsOpen s) : session.desktop.IsSorted := by
  unfold Desktop.IsSorted
  rw [h.handles]
  exact List.pairwise_singleton _ _

theorem IsOpen.onDesktop (h : session.IsOpen s) {op : WindowOp Float}
    (hop : op.handle? = some Demo.window) (hcreate : ∀ handle, op ≠ .create handle)
    (hdestroy : ∀ handle, op ≠ .destroy handle)
    (houtcome : session.desktop.outcome op = .ok ()) :
    ((onDesktop op).apply session).2 = .ok () ∧ ((onDesktop op).after session).IsOpen s := by
  refine ⟨(snd_apply_onDesktop op session).trans houtcome, ?_⟩
  rcases Desktop.step_or_refused h.isSorted op with ⟨-, hstep⟩ | ⟨v, hrefused, -⟩
  · constructor
    · rw [desktop_after_onDesktop, hstep.handles_eq hcreate hdestroy, h.handles]
    · rw [desktop_after_onDesktop, hstep.displayScale_eq hop, h.displayScale]
  · rw [houtcome] at hrefused
    cases hrefused

theorem IsOpen.of_desktop_eq (h : session.IsOpen s) {session' : Session}
    (hdesktop : session'.desktop = session.desktop) : session'.IsOpen s :=
  ⟨hdesktop ▸ h.handles, hdesktop ▸ h.displayScale⟩

theorem IsOpen.setTitle (h : session.IsOpen s) (title : String) :
    ((perform (.windowSetTitle Demo.window title)).apply session).2 = .ok () ∧
      ((perform (.windowSetTitle Demo.window title)).after session).IsOpen s := by
  refine h.onDesktop rfl nofun nofun ?_
  rw [Desktop.outcome_setTitle, h.isSome_get?]
  rfl

theorem IsOpen.outcome_setSize (h : session.IsOpen s) (hrange : s.InRange) :
    session.desktop.outcome (.setSize Demo.window ⟨s.engine.width, s.engine.height⟩) =
      (PhysicalSize.ofLogical ⟨s.engine.width, s.engine.height⟩
        s.display.scaleFactor).checkLimit := by
  rw [Desktop.outcome_setSize, h.isSome_get?, Desktop.scaleFactor_of_inRange hrange h.displayScale,
    if_pos rfl]

/-- An open window stays open, and takes whatever the engine does with it if its size fits. -/
theorem IsOpen.perform (h : session.IsOpen s) (hrange : s.InRange) (hfits : s.Fits)
    {call : EngineCall} (hcall : Demo.Steady s.engine call) :
    ((perform call).apply session).2 = .ok () ∧ ((perform call).after session).IsOpen s := by
  cases hcall with
  | setTitle title => exact h.setTitle title
  | setSize => exact h.onDesktop rfl nofun nofun ((h.outcome_setSize hrange).trans hfits)
  | «show» frame =>
    refine h.onDesktop rfl nofun nofun ?_
    rw [Desktop.outcome_show, h.isSome_get?]
    rfl
  | log level message =>
    refine ⟨rfl, h.of_desktop_eq ?_⟩
    change (session.log level message).desktop = _
    unfold log
    split <;> rfl
  | write bytes => exact ⟨rfl, h.of_desktop_eq (desktop_tellOutput _ _)⟩
  | exit => exact ⟨rfl, h.of_desktop_eq (desktop_tellOutput _ _)⟩

theorem IsOpen.performed (h : session.IsOpen s) (hrange : s.InRange) (hfits : s.Fits)
    {calls : List EngineCall} (hcalls : ∀ call ∈ calls, Demo.Steady s.engine call) :
    (session.performed calls).IsOpen s := by
  induction calls generalizing session with
  | nil => exact h
  | cons call rest ih =>
    rw [List.forall_mem_cons] at hcalls
    exact ih (h.perform hrange hfits hcalls.1).2 hcalls.2

variable (hrange : s.InRange) (hfits : s.Fits)

include hrange hfits

theorem isOpen_performed {taken later : List EngineCall}
    (h : taken ++ later = Demo.calls s.engine (Demo.body s.engine)) (hne : taken ≠ []) :
    ((new s.display.scaleFactor).performed taken).IsOpen s ∧
      ∀ call ∈ later, Demo.Steady s.engine call := by
  obtain ⟨middle, hcalls, hsteady⟩ := Demo.calls_eq s.engine
  obtain ⟨first, taken, rfl⟩ := List.exists_cons_of_ne_nil hne
  rw [hcalls, List.cons_append, List.cons_append, List.cons.injEq] at h
  obtain ⟨rfl, hrest⟩ := h
  have hall : ∀ call ∈ middle ++ [EngineCall.exit 0], Demo.Steady s.engine call :=
    List.forall_mem_append.mpr ⟨hsteady, List.forall_mem_singleton.mpr .exit⟩
  rw [← hrest, List.forall_mem_append] at hall
  exact ⟨(isOpen_create s).performed hrange hfits hall.1, hall.2⟩

theorem snd_apply_perform {taken later : List EngineCall} {call : EngineCall}
    (h : taken ++ call :: later = Demo.calls s.engine (Demo.body s.engine)) :
    ((Session.perform call).apply ((new s.display.scaleFactor).performed taken)).2 = .ok () := by
  by_cases hne : taken = []
  · subst hne
    obtain ⟨rfl, -⟩ := List.cons.inj h
    rfl
  · obtain ⟨hopen, hsteady⟩ := isOpen_performed hrange hfits h hne
    exact (hopen.perform hrange hfits (hsteady call List.mem_cons_self)).1

/-- After all its calls the engine has left its one window and a good exit code behind. -/
theorem performed_calls :
    let session :=
      (new s.display.scaleFactor).performed (Demo.calls s.engine (Demo.body s.engine))
    session.IsOpen s ∧ session.exitCode = some 0 := by
  obtain ⟨middle, hcalls, -⟩ := Demo.calls_eq s.engine
  have hne : Demo.calls s.engine (Demo.body s.engine) ≠ [] := by
    rw [hcalls]
    exact List.cons_ne_nil _ _
  refine ⟨(isOpen_performed hrange hfits (List.append_nil _) hne).1, ?_⟩
  rw [hcalls, performed, List.foldl_append]
  exact exitCode_tellOutput _ _

end Session

end EngineBridge
