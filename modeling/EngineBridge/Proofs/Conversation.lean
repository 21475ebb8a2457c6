import EngineBridge.Proofs.Demo.Presentation

/-! The conversation of the built-in engine with its host, for every order in which the two go on.
The host may take its frames in either of its loops. What passes between them, and what is left at
the end, is the same in all orders. -/
namespace EngineBridge

open Demo (Action Status body calls readyFrame)

inductive Choice where
  | engine
  | host (loop : FrameLoop)

def Choice.mover : Choice → Mover
  | .engine => .engine
  | .host _ => .host

namespace Application

def sentFrames (a : Application) : List String := a.bridge.link.toHost.queue

/-- One action of the engine, or whatever is due for the host, of which a turn of a loop is part. A
loop that stops with nothing queued is taken up again, unless it has found the engine gone. -/
def proceed (e : EngineSettings) (a : Application) : Choice → Application
  | .engine => a.moveEngine e
  | .host loop =>
    match a.host with
    | .serving =>
      match a.bridge.turn loop with
      | (b, .stops .finished) => { a with bridge := b }.hostEnds (.ok ())
      | (b, .stops (.failed v)) => { a with bridge := b }.hostEnds (.error (.violation v))
      | (b, _) => { a with bridge := b }
    | .awaitingEngine | .starting | .ended _ => a.moveHost

def handled? (a : Application) : Option (String × Except Violation Unit) :=
  match a.host, a.sentFrames, a.bridge.handleNext with
  | .serving, frame :: _, (.item result, _) => some (frame, result)
  | _, _, _ => none

theorem proceed_host_of_not_isExhausted {e : EngineSettings} {a : Application}
    (h : ¬a.bridge.link.toHost.isExhausted) (loop : FrameLoop) :
    a.proceed e (.host loop) = a.move e .host := by
  cases hhost : a.host with
  | serving =>
    simp only [proceed, move, moveHost, hhost]
    cases hqueue : a.bridge.link.toHost.queue with
    | nil =>
      have hsenders : a.bridge.link.toHost.senders ≠ 0 := by
        simpa [Pipe.isExhausted, hqueue] using h
      rw [Bridge.turn_of_queue_nil hqueue, Bridge.handleNext_of_queue_nil hqueue, if_neg hsenders]
      cases loop <;> simp [FrameLoop.atEnd, hsenders, ← hhost]
    | cons frame rest =>
      rw [Bridge.turn_of_queue_cons hqueue, Bridge.handleNext_of_queue_cons hqueue]
      cases ((Session.handle frame).apply a.bridge.session).2 <;> rfl
  | _ => simp only [proceed, move, hhost]

theorem proceed_pump_of_queue_nil {e : EngineSettings} {a : Application}
    (hserving : a.host = .serving) (hqueue : a.bridge.link.toHost.queue = []) (handled : Nat) :
    a.proceed e (.host (.pump handled)) = a := by
  simp only [proceed, hserving, Bridge.turn_of_queue_nil hqueue, FrameLoop.atEnd]
  rw [← hserving]

theorem proceed_run_of_queue_nil {e : EngineSettings} {a : Application}
    (hserving : a.host = .serving) (hqueue : a.bridge.link.toHost.queue = [])
    (hsenders : a.bridge.link.toHost.senders = 0) :
    a.proceed e (.host .run) = a.hostEnds (.ok ()) := by
  simp only [proceed, hserving, Bridge.turn_of_queue_nil hqueue, FrameLoop.atEnd, hsenders,
    decide_true, if_true]
  rw [← hserving]

theorem handled?_of_queue_cons {a : Application} (hserving : a.host = .serving) {frame : String}
    {rest : List String} (hqueue : a.bridge.link.toHost.queue = frame :: rest) :
    a.handled? = some (frame, ((Session.handle frame).apply a.bridge.session).2) := by
  unfold handled? sentFrames
  rw [hserving, Bridge.handleNext_of_queue_cons hqueue, hqueue]

end Application

/-- An application, what its engine has put on the wire, and what its host has handled. -/
structure Conversation where
  application : Application
  posted : List String := []
  handled : List (String × Except Violation Unit) := []

namespace Conversation

def initial (s : Settings) : Conversation := { application := .initial s }

def proceed (e : EngineSettings) (c : Conversation) : Choice → Conversation
  | .engine =>
    let next := c.application.proceed e .engine
    { c with
      application := next
      posted := c.posted ++ next.sentFrames.drop c.application.sentFrames.length }
  | .host loop =>
    { c with
      application := c.application.proceed e (.host loop)
      handled := c.handled ++ c.application.handled?.toList }

def play (e : EngineSettings) (c : Conversation) (choices : List Choice) : Conversation :=
  choices.foldl (proceed e) c

/-- Whether the engine is gone and its last frame has been taken. -/
def IsOver (c : Conversation) : Prop := c.application.bridge.link.toHost.isExhausted

open Application (announced greeted started underWay finished)

inductive Scene (s : Settings) : Conversation → Prop
  | initial : Scene s ⟨.initial s, [], []⟩
  | announced : Scene s ⟨announced s, [readyFrame], []⟩
  | greeted : Scene s ⟨greeted s, [readyFrame], []⟩
  | started : Scene s ⟨started s, [readyFrame], []⟩
  | running {taken pending : List EngineCall} {todo : List Action} (htodo : todo <:+ body s.engine)
      (hcalls : taken ++ (pending ++ calls s.engine todo) = calls s.engine (body s.engine)) :
    Scene s ⟨underWay s (.running todo) taken pending,
      readyFrame :: (taken ++ pending).map EngineCall.frame,
      taken.map fun call => (call.frame, .ok ())⟩
  | stopped {taken pending : List EngineCall}
      (hcalls : taken ++ pending = calls s.engine (body s.engine)) :
    Scene s ⟨underWay s (.stopped (.ok ())) taken pending,
      readyFrame :: (taken ++ pending).map EngineCall.frame,
      taken.map fun call => (call.frame, .ok ())⟩
  | finished :
    Scene s ⟨finished s, readyFrame :: (calls s.engine (body s.engine)).map EngineCall.frame,
      (calls s.engine (body s.engine)).map fun call => (call.frame, .ok ())⟩

variable {s : Settings} {c : Conversation}

theorem Scene.stage (h : Scene s c) : Application.Stage s c.application := by
  cases h with
  | initial => exact .initial
  | announced => exact .announced
  | greeted => exact .greeted
  | started => exact .started
  | running htodo hcalls => exact .running htodo hcalls
  | stopped hcalls => exact .stopped hcalls
  | finished => exact .finished

section Choice

variable {e : EngineSettings} {a b : Application} {posted : List String}
  {handled : List (String × Except Violation Unit)}

theorem proceed_engine (h : a.move e .engine = b) (frames : List String)
    (hframes : b.sentFrames = a.sentFrames ++ frames) :
    proceed e ⟨a, posted, handled⟩ .engine = ⟨b, posted ++ frames, handled⟩ := by
  have hnext : a.proceed e .engine = b := h
  rw [proceed]
  dsimp only
  rw [hnext, hframes, List.drop_left]

theorem proceed_host_of_none {loop : FrameLoop} (h : a.proceed e (.host loop) = b)
    (hnone : a.handled? = none) : proceed e ⟨a, posted, handled⟩ (.host loop) =
      ⟨b, posted, handled⟩ := by
  rw [proceed, h, hnone, Option.toList_none, List.append_nil]

theorem proceed_host_of_some {loop : FrameLoop} (h : a.proceed e (.host loop) = b)
    {frame : String} {result : Except Violation Unit} (hsome : a.handled? = some (frame, result)) :
    proceed e ⟨a, posted, handled⟩ (.host loop) = ⟨b, posted, handled ++ [(frame, result)]⟩ := by
  rw [proceed, h, hsome, Option.toList_some]

theorem proceed_host_idle (h : a.move e .host = b) (hopen : ¬a.bridge.link.toHost.isExhausted)
    (hnone : a.handled? = none) (loop : FrameLoop) :
    proceed e ⟨a, posted, handled⟩ (.host loop) = ⟨b, posted, handled⟩ :=
  proceed_host_of_none ((Application.proceed_host_of_not_isExhausted hopen loop).trans h) hnone

end Choice

theorem session_underWay (s : Settings) (engine : Status) (taken pending : List EngineCall) :
    (underWay s engine taken pending).bridge.session =
      (Session.new s.display.scaleFactor).performed taken := by
  simp only [underWay]

theorem sentFrames_underWay (s : Settings) (engine : Status) (taken pending : List EngineCall) :
    (underWay s engine taken pending).sentFrames = pending.map EngineCall.frame := by
  cases engine <;> rfl

theorem handled?_underWay (h : s.InRange) {engine : Status} {taken pending : List EngineCall}
    {call : EngineCall} (hcall : call ∈ calls s.engine (body s.engine)) :
    (underWay s engine taken (call :: pending)).handled? =
      some (call.frame, ((Session.perform call).apply
        ((Session.new s.display.scaleFactor).performed taken)).2) := by
  have hqueue : (underWay s engine taken (call :: pending)).bridge.link.toHost.queue =
      call.frame :: pending.map EngineCall.frame := by
    cases engine <;> rfl
  rw [Application.handled?_of_queue_cons rfl hqueue, Session.handle_frame (h.hasValidImage hcall)]
  rfl

section Turns

variable (hrange : s.InRange) (hfits : s.Fits)

include hrange hfits

theorem proceed_host_take {engine : Status} {taken pending later : List EngineCall}
    {call : EngineCall} (h : taken ++ call :: later = calls s.engine (body s.engine))
    {posted : List String} (loop : FrameLoop) :
    proceed s.engine ⟨underWay s engine taken (call :: pending), posted,
        taken.map fun call => (call.frame, .ok ())⟩ (.host loop) =
      ⟨underWay s engine (taken ++ [call]) pending, posted,
        (taken ++ [call]).map fun call => (call.frame, .ok ())⟩ := by
  have hcall : call ∈ calls s.engine (body s.engine) := by
    rw [← h]
    exact List.mem_append_right _ List.mem_cons_self
  have hopen : ¬(underWay s engine taken (call :: pending)).bridge.link.toHost.isExhausted := by
    cases engine <;> exact nofun
  have hhandled : (underWay s engine taken (call :: pending)).handled? =
      some (call.frame, .ok ()) := by
    rw [handled?_underWay hrange hcall, Session.snd_apply_perform hrange hfits h]
  have htake : (underWay s engine taken (call :: pending)).move s.engine .host =
      underWay s engine (taken ++ [call]) pending := Application.move_host_take hrange hfits h
  rw [proceed_host_of_some ((Application.proceed_host_of_not_isExhausted hopen loop).trans htake)
    hhandled, List.map_append]
  rfl

theorem Scene.proceed (h : Scene s c) (choice : Choice) :
    Scene s (c.proceed s.engine choice) ∧
      (c.proceed s.engine choice = c ∨
        (c.proceed s.engine choice).application.remaining < c.application.remaining) := by
  cases h with
  | initial =>
    cases choice with
    | engine =>
      rw [proceed_engine Application.move_engine_initial [readyFrame] rfl]
      exact ⟨.announced, .inr (Application.remaining_announced_lt s)⟩
    | host loop =>
      rw [proceed_host_idle Application.move_host_initial Bool.false_ne_true rfl]
      exact ⟨.initial, .inl rfl⟩
  | announced =>
    cases choice with
    | engine =>
      rw [proceed_engine Application.move_engine_announced [] rfl]
      exact ⟨.announced, .inl rfl⟩
    | host loop =>
      rw [proceed_host_idle Application.move_host_announced Bool.false_ne_true rfl]
      exact ⟨.greeted, .inr (Application.remaining_greeted_lt s)⟩
  | greeted =>
    cases choice with
    | engine =>
      rw [proceed_engine Application.move_engine_greeted [] rfl]
      exact ⟨.greeted, .inl rfl⟩
    | host loop =>
      rw [proceed_host_idle Application.move_host_greeted Bool.false_ne_true rfl]
      exact ⟨.started, .inr (Application.remaining_started_lt s)⟩
  | started =>
    cases choice with
    | engine =>
      rw [proceed_engine Application.move_engine_started [] rfl]
      exact ⟨@Scene.running s [] [] _ List.suffix_rfl rfl,
        .inr (Application.remaining_body_lt s)⟩
    | host loop =>
      rw [proceed_host_idle Application.move_host_started Bool.false_ne_true rfl]
      exact ⟨.started, .inl rfl⟩
  | @running taken pending todo htodo hcalls =>
    cases choice with
    | engine =>
      cases todo with
      | nil =>
        rw [proceed_engine Application.move_engine_running_nil []
          (by rw [sentFrames_underWay, sentFrames_underWay, List.append_nil]), List.append_nil]
        refine ⟨.stopped ?_, .inr (Application.remaining_stopped_lt s taken pending)⟩
        simpa [calls] using hcalls
      | cons action todo =>
        rw [proceed_engine
          (Application.move_engine_running hrange (htodo.subset List.mem_cons_self))
          ((calls s.engine [action]).map EngineCall.frame)
          (by rw [sentFrames_underWay, sentFrames_underWay, List.map_append]),
          List.cons_append, ← List.map_append, List.append_assoc]
        refine ⟨.running ((List.suffix_cons action todo).trans htodo) ?_,
          .inr (Application.remaining_sent_lt s action todo taken pending)⟩
        rw [List.append_assoc, ← Demo.calls_append]
        exact hcalls
    | host loop =>
      cases pending with
      | nil =>
        rw [proceed_host_idle Application.move_host_running_nil Bool.false_ne_true rfl]
        exact ⟨.running htodo hcalls, .inl rfl⟩
      | cons call pending =>
        rw [proceed_host_take hrange hfits hcalls, List.append_cons taken call pending]
        refine ⟨.running htodo ?_, .inr (Application.remaining_taken_lt s _ call taken pending)⟩
        rw [← hcalls, List.append_assoc]
        rfl
  | @stopped taken pending hcalls =>
    cases choice with
    | engine =>
      rw [proceed_engine Application.move_engine_stopped []
        (List.append_nil _).symm, List.append_nil]
      exact ⟨.stopped hcalls, .inl rfl⟩
    | host loop =>
      cases pending with
      | nil =>
        have htaken : taken = calls s.engine (body s.engine) :=
          (List.append_nil taken).symm.trans hcalls
        -- only `run` notices that the engine is gone
        cases loop with
        | pump handled =>
          rw [proceed_host_of_none (Application.proceed_pump_of_queue_nil rfl rfl handled) rfl]
          exact ⟨.stopped hcalls, .inl rfl⟩
        | run =>
          rw [proceed_host_of_none ((Application.proceed_run_of_queue_nil rfl rfl rfl).trans
            (Application.move_host_stopped_nil htaken)) rfl, List.append_nil, htaken]
          exact ⟨.finished, .inr (Application.remaining_finished_lt s _)⟩
      | cons call pending =>
        rw [proceed_host_take hrange hfits hcalls, List.append_cons taken call pending]
        refine ⟨.stopped ?_, .inr (Application.remaining_taken_lt s _ call taken pending)⟩
        rw [← hcalls, List.append_assoc]
        rfl
  | finished =>
    cases choice with
    | engine =>
      rw [proceed_engine (Application.move_finished .engine) [] rfl, List.append_nil]
      exact ⟨.finished, .inl rfl⟩
    | host loop =>
      have hstays : (Application.finished s).proceed s.engine (.host loop) =
          Application.finished s :=
        Application.move_finished .host
      rw [proceed_host_of_none hstays rfl]
      exact ⟨.finished, .inl rfl⟩

theorem Scene.play (h : Scene s c) (choices : List Choice) : Scene s (c.play s.engine choices) := by
  induction choices generalizing c with
  | nil => exact h
  | cons choice rest ih => exact ih (h.proceed hrange hfits choice).1

end Turns

theorem Scene.isOver_iff (h : Scene s c) : c.IsOver ↔ c.application.remaining ≤ 1 := by
  have hbody := Application.remaining_running s (body s.engine) [] []
  have hstarted := Application.remaining_body_lt s
  have hgreeted := Application.remaining_started_lt s
  have hannounced := Application.remaining_greeted_lt s
  have hinitial := Application.remaining_announced_lt s
  cases h with
  | initial => exact iff_of_false nofun (by dsimp only; omega)
  | announced => exact iff_of_false nofun (by dsimp only; omega)
  | greeted => exact iff_of_false nofun (by dsimp only; omega)
  | started => exact iff_of_false nofun (by dsimp only; omega)
  | @running taken pending todo =>
    refine iff_of_false ?_ ?_
    · simp [IsOver, underWay, Application.emptyLink, Link.queued, Pipe.isExhausted]
    · rw [Application.remaining_running]
      omega
  | @stopped taken pending =>
    rw [Application.remaining_stopped]
    simp [IsOver, underWay, Application.emptyLink, Link.queued, Link.dropEngine, Pipe.dropSender,
      Pipe.isExhausted]
  | finished => exact iff_of_true rfl (Nat.zero_le _)

theorem application_proceed (choice : Choice) :
    (c.proceed s.engine choice).application = c.application.proceed s.engine choice := by
  cases choice <;> rfl

def ranking (hrange : s.InRange) (hfits : s.Fits) :
    Ranking (Conversation.proceed s.engine) Choice.mover (Scene s) IsOver where
  rank c := c.application.remaining
  keeps h choice := (h.proceed hrange hfits choice).1
  eq_or_lt h choice := (h.proceed hrange hfits choice).2
  stays h hover choice := by
    obtain ⟨hscene, hmove⟩ := h.proceed hrange hfits choice
    rw [h.isOver_iff] at hover
    rw [hscene.isOver_iff]
    rcases hmove with heq | hlt
    · rwa [heq]
    · omega
  progress {c} h hopen := by
    have hne : c.application ≠ Application.finished s := by
      intro heq
      rw [IsOver, heq] at hopen
      exact hopen rfl
    obtain ⟨m, hlt⟩ := h.stage.exists_remaining_lt hrange hfits hne
    have hgoes (choice : Choice) (hmover : choice.mover = m) :
        (c.proceed s.engine choice).application.remaining < c.application.remaining := by
      rw [application_proceed]
      cases choice with
      | engine =>
        cases hmover
        exact hlt
      | host loop =>
        cases hmover
        rwa [Application.proceed_host_of_not_isExhausted hopen]
    cases m with
    | engine => exact ⟨.engine, hgoes⟩
    | host => exact ⟨.host .run, hgoes⟩

theorem frame_ne_readyFrame (call : EngineCall) : call.frame ≠ readyFrame := by
  intro h
  have hready : Message.parse readyFrame = .ok ⟨"ready", []⟩ :=
    Message.parse_render trivial trivial (by decide)
  rw [← h, call.parse_frame_eq, Except.ok.injEq] at hready
  have hname : call.method.name = "ready" := congrArg Message.method hready
  cases hmethod : call.method <;> rw [hmethod] at hname <;> exact absurd hname (by decide)

theorem awaitStart_notMem_body (e : EngineSettings) : Action.awaitStart ∉ body e := by
  obtain ⟨actions, hbody, hsteady⟩ := Demo.body_eq e
  rw [hbody, List.cons_append, List.mem_cons, List.mem_append, List.mem_singleton]
  rintro (h | h | h)
  · cases h
  · cases hsteady _ h
  · cases h

def AwaitsStart (c : Conversation) : Prop :=
  ∃ todo, c.application.engine = .running todo ∧ Action.awaitStart ∈ todo

theorem Scene.posted_of_awaitsStart (h : Scene s c) (hawaits : c.AwaitsStart) :
    c.posted <+: [readyFrame] := by
  obtain ⟨todo, hengine, hmem⟩ := hawaits
  cases h with
  | initial => exact List.nil_prefix
  | announced | greeted | started => exact List.prefix_rfl
  | running htodo =>
    cases hengine
    exact absurd (htodo.subset hmem) (awaitStart_notMem_body s.engine)
  | stopped | finished => cases hengine

theorem map_fst_handled (taken : List EngineCall) :
    (taken.map fun call => (call.frame, (.ok () : Except Violation Unit))).map Prod.fst =
      taken.map EngineCall.frame := by
  rw [List.map_map]
  rfl

/-- The host handles what was posted, in order, but for the frame that says that the engine is
ready. -/
theorem Scene.handled_inOrder (h : Scene s c) :
    c.handled.map Prod.fst <+: c.posted.tail ∧
      ∀ frame result, (frame, result) ∈ c.handled → frame ≠ readyFrame ∧ result = .ok () := by
  have hall (taken : List EngineCall) (frame : String) (result : Except Violation Unit)
      (h : (frame, result) ∈ taken.map fun call => (call.frame, Except.ok ())) :
      frame ≠ readyFrame ∧ result = .ok () := by
    obtain ⟨call, -, hcall⟩ := List.mem_map.mp h
    cases hcall
    exact ⟨frame_ne_readyFrame call, rfl⟩
  cases h with
  | initial | announced | greeted | started => exact ⟨⟨_, rfl⟩, nofun⟩
  | running | stopped =>
    refine ⟨?_, hall _⟩
    rw [map_fst_handled, List.tail_cons, List.map_append]
    exact List.prefix_append _ _
  | finished =>
    refine ⟨?_, hall _⟩
    rw [map_fst_handled]
    exact List.prefix_rfl

theorem Scene.of_isOver (h : Scene s c) (hover : c.IsOver) :
    c.posted = readyFrame :: (calls s.engine (body s.engine)).map EngineCall.frame ∧
      c.handled.map Prod.fst = (calls s.engine (body s.engine)).map EngineCall.frame ∧
      c.application.bridge.session =
        (Session.new s.display.scaleFactor).performed (calls s.engine (body s.engine)) := by
  have hremaining := h.isOver_iff.mp hover
  cases h with
  | initial | announced | greeted | started => exact absurd hover nofun
  | running =>
    rw [Application.remaining_running] at hremaining
    omega
  | @stopped taken pending hcalls =>
    have hpending : pending = [] := by
      rw [Application.remaining_stopped] at hremaining
      exact List.length_eq_zero_iff.mp (by omega)
    rw [hpending, List.append_nil] at hcalls
    rw [hpending, List.append_nil, map_fst_handled, hcalls]
    exact ⟨rfl, rfl, session_underWay s _ _ _⟩
  | finished => exact ⟨rfl, map_fst_handled _, Application.session_finished s⟩

end Conversation

end EngineBridge
