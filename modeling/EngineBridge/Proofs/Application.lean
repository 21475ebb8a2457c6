import EngineBridge.Application
import EngineBridge.Proofs.Demo.Calls
import EngineBridge.Proofs.Rounds

/-! An application whose settings are in range and whose window fits the display. However engine and
host take turns, it goes through the same stages, and no turn is refused on the way. Each turn that
changes anything leaves less to do, so that turns of both come to the end. -/
namespace EngineBridge

theorem HostCall.ofFrame_start : HostCall.ofFrame HostCall.start.encode.render = .ok .start := by
  have hparse : Message.parse HostCall.start.encode.render = .ok HostCall.start.encode :=
    Message.parse_render trivial trivial (by decide)
  unfold HostCall.ofFrame
  rw [hparse]
  rfl

namespace Application

open Demo (Action Status body calls readyFrame)

def announced (s : Settings) : Application where
  engine := .running (.awaitStart :: body s.engine)
  bridge := {
    link := { toHost := { queue := [readyFrame] } }
    session := .new s.display.scaleFactor }

def greeted (s : Settings) : Application where
  engine := .running (.awaitStart :: body s.engine)
  host := .starting
  bridge := { session := .new s.display.scaleFactor }

def started (s : Settings) : Application where
  engine := .running (.awaitStart :: body s.engine)
  host := .serving
  bridge := {
    link := { toEngine := { queue := [HostCall.start.encode.render] } }
    session := .new s.display.scaleFactor }

def emptyLink : Status → Link
  | .running _ => {}
  | .stopped _ => ({} : Link).dropEngine

def underWay (s : Settings) (engine : Status) (taken pending : List EngineCall) : Application where
  engine := engine
  host := .serving
  bridge := {
    link := (emptyLink engine).queued pending
    session := (Session.new s.display.scaleFactor).performed taken }

def finished (s : Settings) : Application where
  engine := .stopped (.ok ())
  host := .ended (.ok ())
  bridge := {
    link := ({} : Link).dropEngine.dropHost
    session := (Session.new s.display.scaleFactor).performed (calls s.engine (body s.engine)) }

theorem session_finished (s : Settings) :
    (finished s).bridge.session = (Session.new s.display.scaleFactor).performed
      (calls s.engine (body s.engine)) := by
  simp only [finished]

/-- Where an application can be. What is taken, on its way and still to be sent are, in this order,
the calls of the engine. -/
inductive Stage (s : Settings) : Application → Prop
  | initial : Stage s (initial s)
  | announced : Stage s (announced s)
  | greeted : Stage s (greeted s)
  | started : Stage s (started s)
  | running {taken pending : List EngineCall} {todo : List Action} (htodo : todo <:+ body s.engine)
      (hcalls : taken ++ (pending ++ calls s.engine todo) = calls s.engine (body s.engine)) :
    Stage s (underWay s (.running todo) taken pending)
  | stopped {taken pending : List EngineCall}
      (hcalls : taken ++ pending = calls s.engine (body s.engine)) :
    Stage s (underWay s (.stopped (.ok ())) taken pending)
  | finished : Stage s (finished s)

variable {s : Settings}

theorem move_engine_initial : (initial s).move s.engine .engine = announced s := rfl

theorem move_host_initial : (initial s).move s.engine .host = initial s := rfl

theorem move_engine_announced : (announced s).move s.engine .engine = announced s := rfl

theorem move_host_announced : (announced s).move s.engine .host = greeted s := rfl

theorem move_engine_greeted : (greeted s).move s.engine .engine = greeted s := rfl

theorem move_host_greeted : (greeted s).move s.engine .host = started s := rfl

theorem move_engine_started :
    (started s).move s.engine .engine = underWay s (.running (body s.engine)) [] [] := by
  unfold move moveEngine Demo.step Action.perform Link.nextHostCall
  simp only [started, Pipe.receive, HostCall.ofFrame_start]
  rfl

theorem move_host_started : (started s).move s.engine .host = started s := rfl

theorem move_engine_running (h : s.InRange) {taken pending : List EngineCall} {action : Action}
    {todo : List Action} (haction : action ∈ body s.engine) :
    (underWay s (.running (action :: todo)) taken pending).move s.engine .engine =
      underWay s (.running todo) taken (pending ++ calls s.engine [action]) := by
  unfold move moveEngine Demo.step
  simp only [underWay]
  rw [h.perform_eq haction rfl]
  simp [emptyLink, Link.queued]

theorem move_engine_running_nil {taken pending : List EngineCall} :
    (underWay s (.running []) taken pending).move s.engine .engine =
      underWay s (.stopped (.ok ())) taken pending := rfl

theorem move_engine_stopped {result : Except Failure Unit} {taken pending : List EngineCall} :
    (underWay s (.stopped result) taken pending).move s.engine .engine =
      underWay s (.stopped result) taken pending := rfl

theorem move_host_running_nil {taken : List EngineCall} {todo : List Action} :
    (underWay s (.running todo) taken []).move s.engine .host =
      underWay s (.running todo) taken [] := rfl

theorem move_host_stopped_nil {taken : List EngineCall}
    (h : taken = calls s.engine (body s.engine)) :
    (underWay s (.stopped (.ok ())) taken []).move s.engine .host = finished s := by
  unfold finished
  rw [← h]
  rfl

theorem move_finished (m : Mover) : (finished s).move s.engine m = finished s := by
  unfold finished
  generalize calls s.engine (body s.engine) = taken
  cases m <;> rfl

theorem move_host_call (h : s.InRange) {engine : Status} {taken pending : List EngineCall}
    {call : EngineCall} (hcall : call ∈ calls s.engine (body s.engine)) :
    (underWay s engine taken (call :: pending)).move s.engine .host =
      match ((Session.perform call).apply
        ((Session.new s.display.scaleFactor).performed taken)).2 with
      | .ok () => underWay s engine (taken ++ [call]) pending
      | .error v =>
        (underWay s engine (taken ++ [call]) pending).hostEnds (.error (.violation v)) := by
  have hhandle := Session.handle_frame (h.hasValidImage hcall)
  have hqueue : (underWay s engine taken (call :: pending)).bridge.link.toHost.queue =
      call.frame :: pending.map EngineCall.frame := by
    cases engine <;> rfl
  have hnext := Bridge.handleNext_of_queue_cons hqueue
  have htaking : (underWay s engine taken (call :: pending)).bridge.taking call.frame
        (pending.map EngineCall.frame) =
      (underWay s engine (taken ++ [call]) pending).bridge := by
    simp only [Bridge.taking, underWay, Session.afterFrame, hhandle, Session.performed,
      List.foldl_append, List.foldl_cons, List.foldl_nil, Link.queued]
    cases engine <;> rfl
  rw [htaking, hhandle] at hnext
  unfold move moveHost
  rw [hnext]
  simp only [underWay]
  cases ((Session.perform call).apply ((Session.new s.display.scaleFactor).performed taken)).2 <;>
    rfl

theorem move_host_take (hrange : s.InRange) (hfits : s.Fits) {engine : Status}
    {taken pending later : List EngineCall} {call : EngineCall}
    (h : taken ++ call :: later = calls s.engine (body s.engine)) :
    (underWay s engine taken (call :: pending)).move s.engine .host =
      underWay s engine (taken ++ [call]) pending := by
  have hcall : call ∈ calls s.engine (body s.engine) := by
    rw [← h]
    exact List.mem_append_right _ List.mem_cons_self
  rw [move_host_call hrange hcall, Session.snd_apply_perform hrange hfits h]

def openingTurns : List Mover := [.engine, .host, .engine, .host, .engine, .host]

theorem play_openingTurns :
    (initial s).play s.engine openingTurns = underWay s (.running (body s.engine)) [] [] := by
  simp only [play, openingTurns, List.foldl_cons, List.foldl_nil]
  rw [move_engine_initial, move_host_announced, move_engine_greeted, move_host_greeted,
    move_engine_started, move_host_running_nil]

def openingCalls (s : Settings) : List EngineCall :=
  [.windowCreate Demo.window, .windowSetTitle Demo.window (Demo.title s.engine.program),
    .windowSetSize Demo.window ⟨s.engine.width, s.engine.height⟩]

theorem body_eq_openingCalls (s : Settings) :
    ∃ rest, body s.engine = (openingCalls s).map Action.send ++ rest :=
  ⟨(body s.engine).drop 3, rfl⟩

theorem mem_calls_of_mem_openingCalls {call : EngineCall} (h : call ∈ openingCalls s) :
    call ∈ calls s.engine (body s.engine) := by
  obtain ⟨rest, hbody⟩ := body_eq_openingCalls s
  rw [hbody]
  exact List.mem_filterMap.mpr ⟨_, List.mem_append_left rest (List.mem_map_of_mem h), rfl⟩

theorem exists_play_engine (h : s.InRange) :
    ∃ rest, (underWay s (.running (body s.engine)) [] []).play s.engine
      [.engine, .engine, .engine] = underWay s (.running rest) [] (openingCalls s) := by
  obtain ⟨rest, hbody⟩ := body_eq_openingCalls s
  have hmem {action : Action} (haction : action ∈ (openingCalls s).map Action.send) :
      action ∈ body s.engine := by
    rw [hbody]
    exact List.mem_append_left rest haction
  refine ⟨rest, ?_⟩
  simp only [play, List.foldl_cons, List.foldl_nil]
  rw [hbody, openingCalls, List.map_cons, List.map_cons, List.map_singleton, List.cons_append,
    List.cons_append, List.singleton_append,
    move_engine_running h (hmem (by simp [openingCalls])),
    move_engine_running h (hmem (by simp [openingCalls])),
    move_engine_running h (hmem (by simp [openingCalls]))]
  rfl

theorem host_play_openingCalls (h : s.InRange) {v : Violation}
    (hlimit : (PhysicalSize.ofLogical ⟨s.engine.width, s.engine.height⟩
      s.display.scaleFactor).checkLimit = .error v) (rest : List Action) :
    ((underWay s (.running rest) [] (openingCalls s)).play s.engine [.host, .host, .host]).host =
      .ended (.error (.violation v)) := by
  let session (taken : List EngineCall) := (Session.new s.display.scaleFactor).performed taken
  let create := EngineCall.windowCreate Demo.window
  let setTitle := EngineCall.windowSetTitle Demo.window (Demo.title s.engine.program)
  let setSize := EngineCall.windowSetSize Demo.window ⟨s.engine.width, s.engine.height⟩
  have htitled := (Session.isOpen_create s).setTitle (Demo.title s.engine.program)
  have hfirst : ((Session.perform create).apply (session [])).2 = .ok () := rfl
  have hsecond : ((Session.perform setTitle).apply (session ([] ++ [create]))).2 = .ok () :=
    htitled.1
  have hthird : ((Session.perform setSize).apply (session ([] ++ [create] ++ [setTitle]))).2 =
      .error v :=
    (Session.snd_apply_onDesktop _ _).trans ((htitled.2.outcome_setSize h).trans hlimit)
  have hmem {call : EngineCall} (hcall : call ∈ openingCalls s) :=
    mem_calls_of_mem_openingCalls hcall
  simp only [play, openingCalls, List.foldl_cons, List.foldl_nil]
  rw [move_host_call h (hmem (by simp [openingCalls])), hfirst,
    move_host_call h (hmem (by simp [openingCalls])), hsecond,
    move_host_call h (hmem (by simp [openingCalls])), hthird]
  rfl

/-- A window that is too large for the display is refused, however well its settings are in range. -/
theorem exists_ended_of_too_large (h : s.InRange) {v : Violation}
    (hlimit : (PhysicalSize.ofLogical ⟨s.engine.width, s.engine.height⟩
      s.display.scaleFactor).checkLimit = .error v) :
    ∃ schedule, ((initial s).play s.engine schedule).host = .ended (.error (.violation v)) := by
  obtain ⟨rest, hsent⟩ := exists_play_engine h
  have hstart := play_openingTurns (s := s)
  have hrefused := host_play_openingCalls h hlimit rest
  refine ⟨openingTurns ++ ([Mover.engine, .engine, .engine] ++ [Mover.host, .host, .host]), ?_⟩
  unfold play at hstart hsent hrefused ⊢
  rw [List.foldl_append, hstart, List.foldl_append, hsent, hrefused]

/-- A bound on the turns that change anything. Each turn of the engine sends one frame at most. -/
def remaining (a : Application) : Nat :=
  (match a.engine with
    | .running todo => 2 * (todo.length + 1)
    | .stopped _ => 0) +
  a.bridge.link.toHost.queue.length +
  match a.host with
    | .awaitingEngine => 3
    | .starting => 2
    | .serving => 1
    | .ended _ => 0

theorem remaining_initial (s : Settings) :
    (initial s).remaining = 2 * (Demo.script s.engine).length + 5 := rfl

theorem remaining_running (s : Settings) (todo : List Action) (taken pending : List EngineCall) :
    (underWay s (.running todo) taken pending).remaining =
      2 * (todo.length + 1) + pending.length + 1 := by
  simp [remaining, underWay, emptyLink, Link.queued]

theorem remaining_stopped (s : Settings) (result : Except Failure Unit)
    (taken pending : List EngineCall) :
    (underWay s (.stopped result) taken pending).remaining = pending.length + 1 := by
  simp [remaining, underWay, emptyLink, Link.queued, Link.dropEngine, Pipe.dropSender]

theorem remaining_announced_lt (s : Settings) : (announced s).remaining < (initial s).remaining := by
  change 2 * ((body s.engine).length + 2) + 4 < 2 * ((body s.engine).length + 3) + 3
  omega

theorem remaining_greeted_lt (s : Settings) : (greeted s).remaining < (announced s).remaining := by
  change 2 * ((body s.engine).length + 2) + 2 < 2 * ((body s.engine).length + 2) + 4
  omega

theorem remaining_started_lt (s : Settings) : (started s).remaining < (greeted s).remaining := by
  change 2 * ((body s.engine).length + 2) + 1 < 2 * ((body s.engine).length + 2) + 2
  omega

theorem remaining_body_lt (s : Settings) :
    (underWay s (.running (body s.engine)) [] []).remaining < (started s).remaining := by
  rw [remaining_running]
  change 2 * ((body s.engine).length + 1) + 0 + 1 < 2 * ((body s.engine).length + 2) + 1
  omega

theorem remaining_sent_lt (s : Settings) (action : Action) (todo : List Action)
    (taken pending : List EngineCall) :
    (underWay s (.running todo) taken (pending ++ calls s.engine [action])).remaining <
      (underWay s (.running (action :: todo)) taken pending).remaining := by
  have hsent : (calls s.engine [action]).length ≤ 1 := List.length_filterMap_le _ [action]
  rw [remaining_running, remaining_running, List.length_append, List.length_cons]
  omega

theorem remaining_taken_lt (s : Settings) (engine : Status) (call : EngineCall)
    (taken pending : List EngineCall) :
    (underWay s engine (taken ++ [call]) pending).remaining <
      (underWay s engine taken (call :: pending)).remaining := by
  cases engine with
  | running todo =>
    rw [remaining_running, remaining_running, List.length_cons]
    omega
  | stopped result =>
    rw [remaining_stopped, remaining_stopped, List.length_cons]
    omega

theorem remaining_stopped_lt (s : Settings) (taken pending : List EngineCall) :
    (underWay s (.stopped (.ok ())) taken pending).remaining <
      (underWay s (.running []) taken pending).remaining := by
  rw [remaining_running, remaining_stopped, List.length_nil]
  omega

theorem remaining_finished_lt (s : Settings) (taken : List EngineCall) :
    (finished s).remaining < (underWay s (.stopped (.ok ())) taken []).remaining :=
  Nat.one_pos

theorem Stage.not_error {a : Application} (h : Stage s a) (failure : Failure) :
    a.host ≠ .ended (.error failure) ∧ a.engine ≠ .stopped (.error failure) := by
  cases h <;> exact ⟨nofun, nofun⟩

theorem Stage.eq_finished {a : Application} (h : Stage s a) {result : Except Failure Unit}
    (hended : a.host = .ended result) : result = .ok () ∧ a = Application.finished s := by
  cases h with
  | finished =>
    cases hended
    exact ⟨rfl, rfl⟩
  | _ => cases hended

section Turns

variable (hrange : s.InRange) (hfits : s.Fits) {a : Application}

include hrange hfits

theorem Stage.move (h : Stage s a) (m : Mover) :
    Stage s (a.move s.engine m) ∧
      (a.move s.engine m = a ∨ (a.move s.engine m).remaining < a.remaining) := by
  cases h with
  | initial =>
    cases m with
    | engine =>
      rw [move_engine_initial]
      exact ⟨.announced, .inr (remaining_announced_lt s)⟩
    | host =>
      rw [move_host_initial]
      exact ⟨.initial, .inl rfl⟩
  | announced =>
    cases m with
    | engine =>
      rw [move_engine_announced]
      exact ⟨.announced, .inl rfl⟩
    | host =>
      rw [move_host_announced]
      exact ⟨.greeted, .inr (remaining_greeted_lt s)⟩
  | greeted =>
    cases m with
    | engine =>
      rw [move_engine_greeted]
      exact ⟨.greeted, .inl rfl⟩
    | host =>
      rw [move_host_greeted]
      exact ⟨.started, .inr (remaining_started_lt s)⟩
  | started =>
    cases m with
    | engine =>
      rw [move_engine_started]
      exact ⟨.running List.suffix_rfl rfl, .inr (remaining_body_lt s)⟩
    | host =>
      rw [move_host_started]
      exact ⟨.started, .inl rfl⟩
  | @running taken pending todo htodo hcalls =>
    cases m with
    | engine =>
      cases todo with
      | nil =>
        rw [move_engine_running_nil]
        refine ⟨.stopped ?_, .inr (remaining_stopped_lt s taken pending)⟩
        simpa [calls] using hcalls
      | cons action todo =>
        rw [move_engine_running hrange (htodo.subset List.mem_cons_self)]
        refine ⟨.running ((List.suffix_cons action todo).trans htodo) ?_,
          .inr (remaining_sent_lt s action todo taken pending)⟩
        rw [← hcalls]
        simp [calls, ← List.filterMap_append]
    | host =>
      cases pending with
      | nil =>
        rw [move_host_running_nil]
        exact ⟨.running htodo hcalls, .inl rfl⟩
      | cons call pending =>
        rw [move_host_take hrange hfits hcalls]
        refine ⟨.running htodo ?_, .inr (remaining_taken_lt s _ call taken pending)⟩
        rw [← hcalls, List.append_assoc]
        rfl
  | @stopped taken pending hcalls =>
    cases m with
    | engine =>
      rw [move_engine_stopped]
      exact ⟨.stopped hcalls, .inl rfl⟩
    | host =>
      cases pending with
      | nil =>
        rw [move_host_stopped_nil ((List.append_nil taken).symm.trans hcalls)]
        exact ⟨.finished, .inr (remaining_finished_lt s _)⟩
      | cons call pending =>
        rw [move_host_take hrange hfits hcalls]
        refine ⟨.stopped ?_, .inr (remaining_taken_lt s _ call taken pending)⟩
        rw [← hcalls, List.append_assoc]
        rfl
  | finished =>
    rw [move_finished]
    exact ⟨.finished, .inl rfl⟩

theorem Stage.exists_remaining_lt (h : Stage s a) (hne : a ≠ Application.finished s) :
    ∃ m, (a.move s.engine m).remaining < a.remaining := by
  cases h with
  | initial => exact ⟨.engine, move_engine_initial ▸ remaining_announced_lt s⟩
  | announced => exact ⟨.host, move_host_announced ▸ remaining_greeted_lt s⟩
  | greeted => exact ⟨.host, move_host_greeted ▸ remaining_started_lt s⟩
  | started =>
    refine ⟨.engine, ?_⟩
    rw [move_engine_started]
    exact remaining_body_lt s
  | @running taken pending todo htodo hcalls =>
    refine ⟨.engine, ?_⟩
    cases todo with
    | nil =>
      rw [move_engine_running_nil]
      exact remaining_stopped_lt s taken pending
    | cons action todo =>
      rw [move_engine_running hrange (htodo.subset List.mem_cons_self)]
      exact remaining_sent_lt s action todo taken pending
  | @stopped taken pending hcalls =>
    refine ⟨.host, ?_⟩
    cases pending with
    | nil =>
      rw [move_host_stopped_nil ((List.append_nil taken).symm.trans hcalls)]
      exact remaining_finished_lt s _
    | cons call pending =>
      rw [move_host_take hrange hfits hcalls]
      exact remaining_taken_lt s _ call taken pending
  | finished => exact absurd rfl hne

theorem Stage.isOpen (h : Stage s a)
    (hsome : (a.bridge.session.desktop.get? Demo.window).isSome) :
    a.bridge.session.IsOpen s := by
  have hperformed {taken later : List EngineCall}
      (hcalls : taken ++ later = Demo.calls s.engine (Demo.body s.engine))
      (hsome : (((Session.new s.display.scaleFactor).performed taken).desktop.get?
        Demo.window).isSome) :
      ((Session.new s.display.scaleFactor).performed taken).IsOpen s := by
    refine (Session.isOpen_performed hrange hfits hcalls ?_).1
    rintro rfl
    cases hsome
  cases h with
  | running htodo hcalls => exact hperformed hcalls hsome
  | stopped hcalls => exact hperformed hcalls hsome
  | finished =>
    rw [session_finished]
    exact (Session.performed_calls hrange hfits).1
  | _ => cases hsome

theorem Stage.play (h : Stage s a) (schedule : List Mover) : Stage s (a.play s.engine schedule) := by
  induction schedule generalizing a with
  | nil => exact h
  | cons m rest ih => exact ih (h.move hrange hfits m).1

def ranking : Ranking (Application.move s.engine) id (Stage s) (· = finished s) where
  rank := remaining
  keeps h m := (h.move hrange hfits m).1
  eq_or_lt h m := (h.move hrange hfits m).2
  stays := by
    rintro _ _ rfl m
    exact move_finished m
  progress h hne := by
    obtain ⟨m, hlt⟩ := h.exists_remaining_lt hrange hfits hne
    refine ⟨m, ?_⟩
    rintro _ rfl
    exact hlt

theorem Stage.play_flatten (h : Stage s a) {rounds : List (List Mover)}
    (hrounds : ∀ round ∈ rounds, ∀ m, m ∈ round) (hlength : a.remaining ≤ rounds.length) :
    a.play s.engine rounds.flatten = Application.finished s :=
  (ranking hrange hfits).done_foldl_flatten h
    (fun round hround m => ⟨m, hrounds round hround m, rfl⟩) hlength

theorem play_turn {taken later : List EngineCall} {action : Action} (todo : List Action)
    (haction : action ∈ body s.engine)
    (hcalls : taken ++ (calls s.engine [action] ++ later) = calls s.engine (body s.engine)) :
    (underWay s (.running (action :: todo)) taken []).play s.engine [.engine, .host] =
      underWay s (.running todo) (taken ++ calls s.engine [action]) [] := by
  change ((underWay s (.running (action :: todo)) taken []).move s.engine .engine).move
    s.engine .host = _
  rw [move_engine_running hrange haction, List.nil_append]
  -- an action sends one call at most, and the host takes it at once
  have hsent : (calls s.engine [action]).length ≤ 1 := List.length_filterMap_le _ [action]
  match hsend : calls s.engine [action], hsent with
  | [], _ => rw [List.append_nil, move_host_running_nil]
  | [call], _ =>
    rw [hsend] at hcalls
    exact move_host_take hrange hfits hcalls

theorem play_turns {taken : List EngineCall} {todo : List Action} (htodo : todo <:+ body s.engine)
    (hcalls : taken ++ calls s.engine todo = calls s.engine (body s.engine)) :
    (underWay s (.running todo) taken []).play s.engine
      (List.replicate (todo.length + 1) [.engine, .host]).flatten = finished s := by
  induction todo generalizing taken with
  | nil =>
    change ((underWay s (.running []) taken []).move s.engine .engine).move s.engine .host = _
    rw [move_engine_running_nil, move_host_stopped_nil ((List.append_nil taken).symm.trans hcalls)]
  | cons action todo ih =>
    have hsplit : calls s.engine (action :: todo) =
        calls s.engine [action] ++ calls s.engine todo := by
      unfold calls
      rw [← List.filterMap_append]
      rfl
    rw [hsplit] at hcalls
    rw [List.length_cons, List.replicate_succ, List.flatten_cons, play, List.foldl_append]
    have hturn := play_turn hrange hfits todo (htodo.subset List.mem_cons_self) hcalls
    unfold play at hturn
    rw [hturn]
    exact ih ((List.suffix_cons action todo).trans htodo)
      ((List.append_assoc _ _ _).trans hcalls)

theorem run_eq :
    run s = ((Session.new s.display.scaleFactor).performed (calls s.engine (body s.engine)),
      .ok ()) := by
  have hschedule : schedule s.engine =
      openingTurns ++
        (List.replicate ((body s.engine).length + 1) [Mover.engine, .host]).flatten := by
    unfold schedule
    rw [List.flatMap_def, List.map_const', List.length_range, Demo.script_eq, List.length_cons,
      List.length_cons, List.replicate_succ, List.replicate_succ, List.replicate_succ]
    simp only [openingTurns, List.flatten_cons, List.cons_append, List.nil_append]
  have hplay : (initial s).play s.engine (schedule s.engine) = finished s := by
    have hstart := play_openingTurns (s := s)
    have hturns := play_turns hrange hfits List.suffix_rfl (List.nil_append (calls s.engine _))
    unfold play at hstart hturns ⊢
    rw [hschedule, List.foldl_append, hstart, hturns]
  have hhost : (finished s).host = .ended (.ok ()) := rfl
  unfold run
  simp only [hplay, hhost, session_finished]

end Turns

end Application

end EngineBridge
