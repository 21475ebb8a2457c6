import EngineBridge.Proofs.Bridge

/-! An engine and its host in any order of their steps. The engine may send or go away between any
two frames that a loop of the host handles, and the host may give up a loop that waits and begin
another one. No frame is lost, handled twice or out of turn. -/
namespace EngineBridge

inductive Move where
  | post (frame : String)
  | send (call : EngineCall)
  | dropPort
  | pump
  | run
  | turn
  /-- the host gives up a loop that may wait -/
  | abandon

structure Task where
  loop : FrameLoop
  /-- the frames that were consumed before it began -/
  earlier : List String
  frames : List String := []

structure Return where
  task : Task
  stop : Stop
  /-- the frames that were queued when it stopped -/
  left : List String
  portDropped : Bool

/-- A bridge, and what has happened on it. -/
structure Exchange where
  bridge : Bridge
  accepted : List String := []
  consumed : List String := []
  task : Option Task := none
  returns : List Return := []

namespace Exchange

def initial (displayScale : Float) : Exchange := { bridge := { session := .new displayScale } }

def queue (x : Exchange) : List String := x.bridge.link.toHost.queue

def portDropped (x : Exchange) : Bool := x.bridge.link.toHost.senders = 0

def withLink (x : Exchange) (link : Link) : Exchange :=
  { x with bridge := { x.bridge with link := link } }

def sent (x : Exchange) (frame : String) : Except Failure Link → Exchange
  | .ok link => { x.withLink link with accepted := x.accepted ++ [frame] }
  | .error _ => x

def start (x : Exchange) (loop : FrameLoop) : Exchange :=
  match x.task with
  | none => { x with task := some { loop := loop, earlier := x.consumed } }
  | some _ => x

def conclude (x : Exchange) (task : Task) : Turn → Exchange
  | .goesOn loop => { x with task := some { task with loop := loop } }
  | .stops .waiting => { x with task := some task }
  | .stops stop =>
    { x with
      task := none
      returns := x.returns ++ [⟨task, stop, x.queue, x.portDropped⟩] }

def advance (x : Exchange) (task : Task) : Exchange :=
  let taken := x.queue.take 1
  let turned := x.bridge.turn task.loop
  conclude { x with
      bridge := turned.1
      consumed := x.consumed ++ taken
      task := none }
    { task with frames := task.frames ++ taken } turned.2

def move (x : Exchange) : Move → Exchange
  | .post frame => if x.portDropped then x else x.sent frame (x.bridge.link.post frame)
  | .send call => if x.portDropped then x else x.sent call.frame (x.bridge.link.send call)
  | .dropPort => if x.portDropped then x else x.withLink x.bridge.link.dropEngine
  | .pump => x.start (.pump 0)
  | .run => x.start .run
  | .turn =>
    match x.task with
    | some task => x.advance task
    | none => x
  | .abandon =>
    match x.task with
    | some ⟨.run, _, _⟩ => { x with task := none }
    | _ => x

def play (x : Exchange) (moves : List Move) : Exchange := moves.foldl move x

end Exchange

namespace Move

def frame? : Move → Option String
  | .post frame => some frame
  | .send call => some call.frame
  | _ => none

def dropsPort : Move → Bool
  | .dropPort => true
  | _ => false

/-- The frames that an engine sends before it goes away. -/
def sent (moves : List Move) : List String := (moves.takeWhile (!·.dropsPort)).filterMap frame?

theorem sent_cons (m : Move) (rest : List Move) :
    sent (m :: rest) = m.frame?.toList ++ if m.dropsPort then [] else sent rest := by
  unfold sent
  rw [List.takeWhile_cons]
  cases m <;> rfl

end Move

def FrameLoop.Counts (handled : Nat) : FrameLoop → Prop
  | .pump n => n = handled
  | .run => True

/-- Every frame that the loop has consumed succeeded, and it has lost none. -/
structure Task.IsSound (task : Task) (s : Session) (consumed : List String) : Prop where
  consumed_eq : task.earlier ++ task.frames = consumed
  accepts : (task.earlier.foldl Session.afterFrame s).Accepts task.frames
  counts : task.loop.Counts task.frames.length

/-- What the host may conclude from the way in which a loop stopped. -/
def Return.Tells (r : Return) (s : Session) : Prop :=
  match r.stop with
  | .drained handled =>
    r.task.loop = .pump handled ∧ r.task.frames.length = handled ∧
      s.Accepts r.task.frames ∧ r.left = []
  | .finished => r.task.loop = .run ∧ s.Accepts r.task.frames ∧ r.left = [] ∧ r.portDropped
  | .failed v => ∃ front last, r.task.frames = front ++ [last] ∧ s.Accepts front ∧
      ((Session.handle last).apply (front.foldl Session.afterFrame s)).2 = .error v
  | .waiting => False

/-- The loop stands for a stretch of the frames that were consumed, and what it left is what was
sent next. -/
structure Return.IsSound (r : Return) (s : Session) (consumed accepted : List String) : Prop where
  consumed : r.task.earlier ++ r.task.frames <+: consumed
  accepted : r.task.earlier ++ r.task.frames ++ r.left <+: accepted
  tells : r.Tells (r.task.earlier.foldl Session.afterFrame s)

namespace Exchange

structure IsSound (x : Exchange) (s : Session) : Prop where
  hasReceiver : x.bridge.link.toHost.hasReceiver
  senders_le : x.bridge.link.toHost.senders ≤ 1
  accepted_eq : x.accepted = x.consumed ++ x.queue
  session_eq : x.bridge.session = x.consumed.foldl Session.afterFrame s
  task : ∀ task, x.task = some task → task.IsSound s x.consumed
  returns : ∀ r ∈ x.returns, r.IsSound s x.consumed x.accepted

theorem isSound_initial (displayScale : Float) :
    (initial displayScale).IsSound (.new displayScale) where
  hasReceiver := rfl
  senders_le := Nat.le_refl 1
  accepted_eq := rfl
  session_eq := rfl
  task := by simp [initial]
  returns := by simp [initial]

variable {x : Exchange} {s : Session}

theorem sent_post (h : x.bridge.link.toHost.hasReceiver) (frame : String) :
    x.sent frame (x.bridge.link.post frame) =
      { x.withLink { x.bridge.link with
          toHost := { x.bridge.link.toHost with queue := x.queue ++ [frame] } } with
        accepted := x.accepted ++ [frame] } := by
  unfold Link.post Pipe.send
  rw [if_pos h]
  rfl

theorem move_send (call : EngineCall) : x.move (.send call) = x.move (.post call.frame) := rfl

theorem IsSound.post (h : x.IsSound s) (frame : String) : (x.move (.post frame)).IsSound s := by
  simp only [Exchange.move]
  split
  · exact h
  · rw [sent_post h.hasReceiver]
    exact {
      hasReceiver := h.hasReceiver
      senders_le := h.senders_le
      accepted_eq := by
        rw [h.accepted_eq, List.append_assoc]
        rfl
      session_eq := h.session_eq
      task := h.task
      returns := fun r hr =>
        { h.returns r hr with
          accepted := (h.returns r hr).accepted.trans (List.prefix_append _ _) } }

theorem IsSound.dropPort (h : x.IsSound s) : (x.withLink x.bridge.link.dropEngine).IsSound s :=
  { h with senders_le := Nat.le_trans (Nat.sub_le _ _) h.senders_le }

theorem IsSound.start (h : x.IsSound s) {loop : FrameLoop} (hloop : loop.Counts 0) :
    (x.start loop).IsSound s := by
  unfold Exchange.start
  split
  · refine { h with task := ?_ }
    rintro task ⟨⟩
    exact ⟨List.append_nil _, trivial, hloop⟩
  · exact h

theorem IsSound.abandon (h : x.IsSound s) : IsSound { x with task := none } s :=
  { h with task := by simp }

def taking (x : Exchange) (frame : String) (rest : List String) : Exchange :=
  { x with
    bridge := x.bridge.taking frame rest
    consumed := x.consumed ++ [frame]
    task := none }

theorem IsSound.taking (h : x.IsSound s) {frame : String} {rest : List String}
    (hqueue : x.queue = frame :: rest) : (x.taking frame rest).IsSound s where
  hasReceiver := h.hasReceiver
  senders_le := h.senders_le
  accepted_eq := by
    have haccepted := h.accepted_eq
    rw [hqueue, List.append_cons] at haccepted
    exact haccepted
  session_eq := by
    change x.bridge.session.afterFrame frame = _
    rw [h.session_eq]
    exact (List.foldl_concat ..).symm
  task := by simp [Exchange.taking]
  returns := fun r hr =>
    { h.returns r hr with
      consumed := (h.returns r hr).consumed.trans (List.prefix_append _ _) }

theorem IsSound.goOn (h : x.IsSound s) {task : Task} (htask : task.IsSound s x.consumed) :
    IsSound { x with task := some task } s := by
  refine { h with task := ?_ }
  rintro task ⟨⟩
  exact htask

theorem IsSound.stop (h : x.IsSound s) {task : Task} {stop : Stop}
    (hconsumed : task.earlier ++ task.frames = x.consumed)
    (htells : Return.Tells ⟨task, stop, x.queue, x.portDropped⟩
      (task.earlier.foldl Session.afterFrame s)) :
    IsSound { x with
      task := none
      returns := x.returns ++ [⟨task, stop, x.queue, x.portDropped⟩] } s := by
  refine { h with task := by simp, returns := fun r hr => ?_ }
  rcases List.mem_append.mp hr with hr | hr
  · exact h.returns r hr
  · obtain rfl := List.mem_singleton.mp hr
    refine ⟨?_, ?_, htells⟩
    · exact hconsumed ▸ List.prefix_rfl
    · have haccepted := h.accepted_eq
      rw [← hconsumed] at haccepted
      exact haccepted ▸ List.prefix_rfl

theorem advance_of_queue_nil (h : x.queue = []) (task : Task) :
    x.advance task =
      conclude { x with task := none } task (.stops (task.loop.atEnd x.portDropped)) := by
  unfold advance
  rw [Bridge.turn_of_queue_nil h, h]
  simp only [List.take_nil, List.append_nil]
  rfl

theorem advance_of_queue_cons {frame : String} {rest : List String} (h : x.queue = frame :: rest)
    (task : Task) :
    x.advance task =
      conclude (x.taking frame rest) { task with frames := task.frames ++ [frame] }
        (task.loop.turn ((Session.handle frame).apply x.bridge.session).2) := by
  unfold advance
  rw [Bridge.turn_of_queue_cons h, h]
  rfl

theorem IsSound.advance_of_queue_nil (h : x.IsSound s) {task : Task} (hqueue : x.queue = [])
    (htask : task.IsSound s x.consumed) : (x.advance task).IsSound s := by
  rw [Exchange.advance_of_queue_nil hqueue]
  have hcounts := htask.counts
  cases hloop : task.loop with
  | pump handled =>
    rw [hloop] at hcounts
    exact h.abandon.stop htask.consumed_eq ⟨hloop, hcounts.symm, htask.accepts, hqueue⟩
  | run =>
    cases hport : x.portDropped with
    | true => exact h.abandon.stop htask.consumed_eq ⟨hloop, htask.accepts, hqueue, hport⟩
    | false => exact h.abandon.goOn htask

theorem IsSound.advance_of_queue_cons (h : x.IsSound s) {task : Task} {frame : String}
    {rest : List String} (hqueue : x.queue = frame :: rest)
    (htask : task.IsSound s x.consumed) : (x.advance task).IsSound s := by
  rw [Exchange.advance_of_queue_cons hqueue]
  have hconsumed : task.earlier ++ (task.frames ++ [frame]) = x.consumed ++ [frame] := by
    rw [← List.append_assoc, htask.consumed_eq]
  have hsession : x.bridge.session =
      task.frames.foldl Session.afterFrame (task.earlier.foldl Session.afterFrame s) := by
    rw [h.session_eq, ← htask.consumed_eq, List.foldl_append]
  have hcounts := htask.counts
  cases hresult : ((Session.handle frame).apply x.bridge.session).2 with
  | ok _ =>
    refine (h.taking hqueue).goOn ⟨hconsumed, ?_, ?_⟩
    · rw [hsession] at hresult
      exact Session.accepts_append_singleton.mpr ⟨htask.accepts, hresult⟩
    · rw [List.length_append]
      cases hloop : task.loop with
      | pump handled =>
        rw [hloop] at hcounts
        exact congrArg (· + 1) hcounts
      | run => trivial
  | error v =>
    rw [hsession] at hresult
    exact (h.taking hqueue).stop hconsumed ⟨task.frames, frame, rfl, htask.accepts, hresult⟩

theorem IsSound.move (h : x.IsSound s) (m : Move) : (x.move m).IsSound s := by
  cases m with
  | post frame => exact h.post frame
  | send call =>
    rw [move_send]
    exact h.post call.frame
  | dropPort =>
    simp only [Exchange.move]
    split
    · exact h
    · exact h.dropPort
  | pump => exact h.start rfl
  | run => exact h.start trivial
  | turn =>
    simp only [Exchange.move]
    split
    · rename_i task htask
      cases hqueue : x.queue with
      | nil => exact h.advance_of_queue_nil hqueue (h.task task htask)
      | cons frame rest => exact h.advance_of_queue_cons hqueue (h.task task htask)
    · exact h
  | abandon =>
    simp only [Exchange.move]
    split
    · exact h.abandon
    · exact h

theorem IsSound.play (h : x.IsSound s) (moves : List Move) : (x.play moves).IsSound s := by
  induction moves generalizing x with
  | nil => exact h
  | cons m rest ih => exact ih (h.move m)

@[simp] theorem accepted_conclude (task : Task) (turn : Turn) :
    (x.conclude task turn).accepted = x.accepted := by
  unfold conclude
  split <;> rfl

@[simp] theorem portDropped_conclude (task : Task) (turn : Turn) :
    (x.conclude task turn).portDropped = x.portDropped := by
  unfold conclude
  split <;> rfl

@[simp] theorem accepted_start (loop : FrameLoop) : (x.start loop).accepted = x.accepted := by
  unfold start
  split <;> rfl

@[simp] theorem portDropped_start (loop : FrameLoop) :
    (x.start loop).portDropped = x.portDropped := by
  unfold start
  split <;> rfl

@[simp] theorem accepted_advance (task : Task) : (x.advance task).accepted = x.accepted := by
  unfold advance
  simp

@[simp] theorem portDropped_advance (task : Task) :
    (x.advance task).portDropped = x.portDropped := by
  cases hqueue : x.queue with
  | nil =>
    rw [advance_of_queue_nil hqueue, portDropped_conclude]
    rfl
  | cons frame rest =>
    rw [advance_of_queue_cons hqueue, portDropped_conclude]
    rfl

theorem IsSound.accepted_post (h : x.IsSound s) (frame : String) :
    (x.move (.post frame)).accepted = x.accepted ++ if x.portDropped then [] else [frame] := by
  simp only [Exchange.move]
  split
  · simp
  · rw [sent_post h.hasReceiver]

theorem IsSound.accepted_move (h : x.IsSound s) (m : Move) :
    (x.move m).accepted = x.accepted ++ if x.portDropped then [] else m.frame?.toList := by
  cases m with
  | post frame => exact h.accepted_post frame
  | send call =>
    rw [move_send]
    exact h.accepted_post call.frame
  | dropPort =>
    simp only [Exchange.move]
    split <;> simp [withLink, Move.frame?]
  | pump => simp [Exchange.move, Move.frame?]
  | run => simp [Exchange.move, Move.frame?]
  | turn =>
    simp only [Exchange.move]
    split <;> simp [Move.frame?]
  | abandon =>
    simp only [Exchange.move]
    split <;> simp [Move.frame?]

theorem IsSound.portDropped_post (h : x.IsSound s) (frame : String) :
    (x.move (.post frame)).portDropped = x.portDropped := by
  simp only [Exchange.move]
  split
  · rfl
  · rw [sent_post h.hasReceiver]
    rfl

theorem IsSound.portDropped_move (h : x.IsSound s) (m : Move) :
    (x.move m).portDropped = (x.portDropped || m.dropsPort) := by
  cases m with
  | post frame =>
    rw [h.portDropped_post]
    exact (Bool.or_false _).symm
  | send call =>
    rw [move_send, h.portDropped_post]
    exact (Bool.or_false _).symm
  | dropPort =>
    simp only [Exchange.move]
    split
    · rename_i hport
      rw [hport, Bool.true_or]
    · have hsenders : x.bridge.link.toHost.senders - 1 = 0 := Nat.sub_eq_zero_of_le h.senders_le
      rw [Move.dropsPort, Bool.or_true]
      exact decide_eq_true hsenders
  | pump => simp [Exchange.move, Move.dropsPort]
  | run => simp [Exchange.move, Move.dropsPort]
  | turn =>
    simp only [Exchange.move]
    split <;> simp [Move.dropsPort]
  | abandon =>
    simp only [Exchange.move]
    split <;> simp [Move.dropsPort, portDropped]

theorem IsSound.accepted_play (h : x.IsSound s) (moves : List Move) :
    (x.play moves).accepted = x.accepted ++ if x.portDropped then [] else Move.sent moves := by
  induction moves generalizing x with
  | nil => simp [Exchange.play, Move.sent]
  | cons m rest ih =>
    change ((x.move m).play rest).accepted = _
    rw [ih (h.move m), h.accepted_move, h.portDropped_move]
    cases x.portDropped with
    | true => simp
    | false => simp [Move.sent_cons]

/-- Whether an exchange is what a loop has made of another when it stopped. -/
def HasFollowed (y x : Exchange) (loop : FrameLoop) : Prop :=
  y.bridge = (x.bridge.follow loop).1 ∧
    if (x.bridge.follow loop).2 = .waiting then y.returns = x.returns
    else ∃ r, y.returns = x.returns ++ [r] ∧ r.stop = (x.bridge.follow loop).2

theorem hasFollowed_conclude {y : Exchange} (task : Task) {loop : FrameLoop} {stop : Stop}
    (h : x.bridge.turn loop = (y.bridge, .stops stop)) (hreturns : y.returns = x.returns) :
    (y.conclude task (.stops stop)).HasFollowed x loop := by
  unfold HasFollowed
  rw [Bridge.follow_of_stops h]
  cases stop <;> simp [conclude, hreturns]

theorem exists_hasFollowed {task : Task} (h : x.task = some task) :
    ∃ turns, (x.play (List.replicate turns .turn)).HasFollowed x task.loop := by
  have hturn {x : Exchange} {task : Task} (h : x.task = some task) :
      x.move .turn = x.advance task := by
    simp only [Exchange.move, h]
  -- a loop that is left alone takes one queued frame a turn
  induction hqueue : x.queue generalizing x task with
  | nil =>
    refine ⟨1, ?_⟩
    change (x.move .turn).HasFollowed x task.loop
    rw [hturn h, advance_of_queue_nil hqueue]
    exact hasFollowed_conclude task (Bridge.turn_of_queue_nil hqueue task.loop) rfl
  | cons frame rest ih =>
    have htaking := Bridge.turn_of_queue_cons hqueue task.loop
    have hadvance := (hturn h).trans (advance_of_queue_cons hqueue task)
    cases hresult : ((Session.handle frame).apply x.bridge.session).2 with
    | ok _ =>
      rw [hresult] at hadvance htaking
      obtain ⟨turns, hfollowed⟩ := @ih (x.move .turn)
        ⟨task.loop.next, task.earlier, task.frames ++ [frame]⟩ (hadvance ▸ rfl) (hadvance ▸ rfl)
      refine ⟨turns + 1, ?_⟩
      change ((x.move .turn).play (List.replicate turns .turn)).HasFollowed x task.loop
      unfold HasFollowed at hfollowed ⊢
      rw [Bridge.follow_of_goesOn htaking]
      rw [hadvance] at hfollowed ⊢
      exact hfollowed
    | error v =>
      rw [hresult] at hadvance htaking
      refine ⟨1, ?_⟩
      change (x.move .turn).HasFollowed x task.loop
      rw [hadvance]
      exact hasFollowed_conclude _ htaking rfl

/-- Every frame that the engine sends is handled once and in its turn, or it is still queued. What a
loop tells when it stops is so, and one that is left alone goes on to what `Bridge.follow` gives. -/
theorem exactly_once_in_order (displayScale : Float) (moves : List Move) :
    let x := (initial displayScale).play moves
    Move.sent moves = x.consumed ++ x.queue ∧
      x.bridge.session = x.consumed.foldl Session.afterFrame (.new displayScale) ∧
      x.bridge.session = x.consumed.foldl Session.afterFrame? (.new displayScale) ∧
      (∀ r ∈ x.returns, r.IsSound (.new displayScale) x.consumed (Move.sent moves)) ∧
      ∀ task, x.task = some task →
        ∃ turns, (x.play (List.replicate turns .turn)).HasFollowed x task.loop := by
  intro x
  have hsound : x.IsSound (.new displayScale) := (isSound_initial displayScale).play moves
  have hsent : x.accepted = Move.sent moves := by
    have haccepted := (isSound_initial displayScale).accepted_play moves
    rw [haccepted]
    rfl
  refine ⟨?_, hsound.session_eq, ?_, ?_, fun task => exists_hasFollowed⟩
  · rw [← hsent]
    exact hsound.accepted_eq
  · rw [hsound.session_eq]
    exact (Session.IsReachable.new displayScale).foldl_afterFrame x.consumed
  · rw [← hsent]
    exact hsound.returns

end Exchange

end EngineBridge
