import EngineBridge.Bridge
import EngineBridge.Proofs.Session

/-! A turn of either loop of a host, as one frame that is taken from the front of the queue, or as
the loop's own end where nothing is queued. -/
namespace EngineBridge

namespace Session

def Accepts (s : Session) : List String → Prop
  | [] => True
  | frame :: rest => ((handle frame).apply s).2 = .ok () ∧ (s.afterFrame frame).Accepts rest

def afterFrame? (s : Session) (frame : String) : Session :=
  match (handle frame).apply s with
  | (s', .ok ()) => s'
  | (_, .error _) => s

theorem accepts_append_singleton {s : Session} {frames : List String} {frame : String} :
    s.Accepts (frames ++ [frame]) ↔
      s.Accepts frames ∧ ((handle frame).apply (frames.foldl afterFrame s)).2 = .ok () := by
  induction frames generalizing s with
  | nil => simp [Accepts]
  | cons f rest ih => simp only [List.cons_append, Accepts, ih, List.foldl_cons, and_assoc]

/-- A frame that fails might as well have been passed over. -/
theorem IsReachable.afterFrame_eq {s : Session} (h : s.IsReachable) (frame : String) :
    s.afterFrame frame = s.afterFrame? frame := by
  unfold afterFrame afterFrame? Update.after
  cases hrun : (handle frame).apply s with
  | mk s' result =>
    cases result with
    | ok _ => rfl
    | error v => exact h.eq_of_handle_error hrun

theorem IsReachable.foldl_afterFrame {s : Session} (h : s.IsReachable) (frames : List String) :
    frames.foldl afterFrame s = frames.foldl afterFrame? s := by
  induction frames generalizing s with
  | nil => rfl
  | cons frame rest ih =>
    rw [List.foldl_cons, List.foldl_cons, ← h.afterFrame_eq frame]
    exact ih (h.undergo (.frame frame))

end Session

def FrameLoop.next : FrameLoop → FrameLoop
  | .pump handled => .pump (handled + 1)
  | .run => .run

def FrameLoop.atEnd (portDropped : Bool) : FrameLoop → Stop
  | .pump handled => .drained handled
  | .run => if portDropped then .finished else .waiting

def FrameLoop.turn (loop : FrameLoop) : Except Violation Unit → Turn
  | .ok () => .goesOn loop.next
  | .error v => .stops (.failed v)

namespace Bridge

def taking (b : Bridge) (frame : String) (rest : List String) : Bridge where
  link := { b.link with toHost := { b.link.toHost with queue := rest } }
  session := b.session.afterFrame frame

variable {b : Bridge}

theorem handleNext_of_queue_cons {frame : String} {rest : List String}
    (h : b.link.toHost.queue = frame :: rest) :
    b.handleNext =
      (.item ((Session.handle frame).apply b.session).2, b.taking frame rest) := by
  unfold handleNext Pipe.receive
  rw [h]
  rfl

theorem handleNext_of_queue_nil (h : b.link.toHost.queue = []) :
    b.handleNext = (if b.link.toHost.senders = 0 then .closed else .pending, b) := by
  unfold handleNext Pipe.receive
  rw [h]
  by_cases hport : b.link.toHost.senders = 0
  · simp only [hport, if_true]
  · simp only [hport, if_false]

theorem turn_of_queue_cons {frame : String} {rest : List String}
    (h : b.link.toHost.queue = frame :: rest) (loop : FrameLoop) :
    b.turn loop = (b.taking frame rest, loop.turn ((Session.handle frame).apply b.session).2) := by
  cases loop <;> simp only [turn, handleNext_of_queue_cons h]
  all_goals cases ((Session.handle frame).apply b.session).2 <;> rfl

theorem turn_of_queue_nil (h : b.link.toHost.queue = []) (loop : FrameLoop) :
    b.turn loop = (b, .stops (loop.atEnd (b.link.toHost.senders = 0))) := by
  cases loop <;> simp only [turn, handleNext_of_queue_nil h, FrameLoop.atEnd]
  all_goals by_cases hport : b.link.toHost.senders = 0 <;> simp [hport]

theorem follow_of_stops {b' : Bridge} {loop : FrameLoop} {stop : Stop}
    (h : b.turn loop = (b', .stops stop)) : b.follow loop = (b', stop) := by
  rw [follow]
  split <;> simp_all

theorem follow_of_goesOn {b' : Bridge} {loop loop' : FrameLoop}
    (h : b.turn loop = (b', .goesOn loop')) : b.follow loop = b'.follow loop' := by
  rw [follow]
  split <;> simp_all

end Bridge

end EngineBridge
