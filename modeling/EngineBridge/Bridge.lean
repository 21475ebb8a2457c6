import EngineBridge.Link.Basic
import EngineBridge.Session

/-! A host's session joined to the link that its engine calls come from. The host has two loops that
handle frames: one stops when nothing is queued, the other when the engine is gone. Each takes one
frame a turn, so that the engine may send between any two of them. -/
namespace EngineBridge

structure Bridge where
  link : Link := {}
  session : Session

inductive FrameLoop where
  /-- handles what is queued, of which some is handled already -/
  | pump (handled : Nat)
  | run
  deriving DecidableEq, Repr

inductive Stop where
  | drained (handled : Nat)
  | finished
  | waiting
  | failed (v : Violation)
  deriving DecidableEq, Repr

inductive Turn where
  | goesOn (loop : FrameLoop)
  | stops (stop : Stop)
  deriving DecidableEq, Repr

namespace Bridge

/-- Handles the next frame, which is used up even if it fails. -/
def handleNext (b : Bridge) : Received (Except Violation Unit) × Bridge :=
  match b.link.toHost.receive with
  | (.item frame, p) =>
    let (session, result) := (Session.handle frame).apply b.session
    (.item result, { link := { b.link with toHost := p }, session := session })
  | (.pending, _) => (.pending, b)
  | (.closed, _) => (.closed, b)

def turn (b : Bridge) : FrameLoop → Bridge × Turn
  | .pump handled =>
    match b.handleNext with
    | (.item (.ok ()), b) => (b, .goesOn (.pump (handled + 1)))
    | (.item (.error v), b) => (b, .stops (.failed v))
    | (.pending, b) | (.closed, b) => (b, .stops (.drained handled))
  | .run =>
    match b.handleNext with
    | (.item (.ok ()), b) => (b, .goesOn .run)
    | (.item (.error v), b) => (b, .stops (.failed v))
    | (.pending, b) => (b, .stops .waiting)
    | (.closed, b) => (b, .stops .finished)

theorem length_queue_lt_of_handleNext {b b' : Bridge} {result : Except Violation Unit}
    (h : b.handleNext = (.item result, b')) :
    b'.link.toHost.queue.length < b.link.toHost.queue.length := by
  unfold handleNext at h
  split at h
  · rename_i frame p hreceive
    simp only [Prod.mk.injEq] at h
    rw [(Pipe.eq_of_receive_item hreceive).1, ← h.2]
    simp
  · simp at h
  · simp at h

theorem length_queue_lt_of_turn {b b' : Bridge} {loop loop' : FrameLoop}
    (h : b.turn loop = (b', .goesOn loop')) :
    b'.link.toHost.queue.length < b.link.toHost.queue.length := by
  cases loop <;> simp only [turn] at h <;> split at h <;> simp only [Prod.mk.injEq] at h
  all_goals first
    | (obtain ⟨rfl, -⟩ := h; exact length_queue_lt_of_handleNext ‹_›)
    | simp at h

def follow (b : Bridge) (loop : FrameLoop) : Bridge × Stop :=
  match _h : b.turn loop with
  | (b', .goesOn loop') => follow b' loop'
  | (b', .stops stop) => (b', stop)
termination_by b.link.toHost.queue.length
decreasing_by exact length_queue_lt_of_turn _h

def pump (b : Bridge) : Bridge × Stop := b.follow (.pump 0)

def run (b : Bridge) : Bridge × Stop := b.follow .run

def start (b : Bridge) : Except Failure Bridge := do
  return { b with link := ← b.link.start }

end Bridge

end EngineBridge
