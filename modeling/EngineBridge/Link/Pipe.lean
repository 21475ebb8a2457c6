import EngineBridge.Error

/-! One direction of the link: frames that have been sent and not yet received, in order. A pipe
has any number of senders and one receiver, and each side learns when the other is gone. -/
namespace EngineBridge

inductive Received (α : Type) where
  | item (a : α)
  /-- nothing is queued, but more may come -/
  | pending
  /-- nothing is queued, and every sender is gone -/
  | closed
  deriving DecidableEq, Repr

structure Pipe where
  queue : List String := []
  senders : Nat := 1
  hasReceiver : Bool := true
  deriving DecidableEq, Repr

namespace Pipe

def send (p : Pipe) (frame : String) : Except Failure Pipe :=
  if p.hasReceiver then .ok { p with queue := p.queue ++ [frame] } else .error .linkClosed

def receive (p : Pipe) : Received String × Pipe :=
  match p.queue with
  | frame :: rest => (.item frame, { p with queue := rest })
  | [] => (if p.senders = 0 then .closed else .pending, p)

theorem eq_of_receive_item {p p' : Pipe} {frame : String} (h : p.receive = (.item frame, p')) :
    p.queue = frame :: p'.queue ∧ p' = { p with queue := p'.queue } := by
  unfold receive at h
  split at h
  · rename_i hqueue
    cases h
    exact ⟨hqueue, rfl⟩
  · split at h <;> simp at h

def take? (p : Pipe) : Option String × Pipe :=
  match p.receive with
  | (.item frame, p) => (some frame, p)
  | (_, p) => (none, p)

def addSender (p : Pipe) : Pipe := { p with senders := p.senders + 1 }

def dropSender (p : Pipe) : Pipe := { p with senders := p.senders - 1 }

/-- Whatever is queued is lost with its receiver. -/
def dropReceiver (p : Pipe) : Pipe := { p with queue := [], hasReceiver := false }

def isExhausted (p : Pipe) : Bool := p.queue.isEmpty && p.senders = 0

end Pipe

end EngineBridge
