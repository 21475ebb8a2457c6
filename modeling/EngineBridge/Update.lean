import EngineBridge.Error

/-! Operations on a state that may be refused. What an operation has done by the time it is refused
stays done: whether a refusal leaves the state as it was depends on the order of its steps. -/
namespace EngineBridge

abbrev Update (σ : Type) := EStateM Violation σ

namespace Update

variable {σ τ α : Type}

def ofExcept (judgement : Except Violation α) : Update σ α := fun s =>
  match judgement with
  | .ok a => .ok a s
  | .error v => .error v s

/-- Acts on a part of the state, which is put back even if the action is refused. -/
@[specialize] def onPart (part : σ → τ) (put : τ → σ → σ) (update : Update τ α) : Update σ α :=
  fun s =>
    match update.run (part s) with
    | .ok a t => .ok a (put t s)
    | .error v t => .error v (put t s)

def apply (update : Update σ α) (s : σ) : σ × Except Violation α :=
  match update.run s with
  | .ok a s => (s, .ok a)
  | .error v s => (s, .error v)

def after (update : Update σ α) (s : σ) : σ := (update.apply s).1

end Update

end EngineBridge
