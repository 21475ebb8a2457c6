import EngineBridge.Call.Message

/-! The calls that a host makes on its engine. -/
namespace EngineBridge

inductive HostCall where
  | start
  deriving DecidableEq, Repr

namespace HostCall

def method : HostCall → String
  | .start => "start"

def encode (call : HostCall) : Message := ⟨call.method, []⟩

def decode (m : Message) : Except Violation HostCall :=
  if m.method = "start" then
    if m.args.isEmpty then .ok .start else .error (.arity "start" 0 m.args.length)
  else .error (.unknownMethod m.method)

def ofFrame (frame : String) : Except Violation HostCall := do
  decode (← Message.parse frame)

end HostCall

end EngineBridge
