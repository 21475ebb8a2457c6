import EngineBridge.Call.Argument

/-! The calls that an engine makes on its host. -/
namespace EngineBridge

inductive EngineMethod where
  | windowCreate
  | windowSetTitle
  | windowSetSize
  | windowShow
  | windowDestroy
  | log
  | write
  | exit
  deriving DecidableEq, Repr

namespace EngineMethod

def all : List EngineMethod :=
  [.windowCreate, .windowSetTitle, .windowSetSize, .windowShow, .windowDestroy, .log, .write,
    .exit]

def name : EngineMethod → String
  | .windowCreate => "window_create"
  | .windowSetTitle => "window_set_title"
  | .windowSetSize => "window_set_size"
  | .windowShow => "window_show"
  | .windowDestroy => "window_destroy"
  | .log => "log"
  | .write => "write"
  | .exit => "exit"

def ofName? (name : String) : Option EngineMethod :=
  all.find? (fun m => m.name = name)

def arity : EngineMethod → Nat
  | .windowCreate => 1
  | .windowSetTitle => 2
  | .windowSetSize => 3
  | .windowShow => 2
  | .windowDestroy => 1
  | .log => 2
  | .write => 1
  | .exit => 1

end EngineMethod

inductive EngineCall where
  | windowCreate (handle : UInt32)
  | windowSetTitle (handle : UInt32) (title : String)
  | windowSetSize (handle : UInt32) (size : LogicalSize)
  | windowShow (handle : UInt32) (bitmap : Bitmap)
  | windowDestroy (handle : UInt32)
  | log (level : LogLevel) (message : String)
  | write (bytes : ByteArray)
  | exit (code : Int32)
  deriving DecidableEq

namespace EngineCall

def method : EngineCall → EngineMethod
  | .windowCreate _ => .windowCreate
  | .windowSetTitle _ _ => .windowSetTitle
  | .windowSetSize _ _ => .windowSetSize
  | .windowShow _ _ => .windowShow
  | .windowDestroy _ => .windowDestroy
  | .log _ _ => .log
  | .write _ => .write
  | .exit _ => .exit

def args : EngineCall → List Json
  | .windowCreate handle => [.ofUInt32 handle]
  | .windowSetTitle handle title => [.ofUInt32 handle, .text title]
  | .windowSetSize handle size => [.ofUInt32 handle, .ofUInt32 size.width, .ofUInt32 size.height]
  | .windowShow handle bitmap => [.ofUInt32 handle, .ofBitmap bitmap]
  | .windowDestroy handle => [.ofUInt32 handle]
  | .log level message => [.int level.ordinal, .text message]
  | .write bytes => [.ofBytes bytes]
  | .exit code => [.int code.toInt]

def encode (call : EngineCall) : Message :=
  ⟨call.method.name, call.args⟩

/-- Reads the arguments of a method from the left, so that the first fault is the one reported. -/
def ofArgs (method : EngineMethod) (args : List Json) : Except Violation EngineCall :=
  let place := Argument.mk method.name
  match method, args with
  | .windowCreate, [handle] => do
    return .windowCreate (← (place 0).unsigned handle)
  | .windowSetTitle, [handle, title] => do
    let handle ← (place 0).unsigned handle
    return .windowSetTitle handle (← (place 1).text title)
  | .windowSetSize, [handle, width, height] => do
    let handle ← (place 0).unsigned handle
    let width ← (place 1).unsigned width
    let height ← (place 2).unsigned height
    return .windowSetSize handle ⟨width, height⟩
  | .windowShow, [handle, bitmap] => do
    let handle ← (place 0).unsigned handle
    return .windowShow handle (← (place 1).bitmap bitmap)
  | .windowDestroy, [handle] => do
    return .windowDestroy (← (place 0).unsigned handle)
  | .log, [level, message] => do
    let level ← (place 0).level level
    return .log level (← (place 1).text message)
  | .write, [bytes] => do
    return .write (← (place 0).bytes bytes)
  | .exit, [code] => do
    return .exit (← (place 0).signed code)
  | _, _ => .error (.arity method.name method.arity args.length)

def decode (m : Message) : Except Violation EngineCall :=
  match EngineMethod.ofName? m.method with
  | some method => ofArgs method m.args
  | none => .error (.unknownMethod m.method)

def ofFrame (frame : String) : Except Violation EngineCall := do
  decode (← Message.parse frame)

def frame (call : EngineCall) : String := call.encode.render

end EngineCall

end EngineBridge
