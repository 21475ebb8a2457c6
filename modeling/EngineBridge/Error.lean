import EngineBridge.Text.Base64

/-! Everything that can go wrong between an engine and its host, and how each fault is worded. -/
namespace EngineBridge

inductive IntKind where
  | signed32
  | unsigned32
  deriving DecidableEq, Repr

def IntKind.name : IntKind → String
  | .signed32 => "i32"
  | .unsigned32 => "u32"

inductive ArgumentFault where
  | notInteger
  | outOfRange (value : Int) (kind : IntKind)
  | notText
  | notEncodedBytes
  | badEncoding (error : Base64.Error)
  | notBitmap
  | badDimension (name : String)
  | noPixelData
  | stated (reason : String)
  deriving DecidableEq, Repr

def ArgumentFault.message : ArgumentFault → String
  | .notInteger => "expected an integer"
  | .outOfRange value kind => s!"{value} does not fit in {kind.name}"
  | .notText => "expected a string"
  | .notEncodedBytes => "expected a base64 string"
  | .badEncoding error => s!"invalid base64: {error.message}"
  | .notBitmap => "expected a bitmap object"
  | .badDimension name => s!"bitmap.{name} missing or invalid"
  | .noPixelData => "bitmap.data missing"
  | .stated reason => reason

/-- A breach of the contract that engine and host share. It ends the call that caused it and
nothing else. -/
inductive Violation where
  | malformed (reason : String)
  | unknownMethod (method : String)
  | arity (method : String) (expected got : Nat)
  | badArgument (method : String) (index : Nat) (fault : ArgumentFault)
  | unknownWindow (handle : UInt32)
  | duplicateWindow (handle : UInt32)
  | unknownLevel (ordinal : Int)
  | bitmapSize (width height : UInt32) (expected got : Nat)
  | surfaceTooLarge (width height : UInt32) (max : Nat)
  deriving DecidableEq, Repr

def Violation.message : Violation → String
  | .malformed reason => s!"malformed message: {reason}"
  | .unknownMethod method => s!"unknown method: {method}"
  | .arity method expected got => s!"{method}: expected {expected} argument(s), got {got}"
  | .badArgument method index fault => s!"{method}: bad argument {index}: {fault.message}"
  | .unknownWindow handle => s!"no window with handle {handle}"
  | .duplicateWindow handle => s!"window {handle} already exists"
  | .unknownLevel ordinal => s!"unexpected log level {ordinal}"
  | .bitmapSize width height expected got =>
    s!"bitmap {width}x{height} needs {expected} bytes, got {got}"
  | .surfaceTooLarge width height max =>
    s!"surface {width}x{height} exceeds the {max}-pixel limit"

inductive SettingsError where
  | notFound (path : String)
  | unreadable (reason : String)
  | invalid (reason : String)
  deriving DecidableEq, Repr

def SettingsError.message : SettingsError → String
  | .notFound path => s!"config file not found: {path}"
  | .unreadable reason => s!"config parse error: {reason}"
  | .invalid reason => s!"config validation error: {reason}"

inductive Failure where
  | violation (v : Violation)
  | settings (e : SettingsError)
  | file (reason : String)
  | linkClosed
  | image (reason : String)
  deriving DecidableEq, Repr

def Failure.message : Failure → String
  | .violation v => v.message
  | .settings e => e.message
  | .file reason => reason
  | .linkClosed => "engine channel closed"
  | .image reason => s!"export error: {reason}"

end EngineBridge
