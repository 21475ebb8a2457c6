import EngineBridge.Error
import EngineBridge.Settings.Basic
import EngineBridge.Text.Quoted

/-! Which settings are accepted. All faults are reported together, in the order of the settings. -/
namespace EngineBridge

namespace Validation

structure Bounds where
  name : String
  least : Nat
  most : Nat

def outOfRange (b : Bounds) (value : String) : String :=
  s!"{b.name} = {value} is out of range [{b.least}, {b.most}]"

def word (b : Bounds) (n : UInt32) : Option String :=
  if b.least ≤ n.toNat && n.toNat ≤ b.most then none else some (outOfRange b (toString n.toNat))

def frames : Bounds := ⟨"engine.frames", 1, 600⟩

def width : Bounds := ⟨"engine.width", 1, 4096⟩

def height : Bounds := ⟨"engine.height", 1, 4096⟩

def scaleFactor (x : Float) : Option String :=
  if 0.25 ≤ x && x ≤ 8 then none
  else
    let value := Layout.plain.render x
    some s!"display.scale_factor = {value} is out of range [0.25, 8]"

def levels : List String := ["trace", "debug", "info", "warn", "error"]

def level (name value : String) : Option String :=
  if value ∈ levels then none
  else
    let given := Quoted.quote value
    let allowed := ", ".intercalate levels
    some s!"{name} = {given} is not one of {allowed}"

end Validation

namespace Settings

open Validation in
def faults (s : Settings) : List String :=
  [scaleFactor s.display.scaleFactor,
    word frames s.engine.frames,
    word width s.engine.width,
    word height s.engine.height,
    level "logging.level" s.logging.level,
    level "logging.engine_level" s.logging.engineLevel].filterMap id

def validate (s : Settings) : Except SettingsError Unit :=
  match s.faults with
  | [] => .ok ()
  | faults => .error (.invalid ("; ".intercalate faults))

end Settings

end EngineBridge
