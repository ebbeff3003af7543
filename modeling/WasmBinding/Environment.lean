import WasmBinding.Settings
import WasmBinding.Wasm.Binary.Code

/-! Environments. A module can be loaded only in the environment in which it was parsed; two
environments are the same if they have the same number. -/

namespace WasmBinding

structure Environment where
  id : Nat
  settings : Settings
  deriving Repr

namespace Environment

def same (a b : Environment) : Bool := a.id == b.id

def features (e : Environment) : Wasm.Features := ⟨e.settings.bulkMemory, e.settings.multiValue⟩

def describe (e : Environment) : String := "Environment \x7b id: " ++ toString e.id ++ " \x7d"

def describeSettings (e : Environment) : String := e.settings.describe "Settings"

/-- The environment with its settings, as diagnostics of the engine show it. -/
def describeFully (e : Environment) : String :=
  "Environment \x7b id: " ++ toString e.id ++ ", settings: " ++ e.describeSettings ++ ", .. \x7d"

end Environment
end WasmBinding
