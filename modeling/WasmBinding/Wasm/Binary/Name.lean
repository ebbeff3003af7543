import WasmBinding.Wasm.Binary.Reader

/-! The name that a module gives itself in its custom section `name`. A fault in that section ends
the reading of it and is otherwise ignored. -/

namespace WasmBinding.Wasm.Binary

open Reader

def subsection : Reader (UInt8 × Bytes) := do
  let kind ← byte
  return (kind, ← sized)

def naming : Reader Unit := do
  let _ ← u32
  let _ ← name

/-- What a subsection makes of the name read so far; `none` if it is faulty. -/
def nameAfter (current : Option String) (kind : UInt8) (content : Bytes) : Option (Option String) :=
  if kind = 0 then
    match whole name content with
    | .ok text => some (some text)
    | .error _ => none
  else if kind = 1 then
    match whole (vector naming) content with
    | .ok _ => some current
    | .error _ => none
  else some current

/-- Reads subsections up to the end or to the first fault. Each spends one unit of `fuel`. -/
def moduleName : (fuel : Nat) → Option String → Bytes → Option String
  | 0, current, _ => current
  | fuel + 1, current, bytes =>
    if bytes.isEmpty then current
    else
      match subsection bytes with
      | .error _ => current
      | .ok ((kind, content), rest) =>
        match nameAfter current kind content with
        | some next => moduleName fuel next rest
        | none => current

end WasmBinding.Wasm.Binary
