import WasmBinding.Environment
import WasmBinding.Fault
import WasmBinding.Text.Basic
import WasmBinding.Wasm.Binary.Module

/-! Modules that have been checked but not yet loaded. -/

namespace WasmBinding

open Wasm (Bytes Rejection)

structure ParsedModule where
  environment : Environment
  bytes : Bytes
  module : Wasm.Module

namespace Fault

/-- A binary is incomplete if the report says so anywhere, be it in a name that it quotes. -/
def ofRejection (r : Rejection) : Fault :=
  if Text.occursIn "unexpected end".toList r.message.toList then underrun else refused r.message

end Fault

namespace ParsedModule

def magic : Bytes := [0x00, 0x61, 0x73, 0x6d]

def version : Bytes := [0x01, 0x00, 0x00, 0x00]

/-- Takes the header off a binary. -/
def sections (bytes : Bytes) : Except Fault Bytes :=
  if bytes.length < 8 then .error .underrun
  else if bytes.take 4 ≠ magic then .error .malformed
  else if (bytes.drop 4).take 4 ≠ version then .error .incompatibleVersion
  else .ok (bytes.drop 8)

def parse (e : Environment) (bytes : Bytes) : Except Fault ParsedModule := do
  let rest ← sections bytes
  match Wasm.Binary.module e.features rest with
  | .ok module => return ⟨e, bytes, module⟩
  | .error r => throw (.ofRejection r)

def name (p : ParsedModule) : Option String := p.module.name

def describe (p : ParsedModule) : String :=
  let name := match p.name with
    | none => "None"
    | some s => "Some(" ++ Text.quote s ++ ")"
  "ParsedModule \x7b name: " ++ name ++ ", len: " ++ toString p.bytes.length ++ " \x7d"

end ParsedModule
end WasmBinding
