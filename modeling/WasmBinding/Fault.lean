import WasmBinding.Wasm.Trap

/-! Failures of the untyped engine. Each has a message; those with fixed words can be told by their
message alone, and host functions may fail in any words. -/

namespace WasmBinding

open Wasm (Trap Abort)

inductive Fault where
  | underrun
  | malformed
  | incompatibleVersion
  | lookupFailed
  | importMissing
  | signatureMismatch
  | malformedSignature
  | argumentCount
  | globalType
  | immutableGlobal
  | memoryPresent
  | memoryNotExported
  | zeroStack
  | foreignEnvironment
  | moduleRange
  | shrink (current requested : Nat)
  | unsupportedImport (ns name : String)
  | trap (cause : Trap)
  /-- Words chosen by a host function. -/
  | host (message : String)
  /-- A module or a request that the engine does not accept. -/
  | refused (reason : String)
  deriving DecidableEq, Repr

namespace Fault

def message : Fault → String
  | underrun => "underrun while parsing Wasm binary"
  | malformed => "malformed Wasm binary"
  | incompatibleVersion => "incompatible Wasm binary version"
  | lookupFailed => "function lookup failed"
  | importMissing => "missing imported function"
  | signatureMismatch => "function signature mismatch"
  | malformedSignature => "malformed function signature"
  | argumentCount => "argument count mismatch"
  | globalType => "global type mismatch"
  | immutableGlobal => "attempting to set an immutable global"
  | memoryPresent => "runtime already has a linear memory"
  | memoryNotExported => "module defines a linear memory it does not export"
  | zeroStack => "stack size must be non-zero"
  | foreignEnvironment => "module was parsed against a different environment"
  | moduleRange => "module index out of range"
  | shrink current requested =>
    "cannot shrink linear memory from " ++ toString current ++ " to " ++ toString requested ++ " pages"
  | unsupportedImport ns name => "unsupported import " ++ ns ++ "::" ++ name
  | trap cause => cause.message
  | host message => message
  | refused reason => reason

/-- The failures that can be told by their message. -/
def fixed : List Fault :=
  [underrun, malformed, incompatibleVersion, lookupFailed, importMissing, signatureMismatch,
    malformedSignature, argumentCount, globalType, immutableGlobal, memoryPresent,
    memoryNotExported, zeroStack, foreignEnvironment, moduleRange] ++ Trap.all.map trap

def ofMessage (message : String) : Fault :=
  (fixed.find? fun fault => fault.message == message).getD (host message)

theorem message_ofMessage (s : String) : (ofMessage s).message = s := by
  unfold ofMessage
  cases h : fixed.find? fun fault => fault.message == s with
  | none => rfl
  | some fault => simpa using List.find?_some h

def ofAbort : Abort → Fault
  | .trap cause => trap cause
  | .host message => ofMessage message

def isTrap : Fault → Bool
  | trap _ => true
  | host message => Trap.mark.toList.isPrefixOf message.toList
  | _ => false

end Fault
end WasmBinding
