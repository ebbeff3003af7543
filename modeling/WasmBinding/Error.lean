import WasmBinding.Fault
import WasmBinding.Text.Basic

/-! Failures of the typed interface. A failure of the engine underneath is classified by its cause;
those without a class of their own are passed on. -/

namespace WasmBinding

inductive Error where
  | allocationFailed
  | invalidMemoryAccess
  | invalidSignature
  | mismatchedEnvironments
  | missingFunction
  | incompatibleVersion
  | underrun
  | lookupFailed
  | missingImport
  | engine (fault : Fault)
  /-- A handle was used with a runtime other than its own; a mistake of the caller. -/
  | foreignHandle
  deriving DecidableEq, Repr

namespace Error

def name : Error → String
  | allocationFailed => "AllocationFailed"
  | invalidMemoryAccess => "InvalidMemoryAccess"
  | invalidSignature => "InvalidSignature"
  | mismatchedEnvironments => "MismatchedEnvironments"
  | missingFunction => "MissingFunction"
  | incompatibleVersion => "IncompatibleWasmVersion"
  | underrun => "WasmUnderrun"
  | lookupFailed => "FunctionLookupFailed"
  | missingImport => "MissingImportedFunction"
  | engine _ => "Engine"
  | foreignHandle => "ForeignHandle"

def message : Error → String
  | allocationFailed => "allocation failed"
  | invalidMemoryAccess => "invalid memory access"
  | invalidSignature => "invalid signature"
  | mismatchedEnvironments => "mismatched environments"
  | missingFunction => "missing function"
  | incompatibleVersion => "incompatible wasm version"
  | underrun => "wasm underrun"
  | lookupFailed => "function lookup failed"
  | missingImport => "missing imported function"
  | engine fault => fault.message
  | foreignHandle => "object used with the wrong runtime"

def describe : Error → String
  | e@(engine fault) => e.name ++ "(" ++ Text.quote fault.message ++ ")"
  | e => e.name

def isTrap : Error → Bool
  | engine fault => fault.isTrap
  | _ => false

def ofFault : Fault → Error
  | .incompatibleVersion => incompatibleVersion
  | .underrun => underrun
  | .lookupFailed => lookupFailed
  | .importMissing => missingImport
  | .signatureMismatch | .argumentCount | .globalType => invalidSignature
  | fault => engine fault

end Error
end WasmBinding
