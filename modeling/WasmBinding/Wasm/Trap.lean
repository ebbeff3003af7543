/-! The causes for which running code stops, and the words in which each is reported. -/

namespace WasmBinding.Wasm

inductive Trap where
  | unreachable
  | memoryOutOfBounds
  | divideByZero
  | integerOverflow
  | stackOverflow
  | badConversion
  | nullCall
  | badSignature
  | tableOutOfBounds
  | outOfFuel
  /-- An operand that validation rules out. -/
  | illTyped
  deriving DecidableEq, Repr

namespace Trap

def all : List Trap :=
  [unreachable, memoryOutOfBounds, divideByZero, integerOverflow, stackOverflow, badConversion,
    nullCall, badSignature, tableOutOfBounds, outOfFuel, illTyped]

def mark : String := "[trap]"

def message : Trap → String
  | unreachable => "[trap] unreachable executed"
  | memoryOutOfBounds => "[trap] out of bounds memory access"
  | divideByZero => "[trap] integer divide by zero"
  | integerOverflow => "[trap] integer overflow"
  | stackOverflow => "[trap] stack overflow"
  | badConversion => "[trap] invalid conversion to integer"
  | nullCall => "[trap] indirect call to null"
  | badSignature => "[trap] indirect call type mismatch"
  | tableOutOfBounds => "[trap] out of bounds table access"
  | outOfFuel => "[trap] all fuel consumed by WebAssembly"
  | illTyped => "[trap] ill-typed operands"

end Trap

/-- Why a call ended without results: a trap of its own, or words from the host function that it
was running. -/
inductive Abort where
  | trap (cause : Trap)
  | host (message : String)
  deriving DecidableEq, Repr

end WasmBinding.Wasm
