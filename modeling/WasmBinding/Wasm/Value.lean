import WasmBinding.Scalar

/-! WebAssembly types and values, and how values fit into the slots of the untyped boundary: a
number fits, a vector or a reference does not. -/

namespace WasmBinding.Wasm

inductive ValType where
  | i32 | i64 | f32 | f64 | v128 | funcref
  deriving DecidableEq, Repr, Inhabited

structure FuncType where
  params : List ValType
  results : List ValType
  deriving DecidableEq, Repr, Inhabited

structure Limits where
  min : Nat
  max : Option Nat
  deriving DecidableEq, Repr, Inhabited

structure GlobalType where
  type : ValType
  mutable : Bool
  deriving DecidableEq, Repr, Inhabited

/-- A value; a function reference holds the index of a function of the same instance. -/
inductive Value where
  | i32 (bits : BitVec 32)
  | i64 (bits : BitVec 64)
  | f32 (number : F32)
  | f64 (number : F64)
  | v128 (bits : BitVec 128)
  | funcref (func : Option Nat)
  deriving DecidableEq, Repr, Inhabited

namespace ValType

def tag : ValType → ValueTag
  | .i32 => .i32
  | .i64 => .i64
  | .f32 => .f32
  | .f64 => .f64
  | .v128 | .funcref => .unknown

def zero : ValType → Value
  | .i32 => .i32 0
  | .i64 => .i64 0
  | .f32 => .f32 ⟨0⟩
  | .f64 => .f64 ⟨0⟩
  | .v128 => .v128 0
  | .funcref => .funcref none

end ValType

namespace Value

def type : Value → ValType
  | .i32 _ => .i32
  | .i64 _ => .i64
  | .f32 _ => .f32
  | .f64 _ => .f64
  | .v128 _ => .v128
  | .funcref _ => .funcref

/-- The slot of a number: its bits, zero-extended. -/
def toSlot? : Value → Option Slot
  | .i32 b => some (b.setWidth 64)
  | .i64 b => some b
  | .f32 x => some (x.bits.setWidth 64)
  | .f64 x => some x.bits
  | .v128 _ | .funcref _ => none

/-- The number of a type in a slot, whose bits beyond the width of the type are ignored. -/
def ofSlot? (s : Slot) : ValueTag → Option Value
  | .i32 => some (.i32 (s.setWidth 32))
  | .i64 => some (.i64 s)
  | .f32 => some (.f32 ⟨s.setWidth 32⟩)
  | .f64 => some (.f64 ⟨s⟩)
  | .none | .unknown => none

def bool (b : Bool) : Value := .i32 (if b then 1 else 0)

end Value

@[simp] theorem ValType.type_zero (t : ValType) : t.zero.type = t := by cases t <;> rfl

end WasmBinding.Wasm
