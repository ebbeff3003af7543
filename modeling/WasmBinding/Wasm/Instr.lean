import WasmBinding.Wasm.Numeric

/-! Instructions, as a flat sequence in which a block ends where its `done` stands. They fall into
those that steer control, those that only touch operands and locals, and those that touch the
storage of an instance. -/

namespace WasmBinding.Wasm

inductive BlockType where
  | empty
  | result (t : ValType)
  | function (index : Nat)
  deriving DecidableEq, Repr

/-- How a load or store sees memory: the value's type, the number of bytes, and for a load of fewer
bytes than the type has whether they are extended by sign. -/
structure Access where
  type : ValType
  bytes : Nat
  signed : Bool
  deriving DecidableEq, Repr

/-- The immediate operands of a load or store; the alignment is the exponent of a power of two. -/
structure MemArg where
  align : Nat
  memory : Nat
  offset : Nat
  deriving DecidableEq, Repr

inductive OperandInstr where
  | const (v : Value)
  | drop
  | select (type : Option ValType)
  | localGet (index : Nat)
  | localSet (index : Nat)
  | localTee (index : Nat)
  | refIsNull
  | refFunc (index : Nat)
  | numeric (op : NumericOp)
  deriving DecidableEq, Repr

inductive StorageInstr where
  | globalGet (index : Nat)
  | globalSet (index : Nat)
  | tableGet (table : Nat)
  | tableSet (table : Nat)
  | tableSize (table : Nat)
  | tableGrow (table : Nat)
  | tableFill (table : Nat)
  | tableCopy (target source : Nat)
  | tableInit (segment table : Nat)
  | elemDrop (segment : Nat)
  | load (access : Access) (arg : MemArg)
  | store (access : Access) (arg : MemArg)
  | memorySize (memory : Nat)
  | memoryGrow (memory : Nat)
  | memoryFill (memory : Nat)
  | memoryCopy (target source : Nat)
  | memoryInit (segment memory : Nat)
  | dataDrop (segment : Nat)
  deriving DecidableEq, Repr

inductive Instr where
  | unreachable
  | nop
  | block (type : BlockType)
  | loop (type : BlockType)
  | cond (type : BlockType)
  /-- Separates the two arms of a `cond`. -/
  | otherwise
  /-- Ends a block or the function. -/
  | done
  | br (label : Nat)
  | brIf (label : Nat)
  | brTable (labels : List Nat) (fallback : Nat)
  | ret
  | call (func : Nat)
  | callIndirect (type table : Nat)
  | operand (i : OperandInstr)
  | storage (i : StorageInstr)
  deriving DecidableEq, Repr

namespace Instr

def opens : Instr → Bool
  | block _ | loop _ | cond _ => true
  | _ => false

/-- The code behind the end of the current block, of which `depth` inner blocks are open. -/
def skipBlock : (depth : Nat) → List Instr → List Instr
  | _, [] => []
  | depth, i :: rest =>
    if i.opens then skipBlock (depth + 1) rest
    else if i = done then
      match depth with
      | 0 => rest
      | depth + 1 => skipBlock depth rest
    else skipBlock depth rest

/-- The code of the second arm of the current `cond`, if it has one. -/
def secondArm? : (depth : Nat) → List Instr → Option (List Instr)
  | _, [] => none
  | depth, i :: rest =>
    if i.opens then secondArm? (depth + 1) rest
    else if i = done then
      match depth with
      | 0 => none
      | depth + 1 => secondArm? depth rest
    else if i = otherwise ∧ depth = 0 then some rest
    else secondArm? depth rest

end Instr
end WasmBinding.Wasm
