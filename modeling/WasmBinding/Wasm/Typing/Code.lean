import WasmBinding.Wasm.Binary.Code
import WasmBinding.Wasm.Module

/-! Typing of code: every instruction finds the operands it needs. Code behind a jump is typed as if
any operand were there. -/

namespace WasmBinding.Wasm.Typing

/-- The surroundings of the code of one function, or of a constant expression. -/
structure Context where
  features : Features
  module : Module
  locals : Array ValType
  /-- The functions that references may be taken to. -/
  declared : List Nat
  /-- The number of data segments, where it was announced before the code. -/
  dataCount : Option Nat

inductive BlockKind where
  | plain | loop | cond
  deriving DecidableEq

structure OpenBlock where
  kind : BlockKind
  type : FuncType
  /-- The operands pushed since the block began, innermost first; `none` fits every type. -/
  stack : List (Option ValType)
  /-- Whether the rest of the block is behind a jump. -/
  dead : Bool

namespace OpenBlock

def labelTypes (b : OpenBlock) : List ValType :=
  if b.kind = .loop then b.type.params else b.type.results

def start (kind : BlockKind) (type : FuncType) : OpenBlock :=
  ⟨kind, type, type.params.reverse.map some, false⟩

def push (b : OpenBlock) (types : List ValType) : OpenBlock :=
  { b with stack := types.reverse.map some ++ b.stack }

def popAny (b : OpenBlock) : Except Rejection (Option ValType × OpenBlock) :=
  match b.stack with
  | t :: rest => .ok (t, { b with stack := rest })
  | [] => if b.dead then .ok (none, b) else .error (.invalid "type mismatch: nothing on the stack")

def popOne (b : OpenBlock) (t : ValType) : Except Rejection OpenBlock := do
  match ← b.popAny with
  | (none, b) => return b
  | (some found, b) => if found = t then return b else throw (.invalid "type mismatch")

/-- Pops operands of the given types, the last of which is on top. -/
def pop (b : OpenBlock) (types : List ValType) : Except Rejection OpenBlock :=
  types.reverse.foldlM popOne b

def jump (b : OpenBlock) : OpenBlock := { b with stack := [], dead := true }

/-- Pops the results, which have to be all that is left. -/
def finish (b : OpenBlock) : Except Rejection Unit := do
  let b ← b.pop b.type.results
  unless b.stack.isEmpty do throw (.invalid "values remaining on stack at end of block")

end OpenBlock

/-- The blocks that are open, innermost first; none is once the function has ended. -/
abbrev State := List OpenBlock

def require (holds : Bool) (reason : String) : Except Rejection Unit :=
  if holds then .ok () else .error (.invalid reason)

def find {α : Type} (entry : Option α) (reason : String) : Except Rejection α :=
  match entry with
  | some a => .ok a
  | none => .error (.invalid reason)

namespace Context

variable (ctx : Context)

def valType (t : ValType) : Except Rejection Unit :=
  require (t ≠ .funcref || ctx.features.referenceTypes) "reference types support is not enabled"

def blockType (t : BlockType) : Except Rejection FuncType := do
  match t with
  | .empty => pure ()
  | .result t => ctx.valType t
  | .function _ =>
    require ctx.features.multiValue "blocks may only produce a single result without multi-value"
  find (ctx.module.blockType? t) "unknown type: type index out of bounds"

def bulkMemory : Except Rejection Unit :=
  require ctx.features.bulkMemory "bulk memory support is not enabled"

def referenceTypes : Except Rejection Unit :=
  require ctx.features.referenceTypes "reference types support is not enabled"

def memory (index : Nat) : Except Rejection Unit :=
  require (index < ctx.module.allMemories.length) "unknown memory"

def table (index : Nat) : Except Rejection Unit :=
  require (index < ctx.module.allTables.length) "unknown table"

def segment (index : Nat) : Except Rejection Unit :=
  require (index < ctx.module.elements.length) "unknown elem segment"

def dataSegment (index : Nat) : Except Rejection Unit := do
  let count ← find ctx.dataCount "data count section required"
  require (index < count) "unknown data segment"

/-- The alignment may not exceed the natural one, and an offset has 32 bits. -/
def memArg (access : Access) (arg : MemArg) : Except Rejection Unit := do
  ctx.memory arg.memory
  require (1 <<< arg.align ≤ access.bytes) "alignment must not be larger than natural"
  require (arg.offset < 0x100000000) "offset out of range: must be <= 2**32"

def operandType (i : OperandInstr) : Except Rejection FuncType := do
  match i with
  | .const v => do
    ctx.valType v.type
    return ⟨[], [v.type]⟩
  | .localGet index => return ⟨[], [← find ctx.locals[index]? "unknown local"]⟩
  | .localSet index => return ⟨[← find ctx.locals[index]? "unknown local"], []⟩
  | .localTee index => do
    let t ← find ctx.locals[index]? "unknown local"
    return ⟨[t], [t]⟩
  | .refIsNull => do
    ctx.referenceTypes
    return ⟨[.funcref], [.i32]⟩
  | .refFunc index => do
    ctx.referenceTypes
    require (index < ctx.module.allFuncs.length) "unknown function"
    require (ctx.declared.contains index) "undeclared function reference"
    return ⟨[], [.funcref]⟩
  | .numeric op => return ⟨op.params, [op.result]⟩
  | .select (some t) => do
    ctx.referenceTypes
    return ⟨[t, t, .i32], [t]⟩
  | .drop | .select none => throw (.invalid "operand of any type")

def storageType (i : StorageInstr) : Except Rejection FuncType := do
  match i with
  | .globalGet index => return ⟨[], [(← find ctx.module.allGlobals[index]? "unknown global").type]⟩
  | .globalSet index => do
    let g ← find ctx.module.allGlobals[index]? "unknown global"
    require g.mutable "global is immutable: cannot modify it with global.set"
    return ⟨[g.type], []⟩
  | .tableGet t => do
    ctx.referenceTypes
    ctx.table t
    return ⟨[.i32], [.funcref]⟩
  | .tableSet t => do
    ctx.referenceTypes
    ctx.table t
    return ⟨[.i32, .funcref], []⟩
  | .tableSize t => do
    ctx.referenceTypes
    ctx.table t
    return ⟨[], [.i32]⟩
  | .tableGrow t => do
    ctx.referenceTypes
    ctx.table t
    return ⟨[.funcref, .i32], [.i32]⟩
  | .tableFill t => do
    ctx.bulkMemory
    ctx.table t
    return ⟨[.i32, .funcref, .i32], []⟩
  | .tableCopy target source => do
    ctx.bulkMemory
    ctx.table target
    ctx.table source
    return ⟨[.i32, .i32, .i32], []⟩
  | .tableInit segment table => do
    ctx.bulkMemory
    ctx.table table
    ctx.segment segment
    return ⟨[.i32, .i32, .i32], []⟩
  | .elemDrop segment => do
    ctx.bulkMemory
    ctx.segment segment
    return ⟨[], []⟩
  | .load access arg => do
    ctx.memArg access arg
    return ⟨[.i32], [access.type]⟩
  | .store access arg => do
    ctx.memArg access arg
    return ⟨[.i32, access.type], []⟩
  | .memorySize m => do
    ctx.memory m
    return ⟨[], [.i32]⟩
  | .memoryGrow m => do
    ctx.memory m
    return ⟨[.i32], [.i32]⟩
  | .memoryFill m => do
    ctx.bulkMemory
    ctx.memory m
    return ⟨[.i32, .i32, .i32], []⟩
  | .memoryCopy target source => do
    ctx.bulkMemory
    ctx.memory target
    ctx.memory source
    return ⟨[.i32, .i32, .i32], []⟩
  | .memoryInit segment m => do
    ctx.bulkMemory
    ctx.memory m
    ctx.dataSegment segment
    return ⟨[.i32, .i32, .i32], []⟩
  | .dataDrop segment => do
    ctx.bulkMemory
    ctx.dataSegment segment
    return ⟨[], []⟩

def apply (type : FuncType) (b : OpenBlock) : Except Rejection OpenBlock := do
  return (← b.pop type.params).push type.results

/-- An operand that is a number or a vector, as selection without a type needs. -/
def selectable (t : Option ValType) : Except Rejection Unit :=
  require (t ≠ some .funcref) "type mismatch: select only takes integral types"

def operand (i : OperandInstr) (b : OpenBlock) : Except Rejection OpenBlock := do
  match i with
  | .drop => return (← b.popAny).2
  | .select none => do
    let b ← b.popOne .i32
    let (first, b) ← b.popAny
    let (second, b) ← b.popAny
    selectable first
    selectable second
    match first, second with
    | some t, some u => do
      require (t = u) "type mismatch: select operands have different types"
      return b.push [t]
    | some t, none | none, some t => return b.push [t]
    | none, none => return { b with stack := none :: b.stack }
  | i => do apply (← ctx.operandType i) b

def labelTypes (state : State) (label : Nat) : Except Rejection (List ValType) :=
  (find state[label]? "unknown label: branch depth too large").map OpenBlock.labelTypes

/-- Opens a block, whose parameters are taken from the block around it. -/
def enter (kind : BlockKind) (type : FuncType) (b : OpenBlock) (outer : State) : Except Rejection State := do
  return .start kind type :: (← b.pop type.params) :: outer

def instr (state : State) (i : Instr) : Except Rejection State := do
  match state with
  | [] => throw (.malformed "operators remaining after end of function")
  | b :: outer =>
    match i with
    | .nop => return state
    | .unreachable => return b.jump :: outer
    | .block t => do enter .plain (← ctx.blockType t) b outer
    | .loop t => do enter .loop (← ctx.blockType t) b outer
    | .cond t => do
      let type ← ctx.blockType t
      enter .cond type (← b.popOne .i32) outer
    | .otherwise => do
      require (b.kind = .cond) "else found outside of an if block"
      b.finish
      return .start .plain b.type :: outer
    | .done => do
      b.finish
      if b.kind = .cond then require (b.type.params = b.type.results) "type mismatch: if without else"
      match outer with
      | [] => return []
      | next :: outer => return next.push b.type.results :: outer
    | .br label => do
      let b ← b.pop (← labelTypes state label)
      return b.jump :: outer
    | .brIf label => do
      let types ← labelTypes state label
      let b ← b.popOne .i32
      return (← apply ⟨types, types⟩ b) :: outer
    | .brTable labels fallback => do
      let b ← b.popOne .i32
      let types ← labelTypes state fallback
      for label in labels do
        let others ← labelTypes state label
        require (others.length = types.length) "type mismatch: br_table labels differ in arity"
        let _ ← b.pop others
      return (← b.pop types).jump :: outer
    | .ret => do
      let types := (state.getLast?.map (·.type.results)).getD []
      return (← b.pop types).jump :: outer
    | .call f => do
      return (← apply (← find (ctx.module.funcType? f) "unknown function") b) :: outer
    | .callIndirect type table => do
      ctx.table table
      let type ← find ctx.module.types[type]? "unknown type: type index out of bounds"
      return (← apply type (← b.popOne .i32)) :: outer
    | .operand i => return (← ctx.operand i b) :: outer
    | .storage i => return (← apply (← ctx.storageType i) b) :: outer

/-- Checks the code of a function, up to its final `done`. -/
def body (results : List ValType) (code : List Instr) : Except Rejection State :=
  code.foldlM (fun state i => ctx.instr state i) [.start .plain ⟨[], results⟩]

/-- Whether an instruction may stand in a constant expression. Only imported globals are known
then. -/
def constInstr (i : Instr) : Except Rejection Unit :=
  match i with
  | .operand (.const _) | .operand (.refFunc _) => .ok ()
  | .operand (.numeric (.intBinary _ op)) =>
    require (op = .add || op = .sub || op = .mul) "constant expression required"
  | .storage (.globalGet index) => do
    let g ← find ctx.module.importedGlobals[index]? "constant expression required: global.get of locally defined global"
    require (!g.mutable) "constant expression required: global.get of mutable global"
  | _ => .error (.invalid "constant expression required")

def constExpr (t : ValType) (e : ConstExpr) : Except Rejection Unit := do
  for i in e do
    ctx.constInstr i
  match ← ctx.body [t] (e ++ [.done]) with
  | [] => return ()
  | _ => throw (.invalid "constant expression required")

end Context
end WasmBinding.Wasm.Typing
