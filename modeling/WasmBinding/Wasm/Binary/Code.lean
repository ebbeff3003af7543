import WasmBinding.Wasm.Binary.Reader
import WasmBinding.Wasm.Instr

/-! The binary form of types and instructions. Whether a decoded instruction makes sense where it
stands is for validation to say. Tail calls, exceptions, references other than `funcref` and the
operations on vectors are not modelled: their codes count as unknown. -/

namespace WasmBinding.Wasm

/-- The optional parts of the language that the settings turn on. -/
structure Features where
  bulkMemory : Bool
  multiValue : Bool
  deriving DecidableEq, Repr

/-- Reference types need bulk memory. -/
def Features.referenceTypes (f : Features) : Bool := f.bulkMemory

namespace Binary

open Reader

def valType : Reader ValType := do
  match (← byte).toNat with
  | 0x7f => return .i32
  | 0x7e => return .i64
  | 0x7d => return .f32
  | 0x7c => return .f64
  | 0x7b => return .v128
  | 0x70 => return .funcref
  | _ => malformed "invalid value type"

/-- The only reference type is `funcref`. -/
def refType : Reader Unit := do
  match (← byte).toNat with
  | 0x70 => return ()
  | _ => malformed "malformed reference type"

def blockType : Reader BlockType := do
  let b := (← peek).toNat
  if b = 0x40 then
    let _ ← byte
    return .empty
  else if 0x40 < b ∧ b < 0x80 then return .result (← valType)
  else
    let index ← s33
    if index < 0 then malformed "invalid function type" else return .function index.toNat

/-- Bit 6 of the alignment says that a memory index follows. -/
def memArg : Reader MemArg := do
  let flags ← u32
  let (align, memory) ←
    if flags / 64 % 2 = 1 then pure (flags - 64, ← u32) else pure (flags, 0)
  if align ≥ 64 then malformed "malformed memop alignment: alignment too large"
  let offset ← u64
  return ⟨align, memory, offset⟩

/-- Before reference types the only table was named by a zero byte. -/
def tableIndex (f : Features) : Reader Nat := do
  if f.referenceTypes then u32
  else if (← byte) = 0 then return 0
  else malformed "zero byte expected"

def intCompares : List IntCompare := [.eq, .ne, .ltS, .ltU, .gtS, .gtU, .leS, .leU, .geS, .geU]

def floatCompares : List FloatCompare := [.eq, .ne, .lt, .gt, .le, .ge]

def intUnaries : List IntUnary := [.clz, .ctz, .popcnt]

def intBinaries : List IntBinary :=
  [.add, .sub, .mul, .divS, .divU, .remS, .remU, .and, .or, .xor, .shl, .shrS, .shrU, .rotl, .rotr]

def floatUnaries : List FloatUnary := [.abs, .neg, .ceil, .floor, .trunc, .nearest, .sqrt]

def floatBinaries : List FloatBinary := [.add, .sub, .mul, .div, .min, .max, .copysign]

/-- The operations between the widths, in the order of their codes. -/
def conversions : List NumericOp :=
  [.wrap,
    .truncate .w32 .w32 true false, .truncate .w32 .w32 false false,
    .truncate .w64 .w32 true false, .truncate .w64 .w32 false false,
    .extend true, .extend false,
    .truncate .w32 .w64 true false, .truncate .w32 .w64 false false,
    .truncate .w64 .w64 true false, .truncate .w64 .w64 false false,
    .convert .w32 .w32 true, .convert .w32 .w32 false,
    .convert .w64 .w32 true, .convert .w64 .w32 false, .demote,
    .convert .w32 .w64 true, .convert .w32 .w64 false,
    .convert .w64 .w64 true, .convert .w64 .w64 false, .promote,
    .bitsOfFloat .w32, .bitsOfFloat .w64, .floatOfBits .w32, .floatOfBits .w64,
    .intUnary .w32 .extend8, .intUnary .w32 .extend16,
    .intUnary .w64 .extend8, .intUnary .w64 .extend16, .intUnary .w64 .extend32]

/-- The numeric operations with a code of one byte, from 0x45 on. -/
def numericOps : List NumericOp :=
  (.eqz .w32 :: intCompares.map (.intCompare .w32)) ++
  (.eqz .w64 :: intCompares.map (.intCompare .w64)) ++
  floatCompares.map (.floatCompare .w32) ++ floatCompares.map (.floatCompare .w64) ++
  intUnaries.map (.intUnary .w32) ++ intBinaries.map (.intBinary .w32) ++
  intUnaries.map (.intUnary .w64) ++ intBinaries.map (.intBinary .w64) ++
  floatUnaries.map (.floatUnary .w32) ++ floatBinaries.map (.floatBinary .w32) ++
  floatUnaries.map (.floatUnary .w64) ++ floatBinaries.map (.floatBinary .w64) ++ conversions

/-- The truncations that never trap, in the order of their codes. -/
def saturations : List NumericOp :=
  [.truncate .w32 .w32 true true, .truncate .w32 .w32 false true,
    .truncate .w64 .w32 true true, .truncate .w64 .w32 false true,
    .truncate .w32 .w64 true true, .truncate .w32 .w64 false true,
    .truncate .w64 .w64 true true, .truncate .w64 .w64 false true]

def loads : List Access :=
  [⟨.i32, 4, false⟩, ⟨.i64, 8, false⟩, ⟨.f32, 4, false⟩, ⟨.f64, 8, false⟩,
    ⟨.i32, 1, true⟩, ⟨.i32, 1, false⟩, ⟨.i32, 2, true⟩, ⟨.i32, 2, false⟩,
    ⟨.i64, 1, true⟩, ⟨.i64, 1, false⟩, ⟨.i64, 2, true⟩, ⟨.i64, 2, false⟩,
    ⟨.i64, 4, true⟩, ⟨.i64, 4, false⟩]

def stores : List Access :=
  [⟨.i32, 4, false⟩, ⟨.i64, 8, false⟩, ⟨.f32, 4, false⟩, ⟨.f64, 8, false⟩,
    ⟨.i32, 1, false⟩, ⟨.i32, 2, false⟩, ⟨.i64, 1, false⟩, ⟨.i64, 2, false⟩, ⟨.i64, 4, false⟩]

def fixedBits (width bytes : Nat) : Reader (BitVec width) := do
  return BitVec.ofNat width ((← take bytes).foldr (fun b n => b.toNat + 256 * n) 0)

/-- The instructions behind the prefix 0xfc. -/
def prefixedInstr : Reader Instr := do
  let code ← u32
  match saturations[code]? with
  | some op => return .operand (.numeric op)
  | none =>
    match code with
    | 8 => do
      let segment ← u32
      return .storage (.memoryInit segment (← u32))
    | 9 => return .storage (.dataDrop (← u32))
    | 10 => do
      let target ← u32
      return .storage (.memoryCopy target (← u32))
    | 11 => return .storage (.memoryFill (← u32))
    | 12 => do
      let segment ← u32
      return .storage (.tableInit segment (← u32))
    | 13 => return .storage (.elemDrop (← u32))
    | 14 => do
      let target ← u32
      return .storage (.tableCopy target (← u32))
    | 15 => return .storage (.tableGrow (← u32))
    | 16 => return .storage (.tableSize (← u32))
    | 17 => return .storage (.tableFill (← u32))
    | _ => malformed "unknown 0xfc subopcode"

/-- Of the vector instructions only the constant is modelled: it is what makes a value that no slot
can hold. -/
def vectorInstr : Reader Instr := do
  match ← u32 with
  | 12 => return .operand (.const (.v128 (← fixedBits 128 16)))
  | _ => malformed "unknown 0xfd subopcode"

def selectType : Reader ValType := do
  match ← vector valType with
  | [t] => return t
  | _ => malformed "invalid result arity"

def instr (f : Features) : Reader Instr := do
  let code := (← byte).toNat
  match code with
  | 0x00 => return .unreachable
  | 0x01 => return .nop
  | 0x02 => return .block (← blockType)
  | 0x03 => return .loop (← blockType)
  | 0x04 => return .cond (← blockType)
  | 0x05 => return .otherwise
  | 0x0b => return .done
  | 0x0c => return .br (← u32)
  | 0x0d => return .brIf (← u32)
  | 0x0e => do
    let labels ← vector u32
    return .brTable labels (← u32)
  | 0x0f => return .ret
  | 0x10 => return .call (← u32)
  | 0x11 => do
    let type ← u32
    return .callIndirect type (← tableIndex f)
  | 0x1a => return .operand .drop
  | 0x1b => return .operand (.select none)
  | 0x1c => return .operand (.select (some (← selectType)))
  | 0x20 => return .operand (.localGet (← u32))
  | 0x21 => return .operand (.localSet (← u32))
  | 0x22 => return .operand (.localTee (← u32))
  | 0x23 => return .storage (.globalGet (← u32))
  | 0x24 => return .storage (.globalSet (← u32))
  | 0x25 => return .storage (.tableGet (← u32))
  | 0x26 => return .storage (.tableSet (← u32))
  | 0x3f => return .storage (.memorySize (← u32))
  | 0x40 => return .storage (.memoryGrow (← u32))
  | 0x41 => return .operand (.const (.i32 (BitVec.ofInt 32 (← s32))))
  | 0x42 => return .operand (.const (.i64 (BitVec.ofInt 64 (← s64))))
  | 0x43 => return .operand (.const (.f32 ⟨← fixedBits 32 4⟩))
  | 0x44 => return .operand (.const (.f64 ⟨← fixedBits 64 8⟩))
  | 0xd0 => do
    refType
    return .operand (.const (.funcref none))
  | 0xd1 => return .operand .refIsNull
  | 0xd2 => return .operand (.refFunc (← u32))
  | 0xfc => prefixedInstr
  | 0xfd => vectorInstr
  | _ =>
    if 0x28 ≤ code ∧ code < 0x36 then
      match loads[code - 0x28]? with
      | some access => return .storage (.load access (← memArg))
      | none => malformed "illegal opcode"
    else if 0x36 ≤ code ∧ code < 0x3f then
      match stores[code - 0x36]? with
      | some access => return .storage (.store access (← memArg))
      | none => malformed "illegal opcode"
    else if 0x45 ≤ code then
      match numericOps[code - 0x45]? with
      | some op => return .operand (.numeric op)
      | none => malformed "illegal opcode"
    else malformed "illegal opcode"

/-- Reads instructions to the end of the input: those that could be read, and what stopped it if it
did not get there. Each spends one unit of `fuel`; the number of bytes is always enough. -/
def instrs (f : Features) : (fuel : Nat) → Bytes → List Instr × Option Rejection
  | _, [] => ([], none)
  | 0, _ => ([], some .endOfInput)
  | fuel + 1, bytes =>
    match instr f bytes with
    | .error e => ([], some e)
    | .ok (i, rest) =>
      let (code, stop) := instrs f fuel rest
      (i :: code, stop)

/-- Reads instructions up to the end of the expression, which is not part of the result. -/
def constExpr (f : Features) : (fuel : Nat) → Reader (List Instr)
  | 0 => throw .endOfInput
  | fuel + 1 => do
    match ← instr f with
    | .done => return []
    | i => return i :: (← constExpr f fuel)

def const (f : Features) : Reader (List Instr) := fun bytes => constExpr f (bytes.length + 1) bytes

end Binary
end WasmBinding.Wasm
