import WasmBinding.Number.Ieee
import WasmBinding.Number.LittleEndian

/-! The host types that can cross into WebAssembly, and their two encodings: a 64-bit slot
holding the zero-extended bits, and little-endian bytes in memory. -/

namespace WasmBinding

/-- Untyped storage of one value: its bits, zero-extended. -/
abbrev Slot := BitVec 64

/-- The type of a value as the untyped boundary sees it. `unknown` stands for every type that
the boundary cannot carry, `none` for the absence of a value. -/
inductive ValueTag where
  | none | i32 | i64 | f32 | f64 | unknown
  deriving DecidableEq, Repr

namespace ValueTag

def number : ValueTag → Nat
  | .none => 0
  | .i32 => 1
  | .i64 => 2
  | .f32 => 3
  | .f64 => 4
  | .unknown => 5

def name : ValueTag → String
  | .none => "None"
  | .i32 => "I32"
  | .i64 => "I64"
  | .f32 => "F32"
  | .f64 => "F64"
  | .unknown => "Unknown"

def code? : ValueTag → Option Char
  | .i32 => some 'i'
  | .i64 => some 'I'
  | .f32 => some 'f'
  | .f64 => some 'F'
  | .none | .unknown => Option.none

def ofCode? : Char → Option ValueTag
  | 'i' => some .i32
  | 'I' => some .i64
  | 'f' => some .f32
  | 'F' => some .f64
  | _ => Option.none

theorem ofCode?_eq_some_iff (c : Char) (t : ValueTag) : ofCode? c = some t ↔ t.code? = some c := by
  constructor
  · intro h
    unfold ofCode? at h
    split at h <;> simp_all [code?] <;> subst h <;> rfl
  · cases t <;> simp [code?] <;> rintro rfl <;> rfl

end ValueTag

/-- The host types that arguments, results, globals and memory cells can have. -/
inductive ScalarType where
  | i32 | u32 | i64 | u64 | isize | f32 | f64
  deriving DecidableEq, Repr

namespace ScalarType

/-- The values of the type; a pointer-sized integer has 64 bits. -/
@[reducible] def Carrier : ScalarType → Type
  | .i32 => Int32
  | .u32 => UInt32
  | .i64 | .isize => Int64
  | .u64 => UInt64
  | .f32 => F32
  | .f64 => F64

@[reducible] def width : ScalarType → Nat
  | .i32 | .u32 | .f32 => 32
  | .i64 | .u64 | .isize | .f64 => 64

def size (t : ScalarType) : Nat := t.width / 8

/-- The WebAssembly type with the same bits. -/
def tag : ScalarType → ValueTag
  | .i32 | .u32 => .i32
  | .i64 | .u64 | .isize => .i64
  | .f32 => .f32
  | .f64 => .f64

def code : ScalarType → Char
  | .i32 | .u32 => 'i'
  | .i64 | .u64 | .isize => 'I'
  | .f32 => 'f'
  | .f64 => 'F'

theorem tag_code? (t : ScalarType) : t.tag.code? = some t.code := by cases t <;> rfl

def toBits : (t : ScalarType) → t.Carrier → BitVec t.width
  | .i32, v => v.toBitVec
  | .u32, v => v.toBitVec
  | .i64, v | .isize, v => v.toBitVec
  | .u64, v => v.toBitVec
  | .f32, v => v.bits
  | .f64, v => v.bits

def ofBits : (t : ScalarType) → BitVec t.width → t.Carrier
  | .i32, b => Int32.ofBitVec b
  | .u32, b => UInt32.ofBitVec b
  | .i64, b | .isize, b => Int64.ofBitVec b
  | .u64, b => UInt64.ofBitVec b
  | .f32, b => ⟨b⟩
  | .f64, b => ⟨b⟩

@[simp] theorem ofBits_toBits (t : ScalarType) (v : t.Carrier) : t.ofBits (t.toBits v) = v := by
  cases t <;> rfl

@[simp] theorem toBits_ofBits (t : ScalarType) (b : BitVec t.width) : t.toBits (t.ofBits b) = b := by
  cases t <;> rfl

def toSlot (t : ScalarType) (v : t.Carrier) : Slot := (t.toBits v).setWidth 64

/-- Reads a slot, ignoring the bits beyond the width of the type. -/
def ofSlot (t : ScalarType) (s : Slot) : t.Carrier := t.ofBits (s.setWidth t.width)

def encode (t : ScalarType) (v : t.Carrier) : List UInt8 :=
  LittleEndian.toBytes t.size (t.toBits v).toNat

/-- The value that some bytes stand for; meant for exactly `t.size` of them. -/
def decode (t : ScalarType) (bytes : List UInt8) : t.Carrier :=
  t.ofBits (BitVec.ofNat t.width (LittleEndian.ofBytes bytes))

/-- Refuses any other number of bytes than the type has. -/
def decode? (t : ScalarType) (bytes : List UInt8) : Option t.Carrier :=
  if bytes.length = t.size then some (t.decode bytes) else none

/-- Fills a buffer with a value; refuses a buffer of another size. -/
def fill? (t : ScalarType) (v : t.Carrier) (buffer : List UInt8) : Option (List UInt8) :=
  if buffer.length = t.size then some (t.encode v) else none

@[simp] theorem length_encode (t : ScalarType) (v : t.Carrier) : (t.encode v).length = t.size := by
  simp [encode]

end ScalarType

structure Scalar where
  type : ScalarType
  val : type.Carrier

namespace Scalar

def toSlot (s : Scalar) : Slot := s.type.toSlot s.val

def ofSlot (t : ScalarType) (s : Slot) : Scalar := ⟨t, t.ofSlot s⟩

end Scalar

/-- The return type of a host function: nothing, or one scalar. -/
abbrev ResultType := Option ScalarType

namespace ResultType

@[reducible] def Carrier : ResultType → Type
  | none => Unit
  | some t => t.Carrier

def code : ResultType → Char
  | none => 'v'
  | some t => t.code

def slots : ResultType → Nat
  | none => 0
  | some _ => 1

def ofSlot : (r : ResultType) → Slot → r.Carrier
  | none, _ => ()
  | some t, s => t.ofSlot s

/-- Puts a result into the leading slot; `none` if it needs one and there is none. -/
def store : (r : ResultType) → r.Carrier → List Slot → Option (List Slot)
  | none, _, stack => some stack
  | some _, _, [] => Option.none
  | some t, v, _ :: rest => some (t.toSlot v :: rest)

end ResultType
end WasmBinding
