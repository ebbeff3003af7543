/-! Signed and unsigned integers of one width hold the same bits. The two readings are
inverse to each other. -/

namespace WasmBinding

/-- The signed integer types whose bits can be read as unsigned. -/
inductive SignedType where
  | i8 | i16 | i32 | i64 | isize
  deriving DecidableEq, Repr

namespace SignedType

/-- A pointer-sized integer has 64 bits. -/
@[reducible] def Signed : SignedType → Type
  | .i8 => Int8
  | .i16 => Int16
  | .i32 => Int32
  | .i64 | .isize => Int64

@[reducible] def Unsigned : SignedType → Type
  | .i8 => UInt8
  | .i16 => UInt16
  | .i32 => UInt32
  | .i64 | .isize => UInt64

def toUnsigned : (t : SignedType) → t.Signed → t.Unsigned
  | .i8, v => v.toUInt8
  | .i16, v => v.toUInt16
  | .i32, v => v.toUInt32
  | .i64, v | .isize, v => v.toUInt64

def ofUnsigned : (t : SignedType) → t.Unsigned → t.Signed
  | .i8, v => v.toInt8
  | .i16, v => v.toInt16
  | .i32, v => v.toInt32
  | .i64, v | .isize, v => v.toInt64

/-- The integer that a signed value stands for. -/
def signedValue : (t : SignedType) → t.Signed → Int
  | .i8, v => v.toInt
  | .i16, v => v.toInt
  | .i32, v => v.toInt
  | .i64, v | .isize, v => v.toInt

def unsignedValue : (t : SignedType) → t.Unsigned → Nat
  | .i8, v => v.toNat
  | .i16, v => v.toNat
  | .i32, v => v.toNat
  | .i64, v | .isize, v => v.toNat

def signedOfInt : (t : SignedType) → Int → t.Signed
  | .i8, n => Int8.ofInt n
  | .i16, n => Int16.ofInt n
  | .i32, n => Int32.ofInt n
  | .i64, n | .isize, n => Int64.ofInt n

def unsignedOfNat : (t : SignedType) → Nat → t.Unsigned
  | .i8, n => UInt8.ofNat n
  | .i16, n => UInt16.ofNat n
  | .i32, n => UInt32.ofNat n
  | .i64, n | .isize, n => UInt64.ofNat n

theorem ofUnsigned_toUnsigned (t : SignedType) (v : t.Signed) :
    t.ofUnsigned (t.toUnsigned v) = v := by
  cases t <;> rfl

theorem toUnsigned_ofUnsigned (t : SignedType) (v : t.Unsigned) :
    t.toUnsigned (t.ofUnsigned v) = v := by
  cases t <;> rfl

end SignedType
end WasmBinding
