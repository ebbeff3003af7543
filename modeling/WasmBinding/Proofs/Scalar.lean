import Mathlib.Algebra.Group.Int.Defs
import Mathlib.Algebra.Group.Nat.Defs
import WasmBinding.Number.Sign
import WasmBinding.Proofs.Memory.RoundTrip
import WasmBinding.Proofs.Signature
import WasmBinding.Proofs.Wasm.Values

/-! Scalars in their encodings. The slot of a value, the number that it crosses the boundary as and its bytes in memory hold
the same bits, and each of them is read by these bits alone. -/

namespace WasmBinding

open Wasm (Value)

namespace LittleEndian

/-- Behind the first bytes of a number come the bytes of what they leave of it. -/
theorem toBytes_add (first more n : Nat) :
    toBytes (first + more) n = toBytes first n ++ toBytes more (n / 256 ^ first) := by
  induction first generalizing n with
  | zero => simp [toBytes]
  | succ first ih =>
    have rest : n / 256 / 256 ^ first = n / 256 ^ (first + 1) := by
      rw [Nat.div_div_eq_div_mul, ← Nat.pow_succ']
    rw [Nat.add_right_comm, toBytes, toBytes, ih, rest, List.cons_append]

theorem toBytes_zero (count : Nat) : toBytes count 0 = List.replicate count 0 := by
  induction count with
  | zero => rfl
  | succ count ih =>
    rw [toBytes, Nat.zero_div, ih, List.replicate_succ]
    rfl

/-- A small number is followed by zeros. -/
theorem toBytes_of_lt (small : n < 256 ^ first) (more : Nat) :
    toBytes (first + more) n = toBytes first n ++ List.replicate more 0 := by
  rw [toBytes_add, Nat.div_eq_of_lt small, toBytes_zero]

end LittleEndian

namespace ScalarType

theorem size_le (t : ScalarType) : t.size ≤ 8 := by cases t <;> decide

theorem width_le (t : ScalarType) : t.width ≤ 64 := by
  have bound := t.size_le
  rw [width_eq]
  omega

theorem toNat_toSlot (t : ScalarType) (v : t.Carrier) : (t.toSlot v).toNat = (t.toBits v).toNat :=
  BitVec.toNat_setWidth_of_le t.width_le

/-- The bytes of a slot are those of its value, and zeros behind them. -/
theorem toBytes_toSlot (t : ScalarType) (v : t.Carrier) :
    LittleEndian.toBytes 8 (t.toSlot v).toNat = t.encode v ++ List.replicate (8 - t.size) 0 := by
  have small : (t.toBits v).toNat < 256 ^ t.size := by
    calc (t.toBits v).toNat
      _ < 2 ^ t.width := (t.toBits v).isLt
      _ = 256 ^ t.size := by rw [width_eq, Nat.pow_mul]
  have bytes : 8 = t.size + (8 - t.size) := (Nat.add_sub_cancel' t.size_le).symm
  rw [toNat_toSlot, encode, bytes, LittleEndian.toBytes_of_lt small, ← bytes]

/-- Bytes stand for the value in the slot that is their number. -/
theorem decode_eq_ofSlot (t : ScalarType) (bytes : List UInt8) :
    t.decode bytes = t.ofSlot (BitVec.ofNat 64 (LittleEndian.ofBytes bytes)) := by
  rw [decode, ofSlot, BitVec.setWidth_ofNat_of_le t.width_le]

/-- Reading a slot and making one again leaves of it the bits of the value. -/
theorem toNat_toSlot_ofSlot (t : ScalarType) (s : Slot) : (t.toSlot (t.ofSlot s)).toNat = s.toNat % 2 ^ (8 * t.size) := by
  rw [toNat_toSlot, ofSlot, toBits_ofBits, BitVec.toNat_setWidth, width_eq]

theorem ofSlot_eq_iff {t : ScalarType} {a b : Slot} :
    t.ofSlot a = t.ofSlot b ↔ a.toNat % 2 ^ (8 * t.size) = b.toNat % 2 ^ (8 * t.size) := by
  rw [← toNat_toSlot_ofSlot, ← toNat_toSlot_ofSlot]
  constructor
  · intro same
    rw [same]
  · intro same
    rw [← ofSlot_toSlot t (t.ofSlot a), BitVec.eq_of_toNat_eq same, ofSlot_toSlot]

@[simp] theorem type_toValue (t : ScalarType) (v : t.Carrier) : (t.toValue v).type = t.valType :=
  eq_valType_iff.mpr (t.tag_toValue v)

/-- The encodings of a type, which hold the same bits. -/
structure Consistent (t : ScalarType) : Prop where
  /-- The number in the slot of a value has its type and its bits. -/
  number : ∀ v, Value.ofSlot? (t.toSlot v) t.tag = some (t.toValue v) ∧ (t.toValue v).type = t.valType ∧
    (t.toValue v).toSlot? = some ((t.toBits v).setWidth 64)
  back : ∀ v, (t.toValue v).toSlot?.map t.ofSlot = some v
  /-- In memory a value has the first bytes of its slot, whose others are zero. -/
  bytes : ∀ v, LittleEndian.toBytes 8 (t.toSlot v).toNat = t.encode v ++ List.replicate (8 - t.size) 0
  written : ∀ v buffer, t.fill? v buffer =
    if buffer.length = t.size then some ((LittleEndian.toBytes 8 (t.toSlot v).toNat).take t.size) else none
  read : ∀ bytes, t.decode? bytes =
    if bytes.length = t.size then some (t.ofSlot (BitVec.ofNat 64 (LittleEndian.ofBytes bytes))) else none
  /-- Of a slot only the bits of the value are read. -/
  low : ∀ a b, t.ofSlot a = t.ofSlot b ↔ a.toNat % 2 ^ (8 * t.size) = b.toNat % 2 ^ (8 * t.size)
  reduced : ∀ s, (t.toSlot (t.ofSlot s)).toNat = s.toNat % 2 ^ (8 * t.size)
  code : ValueTag.ofCode? t.code = some t.tag

theorem consistent (t : ScalarType) : t.Consistent := by
  constructor
  case number =>
    intro v
    exact ⟨t.ofSlot?_toSlot v, t.type_toValue v, t.toSlot?_toValue v⟩
  case back =>
    intro v
    rw [toSlot?_toValue, Option.map_some, ofSlot_toSlot]
  case bytes => exact t.toBytes_toSlot
  case written =>
    intro v buffer
    rw [fill?, toBytes_toSlot, List.take_left' (t.length_encode v)]
  case read =>
    intro bytes
    rw [decode?, decode_eq_ofSlot]
  case low =>
    intro a b
    exact ofSlot_eq_iff
  case reduced => exact t.toNat_toSlot_ofSlot
  case code => exact ValueTag.ofCode?_code t

end ScalarType

namespace SignedType

def width : SignedType → Nat
  | .i8 => 8
  | .i16 => 16
  | .i32 => 32
  | .i64 | .isize => 64

theorem toNat_eq_toInt_emod {w : Nat} (b : BitVec w) : (b.toNat : Int) = b.toInt % 2 ^ w := by
  have power : (2 ^ w : Int) = (2 ^ w : Nat) := (Int.natCast_pow 2 w).symm
  rw [power, BitVec.toInt_eq_toNat_bmod, Int.bmod_emod, ← Int.natCast_emod, Nat.mod_eq_of_lt b.isLt]

theorem unsignedValue_toUnsigned (t : SignedType) (v : t.Signed) :
    (t.unsignedValue (t.toUnsigned v) : Int) = t.signedValue v % 2 ^ t.width := by
  cases t with
  | i8 | i16 | i32 | i64 | isize => exact toNat_eq_toInt_emod v.toBitVec

/-- The readings of the integers of a width as signed and as unsigned, which are inverse to each other. -/
structure Reinterprets (t : SignedType) : Prop where
  signed : ∀ v, t.ofUnsigned (t.toUnsigned v) = v
  unsigned : ∀ v, t.toUnsigned (t.ofUnsigned v) = v
  modulo : ∀ v, (t.unsignedValue (t.toUnsigned v) : Int) = t.signedValue v % 2 ^ t.width

theorem reinterprets (t : SignedType) : t.Reinterprets where
  signed := t.ofUnsigned_toUnsigned
  unsigned := t.toUnsigned_ofUnsigned
  modulo := t.unsignedValue_toUnsigned

end SignedType

/-- The unsigned type of the width of a signed one, where what is pointer-sized has 64 bits. Other types stay what they are. -/
def ScalarType.unsigned : ScalarType → ScalarType
  | .i32 => .u32
  | .i64 | .isize => .u64
  | t => t

namespace Scalar

/-- A scalar of a signed type, read as one of the unsigned type. -/
def unsigned : Scalar → Scalar
  | ⟨.i32, v⟩ => ⟨.u32, SignedType.i32.toUnsigned v⟩
  | ⟨.i64, v⟩ => ⟨.u64, SignedType.i64.toUnsigned v⟩
  | ⟨.isize, v⟩ => ⟨.u64, SignedType.isize.toUnsigned v⟩
  | s => s

theorem type_unsigned (s : Scalar) : s.unsigned.type = s.type.unsigned := by
  obtain ⟨type, v⟩ := s
  cases type <;> rfl

/-- A slot does not say whether its value is signed. -/
theorem toSlot_unsigned (s : Scalar) : s.unsigned.toSlot = s.toSlot := by
  obtain ⟨type, v⟩ := s
  cases type <;> rfl

theorem unsigned_ofSlot (t : ScalarType) (slot : Slot) : (ofSlot t slot).unsigned = ofSlot t.unsigned slot := by
  cases t <;> rfl

end Scalar

/-- The encodings of values agree. For every type the slot of a value, the number that crosses the boundary and the bytes in
memory stand for each other, and of a slot or of bytes no more counts than the bits of the value. Signed and unsigned integers
with the same bits are got back from each other, have the same slot and are read from the same slots. -/
theorem encodings_agree :
    (∀ t : ScalarType, t.Consistent) ∧ (∀ t : SignedType, t.Reinterprets) ∧
    (∀ s : Scalar, s.unsigned.type = s.type.unsigned ∧ s.unsigned.toSlot = s.toSlot) ∧
    ∀ (t : ScalarType) (slot : Slot), (Scalar.ofSlot t slot).unsigned = Scalar.ofSlot t.unsigned slot := by
  refine ⟨ScalarType.consistent, SignedType.reinterprets, ?_, Scalar.unsigned_ofSlot⟩
  intro s
  exact ⟨s.type_unsigned, s.toSlot_unsigned⟩

/-- The sign is not extended into the slot. -/
example : ScalarType.i32.toSlot (-1) = 0xffffffff := by decide

end WasmBinding
