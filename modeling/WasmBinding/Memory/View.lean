import WasmBinding.Error
import WasmBinding.Memory
import WasmBinding.Scalar
import WasmBinding.Text.Utf8

/-! Checked access to a memory. An access is valid if it begins strictly inside the memory and does
not run past its end, so one of no bytes at the very end is refused. Addresses have 64 bits. -/

namespace WasmBinding.Memory

/-- The sum or product of addresses, if it is an address. -/
def address? (n : Nat) : Option Nat := if n < 0x10000000000000000 then some n else none

def valid (m : Memory) (off count : Nat) : Bool :=
  off < m.size && (address? (off + count)).any fun stop => stop ≤ m.size

def isEmpty (m : Memory) : Bool := m.size == 0

def readBytes (m : Memory) (off count : Nat) : Except Error (List UInt8) :=
  if m.valid off count then .ok (m.slice off count) else .error .invalidMemoryAccess

/-- Fills a buffer; answers whether it could, and the buffer afterwards. -/
def read (m : Memory) (off : Nat) (buffer : List UInt8) : Except Error Unit × List UInt8 :=
  match m.readBytes off buffer.length with
  | .ok bytes => (.ok (), bytes)
  | .error e => (.error e, buffer)

def readValue (m : Memory) (t : ScalarType) (off : Nat) : Except Error t.Carrier :=
  (m.readBytes off t.size).map t.decode

def arrayLength (t : ScalarType) (count : Nat) : Except Error Nat :=
  match address? (count * t.size) with
  | some length => .ok length
  | none => .error .invalidMemoryAccess

/-- Splits bytes into `count` values, dropping what is left over. -/
def decodeArray (t : ScalarType) : (count : Nat) → List UInt8 → List t.Carrier
  | 0, _ => []
  | count + 1, bytes => t.decode (bytes.take t.size) :: decodeArray t count (bytes.drop t.size)

def readValues (m : Memory) (t : ScalarType) (off count : Nat) : Except Error (List t.Carrier) := do
  let bytes ← m.readBytes off (← arrayLength t count)
  return decodeArray t count bytes

/-- Decodes bytes as text, with replacement characters for what is not UTF-8. -/
def readString (m : Memory) (off count : Nat) : Except Error String := do
  return String.ofList (Utf8.decodeLossy (← m.readBytes off count))

def write (m : Memory) (off : Nat) (bytes : List UInt8) : Except Error Memory :=
  if m.valid off bytes.length then .ok (m.copyIn off bytes) else .error .invalidMemoryAccess

theorem size_write {m after : Memory} {off : Nat} {bytes : List UInt8}
    (h : m.write off bytes = .ok after) : after.size = m.size := by
  unfold write at h
  split at h
  · simp only [Except.ok.injEq] at h
    simp [← h]
  · simp at h

def writeValues (m : Memory) (t : ScalarType) (off : Nat) (values : List t.Carrier) :
    Except Error Memory := do
  let length ← arrayLength t values.length
  if m.valid off length then return m.copyIn off (values.flatMap t.encode)
  else throw .invalidMemoryAccess

theorem size_writeValues {m after : Memory} {t : ScalarType} {off : Nat} {values : List t.Carrier}
    (h : m.writeValues t off values = .ok after) : after.size = m.size := by
  unfold writeValues at h
  cases length : arrayLength t values.length with
  | error e => simp [length, bind, Except.bind] at h
  | ok n =>
    simp only [length, bind, Except.bind] at h
    split at h
    · simp only [pure, Except.pure, Except.ok.injEq] at h
      simp [← h]
    · simp [throw, throwThe, MonadExceptOf.throw] at h

def writeValue (m : Memory) (t : ScalarType) (off : Nat) (value : t.Carrier) : Except Error Memory :=
  m.writeValues t off [value]

/-- Writes the UTF-8 bytes of a text, without a terminator. -/
def writeString (m : Memory) (off : Nat) (text : String) : Except Error Memory :=
  m.write off (Utf8.encode text.toList)

def describe (m : Memory) : String :=
  "MemoryView \x7b data: [" ++ ", ".intercalate (m.toList.map fun b => toString b.toNat) ++ "] \x7d"

end WasmBinding.Memory
