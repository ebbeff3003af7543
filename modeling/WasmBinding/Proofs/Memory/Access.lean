import WasmBinding.Memory.View

/-! Accesses to a memory. Each is allowed exactly if it begins inside the memory and does not run past its end, where nothing
wraps around; one that is not allowed changes nothing. -/

namespace WasmBinding.Memory

variable {m : Memory}

/-- How many addresses there are; sizes are smaller. -/
def addressCount : Nat := 0x10000000000000000

/-- Whether bytes begin inside the memory and do not run past its end. -/
def Within (m : Memory) (off count : Nat) : Prop := off < m.size ∧ off + count ≤ m.size

instance (m : Memory) (off count : Nat) : Decidable (m.Within off count) := inferInstanceAs (Decidable (_ ∧ _))

theorem address?_of_lt (small : n < addressCount) : address? n = some n := if_pos small

theorem address?_of_le (large : addressCount ≤ n) : address? n = none := if_neg (Nat.not_lt.mpr large)

/-- A sum that is no address lies behind every memory. -/
theorem valid_iff (word : m.size < addressCount) : m.valid off count = true ↔ m.Within off count := by
  unfold valid Within
  by_cases small : off + count < addressCount
  · simp [address?_of_lt small]
  · simp [address?_of_le (Nat.le_of_not_lt small)]
    omega

theorem arrayLength_of_lt (small : count * t.size < addressCount) : arrayLength t count = .ok (count * t.size) := by
  rw [arrayLength, address?_of_lt small]

theorem arrayLength_of_le (large : addressCount ≤ count * t.size) : arrayLength t count = .error .invalidMemoryAccess := by
  rw [arrayLength, address?_of_le large]

theorem readBytes_eq (word : m.size < addressCount) (off count : Nat) :
    m.readBytes off count = if m.Within off count then .ok (m.slice off count) else .error .invalidMemoryAccess := by
  simp only [readBytes, valid_iff word]

theorem write_eq (word : m.size < addressCount) (off : Nat) (bytes : List UInt8) :
    m.write off bytes =
      if m.Within off bytes.length then .ok (m.copyIn off bytes) else .error .invalidMemoryAccess := by
  simp only [write, valid_iff word]

theorem readValue_eq (word : m.size < addressCount) (t : ScalarType) (off : Nat) :
    m.readValue t off =
      if m.Within off t.size then .ok (t.decode (m.slice off t.size)) else .error .invalidMemoryAccess := by
  rw [readValue, readBytes_eq word]
  split <;> rfl

/-- Values whose size is no address do not fit into any memory. -/
theorem readValues_eq (word : m.size < addressCount) (t : ScalarType) (off count : Nat) :
    m.readValues t off count =
      if m.Within off (count * t.size) then .ok (decodeArray t count (m.slice off (count * t.size)))
      else .error .invalidMemoryAccess := by
  by_cases small : count * t.size < addressCount
  · simp only [readValues, arrayLength_of_lt small, Bind.bind, Except.bind, readBytes_eq word]
    by_cases inside : m.Within off (count * t.size)
    · simp only [if_pos inside]
      rfl
    · simp only [if_neg inside]
  · have outside : ¬ m.Within off (count * t.size) := by
      unfold Within
      omega
    simp only [readValues, arrayLength_of_le (Nat.le_of_not_lt small), Bind.bind, Except.bind, if_neg outside]

theorem writeValues_eq (word : m.size < addressCount) (t : ScalarType) (off : Nat) (values : List t.Carrier) :
    m.writeValues t off values =
      if m.Within off (values.length * t.size) then .ok (m.copyIn off (values.flatMap t.encode))
      else .error .invalidMemoryAccess := by
  by_cases small : values.length * t.size < addressCount
  · simp only [writeValues, arrayLength_of_lt small, Bind.bind, Except.bind, valid_iff word]
    split <;> rfl
  · have outside : ¬ m.Within off (values.length * t.size) := by
      unfold Within
      omega
    simp only [writeValues, arrayLength_of_le (Nat.le_of_not_lt small), Bind.bind, Except.bind, if_neg outside]

theorem writeValue_eq (word : m.size < addressCount) (t : ScalarType) (off : Nat) (value : t.Carrier) :
    m.writeValue t off value =
      if m.Within off t.size then .ok (m.copyIn off (t.encode value)) else .error .invalidMemoryAccess := by
  rw [writeValue, writeValues_eq word, List.length_singleton, Nat.one_mul, List.flatMap_singleton]

theorem copyIn_append (m : Memory) (off : Nat) (bytes more : List UInt8) :
    m.copyIn off (bytes ++ more) = (m.copyIn off bytes).copyIn (off + bytes.length) more := by
  induction bytes generalizing m off with
  | nil => rfl
  | cons b rest ih =>
    rw [List.cons_append, copyIn, copyIn, ih, List.length_cons, Nat.add_right_comm, Nat.add_assoc off]

theorem length_flatMap_encode (t : ScalarType) (values : List t.Carrier) :
    (values.flatMap t.encode).length = values.length * t.size := by
  induction values with
  | nil => simp
  | cons v rest ih =>
    rw [List.flatMap_cons, List.length_append, ScalarType.length_encode, ih, List.length_cons, Nat.succ_mul]
    omega

theorem size_pos (t : ScalarType) : 0 < t.size := by
  cases t <;> decide

/-- The blocks of bytes that an access can change. -/
structure Blocks where
  memory : Memory
  buffer : List UInt8

/-- The accesses that a view offers. -/
inductive Access where
  | readBytes (off count : Nat)
  /-- Fills a buffer. -/
  | read (off : Nat) (buffer : List UInt8)
  | readString (off count : Nat)
  | readValue (t : ScalarType) (off : Nat)
  | readValues (t : ScalarType) (off count : Nat)
  | write (off : Nat) (bytes : List UInt8)
  | writeString (off : Nat) (text : String)
  | writeValue (t : ScalarType) (off : Nat) (value : t.Carrier)
  | writeValues (t : ScalarType) (off : Nat) (values : List t.Carrier)

namespace Access

@[reducible] def Answer : Access → Type
  | readBytes _ _ => List UInt8
  | readString _ _ => String
  | readValue t _ => t.Carrier
  | readValues t _ _ => List t.Carrier
  | read _ _ | write _ _ | writeString _ _ | writeValue _ _ _ | writeValues _ _ _ => Unit

def offset : Access → Nat
  | readBytes off _ | read off _ | readString off _ | readValue _ off | readValues _ off _ | write off _
  | writeString off _ | writeValue _ off _ | writeValues _ off _ => off

/-- How many bytes are read or written. -/
def length : Access → Nat
  | readBytes _ count | readString _ count => count
  | read _ buffer => buffer.length
  | readValue t _ | writeValue t _ _ => t.size
  | readValues t _ count => count * t.size
  | write _ bytes => bytes.length
  | writeString _ text => (Utf8.encode text.toList).length
  | writeValues t _ values => values.length * t.size

def isRead : Access → Bool
  | readBytes _ _ | read _ _ | readString _ _ | readValue _ _ | readValues _ _ _ => true
  | _ => false

/-- The buffer that is to be filled. -/
def buffer : Access → List UInt8
  | read _ buffer => buffer
  | _ => []

/-- The bytes that are to be written. -/
def bytes : Access → List UInt8
  | write _ bytes => bytes
  | writeString _ text => Utf8.encode text.toList
  | writeValue t _ value => t.encode value
  | writeValues t _ values => values.flatMap t.encode
  | _ => []

/-- Carries an access out. -/
def perform (m : Memory) : (a : Access) → Except Error a.Answer × Blocks
  | readBytes off count => (m.readBytes off count, ⟨m, []⟩)
  | read off buffer =>
    let (answer, buffer) := m.read off buffer
    (answer, ⟨m, buffer⟩)
  | readString off count => (m.readString off count, ⟨m, []⟩)
  | readValue t off => (m.readValue t off, ⟨m, []⟩)
  | readValues t off count => (m.readValues t off count, ⟨m, []⟩)
  | write off bytes => written (m.write off bytes)
  | writeString off text => written (m.writeString off text)
  | writeValue t off value => written (m.writeValue t off value)
  | writeValues t off values => written (m.writeValues t off values)
where
  written : Except Error Memory → Except Error Unit × Blocks
    | .ok after => (.ok (), ⟨after, []⟩)
    | .error e => (.error e, ⟨m, []⟩)

/-- What an access makes of the bytes that it reads. -/
def answer (seen : List UInt8) : (a : Access) → a.Answer
  | readBytes _ _ => seen
  | readString _ _ => String.ofList (Utf8.decodeLossy seen)
  | readValue t _ => t.decode seen
  | readValues t _ count => decodeArray t count seen
  | read _ _ | write _ _ | writeString _ _ | writeValue _ _ _ | writeValues _ _ _ => ()

/-- The buffer when some bytes have been read. -/
def filled (seen : List UInt8) : Access → List UInt8
  | read _ _ => seen
  | _ => []

variable {a : Access}

/-- What an access does that is allowed. -/
def granted (m : Memory) (a : Access) : Except Error a.Answer × Blocks :=
  let seen := m.slice a.offset a.length
  (.ok (a.answer seen), ⟨m.copyIn a.offset a.bytes, a.filled seen⟩)

/-- What an access does that is not allowed. -/
def refused (m : Memory) (a : Access) : Except Error a.Answer × Blocks :=
  (.error .invalidMemoryAccess, ⟨m, a.buffer⟩)

theorem length_bytes (writes : a.isRead = false) : a.bytes.length = a.length := by
  cases a with
  | write | writeString => rfl
  | writeValue t off v => exact t.length_encode v
  | writeValues t off values => exact length_flatMap_encode t values
  | _ => contradiction

theorem bytes_of_read (reads : a.isRead = true) : a.bytes = [] := by
  cases a with
  | write | writeString | writeValue | writeValues => contradiction
  | _ => rfl

/-- An access reads or writes all its bytes, or none. -/
theorem perform_eq (word : m.size < addressCount) (a : Access) :
    a.perform m = if m.Within a.offset a.length then a.granted m else a.refused m := by
  cases a with
  | readBytes off count =>
    change _ = if m.Within off count then _ else _
    simp only [perform, readBytes_eq word]
    split <;> rfl
  | read off buffer =>
    change _ = if m.Within off buffer.length then _ else _
    simp only [perform, Memory.read, readBytes_eq word]
    by_cases inside : m.Within off buffer.length
    · simp only [if_pos inside]
      rfl
    · simp only [if_neg inside]
      rfl
  | readString off count =>
    change _ = if m.Within off count then _ else _
    simp only [perform, Memory.readString, readBytes_eq word]
    split <;> rfl
  | readValue t off =>
    change _ = if m.Within off t.size then _ else _
    simp only [perform, readValue_eq word]
    split <;> rfl
  | readValues t off count =>
    change _ = if m.Within off (count * t.size) then _ else _
    simp only [perform, readValues_eq word]
    split <;> rfl
  | write off bytes =>
    change _ = if m.Within off bytes.length then _ else _
    simp only [perform, write_eq word]
    split <;> rfl
  | writeString off text =>
    change _ = if m.Within off (Utf8.encode text.toList).length then _ else _
    simp only [perform, Memory.writeString, write_eq word]
    split <;> rfl
  | writeValue t off value =>
    change _ = if m.Within off t.size then _ else _
    simp only [perform, writeValue_eq word]
    split <;> rfl
  | writeValues t off values =>
    change _ = if m.Within off (values.length * t.size) then _ else _
    simp only [perform, writeValues_eq word]
    split <;> rfl

end Access
end WasmBinding.Memory
