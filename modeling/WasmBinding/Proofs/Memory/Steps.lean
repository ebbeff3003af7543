import WasmBinding.Proofs.Memory.Access

/-! Accesses step by step. Not every step can be taken: a sum may be no address, bytes may be asked for that a block does
not have, and bytes may be copied to a place of another length. No access comes to such a step, and none writes anything
before it is known to be allowed. -/

namespace WasmBinding

/-- Why a step cannot be taken. -/
inductive Mishap where
  | overflow
  | outside
  | mismatch
  /-- Pieces of a block have to have bytes. -/
  | emptyPieces
  deriving DecidableEq, Repr

/-- A course of steps. One that ends with an error leaves the blocks as they are by then. -/
abbrev Steps : Type → Type := ExceptT Error (StateT Memory.Blocks (Except Mishap))

namespace Steps

open Memory (Blocks addressCount)

variable {α β : Type}

def run (x : Steps α) (s : Blocks) : Except Mishap (Except Error α × Blocks) := (ExceptT.run x).run s

def stop (why : Mishap) : Steps α := ExceptT.mk fun _ => .error why

def memory : Steps Memory := return (← get).memory

def sum (a b : Nat) : Steps Nat := if a + b < addressCount then return a + b else stop .overflow

/-- The bytes of the memory from one address to another. -/
def borrow (first last : Nat) : Steps (List UInt8) := do
  let m ← memory
  if first ≤ last ∧ last ≤ m.size then return m.slice first (last - first) else stop .outside

def overwrite (first last : Nat) (bytes : List UInt8) : Steps Unit := do
  let place ← borrow first last
  if bytes.length = place.length then modify fun s => { s with memory := s.memory.copyIn first bytes } else stop .mismatch

def fill (bytes : List UInt8) : Steps Unit := do
  if bytes.length = (← get).buffer.length then modify fun s => { s with buffer := bytes } else stop .mismatch

/-- Where an access begins and ends that is allowed. -/
def range (off count : Nat) : Steps (Nat × Nat) := do
  if (← memory).valid off count then return (off, ← sum off count) else throw .invalidMemoryAccess

def lengthOf (t : ScalarType) (count : Nat) : Steps Nat :=
  match Memory.arrayLength t count with
  | .ok length => return length
  | .error e => throw e

/-- Where the pieces of a size begin, without what is left over. -/
def pieces (size first last : Nat) : Steps (List Nat) :=
  if size = 0 then stop .emptyPieces else return (List.range ((last - first) / size)).map fun i => first + i * size

def load (t : ScalarType) (bytes : List UInt8) : Steps t.Carrier :=
  match t.decode? bytes with
  | some value => return value
  | none => stop .mismatch

def store (t : ScalarType) (place : Nat) (value : t.Carrier) : Steps Unit := do
  match t.fill? value (← borrow place (place + t.size)) with
  | some bytes => overwrite place (place + t.size) bytes
  | none => stop .mismatch

def readBytes (off count : Nat) : Steps (List UInt8) := do
  let (first, last) ← range off count
  borrow first last

def write (off : Nat) (bytes : List UInt8) : Steps Unit := do
  let (first, last) ← range off bytes.length
  overwrite first last bytes

def loadAll (t : ScalarType) (bytes : List UInt8) : List Nat → Steps (List t.Carrier)
  | [] => return []
  | place :: rest => do
    let value ← load t ((bytes.drop place).take t.size)
    return value :: (← loadAll t bytes rest)

/-- Stores values at places as long as there are both. -/
def storeAll (t : ScalarType) : List Nat → List t.Carrier → Steps Unit
  | place :: places, value :: values => do
    store t place value
    storeAll t places values
  | _, _ => return ()

def readValues (t : ScalarType) (off count : Nat) : Steps (List t.Carrier) := do
  let bytes ← readBytes off (← lengthOf t count)
  loadAll t bytes (← pieces t.size 0 bytes.length)

def writeValues (t : ScalarType) (off : Nat) (values : List t.Carrier) : Steps Unit := do
  let (first, last) ← range off (← lengthOf t values.length)
  let _ ← borrow first last
  storeAll t (← pieces t.size first last) values

end Steps

/-- An access as the steps that it takes. -/
def Memory.Access.steps : (a : Memory.Access) → Steps a.Answer
  | readBytes off count => Steps.readBytes off count
  | read off _ => do Steps.fill (← Steps.readBytes off (← get).buffer.length)
  | readString off count => return String.ofList (Utf8.decodeLossy (← Steps.readBytes off count))
  | readValue t off => do Steps.load t (← Steps.readBytes off t.size)
  | readValues t off count => Steps.readValues t off count
  | write off bytes => Steps.write off bytes
  | writeString off text => Steps.write off (Utf8.encode text.toList)
  | writeValue t off value => Steps.writeValues t off [value]
  | writeValues t off values => Steps.writeValues t off values

namespace Steps

open Memory (Blocks addressCount)

variable {α β : Type} {x : Steps α} {s s' : Blocks} {m : Memory} {buffer : List UInt8}

theorem run_bind_ok (h : x.run s = .ok (.ok a, s')) (next : α → Steps β) : (x >>= next).run s = (next a).run s' := by
  simp only [run, ExceptT.run_bind, StateT.run_bind] at h ⊢
  rw [h]
  rfl

theorem run_bind_error (h : x.run s = .ok (.error e, s')) (next : α → Steps β) :
    (x >>= next).run s = .ok (.error e, s') := by
  simp only [run, ExceptT.run_bind, StateT.run_bind] at h ⊢
  rw [h]
  rfl

theorem run_memory (s : Blocks) : memory.run s = .ok (.ok s.memory, s) := rfl

theorem run_get (s : Blocks) : (get : Steps Blocks).run s = .ok (.ok s, s) := rfl

theorem run_fill (fits : bytes.length = buffer.length) :
    (fill bytes).run ⟨m, buffer⟩ = .ok (.ok (), ⟨m, bytes⟩) := by
  rw [fill, run_bind_ok (run_get _), if_pos fits]
  rfl

theorem range_within (word : m.size < addressCount) (inside : m.Within off count) :
    (range off count).run ⟨m, buffer⟩ = .ok (.ok (off, off + count), ⟨m, buffer⟩) := by
  have address : off + count < addressCount := Nat.lt_of_le_of_lt inside.2 word
  rw [range, run_bind_ok (run_memory _), if_pos ((Memory.valid_iff word).mpr inside), sum, if_pos address]
  rfl

theorem range_outside (word : m.size < addressCount) (outside : ¬ m.Within off count) :
    (range off count).run ⟨m, buffer⟩ = .ok (.error .invalidMemoryAccess, ⟨m, buffer⟩) := by
  rw [range, run_bind_ok (run_memory _), if_neg fun valid => outside ((Memory.valid_iff word).mp valid)]
  rfl

theorem run_borrow (order : first ≤ last) (bound : last ≤ m.size) :
    (borrow first last).run ⟨m, buffer⟩ = .ok (.ok (m.slice first (last - first)), ⟨m, buffer⟩) := by
  rw [borrow, run_bind_ok (run_memory _), if_pos ⟨order, bound⟩]
  rfl

theorem run_overwrite (order : first ≤ last) (bound : last ≤ m.size) (fits : bytes.length = last - first) :
    (overwrite first last bytes).run ⟨m, buffer⟩ = .ok (.ok (), ⟨m.copyIn first bytes, buffer⟩) := by
  rw [overwrite, run_bind_ok (run_borrow order bound), if_pos (by rw [Memory.length_slice, fits])]
  rfl

theorem readBytes_within (word : m.size < addressCount) (inside : m.Within off count) :
    (readBytes off count).run ⟨m, buffer⟩ = .ok (.ok (m.slice off count), ⟨m, buffer⟩) := by
  rw [readBytes, run_bind_ok (range_within word inside)]
  have borrowed : (borrow off (off + count)).run ⟨m, buffer⟩ = _ := run_borrow (Nat.le_add_right off count) inside.2
  rwa [Nat.add_sub_cancel_left] at borrowed

theorem readBytes_outside (word : m.size < addressCount) (outside : ¬ m.Within off count) :
    (readBytes off count).run ⟨m, buffer⟩ = .ok (.error .invalidMemoryAccess, ⟨m, buffer⟩) :=
  run_bind_error (range_outside word outside) _

theorem write_within (word : m.size < addressCount) (inside : m.Within off bytes.length) :
    (write off bytes).run ⟨m, buffer⟩ = .ok (.ok (), ⟨m.copyIn off bytes, buffer⟩) := by
  rw [write, run_bind_ok (range_within word inside)]
  exact run_overwrite (Nat.le_add_right off _) inside.2 (Nat.add_sub_cancel_left off _).symm

theorem write_outside (word : m.size < addressCount) (outside : ¬ m.Within off bytes.length) :
    (write off bytes).run ⟨m, buffer⟩ = .ok (.error .invalidMemoryAccess, ⟨m, buffer⟩) :=
  run_bind_error (range_outside word outside) _

theorem run_lengthOf (small : count * t.size < addressCount) (s : Blocks) :
    (lengthOf t count).run s = .ok (.ok (count * t.size), s) := by
  rw [lengthOf, Memory.arrayLength_of_lt small]
  rfl

theorem run_lengthOf_error (large : addressCount ≤ count * t.size) (s : Blocks) :
    (lengthOf t count).run s = .ok (.error .invalidMemoryAccess, s) := by
  rw [lengthOf, Memory.arrayLength_of_le large]
  rfl

/-- Where pieces of a size begin that lie one behind the other. -/
def starts (size first count : Nat) : List Nat := (List.range count).map fun i => first + i * size

theorem starts_succ (size first count : Nat) :
    starts size first (count + 1) = first :: starts size (first + size) count := by
  simp only [starts, List.range_succ_eq_map, List.map_cons, List.map_map, Nat.zero_mul, Nat.add_zero]
  congr 2
  funext i
  simp only [Function.comp, Nat.succ_mul]
  omega

theorem run_pieces (t : ScalarType) (first count : Nat) (s : Blocks) :
    (pieces t.size first (first + count * t.size)).run s = .ok (.ok (starts t.size first count), s) := by
  have whole : (first + count * t.size - first) / t.size = count := by
    rw [Nat.add_sub_cancel_left, Nat.mul_div_cancel count (Memory.size_pos t)]
  rw [pieces, if_neg (Nat.ne_of_gt (Memory.size_pos t)), whole]
  rfl

theorem run_load (exact : bytes.length = t.size) (s : Blocks) : (load t bytes).run s = .ok (.ok (t.decode bytes), s) := by
  rw [load, ScalarType.decode?, if_pos exact]
  rfl

theorem run_loadAll (enough : first + count * t.size ≤ bytes.length) (s : Blocks) :
    (loadAll t bytes (starts t.size first count)).run s =
      .ok (.ok (Memory.decodeArray t count (bytes.drop first)), s) := by
  induction count generalizing first with
  | zero => rfl
  | succ count ih =>
    rw [Nat.succ_mul] at enough
    have exact : ((bytes.drop first).take t.size).length = t.size := by
      rw [List.length_take, List.length_drop]
      omega
    have rest : (loadAll t bytes (starts t.size (first + t.size) count)).run s = _ := ih (by omega)
    rw [starts_succ, loadAll, run_bind_ok (run_load exact s), run_bind_ok rest, Memory.decodeArray, List.drop_drop]
    rfl

theorem run_store (fits : place + t.size ≤ m.size) (value : t.Carrier) :
    (store t place value).run ⟨m, buffer⟩ = .ok (.ok (), ⟨m.copyIn place (t.encode value), buffer⟩) := by
  have exact : (m.slice place (place + t.size - place)).length = t.size := by
    rw [Memory.length_slice, Nat.add_sub_cancel_left]
  rw [store, run_bind_ok (run_borrow (Nat.le_add_right place _) fits), ScalarType.fill?, if_pos exact]
  exact run_overwrite (Nat.le_add_right place _) fits (by rw [t.length_encode, Nat.add_sub_cancel_left])

/-- Values that are stored one behind the other are stored as one block of bytes. -/
theorem run_storeAll (values : List t.Carrier) (fits : first + values.length * t.size ≤ m.size) :
    (storeAll t (starts t.size first values.length) values).run ⟨m, buffer⟩ =
      .ok (.ok (), ⟨m.copyIn first (values.flatMap t.encode), buffer⟩) := by
  induction values generalizing first m with
  | nil => rfl
  | cons value rest ih =>
    rw [List.length_cons, Nat.succ_mul] at fits
    have fits' : first + t.size + rest.length * t.size ≤ (m.copyIn first (t.encode value)).size := by
      rw [Memory.size_copyIn]
      omega
    rw [List.length_cons, starts_succ, storeAll, run_bind_ok (run_store (by omega) value), ih fits', List.flatMap_cons,
      Memory.copyIn_append, t.length_encode]

theorem readValues_within (word : m.size < addressCount) (inside : m.Within off (count * t.size)) :
    (readValues t off count).run ⟨m, buffer⟩ =
      .ok (.ok (Memory.decodeArray t count (m.slice off (count * t.size))), ⟨m, buffer⟩) := by
  have small : count * t.size < addressCount := by
    have := inside.2
    omega
  have pieces := run_pieces t 0 count ⟨m, buffer⟩
  rw [Nat.zero_add, ← Memory.length_slice m off (count * t.size)] at pieces
  rw [readValues, run_bind_ok (run_lengthOf small _), run_bind_ok (readBytes_within word inside), run_bind_ok pieces,
    run_loadAll (by simp), List.drop_zero]

theorem readValues_outside (word : m.size < addressCount) (outside : ¬ m.Within off (count * t.size)) :
    (readValues t off count).run ⟨m, buffer⟩ = .ok (.error .invalidMemoryAccess, ⟨m, buffer⟩) := by
  by_cases small : count * t.size < addressCount
  · rw [readValues, run_bind_ok (run_lengthOf small _), run_bind_error (readBytes_outside word outside)]
  · rw [readValues, run_bind_error (run_lengthOf_error (Nat.le_of_not_lt small) _)]

theorem writeValues_within (word : m.size < addressCount) (values : List t.Carrier)
    (inside : m.Within off (values.length * t.size)) :
    (writeValues t off values).run ⟨m, buffer⟩ = .ok (.ok (), ⟨m.copyIn off (values.flatMap t.encode), buffer⟩) := by
  have small : values.length * t.size < addressCount := by
    have := inside.2
    omega
  rw [writeValues, run_bind_ok (run_lengthOf small _), run_bind_ok (range_within word inside),
    run_bind_ok (run_borrow (Nat.le_add_right off _) inside.2), run_bind_ok (run_pieces t off _ _)]
  exact run_storeAll values inside.2

/-- Nothing is written if the first of several values would have fitted, but not all do. -/
theorem writeValues_outside (word : m.size < addressCount) (values : List t.Carrier)
    (outside : ¬ m.Within off (values.length * t.size)) :
    (writeValues t off values).run ⟨m, buffer⟩ = .ok (.error .invalidMemoryAccess, ⟨m, buffer⟩) := by
  by_cases small : values.length * t.size < addressCount
  · rw [writeValues, run_bind_ok (run_lengthOf small _), run_bind_error (range_outside word outside)]
  · rw [writeValues, run_bind_error (run_lengthOf_error (Nat.le_of_not_lt small) _)]

end Steps

namespace Memory.Access

open Steps

variable {m : Memory} {a : Access}

theorem steps_within (word : m.size < addressCount) (inside : m.Within a.offset a.length) :
    a.steps.run ⟨m, a.buffer⟩ = .ok (a.granted m) := by
  cases a with
  | readBytes off count => exact readBytes_within word inside
  | read off buffer =>
    have inside : m.Within off buffer.length := inside
    rw [steps, run_bind_ok (run_get _)]
    exact (run_bind_ok (readBytes_within word inside) _).trans (run_fill (m.length_slice off buffer.length))
  | readString off count => exact run_bind_ok (readBytes_within word inside) _
  | readValue t off =>
    have inside : m.Within off t.size := inside
    rw [steps, run_bind_ok (readBytes_within word inside)]
    exact run_load (m.length_slice off t.size) _
  | readValues t off count => exact readValues_within word inside
  | write off bytes => exact write_within word inside
  | writeString off text => exact write_within word inside
  | writeValue t off value =>
    have inside : m.Within off t.size := inside
    have stored : (Steps.writeValues t off [value]).run ⟨m, []⟩ = _ :=
      writeValues_within word [value] (by rwa [List.length_singleton, Nat.one_mul])
    rwa [List.flatMap_singleton] at stored
  | writeValues t off values => exact writeValues_within word values inside

theorem steps_outside (word : m.size < addressCount) (outside : ¬ m.Within a.offset a.length) :
    a.steps.run ⟨m, a.buffer⟩ = .ok (a.refused m) := by
  cases a with
  | readBytes off count => exact readBytes_outside word outside
  | read off buffer =>
    have outside : ¬ m.Within off buffer.length := outside
    rw [steps, run_bind_ok (run_get _)]
    exact run_bind_error (readBytes_outside word outside) _
  | readString off count => exact run_bind_error (readBytes_outside word outside) _
  | readValue t off => exact run_bind_error (readBytes_outside word outside) _
  | readValues t off count => exact readValues_outside word outside
  | write off bytes => exact write_outside word outside
  | writeString off text => exact write_outside word outside
  | writeValue t off value =>
    have outside : ¬ m.Within off t.size := outside
    exact writeValues_outside word [value] (by rwa [List.length_singleton, Nat.one_mul])
  | writeValues t off values => exact writeValues_outside word values outside

/-- An access is allowed exactly if its bytes begin inside the memory and do not run past its end, in numbers that never wrap
around. Otherwise it fails, with the memory and the buffer as they were. Step by step it does the same, and comes to no
step that cannot be taken. -/
theorem allowed_iff_in_bounds (m : Memory) (word : m.size < addressCount) (a : Access) :
    a.steps.run ⟨m, a.buffer⟩ = .ok (a.perform m) ∧
    ((∃ answer, (a.perform m).1 = .ok answer) ↔ a.offset < m.size ∧ a.offset + a.length ≤ m.size) ∧
    ∀ e, (a.perform m).1 = .error e → e = .invalidMemoryAccess ∧ (a.perform m).2 = ⟨m, a.buffer⟩ := by
  rw [perform_eq word]
  by_cases inside : m.Within a.offset a.length
  · rw [if_pos inside]
    refine ⟨steps_within word inside, ⟨fun _ => inside, fun _ => ⟨_, rfl⟩⟩, fun e failed => ?_⟩
    contradiction
  · rw [if_neg inside]
    refine ⟨steps_outside word inside, ⟨?_, fun allowed => absurd allowed inside⟩, fun e failed => ?_⟩
    · rintro ⟨_, done⟩
      contradiction
    · cases failed
      exact ⟨rfl, rfl⟩

/-- Values that fit, values that do not, a size that is no address, and no bytes at the very end. -/
theorem allowed_iff_in_bounds_zeros :
    (zeros 8).size < addressCount ∧
    (∃ answer, ((writeValues .u32 0 [1, 2]).perform (zeros 8)).1 = .ok answer) ∧
    (¬ ∃ answer, ((writeValues .u32 4 [1, 2]).perform (zeros 8)).1 = .ok answer) ∧
    (¬ ∃ answer, ((readValues .u64 0 (addressCount - 1)).perform (zeros 8)).1 = .ok answer) ∧
    (¬ ∃ answer, ((readBytes 8 0).perform (zeros 8)).1 = .ok answer) ∧
    (readBytes 8 0).steps.run ⟨zeros 8, []⟩ = .ok ((readBytes 8 0).perform (zeros 8)) := by
  have word : (zeros 8).size < addressCount := by decide
  refine ⟨word, ?_, ?_, ?_, ?_, (allowed_iff_in_bounds (zeros 8) word (readBytes 8 0)).1⟩
  · exact (allowed_iff_in_bounds (zeros 8) word (writeValues .u32 0 [1, 2])).2.1.mpr (by decide)
  · exact mt (allowed_iff_in_bounds (zeros 8) word (writeValues .u32 4 [1, 2])).2.1.mp (by decide)
  · exact mt (allowed_iff_in_bounds (zeros 8) word (readValues .u64 0 (addressCount - 1))).2.1.mp (by decide)
  · exact mt (allowed_iff_in_bounds (zeros 8) word (readBytes 8 0)).2.1.mp (by decide)

end Memory.Access
end WasmBinding
