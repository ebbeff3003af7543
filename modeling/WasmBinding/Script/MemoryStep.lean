import WasmBinding.Memory.View

/-! Accesses to memory given as data. Numbers and values in them may be taken from the arguments of the
function that makes the accesses. -/

namespace WasmBinding.Script

/-- A slot, written out or that of an argument. -/
inductive Operand where
  | given (s : Slot)
  | argument (index : Nat)
  deriving DecidableEq, Repr

namespace Operand

def eval (slots : List Slot) : Operand → Slot
  | given s => s
  | argument index => slots.getD index 0

end Operand

inductive MemoryStep where
  | length
  | isEmpty
  | runs
  | valid (off count : Operand)
  | readBytes (off count : Operand)
  | read (off count : Operand)
  | readString (off count : Operand)
  | readValue (type : ScalarType) (off : Operand)
  | readValues (type : ScalarType) (off count : Operand)
  | write (off : Operand) (bytes : List UInt8)
  | writeString (off : Operand) (text : String)
  | writeValue (type : ScalarType) (off value : Operand)
  | writeValues (type : ScalarType) (off : Operand) (values : List Operand)
  deriving DecidableEq, Repr

inductive MemoryAnswer where
  | length (n : Nat)
  | bool (b : Bool)
  | runs (runs : List (Nat × List UInt8))
  | bytes (bytes : List UInt8)
  /-- Whether a buffer could be filled, and the buffer. -/
  | filled (outcome : Except Error Unit) (buffer : List UInt8)
  | text (s : String)
  | value (v : Scalar)
  | values (type : ScalarType) (vs : List type.Carrier)
  | written
  | failed (e : Error)

namespace MemoryAnswer

/-- Whether the access failed; filling a buffer does not count. -/
def isFailure : MemoryAnswer → Bool
  | failed _ => true
  | _ => false

def number : MemoryAnswer → Slot
  | length n => BitVec.ofNat 64 n
  | bool b => if b then 1 else 0
  | bytes bs => BitVec.ofNat 64 (bs.foldl (fun total b => total + b.toNat) 0)
  | text s => BitVec.ofNat 64 s.utf8ByteSize
  | value v => v.toSlot
  | values _ vs => BitVec.ofNat 64 vs.length
  | runs _ | filled (.ok _) _ | written => 1
  | filled (.error _) _ | failed _ => BitVec.allOnes 64

def ofExcept {α : Type} (answer : α → MemoryAnswer) : Except Error α → MemoryAnswer
  | .ok a => answer a
  | .error e => failed e

end MemoryAnswer

/-- What buffers hold before they are filled. -/
def filler : UInt8 := 0xaa

def afterWrite (m : Memory) (result : Except Error Memory)
    (size : ∀ after, result = .ok after → after.size = m.size) : m.After × MemoryAnswer :=
  match result, size with
  | .ok after, size => (⟨after, size after rfl⟩, .written)
  | .error e, _ => (.unchanged m, .failed e)

namespace MemoryStep

/-- Carries an access out, given the slots of the arguments. -/
def run (slots : List Slot) (m : Memory) (step : MemoryStep) : m.After × MemoryAnswer :=
  let number (o : Operand) : Nat := (o.eval slots).toNat
  match step with
  | .length => (.unchanged m, .length m.size)
  | .isEmpty => (.unchanged m, .bool m.isEmpty)
  | .runs => (.unchanged m, .runs m.runs)
  | .valid off count => (.unchanged m, .bool (m.valid (number off) (number count)))
  | .readBytes off count => (.unchanged m, .ofExcept .bytes (m.readBytes (number off) (number count)))
  | .read off count =>
    let (outcome, buffer) := m.read (number off) (List.replicate (number count) filler)
    (.unchanged m, .filled outcome buffer)
  | .readString off count => (.unchanged m, .ofExcept .text (m.readString (number off) (number count)))
  | .readValue type off => (.unchanged m, .ofExcept (fun v => .value ⟨type, v⟩) (m.readValue type (number off)))
  | .readValues type off count =>
    (.unchanged m, .ofExcept (.values type) (m.readValues type (number off) (number count)))
  | .write off bytes => afterWrite m (m.write (number off) bytes) fun _ h => Memory.size_write h
  | .writeString off text =>
    afterWrite m (m.writeString (number off) text) fun _ h => Memory.size_write h
  | .writeValue type off value =>
    afterWrite m (m.writeValue type (number off) (type.ofSlot (value.eval slots)))
      fun _ h => Memory.size_writeValues h
  | .writeValues type off values =>
    afterWrite m (m.writeValues type (number off) (values.map fun v => type.ofSlot (v.eval slots)))
      fun _ h => Memory.size_writeValues h

def runAll (slots : List Slot) (m : Memory) : List MemoryStep → m.After × List MemoryAnswer
  | [] => (.unchanged m, [])
  | step :: rest =>
    let (first, answer) := step.run slots m
    let (last, answers) := runAll slots first.val rest
    (⟨last.val, last.property.trans first.property⟩, answer :: answers)

end MemoryStep
end WasmBinding.Script
