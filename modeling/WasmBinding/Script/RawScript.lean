import WasmBinding.Store.Import
import WasmBinding.Text.Utf8

/-! Raw functions given as data. They keep a journal of their calls. -/

namespace WasmBinding.Script

structure RawEntry where
  userData : Nat
  context : Nat
  stack : List Slot
  memorySize : Option Nat
  deriving DecidableEq, Repr

/-- What a raw function does, in this order. -/
structure RawScript where
  /-- Slots to write, with their positions. -/
  writes : List (Nat × Slot) := []
  /-- Positions of a slot to copy to, and from. -/
  copy : Option (Nat × Nat) := none
  /-- An address and a byte to write there. -/
  poke : Option (Nat × UInt8) := none
  /-- The message with which it fails, up to its first zero. -/
  trap : Option (List UInt8) := none
  deriving DecidableEq, Repr

namespace RawScript

def write (e : Exchange) : List (Nat × Slot) → e.After
  | [] => ⟨e, .refl e⟩
  | (index, slot) :: rest =>
    let after := write (e.setSlot index slot) rest
    ⟨after.val, after.property.trans (e.sameShape_setSlot index slot)⟩

def copySlot (e : Exchange) : Option (Nat × Nat) → e.After
  | none => ⟨e, .refl e⟩
  | some (target, source) => ⟨_, e.sameShape_setSlot target (e.stack.getD source 0)⟩

def pokeByte (e : Exchange) : Option (Nat × UInt8) → e.After
  | none => ⟨e, .refl e⟩
  | some (address, b) => ⟨_, e.sameShape_setByte address b⟩

def message (bytes : List UInt8) : String :=
  String.ofList (Utf8.decodeLossy (bytes.takeWhile (· ≠ 0)))

def function (s : RawScript) : RawFunction (List RawEntry) := fun call journal =>
  let written := write call.exchange s.writes
  let copied := copySlot written.val s.copy
  let poked := pokeByte copied.val s.poke
  { exchange := ⟨poked.val, poked.property.trans (copied.property.trans written.property)⟩
    host := journal ++
      [⟨call.userData, call.context, call.exchange.stack, call.exchange.memory.map Memory.size⟩]
    trap := s.trap.map message }

end RawScript
end WasmBinding.Script
