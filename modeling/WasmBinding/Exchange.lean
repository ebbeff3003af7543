import WasmBinding.Memory
import WasmBinding.Scalar

/-! What a host function works on: the slots of its results followed by those of its arguments, and the
memory of its caller. A host function changes their contents but not their lengths. -/

namespace WasmBinding

structure Exchange where
  stack : List Slot
  memory : Option Memory

namespace Exchange

/-- Two exchanges with as many slots, and memories of one length. -/
def SameShape (a b : Exchange) : Prop :=
  a.stack.length = b.stack.length ∧ a.memory.map Memory.size = b.memory.map Memory.size

theorem SameShape.refl (e : Exchange) : e.SameShape e := ⟨rfl, rfl⟩

theorem SameShape.trans {a b c : Exchange} (first : a.SameShape b) (second : b.SameShape c) :
    a.SameShape c :=
  ⟨first.1.trans second.1, first.2.trans second.2⟩

def setSlot (e : Exchange) (index : Nat) (s : Slot) : Exchange :=
  { e with stack := e.stack.set index s }

def setByte (e : Exchange) (address : Nat) (b : UInt8) : Exchange :=
  { e with memory := e.memory.map fun m => m.set address b }

theorem sameShape_setSlot (e : Exchange) (index : Nat) (s : Slot) : (e.setSlot index s).SameShape e := by
  simp [setSlot, SameShape]

theorem sameShape_setByte (e : Exchange) (address : Nat) (b : UInt8) :
    (e.setByte address b).SameShape e := by
  simp [setByte, SameShape, Function.comp_def]

end Exchange

/-- An exchange as a host function left it. -/
abbrev Exchange.After (e : Exchange) := { after : Exchange // after.SameShape e }

end WasmBinding
