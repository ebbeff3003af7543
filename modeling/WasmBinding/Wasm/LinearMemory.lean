import WasmBinding.Memory
import WasmBinding.Wasm.Module

/-! Linear memory: a block of bytes counted in pages, which may grow up to a bound. -/

namespace WasmBinding.Wasm

def pageSize : Nat := 65536

/-- The number of pages that addresses of 32 bits reach. -/
def pageBound : Nat := 65536

structure LinearMemory where
  bytes : Memory
  max : Option Nat

namespace LinearMemory

def ofLimits (l : Limits) : LinearMemory := ⟨.zeros (l.min * pageSize), l.max⟩

def pages (m : LinearMemory) : Nat := m.bytes.size / pageSize

/-- Adds pages of zeros, unless the bound forbids it. -/
def grow? (m : LinearMemory) (count : Nat) : Option LinearMemory :=
  if m.pages + count ≤ min (m.max.getD pageBound) pageBound then
    some { m with bytes := m.bytes.extend (count * pageSize) }
  else none

/-- Whether the memory may stand for one that is imported with the given limits. -/
def satisfies (m : LinearMemory) (l : Limits) : Bool :=
  l.min ≤ m.pages && l.max.all fun bound => m.max.any fun own => own ≤ bound

end LinearMemory
end WasmBinding.Wasm
