import WasmBinding.Host.Function
import WasmBinding.Store.Import

/-! The host functions that are linked, by the import they stand for, and the one raw function through
which all of them are called. -/

namespace WasmBinding

structure ImportName where
  module : Nat
  ns : String
  name : String
  deriving DecidableEq, Repr

/-- Linked functions in the order in which their imports were first linked; the position is the key. -/
structure Registry (σ : Type) where
  entries : List (ImportName × HostFunction σ) := []

namespace Registry

variable {σ : Type}

def size (r : Registry σ) : Nat := r.entries.length

def key? (r : Registry σ) (i : ImportName) : Option Nat := r.entries.findIdx? fun e => e.1 == i

/-- The key that an import has, or gets. -/
def keyFor (r : Registry σ) (i : ImportName) : Nat := (r.key? i).getD r.size

def get? (r : Registry σ) (key : Nat) : Option (HostFunction σ) := r.entries[key]?.map (·.2)

/-- Makes a function stand for an import, in place of the one that did. -/
def set (r : Registry σ) (i : ImportName) (f : HostFunction σ) : Registry σ :=
  match r.key? i with
  | some key => { entries := r.entries.set key (i, f) }
  | none => { entries := r.entries ++ [(i, f)] }

/-- The number that stands for a key in a call; zero stands for none. -/
def contextOfKey (key : Nat) : Nat := key + 1

def keyOfContext? : Nat → Option Nat
  | 0 => none
  | key + 1 => some key

end Registry

structure Linked (σ : Type) where
  registry : Registry σ := {}
  user : σ

namespace HostFunction

/-- The function as the engine calls it. Whatever goes wrong, the caller sees the same trap. -/
def raw {σ : Type} (f : HostFunction σ) : RawFunction (Linked σ) := fun call host =>
  let (outcome, after, user) := f.apply call.exchange host.user
  ⟨after, { host with user := user }, if outcome = .done then none else some unreachable⟩

end HostFunction

/-- The linked function that a call with a context is for. -/
def Registry.called? {σ : Type} (r : Registry σ) (context : Nat) : Option (HostFunction σ) :=
  (keyOfContext? context).bind r.get?

def callLinked {σ : Type} : RawFunction (Linked σ) := fun call host =>
  match host.registry.called? call.context with
  | none => ⟨⟨call.exchange, .refl call.exchange⟩, host, some unreachable⟩
  | some f => f.raw call host

end WasmBinding
