import WasmBinding.Exchange
import WasmBinding.Fault
import WasmBinding.Signature
import WasmBinding.Wasm.Machine

/-! Function imports and the raw functions that stand behind them. An import may be called as soon as it
has a target; which one is looked up at every call. -/

namespace WasmBinding

open Wasm (LinearMemory Trap Value HostCall)

/-- A call of a raw function. The two numbers are given by whoever made the store and the link. -/
structure RawCall where
  userData : Nat
  context : Nat
  exchange : Exchange

/-- What a raw function answers; a message means that the call failed. -/
structure RawReply (σ : Type) (e : Exchange) where
  exchange : e.After
  host : σ
  trap : Option String

/-- A function of the embedder, whose own state is `σ`. -/
abbrev RawFunction (σ : Type) := (call : RawCall) → σ → RawReply σ call.exchange

structure Target (σ : Type) where
  context : Nat
  function : RawFunction σ

structure ImportSlot (σ : Type) where
  module : Nat
  ns : String
  name : String
  params : List ValueTag
  results : List ValueTag
  target : Option (Target σ)

/-- What instantiation binds a function import to: the slot that calls of it go through, and the types by which
its results are read. -/
structure Stub where
  slot : Nat
  results : List ValueTag
  deriving DecidableEq, Repr

/-- The words for a call that the boundary cannot carry. -/
def unreachable : String := Trap.unreachable.message

namespace ImportSlot

variable {σ : Type}

def unlinked (module : Nat) (i : Wasm.Import) (type : Wasm.FuncType) : ImportSlot σ :=
  ⟨module, i.ns, i.name, type.params.map (·.tag), type.results.map (·.tag), none⟩

def isFor (slot : ImportSlot σ) (module : Nat) (ns name : String) : Bool :=
  slot.module == module && slot.ns == ns && slot.name == name

def hasSignature (slot : ImportSlot σ) (s : Signature) : Bool :=
  s.params == slot.params && s.result.toList == slot.results

end ImportSlot

def bytesAt (memories : Array LinearMemory) (place : Option Nat) : Option Memory :=
  (place.bind (memories[·]?)).map (·.bytes)

/-- Overwrites the memory at a place, if there are both. -/
def writeBack (memories : Array LinearMemory) : (place : Option Nat) → Option Memory → Array LinearMemory
  | some place, some bytes => memories.modify place fun m => { m with bytes := bytes }
  | _, _ => memories

namespace Target

variable {σ : Type}

/-- Calls the function on a stack with room for the results in front of the arguments. It sees the memory at
the given place. -/
def answer (target : Target σ) (resultTypes : List ValueTag) (userData : Nat) (memory : Option Nat)
    (args : List Value) (memories : Array LinearMemory) (host : σ) : Wasm.HostReply σ :=
  match args.mapM Value.toSlot? with
  | none => ⟨memories, host, .error unreachable⟩
  | some argSlots =>
    let exchange : Exchange :=
      { stack := List.replicate resultTypes.length 0 ++ argSlots
        memory := bytesAt memories memory }
    let reply := target.function ⟨userData, target.context, exchange⟩ host
    let memories := writeBack memories memory reply.exchange.val.memory
    match reply.trap with
    | some message => ⟨memories, reply.host, .error message⟩
    | none =>
      match (reply.exchange.val.stack.zip resultTypes).mapM fun (s, tag) => Value.ofSlot? s tag with
      | some results => ⟨memories, reply.host, .ok results⟩
      | none => ⟨memories, reply.host, .error unreachable⟩

end Target

/-- Answers calls of imports through their stubs. The target is the one that the slot has at the time of the
call; the `memory` at the given place is the one that it sees. -/
def dispatch {σ : Type} (slots : List (ImportSlot σ)) (stubs : List Stub) (userData : Nat)
    (memory : Option Nat) : HostCall σ :=
  fun index args memories host =>
    match stubs[index]?, stubs[index]?.bind fun stub => slots[stub.slot]?.bind ImportSlot.target with
    | some stub, some target => target.answer stub.results userData memory args memories host
    | _, _ => ⟨memories, host, .error Fault.importMissing.message⟩

end WasmBinding
