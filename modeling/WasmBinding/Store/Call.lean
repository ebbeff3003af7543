import WasmBinding.Store.Load

/-! Using a store: calls, whose results stay until the next one, and access to the shared memory and to
globals. -/

namespace WasmBinding

open Wasm (Instance LinearMemory Value)

/-- The slots of the values in front of the first that no slot can hold. -/
def leadingSlots : List Value → List Slot
  | [] => []
  | v :: rest =>
    match v.toSlot? with
    | some slot => slot :: leadingSlots rest
    | none => []

/-- The values of arguments in slots, one for each parameter. -/
def Function.values (f : Function) (args : List Slot) : Except Fault (List Value) :=
  if args.length ≠ f.params.length then .error .argumentCount
  else
    match (args.zip f.params).mapM fun (slot, tag) => Value.ofSlot? slot tag with
    | some values => .ok values
    | none => .error .signatureMismatch

namespace Store

variable {σ : Type}

/-- Puts back what running code in a module has changed. -/
def commit (s : Store σ) (module : Nat) (state : Wasm.State σ) : Store σ :=
  { s.absorb state with modules := s.modules.modify module fun m => { m with inst := state.inst } }

/-- The memory that raw functions see when a function of an instance is called from outside. -/
def seenMemory (s : Store σ) (inst : Instance) (func : Nat) : Option Nat :=
  if func < inst.module.importedFuncs.length then s.memory
  else (inst.exportedMemory? "memory").or s.memory

/-- How calls of the imports of a module are answered while one of its functions, called from outside, runs. -/
def hostCall (s : Store σ) (m : LoadedModule) (func : Nat) : Wasm.HostCall σ :=
  dispatch s.imports m.stubs s.userData (s.seenMemory m.inst func)

def run (s : Store σ) (f : Function) (args : List Value) : Store σ × Except Fault (List Value) :=
  match s.modules[f.module]? with
  | none => (s, .error .moduleRange)
  | some m =>
    match (s.stateOf m).call (s.hostCall m f.index) s.budget f.index args with
    | (state, .ok results) => (s.commit f.module state, .ok results)
    | (state, .error cause) => (s.commit f.module state, .error (.ofAbort cause))

/-- Calls a function with one slot for each parameter. The results that come before one that no slot can
hold are kept although the call fails. -/
def call (s : Store σ) (f : Function) (args : List Slot) : Store σ × Except Fault Unit :=
  let s := { s with results := [] }
  match f.values args with
  | .error fault => (s, .error fault)
  | .ok values =>
    match s.run f values with
    | (s, .error fault) => (s, .error fault)
    | (s, .ok results) =>
      let s := { s with results := leadingSlots results }
      if s.results.length = results.length then (s, .ok ()) else (s, .error .signatureMismatch)

/-- The results of the latest call, which has to have left as many as are asked for. -/
def getResults (s : Store σ) (f : Function) (count : Nat) : Except Fault (List Slot) :=
  if count = f.results.length ∧ s.results.length = count then .ok s.results else .error .argumentCount

def memory? (s : Store σ) : Option Memory := bytesAt s.memories s.memory

def setMemory (s : Store σ) (bytes : Memory) : Store σ :=
  { s with memories := writeBack s.memories s.memory (some bytes) }

/-- Grows the shared memory to a number of pages, or the one to come. -/
def resize (s : Store σ) (pages : Nat) : Except Fault (Store σ) :=
  match s.memory with
  | none =>
    match s.pending.filter (pages < ·) with
    | some earlier => .error (.shrink earlier pages)
    | none => .ok { s with pending := some pages }
  | some place =>
    match s.memories[place]? with
    | none => .ok s
    | some m => do return { s with memories := s.memories.setIfInBounds place (← growTo m pages) }

def getGlobal (s : Store σ) (g : GlobalCell) : Except Fault Slot :=
  match (s.modules[g.module]?.bind (·.inst.globals[g.index]?)).bind Value.toSlot? with
  | some slot => .ok slot
  | none => .error .globalType

/-- Sets a global to the value of a type in a slot. -/
def setGlobal (s : Store σ) (g : GlobalCell) (tag : ValueTag) (slot : Slot) : Except Fault (Store σ) :=
  if !g.mutable then .error .immutableGlobal
  else if tag ≠ g.type then .error .globalType
  else
    match Value.ofSlot? slot tag with
    | none => .error .globalType
    | some v => .ok { s with modules := s.modules.modify g.module fun m =>
        { m with inst := { m.inst with globals := m.inst.globals.setIfInBounds g.index v } } }

end Store
end WasmBinding
