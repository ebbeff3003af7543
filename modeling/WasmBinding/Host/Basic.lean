import WasmBinding.Host.Registry
import WasmBinding.Memory.View
import WasmBinding.Store.Call

/-! A host: a store together with the typed functions linked into it and the binaries loaded into it. Every
handle names the host it came from and is refused by every other. -/

namespace WasmBinding

open Wasm (Bytes)

structure Host (σ : Type) where
  id : Nat
  store : Store (Linked σ)
  /-- The binaries of the loaded modules. -/
  binaries : List Bytes := []

structure ModuleRef where
  host : Nat
  index : Nat
  deriving DecidableEq, Repr

structure FunctionRef where
  host : Nat
  function : Function
  deriving DecidableEq, Repr

/-- A global that is read and written as a type, which may be the wrong one. -/
structure GlobalRef (type : ScalarType) where
  host : Nat
  cell : GlobalCell
  deriving DecidableEq, Repr

namespace FunctionRef

def paramType (f : FunctionRef) (index : Nat) : Option ValueTag := f.function.params[index]?

def resultType (f : FunctionRef) (index : Nat) : Option ValueTag := f.function.results[index]?

end FunctionRef

namespace GlobalRef

def describe {type : ScalarType} (g : GlobalRef type) : String :=
  "Global \x7b ty: " ++ g.cell.type.name ++ ", mutable: " ++ toString g.cell.mutable ++ " \x7d"

end GlobalRef

def orError {α : Type} : Except Fault α → Except Error α
  | .ok a => .ok a
  | .error fault => .error (.ofFault fault)

namespace Host

variable {σ : Type}

def new (id : Nat) (e : Environment) (stackSize : Nat) (user : σ) : Except Error (Host σ) := do
  let store ← orError (Store.new e stackSize 0 { user := user : Linked σ })
  return { id := id, store := store }

def environment (h : Host σ) : Environment := h.store.environment

def stackSize (h : Host σ) : Nat := h.store.stackSize

def registry (h : Host σ) : Registry σ := h.store.host.registry

def user (h : Host σ) : σ := h.store.host.user

def setUser (h : Host σ) (user : σ) : Host σ :=
  { h with store := { h.store with host := { h.store.host with user := user } } }

def describe (h : Host σ) : String :=
  "Runtime \x7b id: " ++ toString h.id ++ ", stack_size: " ++ toString h.stackSize ++
    ", modules: " ++ toString h.binaries.length ++
    ", linked_functions: " ++ toString h.registry.size ++ " \x7d"

/-- Loads a module, which has to come from the environment of the host. -/
def load (h : Host σ) (p : ParsedModule) : Host σ × Except Error ModuleRef :=
  if !p.environment.same h.environment then (h, .error .mismatchedEnvironments)
  else
    match h.store.load p with
    | (store, .ok index) =>
      ({ h with store := store, binaries := h.binaries ++ [p.bytes] }, .ok ⟨h.id, index⟩)
    | (store, .error fault) => ({ h with store := store }, .error (.ofFault fault))

def parseAndLoad (h : Host σ) (bytes : Bytes) : Host σ × Except Error ModuleRef :=
  match ParsedModule.parse h.environment bytes with
  | .ok p => h.load p
  | .error fault => (h, .error (.ofFault fault))

def modules (h : Host σ) : List ModuleRef :=
  (List.range h.store.modules.length).map (⟨h.id, ·⟩)

def findModule (h : Host σ) (name : String) : Option ModuleRef :=
  (h.store.findModule name).map (⟨h.id, ·⟩)

/-- Refuses a handle of another host. -/
def own (h : Host σ) (owner : Nat) : Except Error Unit :=
  if owner = h.id then .ok () else .error .foreignHandle

def moduleName (h : Host σ) (m : ModuleRef) : Except Error (Option String) := do
  h.own m.host
  return h.store.moduleName m.index

def functionRef (h : Host σ) : Option Function → Except Error FunctionRef
  | some f => .ok ⟨h.id, f⟩
  | none => .error .missingFunction

def findFunction (h : Host σ) (name : String) : Except Error FunctionRef := do
  h.functionRef (← orError (h.store.findFunction name))

def findModuleFunction (h : Host σ) (m : ModuleRef) (name : String) : Except Error FunctionRef := do
  h.own m.host
  h.functionRef (← orError (h.store.findModuleFunction m.index name))

def findGlobal (h : Host σ) (m : ModuleRef) (name : String) (type : ScalarType) :
    Except Error (Option (GlobalRef type)) := do
  h.own m.host
  return (← orError (h.store.findGlobal m.index name)).map (⟨h.id, ·⟩)

/-- Links a function to an import, which has to have exactly its type. -/
def link (h : Host σ) (m : ModuleRef) (ns name : String) (f : HostFunction σ) :
    Except Error (Host σ) := do
  h.own m.host
  let slot ← orError (h.store.findImport m.index ns name f.signature)
  let i : ImportName := ⟨m.index, ns, name⟩
  let target : Target (Linked σ) := ⟨Registry.contextOfKey (h.registry.keyFor i), callLinked⟩
  let host := { h.store.host with registry := h.registry.set i f }
  return { h with store := { h.store.setTarget slot target with host := host } }

/-- Refuses a foreign function, and arguments of other types than the parameters. -/
def checkCall (h : Host σ) (f : FunctionRef) (args : List Scalar) : Except Error Unit := do
  h.own f.host
  if args.map (·.type.tag) = f.function.params then .ok () else .error .invalidSignature

def call (h : Host σ) (f : FunctionRef) (args : List Scalar) : Host σ × Except Error Unit :=
  match h.checkCall f args with
  | .error e => (h, .error e)
  | .ok () =>
    let (store, outcome) := h.store.call f.function (args.map Scalar.toSlot)
    ({ h with store := store }, orError outcome)

/-- Calls a function and reads its only result, whose type is checked before anything else. -/
def callFor (h : Host σ) (f : FunctionRef) (type : ScalarType) (args : List Scalar) :
    Host σ × Except Error type.Carrier :=
  if f.function.results ≠ [type.tag] then (h, .error .invalidSignature)
  else
    match h.call f args with
    | (h, .error e) => (h, .error e)
    | (h, .ok ()) =>
      match orError (h.store.getResults f.function 1) with
      | .error e => (h, .error e)
      | .ok results =>
        match results.head? with
        | some slot => (h, .ok (type.ofSlot slot))
        | none => (h, .error .allocationFailed)

def checkType {type : ScalarType} (g : GlobalRef type) : Except Error Unit :=
  if g.cell.type = type.tag then .ok () else .error .invalidSignature

def value {type : ScalarType} (h : Host σ) (g : GlobalRef type) : Except Error type.Carrier := do
  h.own g.host
  checkType g
  return type.ofSlot (← orError (h.store.getGlobal g.cell))

def setValue {type : ScalarType} (h : Host σ) (g : GlobalRef type) (v : type.Carrier) :
    Except Error (Host σ) := do
  h.own g.host
  checkType g
  return { h with store := ← orError (h.store.setGlobal g.cell type.tag (type.toSlot v)) }

def memory (h : Host σ) : Except Error Memory :=
  match h.store.memory? with
  | some m => .ok m
  | none => .error .invalidMemoryAccess

/-- Puts back a memory that was written to. -/
def setMemory (h : Host σ) (m : Memory) : Host σ := { h with store := h.store.setMemory m }

def resize (h : Host σ) (pages : Nat) : Except Error (Host σ) := do
  return { h with store := ← orError (h.store.resize pages) }

end Host
end WasmBinding
