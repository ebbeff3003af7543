import WasmBinding.ParsedModule
import WasmBinding.Store.Import
import WasmBinding.Wasm.Instantiate

/-! A store: loaded modules, their function imports and one linear memory that all of them share. Modules,
functions, imports and globals are named by handles, which mean something in their own store only. -/

namespace WasmBinding

open Wasm (Instance LinearMemory Value)

structure LoadedModule where
  inst : Instance
  stubs : List Stub

structure Store (σ : Type) where
  environment : Environment
  stackSize : Nat
  /-- A number that every raw function is called with. -/
  userData : Nat
  host : σ
  /-- How many instructions a call may execute. -/
  steps : Nat := 0x1000000000000
  memories : Array LinearMemory := #[]
  /-- Where the shared memory lies among the memories. -/
  memory : Option Nat := none
  imports : List (ImportSlot σ) := []
  modules : List LoadedModule := []
  results : List Slot := []
  /-- The size in pages that was asked for before there was a memory. -/
  pending : Option Nat := none

/-- A function of a loaded module, exported under some name. -/
structure Function where
  module : Nat
  index : Nat
  params : List ValueTag
  results : List ValueTag
  deriving DecidableEq, Repr

structure GlobalCell where
  module : Nat
  index : Nat
  type : ValueTag
  mutable : Bool
  deriving DecidableEq, Repr

namespace LoadedModule

def name (m : LoadedModule) : Option String := m.inst.module.name

/-- The global exported under a name, or else the first one imported under it. -/
def globalIndex? (m : LoadedModule) (name : String) : Option Nat :=
  match (m.inst.module.export? name).filter fun e => e.kind == .global with
  | some e => some e.index
  | none => m.inst.module.importedGlobalNames.findIdx? (· == name)

end LoadedModule

namespace Store

variable {σ : Type}

/-- The least number of bytes of stack that a call takes. -/
def frameSize : Nat := 32

def new (e : Environment) (stackSize userData : Nat) (host : σ) : Except Fault (Store σ) :=
  if stackSize = 0 then .error .zeroStack
  else .ok { environment := e, stackSize := stackSize, userData := userData, host := host }

def budget (s : Store σ) : Wasm.Budget := ⟨s.steps, s.stackSize / frameSize⟩

/-- The state in which code of a module begins to run. -/
def stateOf (s : Store σ) (m : LoadedModule) : Wasm.State σ := ⟨m.inst, s.memories, s.host⟩

/-- Puts back what running code has changed outside its instance. -/
def absorb (s : Store σ) (state : Wasm.State σ) : Store σ :=
  { s with memories := state.memories, host := state.user }

def describe (s : Store σ) : String :=
  "Runtime \x7b env_id: " ++ toString s.environment.id ++ ", stack_size: " ++ toString s.stackSize ++
    ", modules: " ++ toString s.modules.length ++ ", .. \x7d"

def moduleName (s : Store σ) (module : Nat) : Option String := s.modules[module]?.bind (·.name)

def findModule (s : Store σ) (name : String) : Option Nat :=
  s.modules.findIdx? fun m => m.name == some name

def linked (s : Store σ) (module : Nat) : Bool :=
  s.imports.all fun slot => slot.module != module || slot.target.isSome

/-- The function behind an export; `none` if the export is something else. -/
def resolve (s : Store σ) (module : Nat) (m : LoadedModule) (e : Wasm.Export) :
    Except Fault (Option Function) :=
  if e.kind ≠ .func then .ok none
  else if !s.linked module then .error .importMissing
  else
    match m.inst.module.funcType? e.index with
    | some type => .ok (some ⟨module, e.index, type.params.map (·.tag), type.results.map (·.tag)⟩)
    | none => .ok none

def findFunction (s : Store σ) (name : String) : Except Fault (Option Function) :=
  let found := s.modules.zipIdx.findSome? fun (m, module) =>
    (m.inst.module.export? name).map fun e => s.resolve module m e
  found.getD (.error .lookupFailed)

def findModuleFunction (s : Store σ) (module : Nat) (name : String) : Except Fault (Option Function) :=
  match s.modules[module]? with
  | none => .error .moduleRange
  | some m =>
    match m.inst.module.export? name with
    | none => .error .lookupFailed
    | some e => s.resolve module m e

def findGlobal (s : Store σ) (module : Nat) (name : String) : Except Fault (Option GlobalCell) :=
  match s.modules[module]? with
  | none => .error .moduleRange
  | some m => .ok do
    let index ← m.globalIndex? name
    let type ← m.inst.module.allGlobals[index]?
    return ⟨module, index, type.type.tag, type.mutable⟩

/-- The first slot of an import, if a signature describes it exactly. -/
def findImport (s : Store σ) (module : Nat) (ns name signature : String) : Except Fault Nat :=
  match s.imports.findIdx? fun slot => slot.isFor module ns name with
  | none => .error .lookupFailed
  | some index =>
    match Signature.parse? signature with
    | none => .error .malformedSignature
    | some described =>
      if s.imports[index]?.any fun slot => slot.hasSignature described then .ok index
      else .error .signatureMismatch

/-- Gives a slot a target in place of the one it had; a slot that is not there stays away. -/
def setTarget (s : Store σ) (slot : Nat) (target : Target σ) : Store σ :=
  { s with imports := s.imports.modify slot fun i => { i with target := some target } }

def link (s : Store σ) (module : Nat) (ns name signature : String) (target : Target σ) :
    Except Fault (Store σ) := do
  return s.setTarget (← s.findImport module ns name signature) target

end Store
end WasmBinding
