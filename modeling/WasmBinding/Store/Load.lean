import WasmBinding.Store.Basic

/-! Loading a module. Its function imports get slots without targets, its imported globals are new and
zero, and its imported memories are the shared one. A module that defines a memory has to export it, and is
loaded only while there is no shared one. A load changes the store as it goes, and one that fails takes back
the slots and the memories that it has added. -/

namespace WasmBinding

open Wasm (Instance LinearMemory Limits Value)

structure Supplies where
  stubs : List Stub := []
  globals : List Value := []
  memories : List Nat := []

def growTo (m : LinearMemory) (pages : Nat) : Except Fault LinearMemory :=
  if pages < m.pages then .error (.shrink m.pages pages)
  else
    match m.grow? (pages - m.pages) with
    | some grown => .ok grown
    | none => .error (.refused "failed to grow memory")

def growToPending (m : LinearMemory) : Option Nat → Except Fault LinearMemory
  | none => .ok m
  | some pages => growTo m pages

def Fault.ofObstacle : Wasm.Obstacle → Fault
  | .refused reason => .refused reason
  | .abort cause => .ofAbort cause

namespace Store

variable {σ : Type}

def globalImport (type : Wasm.GlobalType) : Option Value := Value.ofSlot? 0 type.type.tag

/-- Gives one import of the module being loaded what it asks for. -/
def supply (s : Store σ) (m : Wasm.Module) (got : Supplies) (i : Wasm.Import) :
    Store σ × Except Fault Supplies :=
  match i.kind with
  | .func type =>
    let slot : ImportSlot σ := .unlinked s.modules.length i (m.types[type]?.getD ⟨[], []⟩)
    ({ s with imports := s.imports ++ [slot] },
      .ok { got with stubs := got.stubs ++ [⟨s.imports.length, slot.results⟩] })
  | .global type =>
    match globalImport type with
    | some zero => (s, .ok { got with globals := got.globals ++ [zero] })
    | none => (s, .error (.unsupportedImport i.ns i.name))
  | .memory limits =>
    match s.memory with
    | some place => (s, .ok { got with memories := got.memories ++ [place] })
    | none =>
      match growToPending (.ofLimits limits) s.pending with
      | .error fault => (s, .error fault)
      | .ok memory =>
        ({ s with memories := s.memories.push memory, memory := some s.memories.size },
          .ok { got with memories := got.memories ++ [s.memories.size] })
  | .table _ => (s, .error (.unsupportedImport i.ns i.name))

def supplyAll (s : Store σ) (m : Wasm.Module) (got : Supplies) :
    List Wasm.Import → Store σ × Except Fault Supplies
  | [] => (s, .ok got)
  | i :: rest =>
    match s.supply m got i with
    | (s, .ok got) => s.supplyAll m got rest
    | (s, .error fault) => (s, .error fault)

/-- Shares the first memory that a new instance exports, if its module defines one. The memory gets the size
that was asked for in advance. -/
def share (s : Store σ) (inst : Instance) : Store σ × Except Fault Unit :=
  if inst.module.definesMemory then
    match inst.firstExportedMemory? with
    | none => (s, .error .memoryNotExported)
    | some place =>
      match s.memories[place]? with
      | none => (s, .error .memoryNotExported)
      | some m =>
        match growToPending m s.pending with
        | .error fault => (s, .error fault)
        | .ok m => ({ s with memories := s.memories.setIfInBounds place m, memory := some place }, .ok ())
  else (s, .ok ())

def instantiateWith (s : Store σ) (m : Wasm.Module) (got : Supplies) : Store σ × Except Fault LoadedModule :=
  if m.accepts got.memories s.memories then
    let state := m.allocate got.globals got.memories s.memories s.host
    let seen := (state.inst.exportedMemory? "memory").or s.memory
    let host := dispatch s.imports got.stubs s.userData seen
    match state.populate host s.budget (!s.environment.settings.bulkMemory) with
    | (state, .error obstacle) => (s.absorb state, .error (.ofObstacle obstacle))
    | (state, .ok ()) =>
      match (s.absorb state).share state.inst with
      | (s, .error fault) => (s, .error fault)
      | (s, .ok ()) => (s, .ok ⟨state.inst, got.stubs⟩)
  else (s, .error (.refused "incompatible import type"))

def instantiate (s : Store σ) (m : Wasm.Module) : Store σ × Except Fault LoadedModule :=
  match s.supplyAll m {} m.imports with
  | (s, .error fault) => (s, .error fault)
  | (s, .ok got) => s.instantiateWith m got

/-- Takes back the slots and the memories that were not there before. -/
def rollBack (s before : Store σ) : Store σ :=
  { s with
    imports := s.imports.take before.imports.length
    memories := s.memories.take before.memories.size
    memory := if before.memory.isSome then s.memory else none }

def load (s : Store σ) (p : ParsedModule) : Store σ × Except Fault Nat :=
  if !p.environment.same s.environment then (s, .error .foreignEnvironment)
  else if p.module.definesMemory && s.memory.isSome then (s, .error .memoryPresent)
  else
    match s.instantiate p.module with
    | (after, .error fault) => (after.rollBack s, .error fault)
    | (after, .ok m) =>
      ({ after with
          modules := after.modules ++ [m]
          pending := if after.memory.isSome then none else after.pending },
        .ok s.modules.length)

end Store
end WasmBinding
