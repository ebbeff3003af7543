import WasmBinding.Wasm.Instr

/-! A module: what it imports, defines and exports. Imported entities come first in each index
space. -/

namespace WasmBinding.Wasm

inductive ImportKind where
  | func (type : Nat)
  | table (limits : Limits)
  | memory (limits : Limits)
  | global (type : GlobalType)
  deriving DecidableEq, Repr

structure Import where
  ns : String
  name : String
  kind : ImportKind
  deriving DecidableEq, Repr

inductive ExportKind where
  | func | table | memory | global
  deriving DecidableEq, Repr

structure Export where
  name : String
  kind : ExportKind
  index : Nat
  deriving DecidableEq, Repr

/-- A sequence of instructions that computes one value, without its final `done`. -/
abbrev ConstExpr := List Instr

structure Global where
  type : GlobalType
  init : ConstExpr
  deriving Repr

/-- Where the contents of a segment go when the module is instantiated. -/
inductive SegmentMode where
  | passive
  | declared
  | active (index : Nat) (offset : ConstExpr)
  deriving Repr

structure ElementSegment where
  mode : SegmentMode
  items : List ConstExpr
  deriving Repr

structure DataSegment where
  mode : SegmentMode
  bytes : List UInt8
  deriving Repr

structure Body where
  locals : List ValType
  code : List Instr
  deriving Repr

structure Module where
  types : Array FuncType := #[]
  imports : List Import := []
  /-- The type indices of the functions that the module defines. -/
  functions : List Nat := []
  tables : List Limits := []
  memories : List Limits := []
  globals : List Global := []
  exports : List Export := []
  start : Option Nat := none
  elements : List ElementSegment := []
  data : List DataSegment := []
  bodies : List Body := []
  name : Option String := none
  deriving Repr

namespace Module

def importedFuncs (m : Module) : List Nat :=
  m.imports.filterMap fun i => match i.kind with
    | .func t => some t
    | _ => none

def importedTables (m : Module) : List Limits :=
  m.imports.filterMap fun i => match i.kind with
    | .table l => some l
    | _ => none

def importedMemories (m : Module) : List Limits :=
  m.imports.filterMap fun i => match i.kind with
    | .memory l => some l
    | _ => none

def importedGlobals (m : Module) : List GlobalType :=
  m.imports.filterMap fun i => match i.kind with
    | .global t => some t
    | _ => none

def importedGlobalNames (m : Module) : List String :=
  m.imports.filterMap fun i => match i.kind with
    | .global _ => some i.name
    | _ => none

def allFuncs (m : Module) : List Nat := m.importedFuncs ++ m.functions

def allTables (m : Module) : List Limits := m.importedTables ++ m.tables

def allMemories (m : Module) : List Limits := m.importedMemories ++ m.memories

def allGlobals (m : Module) : List GlobalType := m.importedGlobals ++ m.globals.map (·.type)

def funcType? (m : Module) (func : Nat) : Option FuncType := do
  m.types[← m.allFuncs[func]?]?

def blockType? (m : Module) : BlockType → Option FuncType
  | .empty => some ⟨[], []⟩
  | .result t => some ⟨[], [t]⟩
  | .function index => m.types[index]?

def export? (m : Module) (name : String) : Option Export := m.exports.find? fun e => e.name == name

def definesMemory (m : Module) : Bool := !m.memories.isEmpty

end Module
end WasmBinding.Wasm
