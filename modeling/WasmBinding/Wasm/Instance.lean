import WasmBinding.Number.LittleEndian
import WasmBinding.Wasm.LinearMemory

/-! The storage of an instance and the instructions that touch it. Globals and tables belong to one
instance alone; memories lie in a pool that instances share. -/

namespace WasmBinding.Wasm

structure Instance where
  module : Module
  globals : Array Value
  tables : Array (Array (Option Nat))
  /-- Where the memories of the module lie in the pool. -/
  memories : List Nat
  droppedElements : List Nat := []
  droppedData : List Nat := []

/-- What code can change: its instance, the memories and the state of the embedder. -/
structure State (σ : Type) where
  inst : Instance
  memories : Array LinearMemory
  user : σ

namespace ConstExpr

/-- Evaluates on a stack; `none` for what typing rules out. -/
def evalOn (globals : Array Value) : ConstExpr → List Value → Option (List Value)
  | [], stack => some stack
  | .operand (.const v) :: rest, stack => evalOn globals rest (v :: stack)
  | .operand (.refFunc index) :: rest, stack => evalOn globals rest (.funcref (some index) :: stack)
  | .operand (.numeric op) :: rest, y :: x :: stack =>
    match op.eval [x, y] with
    | .ok v => evalOn globals rest (v :: stack)
    | .error _ => none
  | .storage (.globalGet index) :: rest, stack =>
    match globals[index]? with
    | some v => evalOn globals rest (v :: stack)
    | none => none
  | _, _ => none

def eval? (globals : Array Value) (e : ConstExpr) : Option Value :=
  match evalOn globals e [] with
  | some [v] => some v
  | _ => none

end ConstExpr

namespace Access

def decode (a : Access) (bytes : List UInt8) : Option Value :=
  let n := LittleEndian.ofBytes bytes
  let wide (width : Nat) : BitVec width :=
    if a.signed then (BitVec.ofNat (8 * a.bytes) n).signExtend width else BitVec.ofNat width n
  match a.type with
  | .i32 => some (.i32 (wide 32))
  | .i64 => some (.i64 (wide 64))
  | .f32 => some (.f32 ⟨wide 32⟩)
  | .f64 => some (.f64 ⟨wide 64⟩)
  | .v128 | .funcref => none

def encode (a : Access) (v : Value) : Option (List UInt8) :=
  if v.type = a.type then v.toSlot?.map fun slot => LittleEndian.toBytes a.bytes slot.toNat else none

end Access

namespace Instance

def entries (inst : Instance) (segment : ElementSegment) : List (Option Nat) :=
  segment.items.map fun e => match e.eval? inst.globals with
    | some (.funcref func) => func
    | _ => none

/-- The contents of an element segment that are still there. -/
def segment (inst : Instance) (index : Nat) : List (Option Nat) :=
  if inst.droppedElements.contains index then []
  else (inst.module.elements[index]?.map inst.entries).getD []

/-- The contents of a data segment that are still there. -/
def dataSegment (inst : Instance) (index : Nat) : List UInt8 :=
  if inst.droppedData.contains index then []
  else (inst.module.data[index]?.map (·.bytes)).getD []

def exportedMemory? (inst : Instance) (name : String) : Option Nat := do
  let e ← inst.module.export? name
  if e.kind = .memory then inst.memories[e.index]? else none

def firstExportedMemory? (inst : Instance) : Option Nat := do
  let e ← inst.module.exports.find? fun e => e.kind == .memory
  inst.memories[e.index]?

def setTable (inst : Instance) (index : Nat) (t : Array (Option Nat)) : Instance :=
  { inst with tables := inst.tables.setIfInBounds index t }

end Instance

/-- Writes entries into a table from an index on. -/
def placeInTable (t : Array (Option Nat)) (at_ : Nat) (entries : List (Option Nat)) : Array (Option Nat) :=
  (entries.zipIdx at_).foldl (fun t (entry, i) => t.setIfInBounds i entry) t

namespace State

variable {σ : Type}

/-- The place of a memory of the instance in the pool, with its contents. -/
def memory? (s : State σ) (index : Nat) : Option (Nat × LinearMemory) := do
  let place ← s.inst.memories[index]?
  return (place, ← s.memories[place]?)

def setMemory (s : State σ) (place : Nat) (m : LinearMemory) : State σ :=
  { s with memories := s.memories.setIfInBounds place m }

def poke (s : State σ) (place : Nat) (m : LinearMemory) (off : Nat) (bytes : List UInt8) : State σ :=
  s.setMemory place { m with bytes := m.bytes.copyIn off bytes }

def exec (s : State σ) (i : StorageInstr) (values : List Value) : Except Trap (State σ × List Value) :=
  match i, values with
  | .globalGet index, _ =>
    match s.inst.globals[index]? with
    | some v => .ok (s, v :: values)
    | none => .error .illTyped
  | .globalSet index, v :: rest =>
    match s.inst.globals[index]? with
    | some old =>
      if v.type = old.type then
        .ok ({ s with inst := { s.inst with globals := s.inst.globals.setIfInBounds index v } }, rest)
      else .error .illTyped
    | none => .error .illTyped
  | .tableGet table, .i32 i :: rest =>
    match s.inst.tables[table]? with
    | some t =>
      match t[i.toNat]? with
      | some entry => .ok (s, .funcref entry :: rest)
      | none => .error .tableOutOfBounds
    | none => .error .illTyped
  | .tableSet table, .funcref f :: .i32 i :: rest =>
    match s.inst.tables[table]? with
    | some t =>
      if i.toNat < t.size then
        .ok ({ s with inst := s.inst.setTable table (t.setIfInBounds i.toNat f) }, rest)
      else .error .tableOutOfBounds
    | none => .error .illTyped
  | .tableSize table, _ =>
    match s.inst.tables[table]? with
    | some t => .ok (s, .i32 (BitVec.ofNat 32 t.size) :: values)
    | none => .error .illTyped
  | .tableGrow table, .i32 n :: .funcref f :: rest =>
    match s.inst.tables[table]?, s.inst.module.allTables[table]? with
    | some t, some limits =>
      if t.size + n.toNat ≤ limits.max.getD 10000000 then
        .ok ({ s with inst := s.inst.setTable table (t ++ Array.replicate n.toNat f) },
          .i32 (BitVec.ofNat 32 t.size) :: rest)
      else .ok (s, .i32 (BitVec.allOnes 32) :: rest)
    | _, _ => .error .illTyped
  | .tableFill table, .i32 n :: .funcref f :: .i32 i :: rest =>
    match s.inst.tables[table]? with
    | some t =>
      if i.toNat + n.toNat ≤ t.size then
        .ok ({ s with inst := s.inst.setTable table (placeInTable t i.toNat (List.replicate n.toNat f)) }, rest)
      else .error .tableOutOfBounds
    | none => .error .illTyped
  | .tableCopy target source, .i32 n :: .i32 i :: .i32 j :: rest =>
    match s.inst.tables[target]?, s.inst.tables[source]? with
    | some t, some u =>
      if i.toNat + n.toNat ≤ u.size ∧ j.toNat + n.toNat ≤ t.size then
        let entries := (u.extract i.toNat (i.toNat + n.toNat)).toList
        .ok ({ s with inst := s.inst.setTable target (placeInTable t j.toNat entries) }, rest)
      else .error .tableOutOfBounds
    | _, _ => .error .illTyped
  | .tableInit segment table, .i32 n :: .i32 i :: .i32 j :: rest =>
    match s.inst.tables[table]? with
    | some t =>
      let entries := s.inst.segment segment
      if i.toNat + n.toNat ≤ entries.length ∧ j.toNat + n.toNat ≤ t.size then
        let entries := (entries.drop i.toNat).take n.toNat
        .ok ({ s with inst := s.inst.setTable table (placeInTable t j.toNat entries) }, rest)
      else .error .tableOutOfBounds
    | none => .error .illTyped
  | .elemDrop segment, _ =>
    .ok ({ s with inst := { s.inst with droppedElements := segment :: s.inst.droppedElements } }, values)
  | .load access arg, .i32 base :: rest =>
    match s.memory? arg.memory with
    | some (_, m) =>
      let off := base.toNat + arg.offset
      if off + access.bytes ≤ m.bytes.size then
        match access.decode (m.bytes.slice off access.bytes) with
        | some v => .ok (s, v :: rest)
        | none => .error .illTyped
      else .error .memoryOutOfBounds
    | none => .error .illTyped
  | .store access arg, v :: .i32 base :: rest =>
    match s.memory? arg.memory, access.encode v with
    | some (place, m), some bytes =>
      let off := base.toNat + arg.offset
      if off + access.bytes ≤ m.bytes.size then .ok (s.poke place m off bytes, rest)
      else .error .memoryOutOfBounds
    | _, _ => .error .illTyped
  | .memorySize memory, _ =>
    match s.memory? memory with
    | some (_, m) => .ok (s, .i32 (BitVec.ofNat 32 m.pages) :: values)
    | none => .error .illTyped
  | .memoryGrow memory, .i32 n :: rest =>
    match s.memory? memory with
    | some (place, m) =>
      match m.grow? n.toNat with
      | some grown => .ok (s.setMemory place grown, .i32 (BitVec.ofNat 32 m.pages) :: rest)
      | none => .ok (s, .i32 (BitVec.allOnes 32) :: rest)
    | none => .error .illTyped
  | .memoryFill memory, .i32 n :: .i32 v :: .i32 i :: rest =>
    match s.memory? memory with
    | some (place, m) =>
      if i.toNat + n.toNat ≤ m.bytes.size then
        .ok (s.poke place m i.toNat (List.replicate n.toNat (UInt8.ofBitVec (v.setWidth 8))), rest)
      else .error .memoryOutOfBounds
    | none => .error .illTyped
  | .memoryCopy target source, .i32 n :: .i32 i :: .i32 j :: rest =>
    match s.memory? target, s.memory? source with
    | some (place, m), some (_, from_) =>
      if i.toNat + n.toNat ≤ from_.bytes.size ∧ j.toNat + n.toNat ≤ m.bytes.size then
        .ok (s.poke place m j.toNat (from_.bytes.slice i.toNat n.toNat), rest)
      else .error .memoryOutOfBounds
    | _, _ => .error .illTyped
  | .memoryInit segment memory, .i32 n :: .i32 i :: .i32 j :: rest =>
    match s.memory? memory with
    | some (place, m) =>
      let bytes := s.inst.dataSegment segment
      if i.toNat + n.toNat ≤ bytes.length ∧ j.toNat + n.toNat ≤ m.bytes.size then
        .ok (s.poke place m j.toNat ((bytes.drop i.toNat).take n.toNat), rest)
      else .error .memoryOutOfBounds
    | none => .error .illTyped
  | .dataDrop segment, _ =>
    .ok ({ s with inst := { s.inst with droppedData := segment :: s.inst.droppedData } }, values)
  | _, _ => .error .illTyped

end State
end WasmBinding.Wasm
