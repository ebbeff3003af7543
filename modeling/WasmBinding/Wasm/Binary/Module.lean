import WasmBinding.Wasm.Binary.Name
import WasmBinding.Wasm.Typing.Code

/-! Decoding a module section by section. Every item is checked as soon as it has been read, against
what came before it; the code of functions is checked when all sections are there. Memories and
tables with 64-bit addresses are not modelled. Of the bounds that a decoder sets to the size of a
module there are those on memories, parameters, results, locals and names; the others are left out,
as a binary has to be large to pass them. -/

namespace WasmBinding.Wasm.Binary

open Reader Typing

/-- A module of which some sections have been read. -/
structure Draft where
  module : Module := {}
  /-- The position of the latest section in the prescribed order. -/
  position : Nat := 0
  declared : List Nat := []
  dataCount : Option Nat := none
  bodies : Option (List Bytes) := none

namespace Draft

def edit (d : Draft) (change : Module → Module) : Draft := { d with module := change d.module }

/-- Constant expressions may refer to every function. -/
def constContext (f : Features) (d : Draft) : Context where
  features := f
  module := d.module
  locals := #[]
  declared := List.range d.module.allFuncs.length
  dataCount := d.dataCount

end Draft

def each (item : Draft → Reader Draft) : (count : Nat) → Draft → Reader Draft
  | 0, d => return d
  | count + 1, d => do each item count (← item d)

def items (item : Draft → Reader Draft) (d : Draft) : Reader Draft := do each item (← u32) d

def limits : Reader Limits := do
  match (← byte).toNat with
  | 0 => return ⟨← u32, none⟩
  | 1 => do
    let min ← u32
    return ⟨min, some (← u32)⟩
  | _ => malformed "invalid limits flags"

def checkLimits (l : Limits) (bound : Nat) : Except Rejection Unit := do
  require (l.max.all fun max => l.min ≤ max) "size minimum must not be greater than maximum"
  require (l.min ≤ bound) "size minimum out of bounds"

def tableLimits : Reader Limits := do
  refType
  let l ← limits
  checkLimits l 10000000
  return l

def memoryLimits : Reader Limits := do
  let l ← limits
  checkLimits l 65536
  require (l.max.all fun max => max ≤ 65536) "memory size must be at most 65536 pages (4GiB)"
  return l

def globalType : Reader GlobalType := do
  let type ← valType
  match (← byte).toNat with
  | 0 => return ⟨type, false⟩
  | 1 => return ⟨type, true⟩
  | _ => malformed "malformed mutability"

def typeItem (f : Features) (d : Draft) : Reader Draft := do
  unless (← byte) = 0x60 do malformed "invalid leading byte for a function type"
  let paramCount ← u32
  if paramCount > 1000 then malformed "function params size is out of bounds"
  let params ← repeated valType paramCount
  let resultCount ← u32
  if resultCount > 1000 then malformed "function returns size is out of bounds"
  let results ← repeated valType resultCount
  require (f.multiValue || results.length ≤ 1) "func type returns multiple values"
  for t in params ++ results do
    (d.constContext f).valType t
  return d.edit fun m => { m with types := m.types.push ⟨params, results⟩ }

def importItem (f : Features) (d : Draft) : Reader Draft := do
  let ns ← name
  let field ← name
  let kind ← match (← byte).toNat with
    | 0 => do
      let type ← u32
      require (type < d.module.types.size) "unknown type: type index out of bounds"
      pure (ImportKind.func type)
    | 1 => do
      let l ← tableLimits
      require (f.referenceTypes || d.module.allTables.isEmpty) "multiple tables"
      pure (.table l)
    | 2 => do pure (.memory (← memoryLimits))
    | 3 => do
      let type ← globalType
      (d.constContext f).valType type.type
      pure (.global type)
    | _ => malformed "malformed import kind"
  return d.edit fun m => { m with imports := m.imports ++ [⟨ns, field, kind⟩] }

def functionItem (d : Draft) : Reader Draft := do
  let type ← u32
  require (type < d.module.types.size) "unknown type: type index out of bounds"
  return d.edit fun m => { m with functions := m.functions ++ [type] }

def tableItem (f : Features) (d : Draft) : Reader Draft := do
  let l ← tableLimits
  require (f.referenceTypes || d.module.allTables.isEmpty) "multiple tables"
  return d.edit fun m => { m with tables := m.tables ++ [l] }

def memoryItem (d : Draft) : Reader Draft := do
  let l ← memoryLimits
  require (d.module.allMemories.length < 100) "memories count exceeds limit"
  return d.edit fun m => { m with memories := m.memories ++ [l] }

def globalItem (f : Features) (d : Draft) : Reader Draft := do
  let type ← globalType
  let init ← const f
  (d.constContext f).valType type.type
  (d.constContext f).constExpr type.type init
  return { d.edit fun m => { m with globals := m.globals ++ [⟨type, init⟩] } with
    declared := d.declared ++ referenced init }
where
  referenced (e : ConstExpr) : List Nat :=
    e.filterMap fun i => match i with
      | .operand (.refFunc index) => some index
      | _ => none

def exportItem (d : Draft) : Reader Draft := do
  let field ← name
  let (kind, count) ← match (← byte).toNat with
    | 0 => pure (ExportKind.func, d.module.allFuncs.length)
    | 1 => pure (.table, d.module.allTables.length)
    | 2 => pure (.memory, d.module.allMemories.length)
    | 3 => pure (.global, d.module.allGlobals.length)
    | _ => malformed "malformed external kind"
  let index ← u32
  require (index < count) "unknown export index"
  if (d.module.export? field).isSome then throw (.duplicateExport field)
  return { d.edit fun m => { m with exports := m.exports ++ [⟨field, kind, index⟩] } with
    declared := if kind = .func then d.declared ++ [index] else d.declared }

def startItem (d : Draft) : Reader Draft := do
  let func ← u32
  let type ← find (d.module.funcType? func) "unknown function"
  require (type = ⟨[], []⟩) "invalid start function type"
  return d.edit fun m => { m with start := some func }

/-- The three low bits of the flags say: no offset, an explicit table or no need of the items at run
time, and items that are expressions. -/
def elementItem (f : Features) (d : Draft) : Reader Draft := do
  let flags ← u32
  if flags ≥ 8 then malformed "invalid flags byte in element segment"
  let placed := flags % 2 = 0
  let explicit := flags / 2 % 2 = 1
  let expressions := flags / 4 % 2 = 1
  let mode ←
    if placed then
      let table ← if explicit then u32 else pure 0
      pure (SegmentMode.active table (← const f))
    else pure (if explicit then .declared else .passive)
  if flags % 4 ≠ 0 then
    if expressions then refType
    else unless (← byte) = 0 do malformed "only the function external type is supported in elem segment"
  let elements ←
    if expressions then vector (const f)
    else do pure ((← vector u32).map fun index => [Instr.operand (.refFunc index)])
  let ctx := d.constContext f
  match mode with
  | .active table offset => do
    ctx.table table
    ctx.constExpr .i32 offset
  | _ => require f.bulkMemory "bulk memory must be enabled"
  for e in elements do
    if expressions then ctx.constExpr .funcref e
    else for index in globalItem.referenced e do require (index < d.module.allFuncs.length) "unknown function"
  return { d.edit fun m => { m with elements := m.elements ++ [⟨mode, elements⟩] } with
    declared := d.declared ++ elements.flatMap globalItem.referenced }

def dataCountItem (d : Draft) : Reader Draft := do return { d with dataCount := some (← u32) }

def dataItem (f : Features) (d : Draft) : Reader Draft := do
  let flags ← u32
  let mode ← match flags with
    | 0 => do pure (SegmentMode.active 0 (← const f))
    | 1 => pure .passive
    | 2 => do
      let memory ← u32
      pure (.active memory (← const f))
    | _ => malformed "invalid flags byte in data segment"
  let bytes ← sized
  let ctx := d.constContext f
  match mode with
  | .active memory offset => do
    ctx.memory memory
    ctx.constExpr .i32 offset
  | _ => require f.bulkMemory "bulk memory must be enabled"
  return d.edit fun m => { m with data := m.data ++ [⟨mode, bytes⟩] }

/-- Reads an item of a region with `room` bytes left, which it may not leave; answers how many are
left then. -/
def within {α : Type} (item : Reader α) (room : Nat) : Reader (α × Nat) := fun bytes =>
  match item bytes with
  | .error e => .error e
  | .ok (a, rest) =>
    let used := bytes.length - rest.length
    if used ≤ room then .ok ((a, room - used), rest) else .error .endOfInput

/-- The bodies of a code section, which has to end behind the last of them. -/
def codeBodies : (count room : Nat) → Reader (List Bytes)
  | 0, 0 => return []
  | 0, _ => malformed "trailing bytes at end of section"
  | count + 1, room => do
    let (body, room) ← within sized room
    return body :: (← codeBodies count room)

def codeSection (room : Nat) (d : Draft) : Reader Draft := do
  let (count, room) ← within u32 room
  require (count = d.module.functions.length) "function and code section have inconsistent lengths"
  return { d with bodies := some (← codeBodies count room) }

def dataSection (f : Features) (d : Draft) : Reader Draft := do
  let count ← u32
  require (d.dataCount.all (· = count)) "data count and data section have inconsistent lengths"
  each (dataItem f) count d

/-- The position of a section in the prescribed order, by its number. -/
def position? (id : Nat) : Option Nat :=
  ([1, 2, 3, 4, 5, 6, 7, 8, 9, 12, 10, 11].idxOf? id).map (· + 1)

def sectionContent (f : Features) (id : Nat) (d : Draft) : Reader Draft :=
  match id with
  | 1 => items (typeItem f) d
  | 2 => items (importItem f) d
  | 3 => items functionItem d
  | 4 => items (tableItem f) d
  | 5 => items memoryItem d
  | 6 => items (globalItem f) d
  | 7 => items exportItem d
  | 8 => startItem d
  | 9 => items (elementItem f) d
  | 12 => dataCountItem d
  | 11 => dataSection f d
  | _ => malformed "malformed section id"

/-- A section with a name; only the one called `name` is looked into. -/
def customSection (content : Bytes) (d : Draft) : Except Rejection Draft := do
  let (title, rest) ← name content
  if title = "name" then
    return d.edit fun m => { m with name := moduleName rest.length m.name rest }
  else return d

def sectionItem (f : Features) (d : Draft) : Reader Draft := do
  let id := (← byte).toNat
  if id ≥ 128 then malformed "malformed section id"
  let size ← u32
  if id = 0 then customSection (← take size) d
  else
    match position? id with
    | none => do
      let _ ← take size
      malformed "malformed section id"
    | some position => do
      require (d.position < position) "section out of order"
      let d := { d with position := position }
      if id = 10 then codeSection size d
      else whole (sectionContent f id d) (← take size)

/-- Reads sections to the end of the input. Each spends one unit of `fuel`; the number of bytes is
always enough. -/
def sections (f : Features) : (fuel : Nat) → Draft → Reader Draft
  | 0, d => return d
  | fuel + 1, d => do
    if ← atEnd then return d else sections f fuel (← sectionItem f d)

def localGroup : Reader (Nat × ValType) := do
  let count ← u32
  return (count, ← valType)

/-- The locals that a body declares, besides the parameters. -/
def locals (ctx : Context) (params : Nat) : (groups : Nat) → Reader (List ValType)
  | 0 => return []
  | groups + 1 => do
    let (count, type) ← localGroup
    ctx.valType type
    require (params + count ≤ 50000) "too many locals: locals exceed maximum"
    return List.replicate count type ++ (← locals ctx (params + count) groups)

/-- Decodes and checks a body. An instruction that cannot be read counts only if those before it
are in order. -/
def body (ctx : Context) (type : FuncType) (bytes : Bytes) : Except Rejection Body := do
  let (declared, rest) ← (do locals ctx type.params.length (← u32)) bytes
  let (code, stop) := instrs ctx.features rest.length rest
  let state ← { ctx with locals := (type.params ++ declared).toArray }.body type.results code
  match stop with
  | some e => throw e
  | none =>
    unless state.isEmpty do throw (.malformed "control frames remain at end of function")
    return ⟨declared, code⟩

def bodies (ctx : Context) : List Nat → List Bytes → Except Rejection (List Body)
  | type :: types, bytes :: rest => do
    let type ← find ctx.module.types[type]? "unknown type: type index out of bounds"
    let b ← body ctx type bytes
    return b :: (← bodies ctx types rest)
  | _, _ => return []

def module (f : Features) (bytes : Bytes) : Except Rejection Module := do
  let (d, _) ← sections f bytes.length {} bytes
  require (d.bodies.isSome || d.module.functions.isEmpty) "function and code section have inconsistent lengths"
  require (d.dataCount.all (· = d.module.data.length)) "data count and data section have inconsistent lengths"
  let ctx : Context := ⟨f, d.module, #[], d.declared, d.dataCount⟩
  return { d.module with bodies := ← bodies ctx d.module.functions (d.bodies.getD []) }

end WasmBinding.Wasm.Binary
