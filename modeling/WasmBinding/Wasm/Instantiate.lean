import WasmBinding.Wasm.Machine

/-! Instantiation: storage is allocated, active segments are written in order, elements before data,
and the start function runs. What a failed instantiation wrote into memories stays written. -/

namespace WasmBinding.Wasm

/-- Why a module could not be instantiated: it does not fit its surroundings, or it stopped. -/
inductive Obstacle where
  | refused (reason : String)
  | abort (cause : Abort)
  deriving DecidableEq, Repr

namespace Module

/-- The values of all globals, given those of the imported ones. An initial value may depend on
the globals before it. -/
def initialGlobals (m : Module) (imported : List Value) : Array Value :=
  m.globals.foldl (fun values g => values.push ((g.init.eval? values).getD g.type.type.zero))
    imported.toArray

/-- The positions of the segments that cannot be used once the module is instantiated. -/
def spent (modes : List SegmentMode) : List Nat :=
  modes.zipIdx.filterMap fun (mode, index) => match mode with
    | .passive => none
    | .declared | .active _ _ => some index

/-- A new instance, whose own memories are added to the pool. -/
def allocate {σ : Type} (m : Module) (globals : List Value) (memories : List Nat)
    (pool : Array LinearMemory) (user : σ) : State σ where
  inst :=
    { module := m
      globals := m.initialGlobals globals
      tables := (m.tables.map fun l => Array.replicate l.min none).toArray
      memories := memories ++ List.range' pool.size m.memories.length
      droppedElements := spent (m.elements.map (·.mode))
      droppedData := spent (m.data.map (·.mode)) }
  memories := pool ++ (m.memories.map LinearMemory.ofLimits).toArray
  user := user

/-- Whether the memories given for the imported ones are large enough and bounded enough. -/
def accepts (m : Module) (memories : List Nat) (pool : Array LinearMemory) : Bool :=
  (m.importedMemories.zip memories).all fun (limits, place) =>
    pool[place]?.any fun memory => memory.satisfies limits

end Module

namespace State

variable {σ : Type}

def offset? (s : State σ) (e : ConstExpr) : Option Nat :=
  match e.eval? s.inst.globals with
  | some (.i32 start) => some start.toNat
  | _ => none

def putElements (s : State σ) (segment : ElementSegment) : Except Trap (State σ) :=
  match segment.mode with
  | .active table offset =>
    match s.inst.tables[table]?, s.offset? offset with
    | some t, some start =>
      let entries := s.inst.entries segment
      if start + entries.length ≤ t.size then
        .ok { s with inst := s.inst.setTable table (placeInTable t start entries) }
      else .error .tableOutOfBounds
    | _, _ => .error .illTyped
  | .passive | .declared => .ok s

def putData (s : State σ) (segment : DataSegment) : Except Trap (State σ) :=
  match segment.mode with
  | .active memory offset =>
    match s.memory? memory, s.offset? offset with
    | some (place, m), some start =>
      if start + segment.bytes.length ≤ m.bytes.size then .ok (s.poke place m start segment.bytes)
      else .error .memoryOutOfBounds
    | _, _ => .error .illTyped
  | .passive | .declared => .ok s

/-- Writes segments up to the first that does not fit. -/
def putAll {α : Type} (put : State σ → α → Except Trap (State σ)) :
    State σ → List α → State σ × Except Trap Unit
  | s, [] => (s, .ok ())
  | s, a :: rest =>
    match put s a with
    | .ok s => putAll put s rest
    | .error cause => (s, .error cause)

def putSegments (s : State σ) : State σ × Except Trap Unit :=
  match putAll putElements s s.inst.module.elements with
  | (s, .ok ()) => putAll putData s s.inst.module.data
  | failed => failed

def segmentsFit (s : State σ) : Bool :=
  s.inst.module.elements.all (fun segment => (s.putElements segment).isOk) &&
    s.inst.module.data.all fun segment => (s.putData segment).isOk

/-- Writes the segments of a new instance and runs its start function. If `eager`, nothing is
written unless every segment fits. -/
def populate (host : HostCall σ) (budget : Budget) (eager : Bool) (s : State σ) :
    State σ × Except Obstacle Unit :=
  if eager && !s.segmentsFit then (s, .error (.refused "segment does not fit"))
  else
    match s.putSegments with
    | (s, .error cause) => (s, .error (.abort (.trap cause)))
    | (s, .ok ()) =>
      match s.inst.module.start with
      | none => (s, .ok ())
      | some func =>
        match s.call host budget func [] with
        | (s, .ok _) => (s, .ok ())
        | (s, .error cause) => (s, .error (.abort cause))

end State
end WasmBinding.Wasm
