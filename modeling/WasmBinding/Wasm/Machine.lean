import WasmBinding.Wasm.Instance

/-! Execution in small steps. A frame holds the code that is left, the operands of the innermost
block and the blocks around it; the machine adds the frames of the callers. One step executes one
instruction; a call of an imported function is one step, in which the embedder answers. -/

namespace WasmBinding.Wasm

/-- A block being executed: where a branch to it goes, how many operands the branch carries, and
the operands below the block. -/
structure Label where
  arity : Nat
  target : List Instr
  saved : List Value

structure Frame where
  code : List Instr
  /-- The operands of the innermost block, innermost first. -/
  values : List Value
  locals : Array Value
  labels : List Label
  results : List ValType
  /-- How many more frames may be opened on top of this one. -/
  room : Nat

structure Control where
  frame : Frame
  callers : List Frame

structure HostReply (σ : Type) where
  memories : Array LinearMemory
  user : σ
  results : Except String (List Value)

/-- How the embedder answers a call of an imported function, given by its index among the imported
functions of the module. -/
abbrev HostCall (σ : Type) :=
  (index : Nat) → List Value → Array LinearMemory → σ → HostReply σ

/-- The state after a step: running on, or stopped with results or a cause. -/
inductive Turn (σ : Type) where
  | next (s : State σ) (c : Control)
  | stop (s : State σ) (outcome : Except Abort (List Value))

/-- Takes operands of the given types, the last of which is on top; answers them in order with the
operands below. -/
def takeTyped (types : List ValType) (values : List Value) : Option (List Value × List Value) :=
  let taken := (values.take types.length).reverse
  if taken.map Value.type = types then some (taken, values.drop types.length) else none

namespace OperandInstr

def exec (i : OperandInstr) (locals : Array Value) (values : List Value) :
    Except Trap (Array Value × List Value) :=
  match i, values with
  | .const v, _ => .ok (locals, v :: values)
  | .drop, _ :: rest => .ok (locals, rest)
  | .select _, .i32 c :: y :: x :: rest => .ok (locals, (if c ≠ 0 then x else y) :: rest)
  | .localGet index, _ =>
    match locals[index]? with
    | some v => .ok (locals, v :: values)
    | none => .error .illTyped
  | .localSet index, v :: rest => .ok (locals.setIfInBounds index v, rest)
  | .localTee index, v :: rest => .ok (locals.setIfInBounds index v, v :: rest)
  | .refIsNull, .funcref f :: rest => .ok (locals, .bool f.isNone :: rest)
  | .refFunc index, _ => .ok (locals, .funcref (some index) :: values)
  | .numeric op, _ =>
    match takeTyped op.params values with
    | some (args, rest) => (op.eval args).map fun v => (locals, v :: rest)
    | none => .error .illTyped
  | _, _ => .error .illTyped

end OperandInstr

namespace Frame

/-- Opens a block whose parameters are on top. -/
def enter (f : Frame) (params : Nat) (label : List Value → Label) : Frame :=
  { f with values := f.values.take params, labels := label (f.values.drop params) :: f.labels }

def leave (f : Frame) (l : Label) (outer : List Label) (code : List Instr) : Frame :=
  { f with code := code, values := f.values ++ l.saved, labels := outer }

def jump (f : Frame) (l : Label) (outer : List Label) : Frame :=
  { f with code := l.target, values := f.values.take l.arity ++ l.saved, labels := outer }

end Frame

/-- What comes of calling a function: a frame to run, or results at once, or a failure. -/
inductive Invocation (σ : Type) where
  | opened (f : Frame)
  | answered (s : State σ) (results : List Value)
  | failed (s : State σ) (cause : Abort)

namespace State

variable {σ : Type}

def fail (s : State σ) (cause : Trap) : Turn σ := .stop s (.error (.trap cause))

/-- Calls a function of the instance; `room` is the number of frames that may be opened. -/
def invoke (host : HostCall σ) (s : State σ) (func room : Nat) (args : List Value) : Invocation σ :=
  let m := s.inst.module
  match m.funcType? func with
  | none => .failed s (.trap .illTyped)
  | some type =>
    let imported := m.importedFuncs.length
    if func < imported then
      let reply := host func args s.memories s.user
      let s := { s with memories := reply.memories, user := reply.user }
      match reply.results with
      | .ok results =>
        if results.map Value.type = type.results then .answered s results
        else .failed s (.trap .illTyped)
      | .error message => .failed s (.host message)
    else
      match m.bodies[func - imported]?, room with
      | some _, 0 => .failed s (.trap .stackOverflow)
      | some body, room + 1 =>
        .opened
          { code := body.code
            values := []
            locals := (args ++ body.locals.map ValType.zero).toArray
            labels := []
            results := type.results
            room := room }
      | none, _ => .failed s (.trap .illTyped)

def callFrom (host : HostCall σ) (s : State σ) (func : Nat) (f : Frame) (callers : List Frame) : Turn σ :=
  match s.inst.module.funcType? func with
  | none => s.fail .illTyped
  | some type =>
    match takeTyped type.params f.values with
    | none => s.fail .illTyped
    | some (args, rest) =>
      match s.invoke host func f.room args with
      | .opened callee => .next s ⟨callee, { f with values := rest } :: callers⟩
      | .answered s results => .next s ⟨{ f with values := results.reverse ++ rest }, callers⟩
      | .failed s cause => .stop s (.error cause)

def finish (s : State σ) (f : Frame) (callers : List Frame) : Turn σ :=
  match takeTyped f.results f.values with
  | none => s.fail .illTyped
  | some (results, _) =>
    match callers with
    | [] => .stop s (.ok results)
    | caller :: rest => .next s ⟨{ caller with values := results.reverse ++ caller.values }, rest⟩

/-- Branches to a label; the outermost one stands for the end of the function. -/
def branch (s : State σ) (label : Nat) (f : Frame) (callers : List Frame) : Turn σ :=
  match f.labels.drop label with
  | l :: outer => .next s ⟨f.jump l outer, callers⟩
  | [] => s.finish f callers

def step (host : HostCall σ) (s : State σ) (c : Control) : Turn σ :=
  match c.frame.code with
  | [] => s.fail .illTyped
  | i :: rest =>
    let f := { c.frame with code := rest }
    let go (f : Frame) : Turn σ := .next s ⟨f, c.callers⟩
    match i with
    | .unreachable => s.fail .unreachable
    | .nop => go f
    | .block t =>
      match s.inst.module.blockType? t with
      | some type => go (f.enter type.params.length (⟨type.results.length, Instr.skipBlock 0 rest, ·⟩))
      | none => s.fail .illTyped
    | .loop t =>
      match s.inst.module.blockType? t with
      | some type => go (f.enter type.params.length (⟨type.params.length, i :: rest, ·⟩))
      | none => s.fail .illTyped
    | .cond t =>
      match s.inst.module.blockType? t, f.values with
      | some type, .i32 c :: values =>
        let f := { f with values := values }
        let label := fun saved => ⟨type.results.length, Instr.skipBlock 0 rest, saved⟩
        if c ≠ 0 then go (f.enter type.params.length label)
        else
          match Instr.secondArm? 0 rest with
          | some arm => go ({ f with code := arm }.enter type.params.length label)
          | none => go { f with code := Instr.skipBlock 0 rest }
      | _, _ => s.fail .illTyped
    | .otherwise =>
      match f.labels with
      | l :: outer => go (f.leave l outer (Instr.skipBlock 0 rest))
      | [] => s.fail .illTyped
    | .done =>
      match f.labels with
      | l :: outer => go (f.leave l outer rest)
      | [] => s.finish f c.callers
    | .br label => s.branch label f c.callers
    | .brIf label =>
      match f.values with
      | .i32 condition :: values =>
        let f := { f with values := values }
        if condition ≠ 0 then s.branch label f c.callers else go f
      | _ => s.fail .illTyped
    | .brTable labels fallback =>
      match f.values with
      | .i32 index :: values =>
        s.branch ((labels[index.toNat]?).getD fallback) { f with values := values } c.callers
      | _ => s.fail .illTyped
    | .ret => s.finish f c.callers
    | .call func => s.callFrom host func f c.callers
    | .callIndirect type table =>
      match f.values, s.inst.tables[table]? with
      | .i32 index :: values, some entries =>
        match entries[index.toNat]? with
        | none => s.fail .tableOutOfBounds
        | some none => s.fail .nullCall
        | some (some func) =>
          if s.inst.module.funcType? func = s.inst.module.types[type]? then
            s.callFrom host func { f with values := values } c.callers
          else s.fail .badSignature
      | _, _ => s.fail .illTyped
    | .operand i =>
      match i.exec f.locals f.values with
      | .ok (locals, values) => go { f with locals := locals, values := values }
      | .error cause => s.fail cause
    | .storage i =>
      match s.exec i f.values with
      | .ok (s, values) => .next s ⟨{ f with values := values }, c.callers⟩
      | .error cause => s.fail cause

end State

def run {σ : Type} (host : HostCall σ) : (fuel : Nat) → Turn σ → State σ × Except Abort (List Value)
  | _, .stop s outcome => (s, outcome)
  | 0, .next s _ => (s, .error (.trap .outOfFuel))
  | fuel + 1, .next s c => run host fuel (s.step host c)

/-- How far a call may go: the number of steps, and of frames open at a time. -/
structure Budget where
  fuel : Nat
  frames : Nat
  deriving Repr

namespace State

variable {σ : Type}

def call (host : HostCall σ) (budget : Budget) (s : State σ) (func : Nat) (args : List Value) :
    State σ × Except Abort (List Value) :=
  match s.invoke host func budget.frames args with
  | .opened f => run host budget.fuel (.next s ⟨f, []⟩)
  | .answered s results => (s, .ok results)
  | .failed s cause => (s, .error cause)

end State
end WasmBinding.Wasm
