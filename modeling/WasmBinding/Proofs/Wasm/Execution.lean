import WasmBinding.Proofs.Wasm.Storage

/-! Runs of the machine. The embedder takes part in a run only where an imported function is called: every
other step is the same for every embedder and makes at most one change to storage. What such changes and the
embedder's answers keep is kept by whole runs, and holds whenever an imported function is called. -/

namespace WasmBinding.Wasm

/-- A call of an imported function, and the state in which it is made. -/
structure ImportCall (σ : Type) where
  index : Nat
  args : List Value
  state : State σ

def Turn.state {σ : Type} : Turn σ → State σ
  | .next s _ => s
  | .stop s _ => s

@[simp] theorem Turn.state_next {σ : Type} (s : State σ) (c : Control) : (Turn.next s c).state = s := rfl

@[simp] theorem Turn.state_stop {σ : Type} (s : State σ) (outcome : Except Abort (List Value)) :
    (Turn.stop s outcome).state = s := rfl

/-- The state that an invocation leaves; a frame that was opened is yet to run. -/
def Invocation.state {σ : Type} (before : State σ) : Invocation σ → State σ
  | .opened _ => before
  | .answered s _ => s
  | .failed s _ => s

namespace State

variable {σ : Type}

def answered (s : State σ) (reply : HostReply σ) : State σ :=
  { s with memories := reply.memories, user := reply.user }

/-- The function that the next step calls, and the frame that it is called from. -/
def callee? (s : State σ) (c : Control) : Option (Nat × Frame) :=
  match c.frame.code with
  | .call func :: rest => some (func, { c.frame with code := rest })
  | .callIndirect type table :: rest =>
    match c.frame.values, s.inst.tables[table]? with
    | .i32 index :: values, some entries =>
      match entries[index.toNat]? with
      | some (some func) =>
        if s.inst.module.funcType? func = s.inst.module.types[type]? then
          some (func, { c.frame with code := rest, values := values })
        else none
      | _ => none
    | _, _ => none
  | _ => none

def importCall? (s : State σ) (c : Control) : Option (ImportCall σ) := do
  let (func, f) ← s.callee? c
  let type ← s.inst.module.funcType? func
  let (args, _) ← takeTyped type.params f.values
  if func < s.inst.module.importedFuncs.length then some ⟨func, args, s⟩ else none

/-- How a frame that has called an imported function goes on when it is answered. -/
def resume (s : State σ) (type : FuncType) (f : Frame) (callers : List Frame) (reply : HostReply σ) : Turn σ :=
  match reply.results with
  | .ok results =>
    if results.map Value.type = type.results then
      .next (s.answered reply) ⟨{ f with values := results.reverse ++ f.values }, callers⟩
    else (s.answered reply).fail .illTyped
  | .error message => .stop (s.answered reply) (.error (.host message))

end State

def importCalls {σ : Type} (host : HostCall σ) : (fuel : Nat) → Turn σ → List (ImportCall σ)
  | fuel + 1, .next s c => (s.importCall? c).toList ++ importCalls host fuel (s.step host c)
  | _, _ => []

/-- The calls of imported functions that a call from outside makes. A function that is itself imported is one
of them. -/
def State.importCalls {σ : Type} (host : HostCall σ) (budget : Budget) (s : State σ) (func : Nat)
    (args : List Value) : List (ImportCall σ) :=
  match s.invoke host func budget.frames args with
  | .opened f => Wasm.importCalls host budget.fuel (.next s ⟨f, []⟩)
  | _ =>
    if func < s.inst.module.importedFuncs.length ∧ (s.inst.module.funcType? func).isSome then [⟨func, args, s⟩]
    else []

namespace State

variable {σ : Type} {s t : State σ} {c : Control} {host : HostCall σ} {call : ImportCall σ}

theorem step_of_callee (h : s.callee? c = some (func, f)) :
    s.step host c = s.callFrom host func f c.callers := by
  unfold callee? at h
  split at h
  case h_1 code =>
    cases h
    simp only [step, code]
  case h_2 code =>
    split at h
    case h_2 => contradiction
    rename_i values tables
    split at h
    case h_2 => contradiction
    rename_i entry
    split at h
    case isFalse => contradiction
    rename_i same
    cases h
    simp only [step, code, values, tables, entry, if_pos same]
  case h_3 => contradiction

@[simp] theorem state_fail (cause : Trap) : (s.fail cause).state = s := rfl

@[simp] theorem state_finish (f : Frame) (callers : List Frame) : (s.finish f callers).state = s := by
  unfold finish
  repeat' split
  all_goals rfl

@[simp] theorem state_branch (label : Nat) (f : Frame) (callers : List Frame) :
    (s.branch label f callers).state = s := by
  unfold branch
  split
  · rfl
  · exact state_finish f callers

theorem step_of_no_indirect (h : s.callee? c = none) (code : c.frame.code = .callIndirect type table :: rest) :
    ∃ cause, ∀ host : HostCall σ, s.step host c = s.fail cause := by
  unfold callee? at h
  simp only [code] at h
  cases values : c.frame.values with
  | nil => exact ⟨.illTyped, fun host => by simp only [step, code, values]⟩
  | cons top below =>
    cases tables : s.inst.tables[table]? with
    | none => exact ⟨.illTyped, fun host => by cases top <;> simp only [step, code, values, tables]⟩
    | some entries =>
      cases top with
      | i32 index =>
        simp only [values, tables] at h
        cases entry : entries[index.toNat]? with
        | none => exact ⟨.tableOutOfBounds, fun host => by simp only [step, code, values, tables, entry]⟩
        | some target =>
          cases target with
          | none => exact ⟨.nullCall, fun host => by simp only [step, code, values, tables, entry]⟩
          | some func =>
            simp only [entry, ite_eq_right_iff, reduceCtorEq, imp_false] at h
            exact ⟨.badSignature, fun host => by simp only [step, code, values, tables, entry, if_neg h]⟩
      | i64 | f32 | f64 | v128 | funcref =>
        exact ⟨.illTyped, fun host => by simp only [step, code, values, tables]⟩

/-- A step that calls nothing is the same for every embedder, and makes at most one change. -/
theorem step_of_no_callee (h : s.callee? c = none) :
    ∃ turn : Turn σ, s.Change turn.state ∧ ∀ host, s.step host c = turn := by
  cases code : c.frame.code with
  | nil => exact ⟨s.fail .illTyped, .refl, fun host => by simp only [step, code]⟩
  | cons i rest =>
    cases i with
    | call func => simp [callee?, code] at h
    | callIndirect type table =>
      obtain ⟨cause, step⟩ := step_of_no_indirect h code
      exact ⟨s.fail cause, .refl, step⟩
    | storage i =>
      cases executed : s.exec i c.frame.values with
      | error cause => exact ⟨s.fail cause, .refl, fun host => by simp only [step, code, executed]⟩
      | ok result =>
        obtain ⟨after, values⟩ := result
        exact ⟨.next after ⟨{ c.frame with code := rest, values := values }, c.callers⟩, exec_change executed,
          fun host => by simp only [step, code, executed]⟩
    | unreachable | nop | block | loop | cond | otherwise | done | br | brIf | brTable | ret | operand =>
      let silent : HostCall σ := fun _ _ memories user => ⟨memories, user, .ok []⟩
      have unchanged : (s.step silent c).state = s := by
        simp only [step, code]
        repeat' split
        all_goals simp
      exact ⟨s.step silent c, by rw [unchanged]; exact .refl, fun host => by simp only [step, code]⟩

theorem callFrom_of_import (known : s.inst.module.funcType? func = some type)
    (taken : takeTyped type.params f.values = some (args, rest))
    (imported : func < s.inst.module.importedFuncs.length) :
    s.callFrom host func f callers =
      s.resume type { f with values := rest } callers (host func args s.memories s.user) := by
  simp only [callFrom, known, taken, invoke, if_pos imported, resume, answered]
  cases (host func args s.memories s.user).results with
  | error message => rfl
  | ok results =>
    by_cases typed : results.map Value.type = type.results
    · simp only [if_pos typed]
    · simp only [if_neg typed]
      rfl

theorem callFrom_of_no_import
    (own : ∀ type args rest, s.inst.module.funcType? func = some type →
      takeTyped type.params f.values = some (args, rest) → ¬ func < s.inst.module.importedFuncs.length) :
    ∃ turn : Turn σ, turn.state = s ∧ ∀ host, s.callFrom host func f callers = turn := by
  cases known : s.inst.module.funcType? func with
  | none => exact ⟨s.fail .illTyped, rfl, fun host => by simp only [callFrom, known]⟩
  | some type =>
    cases taken : takeTyped type.params f.values with
    | none => exact ⟨s.fail .illTyped, rfl, fun host => by simp only [callFrom, known, taken]⟩
    | some both =>
      obtain ⟨args, rest⟩ := both
      have own := own type args rest known taken
      cases body : s.inst.module.bodies[func - s.inst.module.importedFuncs.length]? with
      | none =>
        exact ⟨s.fail .illTyped, rfl, fun host => by
          simp only [callFrom, known, taken, invoke, if_neg own, body]
          rfl⟩
      | some body' =>
        cases room : f.room with
        | zero =>
          exact ⟨s.fail .stackOverflow, rfl, fun host => by
            simp only [callFrom, known, taken, invoke, if_neg own, body, room]
            rfl⟩
        | succ room' =>
          exact ⟨_, rfl, fun host => by simp only [callFrom, known, taken, invoke, if_neg own, body, room]; rfl⟩

/-- What the next step does if it calls an imported function: it asks the embedder once, and goes on with the
answer. -/
theorem step_of_importCall (h : s.importCall? c = some call) :
    call.state = s ∧ call.index < s.inst.module.importedFuncs.length ∧
    ∃ f type rest, s.callee? c = some (call.index, f) ∧ s.inst.module.funcType? call.index = some type ∧
      takeTyped type.params f.values = some (call.args, rest) ∧
      ∀ host, s.step host c = s.resume type { f with values := rest } c.callers
        (host call.index call.args s.memories s.user) := by
  simp only [importCall?, Option.bind_eq_bind, Option.bind_eq_some_iff, Prod.exists, Option.ite_none_right_eq_some,
    Option.some.injEq] at h
  obtain ⟨func, f, callee, type, known, args, rest, taken, imported, rfl⟩ := h
  exact ⟨rfl, imported, f, type, rest, callee, known, taken, fun host =>
    (step_of_callee callee).trans (callFrom_of_import known taken imported)⟩

theorem step_of_no_importCall (h : s.importCall? c = none) :
    ∃ turn : Turn σ, s.Change turn.state ∧ ∀ host, s.step host c = turn := by
  cases callee : s.callee? c with
  | none => exact step_of_no_callee callee
  | some both =>
    obtain ⟨func, f⟩ := both
    have own : ∀ type args rest, s.inst.module.funcType? func = some type →
        takeTyped type.params f.values = some (args, rest) → ¬ func < s.inst.module.importedFuncs.length := by
      intro type args rest known taken imported
      simp [importCall?, callee, known, taken, imported] at h
    obtain ⟨turn, state, same⟩ := callFrom_of_no_import own
    exact ⟨turn, state ▸ .refl, fun host => (step_of_callee callee).trans (same host)⟩

@[simp] theorem state_resume (type : FuncType) (f : Frame) (callers : List Frame) (reply : HostReply σ) :
    (s.resume type f callers reply).state = s.answered reply := by
  unfold resume
  repeat' split
  all_goals rfl

end State

/-- A property of states that changes of storage and answers of the embedder keep. -/
structure Kept {σ : Type} (host : HostCall σ) (P : State σ → Prop) : Prop where
  change : ∀ {s t : State σ}, P s → s.Change t → P t
  answer : ∀ {s : State σ} (index : Nat) (args : List Value), index < s.inst.module.importedFuncs.length →
    P s → P (s.answered (host index args s.memories s.user))

namespace Kept

open State

variable {σ : Type} {host : HostCall σ} {P : State σ → Prop} {s : State σ} {turn : Turn σ}

theorem step (kept : Kept host P) (c : Control) (h : P s) : P (s.step host c).state := by
  cases called : s.importCall? c with
  | none =>
    obtain ⟨turn, change, same⟩ := step_of_no_importCall called
    rw [same host]
    exact kept.change h change
  | some call =>
    obtain ⟨_, imported, f, type, rest, _, _, _, same⟩ := step_of_importCall called
    rw [same host, state_resume]
    exact kept.answer call.index call.args imported h

theorem run (kept : Kept host P) (fuel : Nat) (h : P turn.state) : P (Wasm.run host fuel turn).1 := by
  induction fuel generalizing turn with
  | zero => cases turn <;> exact h
  | succ fuel ih =>
    cases turn with
    | stop s outcome => exact h
    | next s c => exact ih (kept.step c h)

theorem importCalls (kept : Kept host P) (fuel : Nat) (h : P turn.state) :
    ∀ call ∈ Wasm.importCalls host fuel turn, P call.state := by
  induction fuel generalizing turn with
  | zero => cases turn <;> simp [Wasm.importCalls]
  | succ fuel ih =>
    cases turn with
    | stop s outcome => simp [Wasm.importCalls]
    | next s c =>
      intro call made
      simp only [Wasm.importCalls, List.mem_append, Option.mem_toList] at made
      rcases made with now | later
      · exact (step_of_importCall now).1 ▸ h
      · exact ih (kept.step c h) call later

theorem invoke (kept : Kept host P) (func room : Nat) (args : List Value) (h : P s) :
    P ((s.invoke host func room args).state s) := by
  unfold State.invoke
  dsimp only
  split
  · exact h
  · split
    case isTrue imported =>
      have answered := kept.answer func args imported h
      split
      · split <;> exact answered
      · exact answered
    case isFalse =>
      split <;> exact h

theorem call (kept : Kept host P) (budget : Budget) (func : Nat) (args : List Value) (h : P s) :
    P (s.call host budget func args).1 := by
  have invoked := kept.invoke func budget.frames args h
  unfold State.call
  cases invocation : s.invoke host func budget.frames args with
  | opened f => exact kept.run budget.fuel h
  | answered t results =>
    rw [invocation] at invoked
    exact invoked
  | failed t cause =>
    rw [invocation] at invoked
    exact invoked

/-- Whatever holds of the state in which a function is called holds whenever that calls an imported one. -/
theorem importCalls_call (kept : Kept host P) (budget : Budget) (func : Nat) (args : List Value) (h : P s) :
    ∀ call ∈ s.importCalls host budget func args, P call.state := by
  unfold State.importCalls
  split
  · exact kept.importCalls budget.fuel h
  · split
    · simpa using h
    · simp

theorem putAll (kept : Kept host P) (put : State σ → α → Except Trap (State σ))
    (change : ∀ s t a, put s a = .ok t → s.Change t) (items : List α) (h : P s) :
    P (State.putAll put s items).1 := by
  induction items generalizing s with
  | nil => exact h
  | cons a rest ih =>
    unfold State.putAll
    split
    · rename_i wrote
      exact ih (kept.change h (change _ _ _ wrote))
    · exact h

theorem putSegments (kept : Kept host P) (h : P s) : P s.putSegments.1 := by
  have elements := kept.putAll State.putElements (fun _ _ _ => putElements_change) s.inst.module.elements h
  unfold State.putSegments
  split
  · rename_i t wrote
    rw [wrote] at elements
    exact kept.putAll State.putData (fun _ _ _ => putData_change) _ elements
  · exact elements

theorem populate (kept : Kept host P) (budget : Budget) (eager : Bool) (h : P s) :
    P (s.populate host budget eager).1 := by
  have segments := kept.putSegments h
  unfold State.populate
  split
  · exact h
  · split
    · rename_i wrote
      simpa only [wrote] using segments
    · rename_i t wrote
      rw [wrote] at segments
      cases t.inst.module.start with
      | none => exact segments
      | some func =>
        have called := kept.call budget func [] segments
        dsimp only
        split
        · rename_i ended
          rw [ended] at called
          exact called
        · rename_i ended
          rw [ended] at called
          exact called

end Kept

section

variable {σ : Type} {host : HostCall σ} {call : ImportCall σ} {s : State σ}

theorem takeTyped_some (h : takeTyped types values = some (taken, rest)) :
    taken.map Value.type = types ∧ rest = values.drop types.length := by
  unfold takeTyped at h
  dsimp only at h
  split at h
  · rename_i typed
    cases h
    exact ⟨typed, rfl⟩
  · contradiction

def ImportCall.Typed (call : ImportCall σ) : Prop :=
  call.index < call.state.inst.module.importedFuncs.length ∧
    ∃ type, call.state.inst.module.funcType? call.index = some type ∧ call.args.map Value.type = type.params

theorem State.typed_of_importCall? (h : s.importCall? c = some call) : call.Typed := by
  obtain ⟨rfl, imported, f, type, rest, _, known, taken, _⟩ := step_of_importCall h
  exact ⟨imported, type, known, (takeTyped_some taken).1⟩

theorem importCalls_reached (made : call ∈ importCalls host fuel turn) :
    ∃ c left, call.state.importCall? c = some call ∧
      run host fuel turn = run host (left + 1) (.next call.state c) := by
  induction fuel generalizing turn with
  | zero => cases turn <;> simp [importCalls] at made
  | succ fuel ih =>
    cases turn with
    | stop s outcome => simp [importCalls] at made
    | next s c =>
      simp only [importCalls, List.mem_append, Option.mem_toList] at made
      rcases made with now | later
      · obtain ⟨rfl, _⟩ := State.step_of_importCall now
        exact ⟨c, fuel, now, rfl⟩
      · exact ih later

theorem run_stop (fuel : Nat) (s : State σ) (outcome : Except Abort (List Value)) :
    run host fuel (.stop s outcome) = (s, outcome) := by
  cases fuel <;> rfl

/-- A run in which an imported function fails ends there, with the words of the embedder. -/
theorem run_of_failed_import (made : call ∈ importCalls host fuel turn)
    (failed : (host call.index call.args call.state.memories call.state.user).results = .error message) :
    run host fuel turn =
      (call.state.answered (host call.index call.args call.state.memories call.state.user), .error (.host message)) := by
  obtain ⟨c, left, called, same⟩ := importCalls_reached made
  obtain ⟨_, _, f, type, rest, _, _, _, step⟩ := State.step_of_importCall called
  rw [same]
  simp only [run, step, State.resume, failed, run_stop]

/-- The calls that a function called from outside makes are those of its own code, or it is imported itself. -/
theorem State.importCalls_cases (made : call ∈ s.importCalls host budget func args) :
    (∃ f, s.invoke host func budget.frames args = .opened f ∧
      call ∈ Wasm.importCalls host budget.fuel (.next s ⟨f, []⟩)) ∨
    (call = ⟨func, args, s⟩ ∧ func < s.inst.module.importedFuncs.length ∧
      ∃ type, s.inst.module.funcType? func = some type) := by
  unfold State.importCalls at made
  split at made
  · rename_i f opened
    exact .inl ⟨f, opened, made⟩
  · split at made
    · rename_i imported
      exact .inr ⟨List.mem_singleton.mp made, imported.1, Option.isSome_iff_exists.mp imported.2⟩
    · simp at made

theorem State.importCalls_imported (made : call ∈ s.importCalls host budget func args) :
    call.index < call.state.inst.module.importedFuncs.length := by
  rcases State.importCalls_cases made with ⟨f, _, made⟩ | ⟨rfl, imported, _⟩
  · obtain ⟨c, _, called, _⟩ := importCalls_reached made
    exact (State.typed_of_importCall? called).1
  · exact imported

theorem State.importCalls_typed (made : call ∈ s.importCalls host budget func args)
    (typed : ∀ type, s.inst.module.funcType? func = some type → args.map Value.type = type.params) :
    call.Typed := by
  rcases State.importCalls_cases made with ⟨f, _, made⟩ | ⟨rfl, imported, type, known⟩
  · obtain ⟨c, _, called, _⟩ := importCalls_reached made
    exact State.typed_of_importCall? called
  · exact ⟨imported, type, known, typed type known⟩

theorem State.call_of_failed_import (made : call ∈ s.importCalls host budget func args)
    (failed : (host call.index call.args call.state.memories call.state.user).results = .error message) :
    s.call host budget func args =
      (call.state.answered (host call.index call.args call.state.memories call.state.user), .error (.host message)) := by
  rcases State.importCalls_cases made with ⟨f, opened, made⟩ | ⟨rfl, imported, type, known⟩
  · simp only [State.call, opened]
    exact run_of_failed_import made failed
  · simp only at failed
    simp only [State.call, State.invoke, known, if_pos imported, failed]
    rfl

theorem State.step_of_results {c : Control} (called : s.importCall? c = some call)
    (answered : (host call.index call.args s.memories s.user).results = .ok results)
    (typed : ∀ type, s.inst.module.funcType? call.index = some type → results.map Value.type = type.results) :
    ∃ f, s.callee? c = some (call.index, f) ∧
      s.step host c = .next (s.answered (host call.index call.args s.memories s.user))
        ⟨{ f with values := results.reverse ++ f.values.drop call.args.length }, c.callers⟩ := by
  obtain ⟨_, _, f, type, rest, callee, known, taken, step⟩ := State.step_of_importCall called
  obtain ⟨types, below⟩ := takeTyped_some taken
  have count : call.args.length = type.params.length := by rw [← types, List.length_map]
  refine ⟨f, callee, ?_⟩
  rw [step, State.resume, answered, count, ← below]
  simp only [if_pos (typed type known)]

end

namespace State

variable {σ : Type} {host : HostCall σ} {s t : State σ}

/-- Neither the module of an instance nor the places of its memories change, and no memory comes or goes. -/
structure SameLayout (s t : State σ) : Prop where
  module : t.inst.module = s.inst.module
  places : t.inst.memories = s.inst.memories
  size : t.memories.size = s.memories.size

theorem SameLayout.refl (s : State σ) : s.SameLayout s := ⟨rfl, rfl, rfl⟩

theorem SameLayout.kept (sizes : ∀ index args memories user,
    (host index args memories user).memories.size = memories.size) (s : State σ) : Kept host s.SameLayout where
  change same change :=
    ⟨change.module_eq.trans same.module, change.places_eq.trans same.places, change.size_eq.trans same.size⟩
  answer _ _ _ same := ⟨same.module, same.places, (sizes _ _ _ _).trans same.size⟩

/-- No table comes or goes. -/
theorem tables_kept (host : HostCall σ) (count : Nat) : Kept host fun s : State σ => s.inst.tables.size = count where
  change same change := change.tables_eq.trans same
  answer _ _ _ same := same

/-- The memories are as they were, but for those that the instance has and the one that the embedder sees. -/
structure Confined (seen : Option Nat) (s t : State σ) : Prop extends SameLayout s t where
  foreign : ∀ place ∉ s.inst.memories, seen ≠ some place → t.memories[place]? = s.memories[place]?

theorem Confined.refl (seen : Option Nat) (s : State σ) : s.Confined seen s := ⟨.refl s, fun _ _ _ => rfl⟩

/-- Code of an instance reaches no other memories, if the embedder writes only to the one that it sees. -/
theorem Confined.kept (sizes : ∀ index args memories user, (host index args memories user).memories.size = memories.size)
    (others : ∀ index args memories user place, seen ≠ some place →
      (host index args memories user).memories[place]? = memories[place]?) (s : State σ) :
    Kept host (s.Confined seen) where
  change confined change :=
    { (SameLayout.kept sizes s).change confined.toSameLayout change with
      foreign := fun place foreign unseen =>
        (change.memories_eq (confined.places ▸ foreign)).trans (confined.foreign place foreign unseen) }
  answer index args imported confined :=
    { (SameLayout.kept sizes s).answer index args imported confined.toSameLayout with
      foreign := fun place foreign unseen =>
        (others index args _ _ place unseen).trans (confined.foreign place foreign unseen) }

/-- The state of the embedder and the memories that an instance does not have are as they were. -/
structure Alone (s t : State σ) : Prop extends SameLayout s t where
  user : t.user = s.user
  foreign : ∀ place ∉ s.inst.memories, t.memories[place]? = s.memories[place]?

theorem Alone.refl (s : State σ) : s.Alone s := ⟨.refl s, rfl, fun _ _ => rfl⟩

/-- Code that gets only refusals changes nothing that is not its own. -/
theorem Alone.kept (refuses : ∀ index args memories user,
    (host index args memories user).memories = memories ∧ (host index args memories user).user = user)
    (s : State σ) : Kept host s.Alone where
  change alone change :=
    { (SameLayout.kept (fun index args memories user => by rw [(refuses index args memories user).1]) s).change
        alone.toSameLayout change with
      user := change.user_eq.trans alone.user
      foreign := fun place foreign =>
        (change.memories_eq (alone.places ▸ foreign)).trans (alone.foreign place foreign) }
  answer {after} index args _ alone := by
    obtain ⟨memories, user⟩ := refuses index args after.memories after.user
    rw [answered, memories, user]
    exact alone

end State
end WasmBinding.Wasm
