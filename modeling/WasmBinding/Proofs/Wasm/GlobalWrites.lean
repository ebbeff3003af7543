import WasmBinding.Proofs.Wasm.Execution

/-! What code writes to globals. A run changes the globals of its instance by the writes of the instructions that it comes
to, in their order, and by nothing else; each write fits the type that the global has. Which globals can be written to is
decided by the code of the module alone. -/

namespace WasmBinding.Wasm

/-- The globals after some writes, each of a value to an index. -/
def writeGlobals (globals : Array Value) (writes : List (Nat × Value)) : Array Value :=
  writes.foldl (fun globals (index, v) => globals.setIfInBounds index v) globals

@[simp] theorem writeGlobals_nil (globals : Array Value) : writeGlobals globals [] = globals := rfl

theorem writeGlobals_append (globals : Array Value) (first second : List (Nat × Value)) :
    writeGlobals globals (first ++ second) = writeGlobals (writeGlobals globals first) second :=
  List.foldl_append

/-- A global has the value that was written to it last, or the one that it had. -/
theorem writeGlobals_latest (globals : Array Value) (writes : List (Nat × Value)) (index : Nat) :
    (writeGlobals globals writes)[index]? = globals[index]?.map fun was => (writes.reverse.lookup index).getD was := by
  induction writes generalizing globals with
  | nil => simp
  | cons w rest ih =>
    obtain ⟨target, v⟩ := w
    refine (ih (globals.setIfInBounds target v)).trans ?_
    rw [List.reverse_cons, List.lookup_append, Array.getElem?_setIfInBounds]
    by_cases same : target = index
    · subst same
      by_cases inside : target < globals.size
      · cases rest.reverse.lookup target <;> simp [inside]
      · simp [inside]
    · have other : index ≠ target := Ne.symm same
      rw [if_neg same, List.lookup_cons, beq_false_of_ne other, List.lookup_nil, Option.or_none]

theorem getElem?_writeGlobals {globals : Array Value} {writes : List (Nat × Value)}
    (inside : ∀ w ∈ writes, w.1 < globals.size) (index : Nat) :
    (writeGlobals globals writes)[index]? = (writes.reverse.lookup index).or globals[index]? := by
  rw [writeGlobals_latest]
  cases there : globals[index]? with
  | some was => cases writes.reverse.lookup index <;> rfl
  | none =>
    have unwritten : writes.reverse.lookup index = none := by
      rw [List.lookup_eq_none_iff]
      intro w among
      have := inside w (List.mem_reverse.mp among)
      have := Array.getElem?_eq_none_iff.mp there
      exact bne_iff_ne.mpr (by omega)
    rw [unwritten]
    rfl

/-- Writes that fit the types that globals have. -/
def Fitting (globals : Array Value) (writes : List (Nat × Value)) : Prop :=
  ∀ w ∈ writes, (globals.map Value.type)[w.1]? = some w.2.type

theorem Fitting.inside {globals : Array Value} (fitting : Fitting globals writes) : ∀ w ∈ writes, w.1 < globals.size := by
  intro w among
  have there := (Array.getElem?_eq_some_iff.mp (fitting w among)).1
  rwa [Array.size_map] at there

/-- Globals keep their types if only fitting values are written. -/
theorem Fitting.types {globals : Array Value} (fitting : Fitting globals writes) :
    (writeGlobals globals writes).map Value.type = globals.map Value.type := by
  induction writes generalizing globals with
  | nil => rfl
  | cons w rest ih =>
    have once : (globals.setIfInBounds w.1 w.2).map Value.type = globals.map Value.type := by
      have fits := fitting w List.mem_cons_self
      apply Array.ext_getElem?
      intro index
      rw [Array.getElem?_map, Array.getElem?_setIfInBounds]
      by_cases same : w.1 = index
      · subst same
        have inside := fitting.inside w List.mem_cons_self
        rw [if_pos rfl, if_pos inside, fits, Option.map_some]
      · rw [if_neg same, Array.getElem?_map]
    have later : Fitting (globals.setIfInBounds w.1 w.2) rest := fun w among => by
      rw [once]
      exact fitting w (List.mem_cons_of_mem _ among)
    exact (ih later).trans once

namespace State

variable {σ : Type}

/-- What the next step writes to a global. -/
def globalWrite? (s : State σ) (c : Control) : Option (Nat × Value) :=
  match c.frame.code, c.frame.values with
  | .storage (.globalSet index) :: _, v :: _ =>
    if (s.inst.globals.map Value.type)[index]? = some v.type then some (index, v) else none
  | _, _ => none

end State

def globalWrites {σ : Type} (host : HostCall σ) : (fuel : Nat) → Turn σ → List (Nat × Value)
  | fuel + 1, .next s c => (s.globalWrite? c).toList ++ globalWrites host fuel (s.step host c)
  | _, _ => []

namespace State

variable {σ : Type} {s t : State σ} {c : Control} {host : HostCall σ}

/-- What a call from outside writes to globals. -/
def globalWrites (host : HostCall σ) (budget : Budget) (s : State σ) (func : Nat) (args : List Value) :
    List (Nat × Value) :=
  match s.invoke host func budget.frames args with
  | .opened f => Wasm.globalWrites host budget.fuel (.next s ⟨f, []⟩)
  | _ => []

/-- What the start function of a new instance writes to globals, if it comes to run. -/
def startWrites (host : HostCall σ) (budget : Budget) (s : State σ) : List (Nat × Value) :=
  match s.putSegments with
  | (t, .ok ()) =>
    match t.inst.module.start with
    | some func => t.globalWrites host budget func []
    | none => []
  | _ => []

theorem exec_globalSet (s : State σ) (index : Nat) (v : Value) (rest : List Value) :
    s.exec (.globalSet index) (v :: rest) =
      if (s.inst.globals.map Value.type)[index]? = some v.type then
        .ok ({ s with inst := { s.inst with globals := s.inst.globals.setIfInBounds index v } }, rest)
      else .error .illTyped := by
  simp only [exec, Array.getElem?_map]
  cases s.inst.globals[index]? with
  | none => rfl
  | some old => simp only [Option.map_some, Option.some.injEq, eq_comm]

/-- No other instruction touches a global. -/
theorem exec_globals {i : StorageInstr} (other : ∀ index, i ≠ .globalSet index) (h : s.exec i values = .ok (t, rest)) :
    t.inst.globals = s.inst.globals := by
  unfold exec at h
  dsimp only at h
  split at h
  case h_2 index _ _ => exact absurd rfl (other index)
  all_goals
    repeat' split at h
    all_goals cases h
    all_goals rfl

theorem inst_invoke (host : HostCall σ) (s : State σ) (func room : Nat) (args : List Value) :
    ((s.invoke host func room args).state s).inst = s.inst := by
  unfold invoke
  dsimp only
  repeat' split
  all_goals rfl

theorem inst_callFrom (s : State σ) (func : Nat) (f : Frame) (callers : List Frame) :
    (s.callFrom host func f callers).state.inst = s.inst := by
  unfold callFrom
  split
  · rfl
  · split
    · rfl
    · rename_i args rest _
      have invoked := s.inst_invoke host func f.room args
      split
      all_goals
        rename_i invocation
        rw [invocation] at invoked
        exact invoked

/-- A step changes the globals by what it writes to one of them, if it does. -/
theorem step_globals (host : HostCall σ) (s : State σ) (c : Control) :
    (s.step host c).state.inst.globals = writeGlobals s.inst.globals (s.globalWrite? c).toList := by
  cases code : c.frame.code with
  | nil => simp [step, globalWrite?, code]
  | cons i rest =>
    cases i with
    | call func =>
      simp only [step, globalWrite?, code, inst_callFrom]
      rfl
    | callIndirect type table =>
      simp only [step, globalWrite?, code]
      repeat' split
      all_goals first | rfl | exact congrArg Instance.globals (inst_callFrom ..)
    | storage i =>
      by_cases set : ∃ index, i = .globalSet index
      · obtain ⟨index, rfl⟩ := set
        cases values : c.frame.values with
        | nil => simp [step, globalWrite?, code, values, exec]
        | cons v below =>
          by_cases fits : (s.inst.globals.map Value.type)[index]? = some v.type
          · simp only [step, globalWrite?, code, values, exec_globalSet, if_pos fits]
            rfl
          · simp only [step, globalWrite?, code, values, exec_globalSet, if_neg fits]
            rfl
      · have other : ∀ index, i ≠ .globalSet index := fun index same => set ⟨index, same⟩
        have quiet : s.globalWrite? c = none := by
          unfold globalWrite?
          rw [code]
          split
          · rename_i same _
            cases same
            exact absurd rfl (other _)
          · rfl
        simp only [step, code, quiet]
        cases executed : s.exec i c.frame.values with
        | error cause => rfl
        | ok result => exact exec_globals other executed
    | unreachable | nop | block | loop | cond | otherwise | done | br | brIf | brTable | ret | operand =>
      simp only [step, globalWrite?, code]
      repeat' split
      all_goals simp

theorem fitting_globalWrite? (s : State σ) (c : Control) : Fitting s.inst.globals (s.globalWrite? c).toList := by
  intro w among
  simp only [Option.mem_toList, globalWrite?] at among
  split at among
  · split at among
    · cases among
      assumption
    · contradiction
  · contradiction

end State

section

variable {σ : Type} {host : HostCall σ} {s t : State σ}

/-- A run changes the globals by its writes, which fit the types that they had when it began. -/
theorem run_globals (host : HostCall σ) (fuel : Nat) (turn : Turn σ) :
    (run host fuel turn).1.inst.globals = writeGlobals turn.state.inst.globals (globalWrites host fuel turn) ∧
      Fitting turn.state.inst.globals (globalWrites host fuel turn) := by
  induction fuel generalizing turn with
  | zero => cases turn <;> exact ⟨rfl, by simp [Fitting, globalWrites]⟩
  | succ fuel ih =>
    cases turn with
    | stop s outcome => exact ⟨rfl, by simp [Fitting, globalWrites]⟩
    | next s c =>
      obtain ⟨replayed, fitting⟩ := ih (s.step host c)
      have now := s.fitting_globalWrite? c
      rw [State.step_globals] at replayed fitting
      refine ⟨?_, ?_⟩
      · rw [globalWrites, writeGlobals_append]
        exact replayed
      · intro w among
        rcases List.mem_append.mp among with first | later
        · exact now w first
        · have fits := fitting w later
          rwa [now.types] at fits

namespace State

theorem call_globals (host : HostCall σ) (budget : Budget) (s : State σ) (func : Nat) (args : List Value) :
    (s.call host budget func args).1.inst.globals = writeGlobals s.inst.globals (s.globalWrites host budget func args) ∧
      Fitting s.inst.globals (s.globalWrites host budget func args) := by
  have invoked := s.inst_invoke host func budget.frames args
  unfold call globalWrites
  cases invocation : s.invoke host func budget.frames args with
  | opened f => exact run_globals host budget.fuel (.next s ⟨f, []⟩)
  | answered after results =>
    rw [invocation] at invoked
    exact ⟨congrArg Instance.globals invoked, by simp [Fitting]⟩
  | failed after cause =>
    rw [invocation] at invoked
    exact ⟨congrArg Instance.globals invoked, by simp [Fitting]⟩

theorem putAll_globals {α : Type} (put : State σ → α → Except Trap (State σ))
    (same : ∀ s t a, put s a = .ok t → t.inst.globals = s.inst.globals) (items : List α) (s : State σ) :
    (putAll put s items).1.inst.globals = s.inst.globals := by
  induction items generalizing s with
  | nil => rfl
  | cons a rest ih =>
    unfold putAll
    split
    · rename_i t wrote
      exact (ih t).trans (same s t a wrote)
    · rfl

theorem putElements_globals {segment : ElementSegment} (h : s.putElements segment = .ok t) :
    t.inst.globals = s.inst.globals := by
  unfold putElements at h
  dsimp only at h
  repeat' split at h
  all_goals cases h
  all_goals rfl

theorem putData_globals {segment : DataSegment} (h : s.putData segment = .ok t) : t.inst.globals = s.inst.globals := by
  unfold putData at h
  repeat' split at h
  all_goals cases h
  all_goals rfl

theorem putSegments_globals (s : State σ) : s.putSegments.1.inst.globals = s.inst.globals := by
  have elements := putAll_globals putElements (fun _ _ _ => putElements_globals) s.inst.module.elements s
  unfold putSegments
  split
  · rename_i t wrote
    rw [wrote] at elements
    exact (putAll_globals putData (fun _ _ _ => putData_globals) _ t).trans elements
  · exact elements

/-- A new instance has its initial globals but for what its start function has written. -/
theorem populate_globals (h : s.populate host budget eager = (t, .ok ())) :
    t.inst.globals = writeGlobals s.inst.globals (s.startWrites host budget) ∧
      Fitting s.inst.globals (s.startWrites host budget) := by
  have segments := s.putSegments_globals
  unfold populate at h
  unfold startWrites
  split at h
  · cases h
  · split at h
    · cases h
    · rename_i put wrote
      rw [wrote] at segments
      rw [wrote]
      split at h
      · rename_i absent
        cases h
        simp only [absent]
        exact ⟨segments, by simp [Fitting]⟩
      · rename_i func start
        simp only [start]
        have called := put.call_globals host budget func []
        rw [segments] at called
        split at h
        · rename_i ended
          cases h
          rw [ended] at called
          exact called
        · cases h

end State

end

theorem Instr.mem_of_skipBlock {i : Instr} (h : i ∈ Instr.skipBlock depth code) : i ∈ code := by
  induction code generalizing depth with
  | nil => simp [skipBlock] at h
  | cons first rest ih =>
    apply List.mem_cons_of_mem
    unfold skipBlock at h
    repeat' split at h
    all_goals first | exact h | exact ih h

theorem Instr.mem_of_secondArm? {i : Instr} (found : Instr.secondArm? depth code = some arm) (h : i ∈ arm) : i ∈ code := by
  induction code generalizing depth with
  | nil => simp [secondArm?] at found
  | cons first rest ih =>
    apply List.mem_cons_of_mem
    unfold secondArm? at found
    repeat' split at found
    all_goals first | exact ih found | (cases found; exact h) | contradiction

/-- A frame that can only come to instructions of a kind. -/
structure Frame.Within (P : Instr → Prop) (f : Frame) : Prop where
  code : ∀ i ∈ f.code, P i
  labels : ∀ l ∈ f.labels, ∀ i ∈ l.target, P i

structure Control.Within (P : Instr → Prop) (c : Control) : Prop where
  frame : c.frame.Within P
  callers : ∀ f ∈ c.callers, f.Within P

def Turn.Within {σ : Type} (P : Instr → Prop) : Turn σ → Prop
  | .next _ c => c.Within P
  | .stop _ _ => True

/-- Whether all code of a module is of a kind. -/
def Module.Within (P : Instr → Prop) (m : Module) : Prop := ∀ b ∈ m.bodies, ∀ i ∈ b.code, P i

section

variable {σ : Type} {host : HostCall σ} {s t : State σ} {P : Instr → Prop} {f : Frame} {c : Control}

theorem Frame.Within.moved {code : List Instr} (h : f.Within P) (all : ∀ i ∈ code, P i) (values : List Value)
    (locals : Array Value) : Frame.Within P { f with code := code, values := values, locals := locals } :=
  ⟨all, h.labels⟩

theorem Frame.Within.enter (h : f.Within P) (params : Nat) (label : List Value → Label)
    (all : ∀ values, ∀ i ∈ (label values).target, P i) : (f.enter params label).Within P := by
  refine ⟨h.code, ?_⟩
  intro l among
  rcases List.mem_cons.mp among with rfl | old
  · exact all _
  · exact h.labels l old

theorem Frame.Within.outer {l : Label} {outer : List Label} (h : f.Within P) (labels : f.labels = l :: outer) :
    (∀ i ∈ l.target, P i) ∧ ∀ l' ∈ outer, ∀ i ∈ l'.target, P i := by
  have inside := h.labels
  rw [labels] at inside
  exact ⟨inside l List.mem_cons_self, fun l' among => inside l' (List.mem_cons_of_mem _ among)⟩

namespace State

theorem finish_within (callers : ∀ g ∈ stack, g.Within P) : (s.finish f stack).Within P := by
  unfold finish
  split
  · trivial
  · split
    · trivial
    · rename_i caller rest
      have first := callers caller List.mem_cons_self
      exact ⟨⟨first.code, first.labels⟩, fun g among => callers g (List.mem_cons_of_mem _ among)⟩

theorem branch_within (h : f.Within P) (callers : ∀ g ∈ stack, g.Within P) (label : Nat) :
    (s.branch label f stack).Within P := by
  unfold branch
  split
  · rename_i l outer found
    have among : ∀ l' ∈ l :: outer, l' ∈ f.labels := fun l' inside => List.mem_of_mem_drop (found ▸ inside)
    refine ⟨⟨h.labels l (among l List.mem_cons_self), ?_⟩, callers⟩
    intro l' inside
    exact h.labels l' (among l' (List.mem_cons_of_mem _ inside))
  · exact finish_within callers

/-- The frame of a function begins with the code of its body. -/
theorem invoke_within (module : s.inst.module.Within P) (invoked : s.invoke host func room args = .opened f) :
    f.Within P := by
  unfold invoke at invoked
  dsimp only at invoked
  repeat' split at invoked
  all_goals cases invoked
  rename_i body _ found
  exact ⟨module body (List.mem_of_getElem? found), by simp⟩

theorem callFrom_within (module : s.inst.module.Within P) (h : f.Within P) (callers : ∀ g ∈ stack, g.Within P)
    (func : Nat) : (s.callFrom host func f stack).Within P := by
  unfold callFrom
  split
  · trivial
  · split
    · trivial
    · split
      · rename_i invoked
        exact ⟨invoke_within module invoked, List.forall_mem_cons.mpr ⟨⟨h.code, h.labels⟩, callers⟩⟩
      · exact ⟨⟨h.code, h.labels⟩, callers⟩
      · trivial

/-- A step stays within the code of the module. -/
theorem step_within (host : HostCall σ) (module : s.inst.module.Within P) (h : c.Within P) : (s.step host c).Within P := by
  obtain ⟨frame, callers⟩ := h
  cases code : c.frame.code with
  | nil =>
    simp only [step, code]
    trivial
  | cons i rest =>
    have all : ∀ j ∈ i :: rest, P j := code ▸ frame.code
    have left : ∀ j ∈ rest, P j := fun j among => all j (List.mem_cons_of_mem i among)
    have behind : ∀ j ∈ Instr.skipBlock 0 rest, P j := fun j among => left j (Instr.mem_of_skipBlock among)
    have here : Frame.Within P { c.frame with code := rest } := frame.moved left _ _
    cases i with
    | unreachable =>
      simp only [step, code]
      trivial
    | nop =>
      simp only [step, code]
      exact ⟨here, callers⟩
    | block t =>
      simp only [step, code]
      split
      · exact ⟨here.enter _ _ fun _ => behind, callers⟩
      · trivial
    | loop t =>
      simp only [step, code]
      split
      · exact ⟨here.enter _ _ fun _ => all, callers⟩
      · trivial
    | cond t =>
      simp only [step, code]
      split
      · split
        · exact ⟨(frame.moved left _ _).enter _ _ fun _ => behind, callers⟩
        · split
          · rename_i arm found
            have second : ∀ j ∈ arm, P j := fun j among => left j (Instr.mem_of_secondArm? found among)
            exact ⟨(frame.moved second _ _).enter _ _ fun _ => behind, callers⟩
          · exact ⟨⟨behind, frame.labels⟩, callers⟩
      · trivial
    | otherwise =>
      simp only [step, code]
      split
      · rename_i l outer labels
        exact ⟨⟨behind, (here.outer labels).2⟩, callers⟩
      · trivial
    | done =>
      simp only [step, code]
      split
      · rename_i l outer labels
        exact ⟨⟨left, (here.outer labels).2⟩, callers⟩
      · exact finish_within callers
    | br label =>
      simp only [step, code]
      exact branch_within here callers label
    | brIf label =>
      simp only [step, code]
      split
      · split
        · exact branch_within (frame.moved left _ _) callers label
        · exact ⟨frame.moved left _ _, callers⟩
      · trivial
    | brTable labels fallback =>
      simp only [step, code]
      split
      · exact branch_within (frame.moved left _ _) callers _
      · trivial
    | ret =>
      simp only [step, code]
      exact finish_within callers
    | call func =>
      simp only [step, code]
      exact callFrom_within module here callers func
    | callIndirect type table =>
      simp only [step, code]
      repeat' split
      all_goals first | trivial | exact callFrom_within module (frame.moved left _ _) callers _
    | operand i =>
      simp only [step, code]
      split
      · exact ⟨frame.moved left _ _, callers⟩
      · trivial
    | storage i =>
      simp only [step, code]
      split
      · exact ⟨frame.moved left _ _, callers⟩
      · trivial

theorem module_step (host : HostCall σ) (s : State σ) (c : Control) :
    (s.step host c).state.inst.module = s.inst.module := by
  have kept : Kept host fun t : State σ => t.inst.module = s.inst.module :=
    { change := fun same change => change.module_eq.trans same
      answer := fun _ _ _ same => same }
  exact kept.step c rfl

/-- A write comes from an instruction that stands in the code. -/
theorem within_of_globalWrite? (h : c.Within P) (w : Nat × Value) (wrote : s.globalWrite? c = some w) :
    P (.storage (.globalSet w.1)) := by
  unfold globalWrite? at wrote
  split at wrote
  · rename_i code _
    split at wrote
    · cases wrote
      exact h.frame.code _ (code ▸ List.mem_cons_self)
    · contradiction
  · contradiction

end State

theorem globalWrites_within (module : turn.state.inst.module.Within P) (h : turn.Within P) :
    ∀ w ∈ globalWrites (σ := σ) host fuel turn, P (.storage (.globalSet w.1)) := by
  induction fuel generalizing turn with
  | zero => cases turn <;> simp [globalWrites]
  | succ fuel ih =>
    cases turn with
    | stop s outcome => simp [globalWrites]
    | next s c =>
      intro w among
      rcases List.mem_append.mp among with now | later
      · exact State.within_of_globalWrite? h w (Option.mem_toList.mp now)
      · have next := State.module_step host s c
        exact ih (next ▸ module) (State.step_within host module h) w later

/-- A call writes only to globals that some instruction of the module sets. -/
theorem State.globalWrites_within (module : s.inst.module.Within P) (budget : Budget) (func : Nat) (args : List Value) :
    ∀ w ∈ s.globalWrites host budget func args, P (.storage (.globalSet w.1)) := by
  unfold State.globalWrites
  split
  · rename_i f invoked
    exact Wasm.globalWrites_within module ⟨invoke_within module invoked, by simp⟩
  · simp

end

end WasmBinding.Wasm
