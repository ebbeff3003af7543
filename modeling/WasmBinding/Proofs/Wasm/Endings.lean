import WasmBinding.Proofs.Wasm.Execution

/-! How calls end. A step goes on in its frame, opens another or closes it, or the run stops. What a function called
from outside answers has the types that it declares, and a failure is a trap or has the words of the embedder. -/

namespace WasmBinding.Wasm

/-- The frame of the function that was called from outside. -/
def outermost : Frame → List Frame → Frame
  | f, [] => f
  | _, caller :: rest => outermost caller rest

def Control.returns (c : Control) : List ValType := (outermost c.frame c.callers).results

theorem outermost_results {f g : Frame} (same : f.results = g.results) (callers : List Frame) :
    (outermost f callers).results = (outermost g callers).results := by
  cases callers with
  | nil => exact same
  | cons caller rest => rfl

/-- All that a step can come to. -/
inductive Progress {σ : Type} (host : HostCall σ) (s : State σ) (c : Control) : Turn σ → Prop where
  | moved (t : State σ) {f : Frame} (results : f.results = c.frame.results) : Progress host s c (.next t ⟨f, c.callers⟩)
  | opened (callee : Frame) {f : Frame} (results : f.results = c.frame.results) :
      Progress host s c (.next s ⟨callee, f :: c.callers⟩)
  | closed (values : List Value) (callers : c.callers = caller :: rest) :
      Progress host s c (.next s ⟨{ caller with values := values }, rest⟩)
  | ended (callers : c.callers = []) (types : values.map Value.type = c.frame.results) :
      Progress host s c (.stop s (.ok values))
  | trapped (t : State σ) (cause : Trap) : Progress host s c (t.fail cause)
  | failed (t : State σ) (called : s.importCall? c = some call)
      (words : (host call.index call.args s.memories s.user).results = .error message) :
      Progress host s c (.stop t (.error (.host message)))

namespace Progress

open State

variable {σ : Type} {host : HostCall σ} {s : State σ} {c : Control} {f : Frame} {call : ImportCall σ}

theorem finish (results : f.results = c.frame.results) : Progress host s c (s.finish f c.callers) := by
  unfold State.finish
  split
  · exact .trapped s _
  · rename_i values _ taken
    have types : values.map Value.type = c.frame.results := (takeTyped_some taken).1.trans results
    split
    · rename_i callers
      exact .ended callers types
    · rename_i callers
      exact .closed _ callers

theorem branch (label : Nat) (results : f.results = c.frame.results) :
    Progress host s c (s.branch label f c.callers) := by
  unfold State.branch
  split
  · exact .moved s results
  · exact .finish results

theorem resume (called : s.importCall? c = some call) (type : FuncType) (results : f.results = c.frame.results) :
    Progress host s c (s.resume type f c.callers (host call.index call.args s.memories s.user)) := by
  unfold State.resume
  split
  · split
    · exact .moved _ results
    · exact .trapped _ _
  · rename_i words
    exact .failed _ called words

theorem callFrom (callee : s.callee? c = some (func, f)) (results : f.results = c.frame.results) :
    Progress host s c (s.callFrom host func f c.callers) := by
  cases known : s.inst.module.funcType? func with
  | none =>
    simp only [State.callFrom, known]
    exact .trapped s _
  | some type =>
    cases taken : takeTyped type.params f.values with
    | none =>
      simp only [State.callFrom, known, taken]
      exact .trapped s _
    | some both =>
      obtain ⟨args, rest⟩ := both
      by_cases imported : func < s.inst.module.importedFuncs.length
      · have called : s.importCall? c = some ⟨func, args, s⟩ := by
          simp [importCall?, callee, known, taken, imported]
        rw [callFrom_of_import known taken imported]
        exact .resume called type results
      · simp only [State.callFrom, known, taken, invoke, if_neg imported]
        cases body : s.inst.module.bodies[func - s.inst.module.importedFuncs.length]? with
        | none => exact .trapped s _
        | some own =>
          cases room : f.room with
          | zero => exact .trapped s _
          | succ room => exact .opened _ results

end Progress

namespace State

variable {σ : Type} {host : HostCall σ} {s t : State σ} {c : Control}

theorem results_of_callee (h : s.callee? c = some (func, f)) : f.results = c.frame.results := by
  unfold callee? at h
  repeat' split at h
  all_goals cases h
  all_goals rfl

theorem step_progress (host : HostCall σ) (s : State σ) (c : Control) : Progress host s c (s.step host c) := by
  cases callee : s.callee? c with
  | some both =>
    rw [step_of_callee callee]
    exact .callFrom callee (results_of_callee callee)
  | none =>
    cases code : c.frame.code with
    | nil =>
      simp only [step, code]
      exact .trapped s _
    | cons i rest =>
      cases i with
      | call func => simp [callee?, code] at callee
      | callIndirect type table =>
        obtain ⟨cause, step⟩ := step_of_no_indirect callee code
        rw [step]
        exact .trapped s cause
      | unreachable =>
        simp only [step, code]
        exact .trapped s _
      | nop =>
        simp only [step, code]
        exact .moved s rfl
      | ret =>
        simp only [step, code]
        exact .finish rfl
      | br label =>
        simp only [step, code]
        exact .branch label rfl
      | brIf label =>
        simp only [step, code]
        split
        · split
          · exact .branch label rfl
          · exact .moved s rfl
        · exact .trapped s _
      | brTable labels fallback =>
        simp only [step, code]
        split
        · exact .branch _ rfl
        · exact .trapped s _
      | cond t =>
        simp only [step, code]
        split
        · split
          · exact .moved s rfl
          · split <;> exact .moved s rfl
        · exact .trapped s _
      | done =>
        simp only [step, code]
        split
        · exact .moved s rfl
        · exact .finish rfl
      | block | loop | otherwise | operand | storage =>
        simp only [step, code]
        split
        · exact .moved _ rfl
        · exact .trapped s _

end State

/-- A turn of a call whose results have given types, if it has come to any. -/
def Turn.Returning {σ : Type} (types : List ValType) : Turn σ → Prop
  | .next _ c => c.returns = types
  | .stop _ (.ok values) => values.map Value.type = types
  | .stop _ (.error _) => True

section

variable {σ : Type} {host : HostCall σ} {s t : State σ} {turn : Turn σ}

theorem Progress.returning (h : Progress host s c turn) : turn.Returning c.returns := by
  cases h with
  | moved t results => exact outermost_results results c.callers
  | opened callee results => exact outermost_results results c.callers
  | closed values callers =>
    simp only [Turn.Returning, Control.returns, callers, outermost]
    apply outermost_results
    rfl
  | ended callers types =>
    simp only [Turn.Returning, Control.returns, callers, outermost]
    exact types
  | trapped | failed => trivial

theorem run_returning (h : turn.Returning types) (ended : run host fuel turn = (t, .ok values)) :
    values.map Value.type = types := by
  induction fuel generalizing turn with
  | zero =>
    cases turn with
    | stop s outcome =>
      cases ended
      exact h
    | next s c => cases ended
  | succ fuel ih =>
    cases turn with
    | stop s outcome =>
      cases ended
      exact h
    | next s c =>
      cases h
      exact ih (State.step_progress host s c).returning ended

/-- If a run that goes on fails in words, they are the embedder's, for a call of an imported function. -/
theorem run_failed (ended : run host fuel (.next s c) = (t, .error (.host message))) :
    ∃ call ∈ importCalls host fuel (.next s c),
      (host call.index call.args call.state.memories call.state.user).results = .error message := by
  induction fuel generalizing s c with
  | zero => cases ended
  | succ fuel ih =>
    have progress := State.step_progress host s c
    simp only [run] at ended
    simp only [importCalls]
    generalize s.step host c = turn at progress ended
    cases turn with
    | next s' c' =>
      obtain ⟨call, made, words⟩ := ih ended
      exact ⟨call, List.mem_append_right _ made, words⟩
    | stop s' outcome =>
      rw [run_stop] at ended
      cases ended
      cases progress with
      | failed t called words =>
        obtain ⟨rfl, _⟩ := State.step_of_importCall called
        exact ⟨_, List.mem_append_left _ (Option.mem_toList.mpr called), words⟩

end

namespace State

variable {σ : Type} {host : HostCall σ} {s t : State σ}

/-- All that comes of invoking a function: a frame that will answer in the types that it declares, an answer in those
types, a trap, or the words of the embedder. -/
theorem invoke_cases (host : HostCall σ) (s : State σ) (func room : Nat) (args : List Value) :
    (∃ f type, s.invoke host func room args = .opened f ∧ s.inst.module.funcType? func = some type ∧
      f.results = type.results) ∨
    (∃ t values type, s.invoke host func room args = .answered t values ∧ s.inst.module.funcType? func = some type ∧
      values.map Value.type = type.results) ∨
    (∃ t cause, s.invoke host func room args = .failed t (.trap cause)) ∨
    ∃ t message type, s.invoke host func room args = .failed t (.host message) ∧
      func < s.inst.module.importedFuncs.length ∧ s.inst.module.funcType? func = some type ∧
      (host func args s.memories s.user).results = .error message := by
  unfold invoke
  dsimp only
  split
  · exact .inr (.inr (.inl ⟨_, _, rfl⟩))
  · rename_i type known
    split
    · rename_i imported
      split
      · split
        · rename_i typed
          exact .inr (.inl ⟨_, _, type, rfl, known, typed⟩)
        · exact .inr (.inr (.inl ⟨_, _, rfl⟩))
      · rename_i words
        exact .inr (.inr (.inr ⟨_, _, type, rfl, imported, known, words⟩))
    · split
      · exact .inr (.inr (.inl ⟨_, _, rfl⟩))
      · exact .inl ⟨_, type, rfl, known, rfl⟩
      · exact .inr (.inr (.inl ⟨_, _, rfl⟩))

theorem call_ok (known : s.inst.module.funcType? func = some type)
    (ended : s.call host budget func args = (t, .ok values)) : values.map Value.type = type.results := by
  unfold call at ended
  rcases invoke_cases host s func budget.frames args with
    ⟨f, _, opened, declared, results⟩ | ⟨_, _, _, answered, declared, types⟩ | ⟨_, _, trapped⟩ | ⟨_, _, _, failed, _⟩
  · cases known.symm.trans declared
    rw [opened] at ended
    have returning : (Turn.next s ⟨f, []⟩).Returning type.results := results
    exact run_returning returning ended
  · cases known.symm.trans declared
    rw [answered] at ended
    cases ended
    exact types
  · rw [trapped] at ended
    cases ended
  · rw [failed] at ended
    cases ended

theorem call_failed (ended : s.call host budget func args = (t, .error (.host message))) :
    ∃ call ∈ s.importCalls host budget func args,
      (host call.index call.args call.state.memories call.state.user).results = .error message := by
  unfold call at ended
  unfold importCalls
  rcases invoke_cases host s func budget.frames args with
    ⟨f, _, opened, _⟩ | ⟨_, _, _, answered, _⟩ | ⟨_, _, trapped⟩ | ⟨_, _, _, failed, imported, known, words⟩
  · rw [opened] at ended ⊢
    exact run_failed ended
  · rw [answered] at ended
    cases ended
  · rw [trapped] at ended
    cases ended
  · rw [failed] at ended ⊢
    cases ended
    exact ⟨⟨func, args, s⟩, by simp [imported, known], words⟩

end State
end WasmBinding.Wasm
