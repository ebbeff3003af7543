import WasmBinding.Proofs.Wasm.Execution

/-! Runs and what they are told. The embedder makes a difference to a run only by its answers to the calls that the run makes:
if these are the same, the run goes the same way, whatever other calls would be answered. -/

namespace WasmBinding.Wasm

variable {σ : Type} {host other : HostCall σ} {s : State σ}

/-- Another embedder gives the same answers to some calls. -/
def AnswersAlike (host other : HostCall σ) (calls : List (ImportCall σ)) : Prop :=
  ∀ call ∈ calls, other call.index call.args call.state.memories call.state.user =
    host call.index call.args call.state.memories call.state.user

theorem run_congr (same : AnswersAlike host other (importCalls host fuel turn)) :
    run other fuel turn = run host fuel turn ∧ importCalls other fuel turn = importCalls host fuel turn := by
  induction fuel generalizing turn with
  | zero => cases turn <;> exact ⟨rfl, rfl⟩
  | succ fuel ih =>
    cases turn with
    | stop s outcome => exact ⟨rfl, rfl⟩
    | next s c =>
      simp only [importCalls] at same
      have step : s.step other c = s.step host c := by
        cases called : s.importCall? c with
        | none =>
          obtain ⟨turn, _, stepped⟩ := State.step_of_no_importCall called
          rw [stepped, stepped]
        | some call =>
          obtain ⟨rfl, _, _, _, _, _, _, _, stepped⟩ := State.step_of_importCall called
          have now : call ∈ (call.state.importCall? c).toList := Option.mem_toList.mpr called
          rw [stepped, stepped, same call (List.mem_append_left _ now)]
      have later : AnswersAlike host other (importCalls host fuel (s.step host c)) :=
        fun call made => same call (List.mem_append_right _ made)
      simp only [run, importCalls, step, ih later, and_self]

namespace State

/-- The function that is called is itself answered by the embedder, if it is imported. -/
theorem invoke_congr (same : func < s.inst.module.importedFuncs.length → (s.inst.module.funcType? func).isSome = true →
      other func args s.memories s.user = host func args s.memories s.user) (room : Nat) :
    s.invoke other func room args = s.invoke host func room args := by
  unfold invoke
  dsimp only
  split
  · rfl
  · rename_i type known
    split
    · rename_i imported
      rw [same imported (by rw [known]; rfl)]
    · rfl

theorem imported_of_not_opened (imported : func < s.inst.module.importedFuncs.length) (room : Nat) :
    ∀ f, s.invoke host func room args ≠ .opened f := by
  unfold invoke
  dsimp only
  split
  · simp
  · rw [if_pos imported]
    split
    · split <;> simp
    · simp

theorem call_congr (budget : Budget) (func : Nat) (args : List Value)
    (same : AnswersAlike host other (s.importCalls host budget func args)) :
    s.call other budget func args = s.call host budget func args ∧
      s.importCalls other budget func args = s.importCalls host budget func args := by
  have invoked : s.invoke other func budget.frames args = s.invoke host func budget.frames args := by
    refine invoke_congr (fun imported known => ?_) budget.frames
    have made : ⟨func, args, s⟩ ∈ s.importCalls host budget func args := by
      unfold importCalls
      split
      · rename_i f opened
        exact absurd opened (imported_of_not_opened imported budget.frames f)
      · rw [if_pos ⟨imported, known⟩]
        exact List.mem_singleton_self _
    exact same _ made
  unfold importCalls at same
  unfold call importCalls
  rw [invoked]
  cases opened : s.invoke host func budget.frames args with
  | opened f =>
    rw [opened] at same
    exact run_congr same
  | answered => exact ⟨rfl, rfl⟩
  | failed => exact ⟨rfl, rfl⟩

end State
end WasmBinding.Wasm
