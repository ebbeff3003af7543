import WasmBinding.Proofs.Store.ImportCalls
import WasmBinding.Proofs.Wasm.Endings

/-! Calls from outside. A function of a loaded module that is called with scalars of its parameter types runs once, on
the numbers with their bits; what the store keeps and what the caller is told follow from how that run ends. -/

namespace WasmBinding

open Wasm (Abort ImportCall Value)

theorem Wasm.Value.toSlot?_eq_none_iff {v : Value} : v.toSlot? = none ↔ v.type.tag = .unknown := by
  cases v <;> simp [toSlot?, type, ValType.tag]

/-- All of the values get a slot exactly if all are numbers. -/
theorem length_leadingSlots_iff (values : List Value) :
    (leadingSlots values).length = values.length ↔ .unknown ∉ values.map (·.type.tag) := by
  induction values with
  | nil => simp [leadingSlots]
  | cons v rest ih =>
    cases carried : v.toSlot? with
    | none =>
      have unknown := Value.toSlot?_eq_none_iff.mp carried
      simp [leadingSlots, carried, unknown]
    | some slot =>
      have known : v.type.tag ≠ .unknown := fun unknown => by
        rw [Value.toSlot?_eq_none_iff.mpr unknown] at carried
        contradiction
      simp [leadingSlots, carried, ih, known.symm]

/-- Scalars of the types of the parameters become the operands with their bits. -/
theorem Function.values_scalars {f : Function} {args : List Scalar} (fits : args.map (·.type.tag) = f.params) :
    f.values (args.map Scalar.toSlot) = .ok (args.map Scalar.toValue) := by
  have count : (args.map Scalar.toSlot).length = f.params.length := by
    rw [← fits, List.length_map, List.length_map]
  have carried := Scalar.mapM_ofSlot? args
  rw [fits] at carried
  simp only [values, if_neg (Decidable.not_not.mpr count), carried]

namespace Store

variable {σ : Type} {s : Store σ} {f : Function} {m : LoadedModule} {values results : List Value}

/-- The run that a call from outside starts, and how it ends. -/
def outcome (s : Store σ) (f : Function) (m : LoadedModule) (values : List Value) :
    Wasm.State σ × Except Abort (List Value) :=
  (s.stateOf m).call (s.hostCall m f.index) s.budget f.index values

/-- A store after a run that has left some results for the caller. -/
def finished (s : Store σ) (f : Function) (state : Wasm.State σ) (results : List Slot) : Store σ :=
  { s.commit f.module state with results := results }

theorem outcome_typed (offers : s.Offers f m type) (ended : s.outcome f m values = (state, .ok results)) :
    results.map (·.type.tag) = f.results := by
  have types := Wasm.State.call_ok offers.known ended
  rw [offers.results, ← types, List.map_map]
  rfl

/-- A run that fails in words was failed by the embedder, when it called an imported function. -/
theorem outcome_failed (found : s.modules[f.module]? = some m) (given : f.values args = .ok values)
    (ended : s.outcome f m values = (state, .error (.host message))) :
    ∃ call ∈ s.importCalls f args, (s.answer m f call).results = .error message := by
  obtain ⟨call, made, words⟩ := Wasm.State.call_failed ended
  refine ⟨call, ?_, words⟩
  simp only [importCalls, found, given]
  exact made

theorem run_of_outcome {answer : Except Abort (List Value)} (found : s.modules[f.module]? = some m)
    (ended : s.outcome f m values = (state, answer)) :
    s.run f values = (s.commit f.module state, answer.mapError Fault.ofAbort) := by
  have ran : (s.stateOf m).call (s.hostCall m f.index) s.budget f.index values = (state, answer) := ended
  cases answer <;> simp only [run, found, ran] <;> rfl

/-- All that a call can come to once its arguments are given: results that fit into slots, results of which one does
not, or a failure. -/
theorem call_outcome (offers : s.Offers f m type) (given : f.values args = .ok values) :
    (∃ state results, s.outcome f m values = (state, .ok results) ∧ .unknown ∉ f.results ∧
      s.call f args = (s.finished f state (leadingSlots results), .ok ())) ∨
    (∃ state results, s.outcome f m values = (state, .ok results) ∧ .unknown ∈ f.results ∧
      s.call f args = (s.finished f state (leadingSlots results), .error .signatureMismatch)) ∨
    ∃ state cause, s.outcome f m values = (state, .error cause) ∧
      s.call f args = (s.finished f state [], .error (.ofAbort cause)) := by
  obtain ⟨⟨state, answer⟩, ended⟩ : ∃ ending, s.outcome f m values = ending := ⟨_, rfl⟩
  have ran := run_of_outcome (s := { s with results := [] }) offers.module ended
  cases answer with
  | error cause =>
    refine .inr (.inr ⟨state, cause, ended, ?_⟩)
    simp only [call, given, ran]
    rfl
  | ok results =>
    have carried := length_leadingSlots_iff results
    rw [outcome_typed offers ended] at carried
    have ran : ({ s with results := [] } : Store σ).run f values = (_, .ok results) := ran
    by_cases unknown : .unknown ∈ f.results
    · refine .inr (.inl ⟨state, results, ended, unknown, ?_⟩)
      have short : (leadingSlots results).length ≠ results.length := fun all => carried.mp all unknown
      simp only [call, given, ran, if_neg short]
      rfl
    · refine .inl ⟨state, results, ended, unknown, ?_⟩
      simp only [call, given, ran, if_pos (carried.mpr unknown)]
      rfl

end Store
end WasmBinding
