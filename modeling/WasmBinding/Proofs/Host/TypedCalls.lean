import WasmBinding.Proofs.Host.Outcomes

/-! Calls for a result of a type. The types of the arguments and of the result decide whether the function runs. If it does,
it runs on the bits of the arguments, and its result is the value with the bits that it answers; no other property of the
types of the embedder makes a difference. -/

namespace WasmBinding

open Wasm (Trap)

namespace Host

variable {σ : Type} {h : Host σ} {args others : List Scalar}

theorem call_same_bits (bits : others.map Scalar.toValue = args.map Scalar.toValue) (h : Host σ) (f : FunctionRef) :
    h.call f others = h.call f args := by
  obtain ⟨tags, slots⟩ := Scalar.same_of_toValue bits
  simp only [call, checkCall, tags, slots]

/-- Only bits count: arguments with the same bits have the same effect, and the result has the same bits. -/
theorem callFor_same_bits {type other : ScalarType} (tag : other.tag = type.tag)
    (bits : others.map Scalar.toValue = args.map Scalar.toValue) (h : Host σ) (f : FunctionRef) :
    (h.callFor f other others).1 = (h.callFor f type args).1 ∧
      (h.callFor f other others).2.map other.toValue = (h.callFor f type args).2.map type.toValue := by
  unfold callFor
  rw [tag, call_same_bits bits h f]
  split
  · exact ⟨rfl, rfl⟩
  · split
    · exact ⟨rfl, rfl⟩
    · split
      · exact ⟨rfl, rfl⟩
      · split
        · rename_i slot _
          exact ⟨rfl, congrArg Except.ok (ScalarType.toValue_ofSlot tag slot)⟩
        · exact ⟨rfl, rfl⟩

/-- A call for a result of a type that runs the function, and what the caller is told about that run. -/
structure Performs (h : Host σ) (f : FunctionRef) (type : ScalarType) (args : List Scalar) (m : LoadedModule) : Prop where
  found : h.store.modules[f.function.module]? = some m
  /-- The operands are the numbers with the bits of the arguments. -/
  runs : h.ranFor? f type args = some (h.store.outcome f.function m (args.map Scalar.toValue))
  answers : ∀ v, (h.callFor f type args).2 = .ok v ↔
    (h.store.outcome f.function m (args.map Scalar.toValue)).2 = .ok [type.toValue v]
  returns : ∀ state values, h.store.outcome f.function m (args.map Scalar.toValue) = (state, .ok values) →
    ∃ v, values = [type.toValue v] ∧ h.callFor f type args = (h.finished f state [type.toSlot v], .ok v)
  fails : ∀ state cause, h.store.outcome f.function m (args.map Scalar.toValue) = (state, .error cause) →
    ∃ trap : Trap, Fault.ofAbort cause = .trap trap ∧
      h.callFor f type args = (h.finished f state [], .error (.engine (.trap trap)))

theorem EndingFor.performs {m : LoadedModule} {type : ScalarType}
    (ending : h.EndingFor f type args (h.callFor f type args))
    (found : h.store.modules[f.function.module]? = some m)
    (runs : h.ranFor? f type args = some (h.store.outcome f.function m (args.map Scalar.toValue))) :
    h.Performs f type args m := by
  generalize outcome : h.store.outcome f.function m (args.map Scalar.toValue) = ended at runs
  generalize called : h.callFor f type args = after at ending
  cases ending with
  | refused idle =>
    rw [idle] at runs
    contradiction
  | @returned state v ran =>
    cases runs.symm.trans ran
    refine ⟨found, runs.trans (congrArg some outcome.symm), fun w => ?_, fun state' values same => ?_,
      fun state' cause same => ?_⟩
    · rw [called, outcome]
      constructor
      · intro same
        cases same
        rfl
      · intro same
        cases ScalarType.toValue_inj (List.singleton_inj.mp (Except.ok.inj same))
        rfl
    · cases outcome.symm.trans same
      exact ⟨v, rfl, called⟩
    · cases outcome.symm.trans same
  | @trapped state cause trap ran failed =>
    cases runs.symm.trans ran
    refine ⟨found, runs.trans (congrArg some outcome.symm), fun w => ?_, fun state' values same => ?_,
      fun state' cause same => ?_⟩
    · rw [called, outcome]
      constructor <;> intro same <;> cases same
    · cases outcome.symm.trans same
    · cases outcome.symm.trans same
      exact ⟨trap, failed, called⟩

end Host

namespace Session

variable {σ : Type} {s : Session σ} {f : FunctionRef}

theorem Issued.ranFor?_eq_none_iff (issued : s.Issued f) (type : ScalarType) (args : List Scalar) :
    s.host.ranFor? f type args = none ↔
      ¬ (args.map (·.type.tag) = f.function.params ∧ f.function.results = [type.tag]) := by
  unfold Host.ranFor?
  split
  · rename_i single
    rw [issued.ran?_eq_none_iff args]
    exact not_congr (and_iff_left single).symm
  · rename_i several
    exact iff_of_true rfl fun fits => several fits.2

/-- After a call that has succeeded, the one result of the function can be fetched. -/
theorem Reachable.exists_result (reached : s.Reachable) (resolved : s.Resolved f) (single : f.function.results = [r])
    (succeeded : (s.host.call f args).2 = .ok ()) :
    ∃ slot, (s.host.call f args).1.store.getResults f.function 1 = .ok [slot] := by
  have ending := reached.call_ending resolved args
  generalize s.host.call f args = after at ending succeeded
  cases ending with
  | refused | lost | trapped => contradiction
  | @returned state values ran types carried =>
    rw [← types, ← length_leadingSlots_iff] at carried
    have count : (leadingSlots values).length = f.function.results.length := by
      rw [carried, ← types, List.length_map]
    have fetched := Host.getResults_finished count s.host state
    rw [single, List.length_singleton] at count
    obtain ⟨slot, slots⟩ := List.length_eq_one_iff.mp count
    rw [slots] at fetched ⊢
    exact ⟨slot, fetched⟩

/-- A call for a result passes its checks exactly if its arguments and its result have the types of the function. Then the
function runs once, on the bits of the arguments, and the call answers the value with the bits of its result exactly if
the function returns; otherwise nothing changes. Types that stand for the same numbers can be put in each other's place,
and a result that is there can always be fetched. -/
theorem typed_calls_exact (reached : s.Reachable) (issued : f ∈ s.functions) (single : f.function.results = [r])
    (type : ScalarType) (args : List Scalar) :
    ((s.host.callFor f type args).2 ≠ .error .invalidSignature ↔
      args.map (·.type.tag) = f.function.params ∧ type.tag = r) ∧
    ((s.host.callFor f type args).2 = .error .invalidSignature → (s.host.callFor f type args).1 = s.host) ∧
    (args.map (·.type.tag) = f.function.params ∧ type.tag = r → ∃ m, s.host.Performs f type args m) ∧
    (∀ (other : ScalarType) (others : List Scalar), other.tag = type.tag →
      others.map Scalar.toValue = args.map Scalar.toValue →
        (s.host.callFor f other others).1 = (s.host.callFor f type args).1 ∧
        (s.host.callFor f other others).2.map other.toValue = (s.host.callFor f type args).2.map type.toValue) ∧
    (s.host.callFor f type args).2 ≠ .error .allocationFailed ∧
    ((s.host.call f args).2 = .ok () → ∃ slot, (s.host.call f args).1.store.getResults f.function 1 = .ok [slot]) := by
  have resolved := reached.resolved f issued
  have ending := reached.callFor_ending resolved type args
  have performs : args.map (·.type.tag) = f.function.params ∧ type.tag = r → ∃ m, s.host.Performs f type args m := by
    rintro ⟨fits, rfl⟩
    obtain ⟨m, _, offers⟩ := resolved.issued.2
    have ran := resolved.issued.ran?_eq_some offers.module fits
    exact ⟨m, ending.performs offers.module ((if_pos single).trans ran)⟩
  have idle_iff : s.host.ranFor? f type args = none ↔ ¬ (args.map (·.type.tag) = f.function.params ∧ type.tag = r) := by
    rw [resolved.issued.ranFor?_eq_none_iff type args, single, List.singleton_inj, eq_comm (a := r)]
  refine ⟨?_, fun refused => ?_, performs, fun other others tag bits => ?_, fun failed => ?_,
    reached.exists_result resolved single⟩
  · rw [ne_eq, ending.refused_iff, idle_iff, Decidable.not_not]
  · exact ending.unchanged (ending.refused_iff.mp refused)
  · exact Host.callFor_same_bits tag bits s.host f
  · generalize s.host.callFor f type args = after at ending failed
    cases ending <;> cases failed

end Session

theorem typed_calls_exact_relay :
    (∃ m, Relay.session.host.Performs Relay.handle .i32 [⟨.i32, 5⟩] m) ∧
      (Relay.session.host.callFor Relay.handle .u32 [⟨.u32, 5⟩]).1 =
        (Relay.session.host.callFor Relay.handle .i32 [⟨.i32, 5⟩]).1 := by
  obtain ⟨_, _, performs, same, _⟩ :=
    Session.typed_calls_exact Relay.reachable Relay.issued rfl .i32 [⟨.i32, 5⟩]
  exact ⟨performs ⟨rfl, rfl⟩, (same .u32 [⟨.u32, 5⟩] rfl rfl).1⟩

end WasmBinding
