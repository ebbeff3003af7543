import WasmBinding.Proofs.Wasm.Execution
import WasmBinding.Store.Import

/-! Answers to calls of imported functions. An answer never adds a memory or resizes one, and a module whose
imports are not linked gets only refusals. -/

namespace WasmBinding

open Wasm (Value LinearMemory HostCall HostReply Kept)

section

variable {σ : Type} {slots : List (ImportSlot σ)} {stubs : List Stub} {userData : Nat} {memory : Option Nat}

/-- The answer to a call that nothing stands behind. -/
def missing (memories : Array LinearMemory) (host : σ) : HostReply σ :=
  ⟨memories, host, .error Fault.importMissing.message⟩

/-- Every call is either refused or answered by the target of its slot. -/
theorem dispatch_cases (index : Nat) (args : List Value) (memories : Array LinearMemory) (host : σ) :
    dispatch slots stubs userData memory index args memories host = missing memories host ∨
    ∃ stub slot target, stubs[index]? = some stub ∧ slots[stub.slot]? = some slot ∧ slot.target = some target ∧
      dispatch slots stubs userData memory index args memories host =
        target.answer stub.results userData memory args memories host := by
  unfold dispatch
  split
  · rename_i stub target bound linked
    rw [bound, Option.bind_some, Option.bind_eq_some_iff] at linked
    obtain ⟨slot, found, linked⟩ := linked
    exact .inr ⟨stub, slot, target, bound, found, linked, rfl⟩
  · exact .inl rfl

theorem dispatch_linked (bound : stubs[index]? = some stub) (found : slots[stub.slot]? = some slot)
    (linked : slot.target = some target) :
    dispatch slots stubs userData memory index =
      target.answer stub.results userData memory := by
  funext args memories host
  simp only [dispatch, bound, Option.bind_some, found, linked]

theorem dispatch_unlinked
    (unlinked : ∀ stub ∈ stubs, ∀ slot, slots[stub.slot]? = some slot → slot.target = none)
    (index : Nat) (args : List Value) (memories : Array LinearMemory) (host : σ) :
    dispatch slots stubs userData memory index args memories host = missing memories host := by
  rcases dispatch_cases index args memories host with refused | ⟨stub, slot, target, bound, found, linked, _⟩
  · exact refused
  · have none := unlinked stub (List.mem_of_getElem? bound) slot found
    rw [none] at linked
    contradiction

@[simp] theorem size_writeBack (memories : Array LinearMemory) (place : Option Nat) (bytes : Option Memory) :
    (writeBack memories place bytes).size = memories.size := by
  unfold writeBack
  split
  · exact Array.size_modify
  · rfl

@[simp] theorem writeBack_bytesAt (memories : Array LinearMemory) (place : Option Nat) :
    writeBack memories place (bytesAt memories place) = memories := by
  cases place with
  | none => rfl
  | some place =>
    cases found : memories[place]? with
    | none => simp [bytesAt, found, writeBack]
    | some m =>
      simp only [bytesAt, found, Option.bind_some, Option.map_some, writeBack]
      apply Array.ext_getElem?
      intro other
      rw [Array.getElem?_modify]
      split
      · rename_i here
        rw [← here, found]
        rfl
      · rfl

theorem size_answer (target : Target σ) (args : List Value) (memories : Array LinearMemory) (host : σ) :
    (target.answer results userData memory args memories host).memories.size = memories.size := by
  unfold Target.answer
  split
  · rfl
  · dsimp only
    repeat' split
    all_goals simp

theorem size_dispatch (index : Nat) (args : List Value) (memories : Array LinearMemory) (host : σ) :
    (dispatch slots stubs userData memory index args memories host).memories.size = memories.size := by
  rcases dispatch_cases index args memories host with refused | ⟨stub, slot, target, _, _, _, answered⟩
  · rw [refused]
    rfl
  · rw [answered]
    exact size_answer target args memories host

theorem getElem?_writeBack_ne (other : memory ≠ some place) (memories : Array LinearMemory) (bytes : Option Memory) :
    (writeBack memories memory bytes)[place]? = memories[place]? := by
  unfold writeBack
  split
  · rename_i here _
    have differs : here ≠ place := fun same => other (congrArg some same)
    rw [Array.getElem?_modify, if_neg differs]
  · rfl

theorem getElem?_answer_ne (other : memory ≠ some place) (target : Target σ) (args : List Value)
    (memories : Array LinearMemory) (host : σ) :
    (target.answer results userData memory args memories host).memories[place]? = memories[place]? := by
  unfold Target.answer
  split
  · rfl
  · dsimp only
    repeat' split
    all_goals exact getElem?_writeBack_ne other _ _

theorem getElem?_dispatch_ne (other : memory ≠ some place) (index : Nat) (args : List Value)
    (memories : Array LinearMemory) (host : σ) :
    (dispatch slots stubs userData memory index args memories host).memories[place]? = memories[place]? := by
  rcases dispatch_cases index args memories host with refused | ⟨stub, slot, target, _, _, _, answered⟩
  · rw [refused]
    rfl
  · rw [answered]
    exact getElem?_answer_ne other target args memories host

/-- What all linked functions keep of their state is kept by every answer. -/
theorem user_dispatch {P : σ → Prop}
    (keeps : ∀ slot ∈ slots, ∀ target, slot.target = some target →
      ∀ call host, P host → P (target.function call host).host)
    (index : Nat) (args : List Value) (memories : Array LinearMemory) (host : σ) (holds : P host) :
    P (dispatch slots stubs userData memory index args memories host).user := by
  rcases dispatch_cases index args memories host with refused | ⟨stub, slot, target, _, found, linked, answered⟩
  · rw [refused]
    exact holds
  · have called := keeps slot (List.mem_of_getElem? found) target linked
    rw [answered, Target.answer]
    split
    · exact holds
    · dsimp only
      repeat' split
      all_goals exact called _ _ holds

/-- Populating an instance whose imports are not linked changes nothing that is not its own. -/
theorem populate_alone {start state : Wasm.State σ}
    (unlinked : ∀ stub ∈ stubs, ∀ slot, slots[stub.slot]? = some slot → slot.target = none)
    (h : start.populate (dispatch slots stubs userData memory) budget eager = (state, result)) :
    start.Alone state := by
  have refuses index args memories user :
      (dispatch slots stubs userData memory index args memories user).memories = memories ∧
      (dispatch slots stubs userData memory index args memories user).user = user := by
    rw [dispatch_unlinked unlinked]
    exact ⟨rfl, rfl⟩
  have kept := Wasm.State.Alone.kept refuses start
  have alone := kept.populate budget eager (.refl start)
  rwa [h] at alone

end
end WasmBinding
