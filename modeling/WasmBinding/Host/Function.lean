import WasmBinding.Error
import WasmBinding.Exchange
import WasmBinding.Host.Args
import WasmBinding.Signature

/-! Typed host functions and their untyped form, which reads the arguments from an exchange and writes the
result into its leading slot. -/

namespace WasmBinding

/-- What a host function does with its arguments and the state of the host. It has no result if it gives
up. -/
inductive HostBody (σ : Type) (params : List ScalarType) (result : ResultType) where
  | plain (run : Args params → σ → σ × Option result.Carrier)
  /-- A function that looks at the memory of its caller and may write to it. -/
  | viewing (run : (m : Memory) → Args params → σ →
      { after : Memory // after.size = m.size } × σ × Option result.Carrier)

structure HostFunction (σ : Type) where
  params : List ScalarType
  result : ResultType
  body : HostBody σ params result

inductive Outcome where
  | done
  | failed (e : Error)
  | gaveUp
  deriving DecidableEq, Repr

namespace HostFunction

variable {σ : Type}

/-- The type of the function as an import has to have it. A view of memory is not part of it. -/
def signature (f : HostFunction σ) : String := Signature.write f.result.code (f.params.map (·.code))

def storeResult (f : HostFunction σ) (e : Exchange) (value : Option f.result.Carrier) :
    Outcome × Exchange :=
  match value with
  | none => (.gaveUp, e)
  | some v =>
    match f.result.store v e.stack with
    | some stack => (.done, { e with stack := stack })
    | none => (.failed .invalidSignature, e)

theorem length_store (r : ResultType) (v : r.Carrier) (stack after : List Slot)
    (h : r.store v stack = some after) : after.length = stack.length := by
  cases r with
  | none =>
    simp only [ResultType.store, Option.some.injEq] at h
    rw [h]
  | some t =>
    cases stack with
    | nil => simp [ResultType.store] at h
    | cons s rest =>
      simp only [ResultType.store, Option.some.injEq] at h
      simp [← h]

theorem sameShape_storeResult (f : HostFunction σ) (e : Exchange) (value : Option f.result.Carrier) :
    (f.storeResult e value).2.SameShape e := by
  unfold storeResult
  split
  · exact .refl e
  · split
    · rename_i h
      exact ⟨length_store _ _ _ _ h, rfl⟩
    · exact .refl e

/-- The arguments behind the result slots, if the number of slots is right. -/
def args? (f : HostFunction σ) (stack : List Slot) : Option (Args f.params) :=
  if stack.length = f.result.slots + f.params.length then
    some (Args.ofSlots f.params (stack.drop f.result.slots))
  else none

/-- Calls the function on an exchange. A missing memory is noticed before a wrong number of slots. -/
def apply (f : HostFunction σ) (e : Exchange) (host : σ) : Outcome × e.After × σ :=
  match f.body with
  | .plain run =>
    match f.args? e.stack with
    | none => (.failed .invalidSignature, ⟨e, .refl e⟩, host)
    | some args =>
      let (host, value) := run args host
      let stored := f.storeResult e value
      (stored.1, ⟨stored.2, f.sameShape_storeResult e value⟩, host)
  | .viewing run =>
    match h : e.memory with
    | none => (.failed .invalidMemoryAccess, ⟨e, .refl e⟩, host)
    | some m =>
      match f.args? e.stack with
      | none => (.failed .invalidSignature, ⟨e, .refl e⟩, host)
      | some args =>
        let (after, host, value) := run m args host
        let seen : Exchange := { e with memory := some after.val }
        let stored := f.storeResult seen value
        (stored.1,
          ⟨stored.2, (f.sameShape_storeResult seen value).trans ⟨rfl, by simp [seen, h, after.property]⟩⟩,
          host)

end HostFunction
end WasmBinding
