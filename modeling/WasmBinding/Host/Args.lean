import WasmBinding.Scalar

/-! Argument lists: one value for each of some types. -/

namespace WasmBinding

@[reducible] def Args : List ScalarType → Type
  | [] => Unit
  | t :: ts => t.Carrier × Args ts

namespace Args

/-- Reads arguments from slots; those for which there is no slot are zero. -/
def ofSlots : (params : List ScalarType) → List Slot → Args params
  | [], _ => ()
  | t :: ts, [] => (t.ofSlot 0, ofSlots ts [])
  | t :: ts, slot :: rest => (t.ofSlot slot, ofSlots ts rest)

def toScalars : (params : List ScalarType) → Args params → List Scalar
  | [], _ => []
  | t :: ts, (v, rest) => ⟨t, v⟩ :: toScalars ts rest

theorem toScalars_ofSlots (params : List ScalarType) (slots : List Slot)
    (enough : slots.length = params.length) :
    toScalars params (ofSlots params slots) = List.zipWith Scalar.ofSlot params slots := by
  induction params generalizing slots with
  | nil => simp [toScalars]
  | cons t ts ih =>
    cases slots with
    | nil => simp at enough
    | cons slot rest =>
      simp only [ofSlots, toScalars, List.zipWith_cons_cons, Scalar.ofSlot, List.cons.injEq, true_and]
      exact ih rest (by simpa using enough)

end Args
end WasmBinding
