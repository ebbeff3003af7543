import WasmBinding.Signature

/-! Written signatures are read back. -/

namespace WasmBinding

theorem ValueTag.ofCode?_code (t : ScalarType) : ValueTag.ofCode? t.code = some t.tag :=
  (ofCode?_eq_some_iff _ _).mpr t.tag_code?

theorem ScalarType.isBlank_code (t : ScalarType) : Text.isBlank t.code = false := by
  cases t <;> decide

theorem ResultType.isBlank_code (r : ResultType) : Text.isBlank r.code = false := by
  cases r with
  | none => decide
  | some t => exact t.isBlank_code

namespace Signature

theorem resultOfCode?_code (r : ResultType) : resultOfCode? r.code = some (r.map ScalarType.tag) := by
  cases r with
  | none => rfl
  | some t => cases t <;> rfl

theorem paramsOfCodes?_code (params : List ScalarType) :
    paramsOfCodes? (params.map ScalarType.code ++ [')']) = some (params.map ScalarType.tag) := by
  induction params with
  | nil => rfl
  | cons t rest ih =>
    rw [List.map_cons, List.cons_append, paramsOfCodes?]
    · simp [ValueTag.ofCode?_code, ih]
    · simp

/-- There are no blanks in what is written. -/
theorem visible_write (r : ResultType) (params : List ScalarType) :
    ∀ c ∈ (write r.code (params.map ScalarType.code)).toList, !Text.isBlank c := by
  intro c among
  simp only [write, String.toList_ofList, List.cons_append, List.mem_cons, List.mem_append, List.mem_map, List.not_mem_nil,
    or_false] at among
  rcases among with rfl | rfl | ⟨t, _, rfl⟩ | rfl
  · simp [r.isBlank_code]
  · decide
  · simp [t.isBlank_code]
  · decide

theorem parse?_write (r : ResultType) (params : List ScalarType) :
    parse? (write r.code (params.map ScalarType.code)) = some ⟨r.map ScalarType.tag, params.map ScalarType.tag⟩ := by
  rw [parse?, List.filter_eq_self.mpr (visible_write r params), write, String.toList_ofList]
  simp [ofCodes?, resultOfCode?_code, paramsOfCodes?_code]

end Signature
end WasmBinding
