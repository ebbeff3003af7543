import WasmBinding.Host.Registry

/-! The registry as a map. A function that is set is found under its import at once, the others stay, and the keys that
have been given out keep standing for the same imports. -/

namespace WasmBinding.Registry

variable {σ : Type} {r : Registry σ}

def names (r : Registry σ) : List ImportName := r.entries.map (·.1)

@[simp] theorem length_names (r : Registry σ) : r.names.length = r.size := List.length_map ..

def find? (r : Registry σ) (i : ImportName) : Option (HostFunction σ) := (r.key? i).bind r.get?

theorem key?_eq (r : Registry σ) (i : ImportName) : r.key? i = r.names.findIdx? (· == i) := by
  rw [names, List.findIdx?_map]
  rfl

theorem name_of_key? (h : r.key? i = some key) : r.names[key]? = some i := by
  rw [key?_eq, List.findIdx?_eq_some_iff_getElem] at h
  obtain ⟨inside, same, _⟩ := h
  rw [List.getElem?_eq_getElem inside, beq_iff_eq.mp same]

theorem key_lt (h : r.key? i = some key) : key < r.size := by
  have inside := (List.getElem?_eq_some_iff.mp (name_of_key? h)).1
  rwa [length_names] at inside

/-- Setting a function leaves the order of the imports, or adds one to it. -/
theorem names_set (r : Registry σ) (i : ImportName) (f : HostFunction σ) :
    (r.set i f).names = if (r.key? i).isSome then r.names else r.names ++ [i] := by
  unfold set
  cases known : r.key? i with
  | none => simp [names]
  | some key =>
    obtain ⟨inside, here⟩ := List.getElem?_eq_some_iff.mp (name_of_key? known)
    simp only [Option.isSome_some, if_true]
    calc (r.entries.set key (i, f)).map (·.1) = r.names.set key i := List.map_set
      _ = r.names.set key r.names[key] := by rw [here]
      _ = r.names := List.set_getElem_self inside

theorem key?_set_self (r : Registry σ) (i : ImportName) (f : HostFunction σ) :
    (r.set i f).key? i = some (r.keyFor i) := by
  cases known : r.key? i with
  | some key =>
    rw [key?_eq, names_set, keyFor, known, Option.isSome_some, if_pos rfl, ← key?_eq, known]
    rfl
  | none =>
    rw [key?_eq, names_set, keyFor, known, Option.isSome_none, if_neg (by decide), List.findIdx?_append, ← key?_eq,
      known]
    simp

theorem key?_set_of_some (h : r.key? j = some key) (i : ImportName) (f : HostFunction σ) :
    (r.set i f).key? j = some key := by
  rw [key?_eq] at h
  rw [key?_eq, names_set]
  split
  · exact h
  · rw [List.findIdx?_append, h]
    rfl

theorem get?_set_self (r : Registry σ) (i : ImportName) (f : HostFunction σ) :
    (r.set i f).get? (r.keyFor i) = some f := by
  unfold set keyFor
  cases known : r.key? i with
  | some key =>
    have inside := key_lt known
    simp only [get?, Option.getD_some]
    rw [List.getElem?_set_self inside]
    rfl
  | none => simp [get?, size]

theorem get?_set_ne (other : j ≠ i) (h : r.key? j = some key) (f : HostFunction σ) :
    (r.set i f).get? key = r.get? key := by
  unfold set
  cases known : r.key? i with
  | some taken =>
    have differs : taken ≠ key := fun same => by
      have both := (name_of_key? known).symm.trans (same ▸ name_of_key? h)
      exact other (Option.some.inj both).symm
    simp only [get?, List.getElem?_set_ne differs]
  | none => simp only [get?, List.getElem?_append_left (key_lt h)]

theorem find?_set_self (r : Registry σ) (i : ImportName) (f : HostFunction σ) : (r.set i f).find? i = some f := by
  rw [find?, key?_set_self, Option.bind_some, get?_set_self]

theorem key?_set_ne (other : j ≠ i) (r : Registry σ) (f : HostFunction σ) : (r.set i f).key? j = r.key? j := by
  rw [key?_eq, key?_eq, names_set]
  split
  · rfl
  · have differs : (i == j) = false := beq_false_of_ne other.symm
    rw [List.findIdx?_append, List.findIdx?_singleton, differs]
    exact Option.or_none

theorem find?_set_ne (other : j ≠ i) (r : Registry σ) (f : HostFunction σ) : (r.set i f).find? j = r.find? j := by
  cases known : r.key? j with
  | some key => rw [find?, find?, key?_set_of_some known, known, Option.bind_some, Option.bind_some, get?_set_ne other known]
  | none => rw [find?, find?, key?_set_ne other, known, Option.bind_none, Option.bind_none]

theorem called?_contextOfKey (r : Registry σ) (key : Nat) : r.called? (contextOfKey key) = r.get? key := rfl

end WasmBinding.Registry
