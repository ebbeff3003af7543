import WasmBinding.Wasm.Instantiate

/-! What code can do to the storage of its instance. One instruction changes what is the instance's own, or
the contents of one memory that the module has; the pool keeps its size, and no memory shrinks. -/

namespace WasmBinding.Wasm

theorem LinearMemory.grow?_some {m grown : LinearMemory} (h : m.grow? count = some grown) :
    grown.max = m.max ∧ grown.bytes = m.bytes.extend (count * pageSize) := by
  unfold LinearMemory.grow? at h
  split at h
  · cases Option.some.inj h
    exact ⟨rfl, rfl⟩
  · contradiction

/-- A memory that has whole pages more than another, if its size differs at all. -/
def LinearMemory.GrowsTo (old new : LinearMemory) : Prop :=
  new.max = old.max ∧ ∃ count, new.bytes.size = old.bytes.size + count * pageSize

namespace LinearMemory.GrowsTo

variable {old mid new : LinearMemory}

theorem of_size (bytes : Memory) (size : bytes.size = old.bytes.size) : old.GrowsTo { old with bytes := bytes } :=
  ⟨rfl, 0, by simp [size]⟩

theorem refl (m : LinearMemory) : m.GrowsTo m := of_size m.bytes rfl

theorem trans (first : old.GrowsTo mid) (second : mid.GrowsTo new) : old.GrowsTo new := by
  obtain ⟨bound, count, size⟩ := first
  obtain ⟨bound', count', size'⟩ := second
  exact ⟨bound'.trans bound, count + count', by rw [size', size, Nat.add_mul, Nat.add_assoc]⟩

theorem of_grow? (h : old.grow? count = some new) : old.GrowsTo new := by
  obtain ⟨bound, bytes⟩ := grow?_some h
  exact ⟨bound, count, by rw [bytes, Memory.size_extend]⟩

end LinearMemory.GrowsTo

theorem Instance.mem_of_firstExportedMemory? {inst : Instance} (h : inst.firstExportedMemory? = some place) :
    place ∈ inst.memories := by
  simp only [firstExportedMemory?, Option.bind_eq_bind, Option.bind_eq_some_iff] at h
  obtain ⟨e, _, placed⟩ := h
  exact List.mem_of_getElem? placed

theorem Instance.mem_of_exportedMemory? {inst : Instance} (h : inst.exportedMemory? name = some place) :
    place ∈ inst.memories := by
  simp only [exportedMemory?, Option.bind_eq_bind, Option.bind_eq_some_iff] at h
  obtain ⟨e, _, placed⟩ := h
  split at placed
  · exact List.mem_of_getElem? placed
  · contradiction

namespace State

variable {σ : Type} {s t : State σ}

/-- One change to storage. Neither the module of the instance nor the places of its memories change, and no table comes
or goes. -/
inductive Change (s : State σ) : State σ → Prop where
  | own (inst : Instance) (module : inst.module = s.inst.module) (memories : inst.memories = s.inst.memories)
      (tables : inst.tables.size = s.inst.tables.size) : Change s { s with inst := inst }
  | memory (has : place ∈ s.inst.memories) (found : s.memories[place]? = some old) (grows : old.GrowsTo new) :
      Change s (s.setMemory place new)

theorem memory?_some (h : s.memory? index = some (place, m)) :
    s.inst.memories[index]? = some place ∧ s.memories[place]? = some m := by
  simp only [memory?, Option.bind_eq_bind, Option.bind_eq_some_iff, Option.pure_def, Option.some.injEq] at h
  obtain ⟨_, placed, _, found, rfl, rfl⟩ := h
  exact ⟨placed, found⟩

namespace Change

theorem refl : Change s s := own s.inst rfl rfl rfl

theorem setTable (index : Nat) (table : Array (Option Nat)) :
    Change s { s with inst := s.inst.setTable index table } :=
  own _ rfl rfl Array.size_setIfInBounds

theorem ofMemory (found : s.memory? index = some (place, old)) (grows : old.GrowsTo new) :
    Change s (s.setMemory place new) := by
  obtain ⟨placed, found⟩ := memory?_some found
  exact memory (List.mem_of_getElem? placed) found grows

theorem poke (found : s.memory? index = some (place, m)) (off : Nat) (bytes : List UInt8) :
    Change s (s.poke place m off bytes) :=
  ofMemory found (.of_size _ (Memory.size_copyIn _ _ _))

theorem grow (found : s.memory? index = some (place, m)) (grown : m.grow? count = some m') :
    Change s (s.setMemory place m') :=
  ofMemory found (.of_grow? grown)

theorem user_eq (h : Change s t) : t.user = s.user := by cases h <;> rfl

theorem module_eq (h : Change s t) : t.inst.module = s.inst.module := by
  cases h with
  | own inst module memories => exact module
  | memory => rfl

theorem places_eq (h : Change s t) : t.inst.memories = s.inst.memories := by
  cases h with
  | own inst module memories => exact memories
  | memory => rfl

theorem tables_eq (h : Change s t) : t.inst.tables.size = s.inst.tables.size := by
  cases h with
  | own inst module memories tables => exact tables
  | memory => rfl

theorem size_eq (h : Change s t) : t.memories.size = s.memories.size := by
  cases h with
  | own => rfl
  | memory => simp [setMemory]

theorem memories_eq (h : Change s t) (foreign : place ∉ s.inst.memories) :
    t.memories[place]? = s.memories[place]? := by
  cases h with
  | own => rfl
  | @memory changed _ _ has =>
    have other : changed ≠ place := fun same => foreign (same ▸ has)
    simp [setMemory, other]

end Change

/-- Every storage instruction makes at most one change. -/
theorem exec_change {i : StorageInstr} (h : s.exec i values = .ok (t, rest)) : s.Change t := by
  unfold exec at h
  dsimp only at h
  split at h
  case h_1 | h_3 | h_5 | h_13 =>
    -- Instructions that read a global, a table or the size of a memory.
    repeat' split at h
    all_goals cases h
    all_goals exact .refl
  case h_2 =>
    repeat' split at h
    all_goals cases h
    exact .own _ rfl rfl rfl
  case h_10 | h_18 =>
    -- Dropping a segment.
    cases h
    exact .own _ rfl rfl rfl
  case h_4 | h_7 | h_8 | h_9 =>
    -- Writing to a table.
    repeat' split at h
    all_goals cases h
    all_goals exact .setTable _ _
  case h_6 =>
    repeat' split at h
    all_goals cases h
    · exact .setTable _ _
    · exact .refl
  case h_11 =>
    repeat' split at h
    all_goals cases h
    exact .refl
  case h_12 | h_15 | h_16 | h_17 =>
    -- Writing to a memory.
    repeat' split at h
    all_goals cases h
    all_goals exact .poke (by assumption) _ _
  case h_14 =>
    repeat' split at h
    all_goals cases h
    · exact .grow (by assumption) (by assumption)
    · exact .refl
  case h_19 => contradiction

theorem putElements_change {segment : ElementSegment} (h : s.putElements segment = .ok t) : s.Change t := by
  unfold putElements at h
  dsimp only at h
  repeat' split at h
  all_goals cases h
  · exact .setTable _ _
  · exact .refl
  · exact .refl

theorem putData_change {segment : DataSegment} (h : s.putData segment = .ok t) : s.Change t := by
  unfold putData at h
  repeat' split at h
  all_goals cases h
  · exact .poke (by assumption) _ _
  · exact .refl
  · exact .refl

end State
end WasmBinding.Wasm
