import WasmBinding.Proofs.Store.Slots

/-! The shared memory. A module that defines no memory has the shared one for every memory that it imports; one that
defines memories exports the shared one first, and has no other exactly if it has only one in all. -/

namespace WasmBinding

namespace LoadedModule

/-- How the memories of a module lie, if the shared one is at a place of a pool. -/
structure Fits (memory : Option Nat) (size : Nat) (m : LoadedModule) : Prop where
  count : m.inst.memories.length = m.inst.module.allMemories.length
  inside : ∀ place ∈ m.inst.memories, place < size
  importing : m.inst.module.memories = [] → ∀ place ∈ m.inst.memories, memory = some place
  defining : m.inst.module.memories ≠ [] → ∃ place, m.inst.firstExportedMemory? = some place ∧ memory = some place
  several : m.inst.module.memories ≠ [] → m.inst.module.allMemories.length ≠ 1 →
    ∃ a ∈ m.inst.memories, ∃ b ∈ m.inst.memories, a ≠ b

namespace Fits

variable {m before : LoadedModule}

/-- Only the shape of a module matters, and a shared memory stays where it is when the pool grows. -/
theorem of_shape (fits : before.Fits memory size) (same : before.shape = m.shape)
    (stays : ∀ place, memory = some place → memory' = some place) (grows : size ≤ size') : m.Fits memory' size' := by
  obtain ⟨module, places, _⟩ : before.inst.module = m.inst.module ∧ before.inst.memories = m.inst.memories ∧ _ := by
    simpa only [shape, Prod.mk.injEq] using same
  have exported : before.inst.firstExportedMemory? = m.inst.firstExportedMemory? := by
    simp only [Wasm.Instance.firstExportedMemory?, module, places]
  obtain ⟨count, inside, importing, defining, several⟩ := fits
  rw [module, places] at count importing several
  rw [places] at inside
  rw [module, exported] at defining
  refine ⟨count, fun place among => ?_, fun none place among => ?_, fun some => ?_, several⟩
  · exact Nat.lt_of_lt_of_le (inside place among) grows
  · exact stays place (importing none place among)
  · obtain ⟨place, first, shared⟩ := defining some
    exact ⟨place, first, stays place shared⟩

/-- All memories of a module are the shared one exactly if it defines none or has no second. -/
theorem shared_iff (fits : m.Fits memory size) :
    (∀ place ∈ m.inst.memories, memory = some place) ↔
      m.inst.module.memories = [] ∨ m.inst.module.allMemories.length = 1 := by
  constructor
  · intro shared
    by_cases none : m.inst.module.memories = []
    · exact .inl none
    · by_cases one : m.inst.module.allMemories.length = 1
      · exact .inr one
      · obtain ⟨a, hasA, b, hasB, differ⟩ := fits.several none one
        exact absurd (Option.some.inj ((shared a hasA).symm.trans (shared b hasB))) differ
  · intro single place among
    by_cases none : m.inst.module.memories = []
    · exact fits.importing none place among
    · have one : m.inst.memories.length = 1 := fits.count.trans (single.resolve_left none)
      obtain ⟨only, places⟩ := List.length_eq_one_iff.mp one
      obtain ⟨first, exported, shared⟩ := fits.defining none
      have has : first ∈ m.inst.memories := Wasm.Instance.mem_of_firstExportedMemory? exported
      rw [places, List.mem_singleton] at has among
      rw [among, ← has]
      exact shared

end Fits
end LoadedModule

namespace Store

variable {σ : Type} {s t : Store σ}

/-- The shared memory is there, and all modules have their memories where they should. -/
structure Sharing (s : Store σ) : Prop where
  inside : ∀ place, s.memory = some place → place < s.memories.size
  fits : ∀ m ∈ s.modules, m.Fits s.memory s.memories.size

theorem sharedPlace_lt {w : Wasm.Module} (inside : ∀ place, s.memory = some place → place < s.memories.size)
    (imports : w.importedMemories.length ≠ 0) : s.sharedPlace < s.suppliedSize w := by
  cases shared : s.memory with
  | none =>
    simp only [sharedPlace, suppliedSize, shared, Option.getD_none, if_pos]
    omega
  | some place =>
    have := inside place shared
    simp only [sharedPlace, suppliedSize, shared, Option.getD_some]
    omega

namespace Gained

variable {w : Wasm.Module} {m : LoadedModule}

theorem memory_stays (h : Gained s t w m) (shared : s.memory = some place) : t.memory = some place := by
  have undefined : ¬ w.definesMemory = true := fun defines => by
    rw [h.free defines] at shared
    contradiction
  rw [h.memory, if_neg undefined]
  split
  · exact shared
  · simp only [sharedPlace, shared, Option.getD_some]

theorem size_le (h : Gained s t w m) : s.memories.size ≤ t.memories.size := by
  rw [h.size, suppliedSize]
  omega

theorem inside (h : Gained s t w m) (inside : ∀ place, s.memory = some place → place < s.memories.size) :
    ∀ place ∈ m.inst.memories, place < t.memories.size := by
  intro place among
  rw [h.places, List.mem_append, List.mem_replicate] at among
  rw [h.size]
  rcases among with ⟨imports, rfl⟩ | own
  · have := sharedPlace_lt inside imports
    omega
  · exact (List.mem_range'_1.mp own).2

theorem fits (h : Gained s t w m) (inside : ∀ place, s.memory = some place → place < s.memories.size) :
    m.Fits t.memory t.memories.size where
  count := by
    rw [h.places, h.module]
    simp [Wasm.Module.allMemories]
  inside := h.inside inside
  importing none place among := by
    rw [h.module] at none
    rw [h.places, none, List.length_nil, List.range'_zero, List.append_nil, List.mem_replicate] at among
    obtain ⟨imports, rfl⟩ := among
    have undefined : w.definesMemory = false := by simp [Wasm.Module.definesMemory, none]
    rw [h.memory, undefined, if_neg (by decide), if_neg imports]
  defining some := by
    rw [h.module] at some
    have defines : w.definesMemory = true := by simpa [Wasm.Module.definesMemory] using some
    obtain ⟨place, first⟩ := Option.isSome_iff_exists.mp (h.exported defines)
    exact ⟨place, first, by rw [h.memory, if_pos defines, first]⟩
  several some more := by
    rw [h.module] at some more
    have own : 0 < w.memories.length := List.length_pos_iff.mpr some
    have unshared := h.free (by simpa [Wasm.Module.definesMemory] using some)
    have first : s.suppliedSize w ∈ List.range' (s.suppliedSize w) w.memories.length := by
      simpa [List.mem_range'_1] using own
    rw [h.places]
    by_cases imports : w.importedMemories.length = 0
    · -- Two memories of its own.
      have second : s.suppliedSize w + 1 ∈ List.range' (s.suppliedSize w) w.memories.length := by
        simp only [Wasm.Module.allMemories, List.length_append] at more
        rw [List.mem_range'_1]
        omega
      exact ⟨_, List.mem_append_right _ first, _, List.mem_append_right _ second, by omega⟩
    · -- The first import has made the shared memory, and the module's own come behind it.
      have imported : s.sharedPlace ∈ List.replicate w.importedMemories.length s.sharedPlace :=
        List.mem_replicate.mpr ⟨imports, rfl⟩
      have before := sharedPlace_lt inside imports
      exact ⟨_, List.mem_append_left _ imported, _, List.mem_append_right _ first, by omega⟩

end Gained

namespace Sharing

theorem continues (sharing : s.Sharing) (h : Continues s t) : t.Sharing where
  inside place shared := by
    rw [h.size]
    exact sharing.inside place (h.memory ▸ shared)
  fits m among := by
    obtain ⟨k, found⟩ := List.mem_iff_getElem?.mp among
    obtain ⟨before, was, same⟩ := h.module found
    rw [h.memory, h.size]
    exact (sharing.fits before (List.mem_of_getElem? was)).of_shape same (fun _ shared => shared) (Nat.le_refl _)

theorem setTarget (sharing : s.Sharing) (place : Nat) (target : Target σ) : (s.setTarget place target).Sharing :=
  ⟨sharing.inside, sharing.fits⟩

theorem gained (sharing : s.Sharing) (h : Gained s t w m) : t.Sharing where
  inside place shared := by
    rw [h.memory] at shared
    split at shared
    · exact h.inside sharing.inside place (Wasm.Instance.mem_of_firstExportedMemory? shared)
    · split at shared
      · exact Nat.lt_of_lt_of_le (sharing.inside place shared) h.size_le
      · rename_i imports
        have := sharedPlace_lt sharing.inside imports
        cases shared
        rw [h.size]
        omega
  fits other among := by
    rw [h.modules, List.mem_append, List.mem_singleton] at among
    rcases among with old | rfl
    · exact (sharing.fits other old).of_shape rfl (fun _ => h.memory_stays) h.size_le
    · exact h.fits sharing.inside

theorem seen_lt {m : LoadedModule} (sharing : s.Sharing) (loaded : m ∈ s.modules)
    (seen : s.seenMemory m.inst func = some place) : place < s.memories.size := by
  rcases s.seenMemory_cases m.inst func seen with shared | own
  · exact sharing.inside place shared
  · exact (sharing.fits m loaded).inside place own

end Sharing
end Store
end WasmBinding
