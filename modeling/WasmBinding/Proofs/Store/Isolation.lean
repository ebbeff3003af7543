import WasmBinding.Proofs.Store.Service

/-! What modules of one store have in common. It is the shared memory alone: no two modules have another memory between
them, and a call of a function of one changes neither what another has for itself nor any link. -/

namespace WasmBinding

namespace Store

variable {σ : Type} {s t : Store σ} {m : LoadedModule}

/-- Two modules have no memory in common but the shared one. -/
def Apart (s : Store σ) : Prop :=
  ∀ (j k : Nat) (a b : LoadedModule), s.modules[j]? = some a → s.modules[k]? = some b → j ≠ k →
    ∀ place ∈ a.inst.memories, place ∈ b.inst.memories → s.memory = some place

/-- All that a module has for itself is as it was: its globals, its tables, its segments, and its memories but for the
shared one. -/
structure Spares (s t : Store σ) (k : Nat) (m : LoadedModule) : Prop where
  module : t.modules[k]? = some m
  memories : ∀ place ∈ m.inst.memories, s.memory ≠ some place → t.memories[place]? = s.memories[place]?

theorem apart_of_empty (modules : s.modules = []) : s.Apart := by
  intro j k a b found
  simp [modules] at found

namespace Apart

theorem continues (apart : s.Apart) (h : Continues s t) : t.Apart := by
  intro j k a b foundA foundB differ place hasA hasB
  obtain ⟨a', wasA, sameA⟩ := h.module foundA
  obtain ⟨b', wasB, sameB⟩ := h.module foundB
  simp only [LoadedModule.shape, Prod.mk.injEq] at sameA sameB
  rw [← sameA.2.1] at hasA
  rw [← sameB.2.1] at hasB
  rw [h.memory]
  exact apart j k a' b' wasA wasB differ place hasA hasB

/-- A memory that a new module has in common with a store that it is loaded into is the shared one. -/
theorem shared_of_gained (h : Gained s t w m) (old : place < s.memories.size)
    (has : place ∈ m.inst.memories) : s.memory = some place := by
  rw [h.places, List.mem_append, List.mem_replicate] at has
  rcases has with ⟨_, rfl⟩ | own
  · cases shared : s.memory with
    | none =>
      simp only [sharedPlace, shared, Option.getD_none] at old
      omega
    | some place => simp only [sharedPlace, shared, Option.getD_some]
  · have behind := (List.mem_range'_1.mp own).1
    rw [suppliedSize] at behind
    omega

theorem gained (apart : s.Apart) (sharing : s.Sharing) (h : Gained s t w m) : t.Apart := by
  have old {k : Nat} {a : LoadedModule} (found : s.modules[k]? = some a) {place : Nat} (has : place ∈ a.inst.memories) :
      place < s.memories.size := (sharing.fits a (List.mem_of_getElem? found)).inside place has
  intro j k a b foundA foundB differ place hasA hasB
  apply h.memory_stays
  rcases h.module_cases foundA with wasA | ⟨lastA, rfl⟩
  · rcases h.module_cases foundB with wasB | ⟨_, rfl⟩
    · exact apart j k a b wasA wasB differ place hasA hasB
    · exact shared_of_gained h (old wasA hasA) hasB
  · rcases h.module_cases foundB with wasB | ⟨lastB, _⟩
    · exact shared_of_gained h (old wasB hasB) hasA
    · exact absurd (lastA.trans lastB.symm) differ

end Apart

theorem Use.sharing (use : s.Use calls t) (sharing : s.Sharing) : t.Sharing := by
  rcases use.cases with continues | ⟨_, _, _, gained⟩ | ⟨slot, target, rfl⟩
  · exact sharing.continues continues
  · exact sharing.gained gained
  · exact sharing.setTarget slot target

theorem Use.apart (use : s.Use calls t) (sharing : s.Sharing) (apart : s.Apart) : t.Apart := by
  rcases use.cases with continues | ⟨_, _, _, gained⟩ | ⟨slot, target, rfl⟩
  · exact apart.continues continues
  · exact apart.gained sharing gained
  · exact apart

/-- However a store is used, its modules stay apart. -/
theorem Used.apart (used : s.Used t) (sharing : s.Sharing) (apart : s.Apart) : t.Sharing ∧ t.Apart := by
  induction used with
  | refl => exact ⟨sharing, apart⟩
  | use _ next ih => exact ⟨next.sharing ih.1, next.apart ih.1 ih.2⟩

theorem run_spares (apart : s.Apart) (ran : s.run f args = (t, result)) (found : s.modules[k]? = some m)
    (other : k ≠ f.module) : Spares s t k m := by
  rcases run_cases ran with ⟨rfl, _⟩ | ⟨a, called, rfl⟩
  · exact ⟨found, fun _ _ _ => rfl⟩
  · constructor
    case module =>
      simp only [commit, absorb, List.getElem?_modify, if_neg (Ne.symm other), id_map', found]
    case memories =>
      intro place has unshared
      have kept : Wasm.Kept (s.hostCall a f.index) ((s.stateOf a).Confined (s.seenMemory a.inst f.index)) :=
        Wasm.State.Confined.kept size_dispatch (fun index args memories host place unseen =>
          getElem?_dispatch_ne unseen index args memories host) _
      have confined := kept.call s.budget f.index args (.refl _ _)
      -- The caller has the memory neither for its own nor as the one that its imports see.
      have foreign : place ∉ a.inst.memories := fun own => unshared (apart k f.module m a found called other place has own)
      refine confined.foreign place foreign fun seen => ?_
      rcases s.seenMemory_cases a.inst f.index seen with shared | own
      · exact unshared shared
      · exact foreign own

/-- A call spares every module but its own. -/
theorem call_spares (apart : s.Apart) (called : s.call f args = (t, result)) (found : s.modules[k]? = some m)
    (other : k ≠ f.module) : Spares s t k m := by
  rcases call_cases called with ⟨_, rfl, _⟩ | ⟨values, u, answer, _, ran, results, rfl⟩
  · exact ⟨found, fun _ _ _ => rfl⟩
  · have spares : Spares { s with results := [] } u k m := run_spares apart ran found other
    exact ⟨spares.module, spares.memories⟩

theorem Spares.findGlobal (spares : Spares s t k m) (found : s.modules[k]? = some m) (name : String) :
    t.findGlobal k name = s.findGlobal k name := by
  simp only [Store.findGlobal, spares.module, found]

theorem Spares.getGlobal {g : GlobalCell} (spares : Spares s t g.module m) (found : s.modules[g.module]? = some m) :
    t.getGlobal g = s.getGlobal g := by
  simp only [Store.getGlobal, spares.module, found]

end Store

namespace Service

variable {σ : Type} {v : Service σ}

theorem Reachable.apart (reached : v.Reachable) : v.store.Sharing ∧ v.store.Apart := by
  induction reached with
  | new created steps =>
    rw [Store.new_ok created]
    exact ⟨⟨by simp, by simp⟩, Store.apart_of_empty rfl⟩
  | serve _ r _ ih => exact (use_serve _ r).used.apart ih.1 ih.2

end Service

end WasmBinding
