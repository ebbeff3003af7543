import WasmBinding.Proofs.Store.Dispatch
import WasmBinding.Store.Call

/-! Using a store. Calls and writes change the contents of instances and memories and the state of the raw
functions; what is loaded and linked, and which memory is shared, stays. -/

namespace WasmBinding

open Wasm (Instance LinearMemory Value)

/-- What a loaded module keeps for as long as the store lasts. -/
def LoadedModule.shape (m : LoadedModule) : Wasm.Module × List Nat × List Stub :=
  (m.inst.module, m.inst.memories, m.stubs)

namespace Store

variable {σ : Type} {s t u : Store σ}

def loaded (s : Store σ) : List Wasm.Module := s.modules.map (·.inst.module)

theorem loaded_eq (s : Store σ) : s.loaded = (s.modules.map LoadedModule.shape).map Prod.fst := by
  rw [List.map_map]
  rfl

/-- A store that has been used but neither extended nor linked. -/
structure Continues (s t : Store σ) : Prop where
  environment : t.environment = s.environment
  stackSize : t.stackSize = s.stackSize
  userData : t.userData = s.userData
  imports : t.imports = s.imports
  memory : t.memory = s.memory
  size : t.memories.size = s.memories.size
  shapes : t.modules.map LoadedModule.shape = s.modules.map LoadedModule.shape

namespace Continues

theorem refl (s : Store σ) : Continues s s := ⟨rfl, rfl, rfl, rfl, rfl, rfl, rfl⟩

theorem trans (first : Continues s t) (second : Continues t u) : Continues s u where
  environment := second.environment.trans first.environment
  stackSize := second.stackSize.trans first.stackSize
  userData := second.userData.trans first.userData
  imports := second.imports.trans first.imports
  memory := second.memory.trans first.memory
  size := second.size.trans first.size
  shapes := second.shapes.trans first.shapes

theorem loaded (h : Continues s t) : t.loaded = s.loaded := by
  rw [loaded_eq, loaded_eq, h.shapes]

theorem shape_eq (h : Continues s t) (k : Nat) :
    t.modules[k]?.map LoadedModule.shape = s.modules[k]?.map LoadedModule.shape := by
  rw [← List.getElem?_map, ← List.getElem?_map, h.shapes]

theorem module {k : Nat} {m : LoadedModule} (h : Continues s t) (found : t.modules[k]? = some m) :
    ∃ before, s.modules[k]? = some before ∧ before.shape = m.shape := by
  have same := h.shape_eq k
  rw [found, Option.map_some, eq_comm, Option.map_eq_some_iff] at same
  exact same

theorem modify (s : Store σ) (k : Nat) (f : LoadedModule → LoadedModule)
    (same : ∀ m, s.modules[k]? = some m → (f m).shape = m.shape) :
    Continues s { s with modules := s.modules.modify k f } where
  environment := rfl
  stackSize := rfl
  userData := rfl
  imports := rfl
  memory := rfl
  size := rfl
  shapes := by
    apply List.ext_getElem?
    intro n
    simp only [List.getElem?_map, List.getElem?_modify]
    cases found : s.modules[n]? with
    | none => simp
    | some m =>
      by_cases here : k = n
      · subst here
        simp [same m found]
      · simp [here]

theorem commit (found : s.modules[k]? = some m) (same : (s.stateOf m).SameLayout state) :
    Continues s (s.commit k state) := by
  have absorbed : Continues s (s.absorb state) := ⟨rfl, rfl, rfl, rfl, rfl, same.size, rfl⟩
  refine absorbed.trans (modify (s.absorb state) k _ fun m' found' => ?_)
  cases found.symm.trans found'
  have module : state.inst.module = m.inst.module := same.module
  have places : state.inst.memories = m.inst.memories := same.places
  simp only [LoadedModule.shape, module, places]

end Continues

/-- Raw functions see the shared memory or one that the module has. -/
theorem seenMemory_cases {place : Nat} (s : Store σ) (inst : Wasm.Instance) (func : Nat)
    (seen : s.seenMemory inst func = some place) : s.memory = some place ∨ place ∈ inst.memories := by
  unfold seenMemory at seen
  split at seen
  · exact .inl seen
  · rcases Option.or_eq_some_iff.mp seen with exported | ⟨_, shared⟩
    · exact .inr (Wasm.Instance.mem_of_exportedMemory? exported)
    · exact .inl shared

theorem run_cases (h : s.run f args = (t, result)) :
    t = s ∧ s.modules[f.module]? = none ∨
    ∃ m, s.modules[f.module]? = some m ∧
      t = s.commit f.module ((s.stateOf m).call (s.hostCall m f.index) s.budget f.index args).1 := by
  unfold run at h
  split at h
  · rename_i missing
    cases h
    exact .inl ⟨rfl, missing⟩
  · rename_i m found
    refine .inr ⟨m, found, ?_⟩
    split at h
    · rename_i called
      cases h
      rw [called]
    · rename_i called
      cases h
      rw [called]

theorem Continues.run (h : s.run f args = (t, result)) : Continues s t := by
  rcases run_cases h with ⟨rfl, _⟩ | ⟨m, found, rfl⟩
  · exact .refl _
  · have kept : Wasm.Kept (s.hostCall m f.index) (s.stateOf m).SameLayout :=
      Wasm.State.SameLayout.kept size_dispatch _
    exact .commit found (kept.call _ _ _ (.refl _))

theorem call_cases (h : s.call f args = (t, result)) :
    (∃ fault, t = { s with results := [] } ∧ f.values args = .error fault) ∨
    ∃ values u answer, f.values args = .ok values ∧ ({ s with results := [] } : Store σ).run f values = (u, answer) ∧
      ∃ results, t = { u with results := results } := by
  unfold call at h
  dsimp only at h
  split at h
  · rename_i fault refused
    cases h
    exact .inl ⟨fault, rfl, refused⟩
  · rename_i values given
    refine .inr ⟨values, ?_⟩
    split at h
    · rename_i ran
      cases h
      exact ⟨_, _, given, ran, _, rfl⟩
    · rename_i ran
      split at h
      · cases h
        exact ⟨_, _, given, ran, _, rfl⟩
      · cases h
        exact ⟨_, _, given, ran, _, rfl⟩

theorem Continues.setResults (s : Store σ) (results : List Slot) : Continues s { s with results := results } :=
  ⟨rfl, rfl, rfl, rfl, rfl, rfl, rfl⟩

theorem Continues.call (h : s.call f args = (t, result)) : Continues s t := by
  rcases call_cases h with ⟨_, rfl, _⟩ | ⟨values, u, answer, _, ran, results, rfl⟩
  · exact .setResults s []
  · exact ((setResults s []).trans (.run ran)).trans (setResults u _)

theorem Continues.setHost (s : Store σ) (host : σ) : Continues s { s with host := host } :=
  ⟨rfl, rfl, rfl, rfl, rfl, rfl, rfl⟩

theorem Continues.setMemory (s : Store σ) (bytes : Memory) : Continues s (s.setMemory bytes) :=
  ⟨rfl, rfl, rfl, rfl, rfl, size_writeBack _ _ _, rfl⟩

theorem resize_cases (h : s.resize pages = .ok t) :
    t = s ∨ (s.memory = none ∧ t = { s with pending := some pages }) ∨
    ∃ place m grown, s.memory = some place ∧ s.memories[place]? = some m ∧ growTo m pages = .ok grown ∧
      t = { s with memories := s.memories.setIfInBounds place grown } := by
  unfold resize at h
  split at h
  · rename_i unshared
    split at h
    · contradiction
    · cases h
      exact .inr (.inl ⟨unshared, rfl⟩)
  · rename_i place shared
    split at h
    · cases h
      exact .inl rfl
    · rename_i m found
      cases grew : growTo m pages with
      | error fault =>
        rw [grew] at h
        contradiction
      | ok grown =>
        rw [grew] at h
        cases h
        exact .inr (.inr ⟨place, m, grown, shared, found, grew, rfl⟩)

theorem Continues.resize (h : s.resize pages = .ok t) : Continues s t := by
  rcases resize_cases h with rfl | ⟨_, rfl⟩ | ⟨place, _, _, _, _, _, rfl⟩
  · exact .refl _
  · exact ⟨rfl, rfl, rfl, rfl, rfl, rfl, rfl⟩
  · exact ⟨rfl, rfl, rfl, rfl, rfl, Array.size_setIfInBounds, rfl⟩

/-- Setting a global changes nothing but the cell. -/
theorem setGlobal_ok (h : s.setGlobal g tag slot = .ok t) :
    ∃ v, g.mutable = true ∧ tag = g.type ∧ Value.ofSlot? slot tag = some v ∧
      t = { s with modules := s.modules.modify g.module fun m =>
        { m with inst := { m.inst with globals := m.inst.globals.setIfInBounds g.index v } } } := by
  unfold setGlobal at h
  repeat' split at h
  all_goals cases h
  rename_i mutable type _ v read
  exact ⟨v, by simpa using mutable, Decidable.not_not.mp type, read, rfl⟩

theorem Continues.setGlobal (h : s.setGlobal g tag slot = .ok t) : Continues s t := by
  obtain ⟨v, _, _, _, rfl⟩ := setGlobal_ok h
  exact .modify s g.module _ fun _ _ => rfl

/-- Whether a function is one of a loaded module, with the types that it has there. -/
structure Offers (s : Store σ) (f : Function) (m : LoadedModule) (type : Wasm.FuncType) : Prop where
  module : s.modules[f.module]? = some m
  known : m.inst.module.funcType? f.index = some type
  params : f.params = type.params.map (·.tag)
  results : f.results = type.results.map (·.tag)

/-- A function that a lookup gives out. -/
def Resolves (s : Store σ) (f : Function) : Prop :=
  ∃ k m e, s.modules[k]? = some m ∧ s.resolve k m e = .ok (some f)

theorem resolve_some {m : LoadedModule} (h : s.resolve k m e = .ok (some f)) :
    s.linked k = true ∧ ∃ type, m.inst.module.funcType? e.index = some type ∧
      f = ⟨k, e.index, type.params.map (·.tag), type.results.map (·.tag)⟩ := by
  unfold resolve at h
  split at h
  · cases h
  · split at h
    · cases h
    · rename_i linked
      split at h
      · rename_i type known
        cases h
        exact ⟨by simpa using linked, type, known, rfl⟩
      · cases h

theorem Resolves.offers (h : s.Resolves f) : ∃ m type, s.Offers f m type := by
  obtain ⟨k, m, e, found, resolved⟩ := h
  obtain ⟨_, type, known, rfl⟩ := resolve_some resolved
  exact ⟨m, type, found, known, rfl, rfl⟩

theorem Resolves.linked (h : s.Resolves f) : s.linked f.module = true := by
  obtain ⟨k, m, e, found, resolved⟩ := h
  obtain ⟨linked, type, _, rfl⟩ := resolve_some resolved
  exact linked

theorem resolves_of_findModuleFunction (h : s.findModuleFunction k name = .ok (some f)) : s.Resolves f := by
  unfold findModuleFunction at h
  split at h
  · contradiction
  · rename_i m found
    split at h
    · contradiction
    · exact ⟨k, m, _, found, h⟩

theorem resolves_of_findFunction (h : s.findFunction name = .ok (some f)) : s.Resolves f := by
  unfold findFunction at h
  obtain answer | ⟨_, absent⟩ := Option.getD_eq_iff.mp h
  · obtain ⟨⟨m, k⟩, among, resolved⟩ := List.exists_of_findSome?_eq_some answer
    obtain ⟨e, _, same⟩ := Option.map_eq_some_iff.mp resolved
    exact ⟨k, m, e, List.mk_mem_zipIdx_iff_getElem?.mp among, same⟩
  · contradiction

/-- A lookup of an exported function succeeds while everything that its module imports is linked. -/
theorem findModuleFunction_of_export {m : LoadedModule} {name : String} (found : s.modules[k]? = some m)
    (exported : m.inst.module.export? name = some e) (func : e.kind = .func)
    (known : m.inst.module.funcType? e.index = some type) :
    s.findModuleFunction k name =
      if s.linked k = true then .ok (some ⟨k, e.index, type.params.map (·.tag), type.results.map (·.tag)⟩)
      else .error .importMissing := by
  simp only [findModuleFunction, found, exported, resolve, func, known, ne_eq, not_true_eq_false, if_false]
  cases s.linked k <;> rfl

/-- Stores that have at least the modules that another has, in the same shapes. -/
def Keeps (s t : Store σ) : Prop :=
  ∀ (k : Nat) (m : LoadedModule), s.modules[k]? = some m → ∃ after, t.modules[k]? = some after ∧ after.shape = m.shape

theorem Keeps.refl (s : Store σ) : Keeps s s := fun _ m found => ⟨m, found, rfl⟩

theorem Keeps.trans (first : Keeps s t) (second : Keeps t u) : Keeps s u := by
  intro k m found
  obtain ⟨mid, there, same⟩ := first k m found
  obtain ⟨after, there', same'⟩ := second k mid there
  exact ⟨after, there', same'.trans same⟩

theorem Continues.keeps (h : Continues s t) : Keeps s t := by
  intro k m found
  have same := h.shape_eq k
  rw [found, Option.map_some, Option.map_eq_some_iff] at same
  exact same

theorem Keeps.offers {m : LoadedModule} (h : Keeps s t) (offers : s.Offers f m type) :
    ∃ after, t.Offers f after type := by
  obtain ⟨after, found, same⟩ := h _ m offers.module
  have module : after.inst.module = m.inst.module := congrArg Prod.fst same
  exact ⟨after, found, module ▸ offers.known, offers.params, offers.results⟩

theorem host_setGlobal (h : s.setGlobal g tag slot = .ok t) : t.host = s.host := by
  obtain ⟨v, _, _, _, rfl⟩ := setGlobal_ok h
  rfl

theorem host_resize (h : s.resize pages = .ok t) : t.host = s.host := by
  rcases resize_cases h with rfl | ⟨_, rfl⟩ | ⟨_, _, _, _, _, _, rfl⟩
  all_goals rfl

/-- What all linked functions keep of their state is kept by a run. -/
theorem run_host {P : σ → Prop}
    (keeps : ∀ slot ∈ s.imports, ∀ target, slot.target = some target →
      ∀ call host, P host → P (target.function call host).host)
    (h : s.run f args = (t, result)) (holds : P s.host) : P t.host := by
  rcases run_cases h with ⟨rfl, _⟩ | ⟨m, found, rfl⟩
  · exact holds
  · have kept : Wasm.Kept (s.hostCall m f.index) fun state => P state.user :=
      { change := fun holds change => change.user_eq ▸ holds
        answer := fun index args _ holds => user_dispatch keeps index args _ _ holds }
    exact kept.call _ _ _ holds

theorem call_host {P : σ → Prop}
    (keeps : ∀ slot ∈ s.imports, ∀ target, slot.target = some target →
      ∀ call host, P host → P (target.function call host).host)
    (h : s.call f args = (t, result)) (holds : P s.host) : P t.host := by
  rcases call_cases h with ⟨_, rfl, _⟩ | ⟨values, u, answer, _, ran, results, rfl⟩
  · exact holds
  · have kept : P u.host := run_host (s := { s with results := [] }) keeps ran holds
    exact kept

end Store
end WasmBinding
