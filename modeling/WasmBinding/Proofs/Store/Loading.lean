import WasmBinding.Proofs.Store.Dispatch
import WasmBinding.Store.Load

/-! Loading step by step. In the course of a load a store gains slots and memories behind those it had; a
failed load takes them back, so that only the contents of a memory that was there before can differ. -/

namespace WasmBinding

open Wasm (HostCall Instance LinearMemory Value)

/-- The functions among imports, with the positions of their types. -/
def funcImports (imports : List Wasm.Import) : List (Wasm.Import × Nat) :=
  imports.filterMap fun i => match i.kind with
    | .func type => some (i, type)
    | _ => none

/-- The slots that imports of a module get if it is the module of a number. -/
def slotsFor {σ : Type} (number : Nat) (m : Wasm.Module) (imports : List Wasm.Import) : List (ImportSlot σ) :=
  (funcImports imports).map fun (i, type) => .unlinked number i (m.types[type]?.getD ⟨[], []⟩)

def stubsFrom {σ : Type} (first : Nat) (slots : List (ImportSlot σ)) : List Stub :=
  (slots.zipIdx first).map fun (slot, place) => ⟨place, slot.results⟩

def memoryCount (imports : List Wasm.Import) : Nat :=
  (imports.filterMap fun i => match i.kind with
    | .memory limits => some limits
    | _ => none).length

theorem memoryCount_imports (m : Wasm.Module) : memoryCount m.imports = m.importedMemories.length := rfl

theorem kind_of_memoryCount (none : memoryCount imports = 0) : ∀ i ∈ imports, ∀ limits, i.kind ≠ .memory limits := by
  intro i among limits kind
  have missing := List.filterMap_eq_nil_iff.mp (List.eq_nil_of_length_eq_zero none) i among
  simp only [kind] at missing
  contradiction

section Cons

variable {σ : Type} {i : Wasm.Import}

theorem slotsFor_cons_func (kind : i.kind = .func type) (number : Nat) (m : Wasm.Module) (rest : List Wasm.Import) :
    slotsFor (σ := σ) number m (i :: rest) =
      .unlinked number i (m.types[type]?.getD ⟨[], []⟩) :: slotsFor number m rest := by
  simp only [slotsFor, funcImports, List.filterMap_cons, kind, List.map_cons]

theorem slotsFor_cons_other (kind : ∀ type, i.kind ≠ .func type) (number : Nat) (m : Wasm.Module)
    (rest : List Wasm.Import) : slotsFor (σ := σ) number m (i :: rest) = slotsFor number m rest := by
  cases other : i.kind with
  | func type => exact absurd other (kind type)
  | table | memory | global => simp only [slotsFor, funcImports, List.filterMap_cons, other]

theorem memoryCount_cons_memory (kind : i.kind = .memory limits) (rest : List Wasm.Import) :
    memoryCount (i :: rest) = memoryCount rest + 1 := by
  simp only [memoryCount, List.filterMap_cons, kind, List.length_cons]

theorem memoryCount_cons_other (kind : ∀ limits, i.kind ≠ .memory limits) (rest : List Wasm.Import) :
    memoryCount (i :: rest) = memoryCount rest := by
  cases other : i.kind with
  | memory limits => exact absurd other (kind limits)
  | func | table | global => simp only [memoryCount, List.filterMap_cons, other]

end Cons

theorem mem_slotsFor {σ : Type} {slot : ImportSlot σ} (h : slot ∈ slotsFor number m imports) :
    slot.target = none := by
  obtain ⟨_, _, rfl⟩ := List.mem_map.mp h
  rfl

namespace Store

variable {σ : Type} {s t u : Store σ}

/-- The place of the shared memory, or where it will be if the next import makes it. -/
def sharedPlace (s : Store σ) : Nat := s.memory.getD s.memories.size

/-- A store that a load has brought so far. Memories that were there before have their contents, those in
`touched` excepted. -/
structure Loading (touched : List Nat) (s t : Store σ) : Prop where
  rest : t = { s with imports := t.imports, memories := t.memories, memory := t.memory }
  imports : s.imports <+: t.imports
  size : s.memories.size ≤ t.memories.size
  contents : ∀ place < s.memories.size, place ∉ touched → t.memories[place]? = s.memories[place]?
  memory : ∀ place, s.memory = some place → t.memory = some place

namespace Loading

theorem refl (s : Store σ) : Loading [] s s :=
  ⟨rfl, List.prefix_rfl, Nat.le_refl _, fun _ _ _ => rfl, fun _ h => h⟩

theorem trans (first : Loading touched s t) (second : Loading touched t u) : Loading touched s u where
  rest := by rw [second.rest, first.rest]
  imports := first.imports.trans second.imports
  size := Nat.le_trans first.size second.size
  contents place old untouched :=
    (second.contents place (Nat.lt_of_lt_of_le old first.size) untouched).trans (first.contents place old untouched)
  memory place had := second.memory place (first.memory place had)

theorem supply (h : s.supply m got i = (t, result)) : Loading [] s t := by
  unfold Store.supply at h
  split at h
  · cases h
    exact ⟨rfl, List.prefix_append _ _, Nat.le_refl _, fun _ _ _ => rfl, fun _ h => h⟩
  · split at h <;> cases h <;> exact .refl s
  · split at h
    · cases h
      exact .refl s
    · rename_i unshared
      split at h <;> cases h
      · exact .refl s
      · refine ⟨rfl, List.prefix_rfl, by simp, fun place old _ => ?_, fun place had => ?_⟩
        · simp [Array.getElem?_push, Nat.ne_of_lt old]
        · rw [unshared] at had
          contradiction
  · cases h
    exact .refl s

theorem supplyAll (h : s.supplyAll m got wanted = (t, result)) : Loading [] s t := by
  induction wanted generalizing s got with
  | nil =>
    cases h
    exact .refl _
  | cons i rest ih =>
    unfold Store.supplyAll at h
    split at h
    · rename_i supplied
      exact (Loading.supply supplied).trans (ih h)
    · rename_i supplied
      cases h
      exact Loading.supply supplied

theorem mono (h : Loading touched s t) (more : touched ⊆ touched') : Loading touched' s t :=
  { h with contents := fun place old untouched => h.contents place old fun among => untouched (more among) }

end Loading

/-- What a load has come to when all imports have been given what they ask for. -/
structure Supplied (m : Wasm.Module) (wanted : List Wasm.Import) (s t : Store σ) (got got' : Supplies) : Prop where
  imports : t.imports = s.imports ++ slotsFor s.modules.length m wanted
  stubs : got'.stubs = got.stubs ++ stubsFrom s.imports.length (slotsFor (σ := σ) s.modules.length m wanted)
  memories : got'.memories = got.memories ++ List.replicate (memoryCount wanted) s.sharedPlace
  memory : t.memory = if memoryCount wanted = 0 then s.memory else some s.sharedPlace
  /-- A memory is made for the first import that finds none. -/
  size : t.memories.size = s.memories.size + if s.memory = none then min 1 (memoryCount wanted) else 0

theorem supplied_nil (s : Store σ) (m : Wasm.Module) (got : Supplies) : Supplied m [] s s got got := by
  constructor <;> simp [slotsFor, funcImports, stubsFrom, memoryCount]

theorem stubsFrom_cons (slot : ImportSlot σ) (rest : List (ImportSlot σ)) :
    stubsFrom first (slot :: rest) = ⟨first, slot.results⟩ :: stubsFrom (first + 1) rest := rfl

theorem supplied_cons (h : s.supply m got i = (t, .ok got')) (rest : Supplied m wanted t u got' got'') :
    Supplied m (i :: wanted) s u got got'' := by
  obtain ⟨imports, stubs, memories, memory, size⟩ := rest
  unfold supply at h
  split at h
  · rename_i type kind
    cases h
    have slots := slotsFor_cons_func (σ := σ) kind s.modules.length m wanted
    have count : memoryCount (i :: wanted) = memoryCount wanted := memoryCount_cons_other (by simp [kind]) wanted
    constructor
    · rw [imports, slots, List.append_assoc]
      rfl
    · rw [stubs, slots, stubsFrom_cons, List.append_assoc, List.length_append]
      rfl
    · rw [memories, count]
      rfl
    · rw [memory, count]
      rfl
    · rw [size, count]
  · rename_i kind
    have slots := slotsFor_cons_other (σ := σ) (i := i) (by simp [kind]) s.modules.length m wanted
    have count : memoryCount (i :: wanted) = memoryCount wanted := memoryCount_cons_other (by simp [kind]) wanted
    split at h <;> cases h
    constructor
    · rw [imports, slots]
    · rw [stubs, slots]
    · rw [memories, count]
    · rw [memory, count]
    · rw [size, count]
  · rename_i kind
    have slots := slotsFor_cons_other (σ := σ) (i := i) (by simp [kind]) s.modules.length m wanted
    have count := memoryCount_cons_memory kind wanted
    split at h
    · rename_i place shared
      cases h
      have place_eq : s.sharedPlace = place := by simp only [sharedPlace, shared, Option.getD_some]
      constructor
      · rw [imports, slots]
      · rw [stubs, slots]
      · rw [memories, count, place_eq, List.replicate_succ, List.append_assoc]
        rfl
      · rw [memory, place_eq, shared, ite_self, count, if_neg (Nat.succ_ne_zero _)]
      · rw [size, shared]
        rfl
    · rename_i unshared
      split at h <;> cases h
      have place_eq : s.sharedPlace = s.memories.size := by simp only [sharedPlace, unshared, Option.getD_none]
      constructor
      · rw [imports, slots]
      · rw [stubs, slots]
      · rw [memories, count, place_eq, List.replicate_succ, List.append_assoc]
        rfl
      · rw [memory, place_eq, count, if_neg (Nat.succ_ne_zero _)]
        exact ite_self _
      · rw [size, count, Array.size_push, if_pos unshared]
        simp
  · cases h

theorem supplyAll_supplied (h : s.supplyAll m got wanted = (t, .ok got')) : Supplied m wanted s t got got' := by
  induction wanted generalizing s got with
  | nil =>
    cases h
    exact supplied_nil _ m _
  | cons i rest ih =>
    unfold supplyAll at h
    split at h
    · rename_i supplied
      exact supplied_cons supplied (ih h)
    · cases h

/-- If another store gives each import the same, then it gives all of them the same. -/
theorem supplyAll_map {f : Store σ → Store σ} {P : Store σ → Prop}
    (stays : ∀ {s t : Store σ} {got : Supplies} {i : Wasm.Import} {result : Except Fault Supplies},
      P s → s.supply m got i = (t, result) → P t)
    (alike : ∀ (s : Store σ) (got : Supplies), P s → ∀ i ∈ wanted,
      (f s).supply m got i = (f (s.supply m got i).1, (s.supply m got i).2))
    (holds : P s) (got : Supplies) :
    (f s).supplyAll m got wanted = (f (s.supplyAll m got wanted).1, (s.supplyAll m got wanted).2) := by
  induction wanted generalizing s got with
  | nil => rfl
  | cons i rest ih =>
    simp only [supplyAll, alike s got holds i List.mem_cons_self]
    cases supplied : s.supply m got i with
    | mk t result =>
      cases result with
      | error fault => rfl
      | ok got' => exact ih (fun s got holds i among => alike s got holds i (.tail _ among)) (stays holds supplied) got'

/-- Taking back what a load has added leaves the contents of the memories that were there before. -/
theorem Loading.rollBack_eq (h : Loading touched s t) :
    t.rollBack s = { s with memories := t.memories.take s.memories.size } := by
  obtain ⟨more, imports⟩ := h.imports
  have memory : (if s.memory.isSome then t.memory else none) = s.memory := by
    cases had : s.memory with
    | none => rfl
    | some place => exact h.memory place had
  rw [rollBack, memory, ← imports, List.take_left, h.rest]

/-- A memory that was there before and that a load has not touched has its contents after taking back. -/
theorem Loading.contents_rollBack (h : Loading touched s t) (old : place ∈ touched → s.memories.size ≤ place) :
    (t.rollBack s).memories[place]? = s.memories[place]? := by
  have size := h.size
  simp only [h.rollBack_eq, Array.take_eq_extract]
  by_cases before : place < s.memories.size
  · have untouched : place ∉ touched := fun among => Nat.not_lt.mpr (old among) before
    rw [← h.contents place before untouched, Array.getElem?_extract]
    simp only [Nat.zero_add, Nat.sub_zero, Nat.min_eq_left size, if_pos before]
  · rw [Array.getElem?_eq_none (by simp; omega), Array.getElem?_eq_none (by omega)]

theorem Loading.rollBack_eq_self (h : Loading touched s t)
    (fresh : ∀ place ∈ touched, s.memories.size ≤ place) : t.rollBack s = s := by
  have contents : (t.rollBack s).memories = s.memories :=
    Array.ext_getElem? fun place => h.contents_rollBack (fresh place)
  rw [h.rollBack_eq] at contents ⊢
  simp only at contents
  rw [contents]

/-- The stubs of a module that is being loaded lead to its own slots, none of which is linked yet. -/
theorem Supplied.unlinked (h : Supplied m wanted s t {} got) :
    ∀ stub ∈ got.stubs, ∀ slot, t.imports[stub.slot]? = some slot → slot.target = none := by
  intro stub among slot found
  rw [h.stubs, List.nil_append, stubsFrom, List.mem_map] at among
  obtain ⟨⟨made, place⟩, among, rfl⟩ := among
  have first := List.le_snd_of_mem_zipIdx among
  rw [h.imports, List.getElem?_append_right first] at found
  exact mem_slotsFor (List.mem_of_getElem? found)

theorem share_cases (h : s.share inst = (t, shared)) :
    t = s ∧ (shared = .ok () → inst.module.definesMemory = false) ∨
    ∃ place m, inst.module.definesMemory = true ∧ inst.firstExportedMemory? = some place ∧
      place < s.memories.size ∧ shared = .ok () ∧
      t = { s with memories := s.memories.setIfInBounds place m, memory := some place } := by
  unfold share at h
  split at h
  · rename_i defines
    split at h
    · cases h
      exact .inl ⟨rfl, fun failed => by contradiction⟩
    · rename_i place exported
      split at h
      · cases h
        exact .inl ⟨rfl, fun failed => by contradiction⟩
      · rename_i found
        split at h
        · cases h
          exact .inl ⟨rfl, fun failed => by contradiction⟩
        · rename_i m _
          cases h
          have old := (Array.getElem?_eq_some_iff.mp found).1
          exact .inr ⟨place, m, defines, exported, old, rfl, rfl⟩
  · rename_i defines
    cases h
    exact .inl ⟨rfl, fun _ => by simpa using defines⟩

theorem share_ok (h : s.share inst = (t, .ok ())) :
    t.imports = s.imports ∧ t.memories.size = s.memories.size ∧
    t.memory = (if inst.module.definesMemory then inst.firstExportedMemory? else s.memory) ∧
    (inst.module.definesMemory = true → inst.firstExportedMemory?.isSome = true) := by
  rcases share_cases h with ⟨rfl, undefined⟩ | ⟨place, m, defines, exported, _, _, rfl⟩
  · rw [undefined rfl]
    exact ⟨rfl, rfl, rfl, by simp⟩
  · rw [if_pos defines, exported]
    exact ⟨rfl, Array.size_setIfInBounds, rfl, fun _ => rfl⟩

/-- The state in which the segments of a module are written and its start function runs. -/
def fresh (s : Store σ) (m : Wasm.Module) (got : Supplies) : Wasm.State σ :=
  m.allocate got.globals got.memories s.memories s.host

/-- How calls of its imports are answered meanwhile. -/
def startHost (s : Store σ) (m : Wasm.Module) (got : Supplies) : HostCall σ :=
  dispatch s.imports got.stubs s.userData (((s.fresh m got).inst.exportedMemory? "memory").or s.memory)

def eager (s : Store σ) : Bool := !s.environment.settings.bulkMemory

/-- What becomes of an instance that has been populated, or has not. -/
def conclude (s : Store σ) (stubs : List Stub) :
    Wasm.State σ × Except Wasm.Obstacle Unit → Store σ × Except Fault LoadedModule
  | (state, .error obstacle) => (s.absorb state, .error (.ofObstacle obstacle))
  | (state, .ok ()) =>
    match (s.absorb state).share state.inst with
    | (s, .error fault) => (s, .error fault)
    | (s, .ok ()) => (s, .ok ⟨state.inst, stubs⟩)

theorem instantiateWith_eq (accepted : m.accepts got.memories s.memories = true) :
    s.instantiateWith m got =
      s.conclude got.stubs ((s.fresh m got).populate (s.startHost m got) s.budget s.eager) := by
  unfold instantiateWith
  rw [if_pos accepted]
  rfl

theorem instantiateWith_refused (refused : ¬ m.accepts got.memories s.memories = true) :
    s.instantiateWith m got = (s, .error (.refused "incompatible import type")) := by
  unfold instantiateWith
  rw [if_neg refused]

/-- A new module is an instance that has been populated, with the stubs that it was given. -/
theorem instantiate_populates (h : s.instantiate w = (t, .ok m)) :
    ∃ s' got state, s.supplyAll w {} w.imports = (s', .ok got) ∧
      (s'.fresh w got).populate (s'.startHost w got) s'.budget s'.eager = (state, .ok ()) ∧ m = ⟨state.inst, got.stubs⟩ := by
  unfold instantiate at h
  split at h
  · cases h
  · rename_i s' got supplied
    by_cases accepted : w.accepts got.memories s'.memories = true
    · rw [instantiateWith_eq accepted] at h
      cases populated : (s'.fresh w got).populate (s'.startHost w got) s'.budget s'.eager with
      | mk state answer =>
        rw [populated] at h
        cases answer with
        | error obstacle => cases h
        | ok done =>
          simp only [conclude] at h
          split at h
          · cases h
          · cases h
            exact ⟨s', got, state, supplied, populated, rfl⟩
    · rw [instantiateWith_refused accepted] at h
      cases h

/-- What comes of instantiating a module whose imports are not linked. Its segments and its start function change
nothing that is not its own. -/
theorem instantiateWith_cases
    (unlinked : ∀ stub ∈ got.stubs, ∀ slot, s.imports[stub.slot]? = some slot → slot.target = none)
    (h : s.instantiateWith m got = (t, result)) :
    (t = s ∧ ∃ fault, result = .error fault) ∨
    ∃ state, (m.allocate got.globals got.memories s.memories s.host).Alone state ∧
      ((t = s.absorb state ∧ ∃ fault, result = .error fault) ∨
        ∃ shared, (s.absorb state).share state.inst = (t, shared) ∧
          result = shared.map fun _ => ⟨state.inst, got.stubs⟩) := by
  unfold instantiateWith at h
  split at h
  case isFalse =>
    cases h
    exact .inl ⟨rfl, _, rfl⟩
  case isTrue =>
    dsimp only at h
    split at h
    · rename_i state obstacle populated
      cases h
      exact .inr ⟨state, populate_alone unlinked populated, .inl ⟨rfl, _, rfl⟩⟩
    · rename_i state populated
      refine .inr ⟨state, populate_alone unlinked populated, .inr ?_⟩
      split at h
      · rename_i shared
        cases h
        exact ⟨_, shared, rfl⟩
      · rename_i shared
        cases h
        exact ⟨_, shared, rfl⟩

namespace Loading

/-- An instance that has changed only its own memories leaves the others that the store had. -/
theorem absorb {m : Wasm.Module} {state : Wasm.State σ}
    (alone : (m.allocate globals places t.memories t.host).Alone state) :
    Loading state.inst.memories t (t.absorb state) where
  rest := by
    have user : state.user = t.host := alone.user
    rw [Store.absorb, user]
  imports := List.prefix_rfl
  size := by
    have size : state.memories.size = _ := alone.size
    rw [Store.absorb, size, Wasm.Module.allocate, Array.size_append]
    exact Nat.le_add_right _ _
  contents place old untouched := by
    rw [alone.places] at untouched
    have kept : state.memories[place]? = _ := alone.foreign place untouched
    rw [Store.absorb, kept, Wasm.Module.allocate, Array.getElem?_append_left old]
  memory _ had := had

/-- A memory is shared that the new instance has. A store that had a memory gets no other. -/
theorem share (h : Loading touched s t) (shared : t.share inst = (u, result))
    (touches : inst.memories ⊆ touched) (free : inst.module.definesMemory = true → s.memory = none) :
    Loading touched s u := by
  rcases share_cases shared with ⟨rfl, _⟩ | ⟨place, m, defines, exported, old, _, rfl⟩
  · exact h
  · have among : place ∈ touched := touches (Instance.mem_of_firstExportedMemory? exported)
    refine ⟨by rw [h.rest], h.imports, by simpa using h.size, fun other before untouched => ?_, fun other had => ?_⟩
    · have differs : place ≠ other := fun same => untouched (same ▸ among)
      rw [Array.getElem?_setIfInBounds_ne differs]
      exact h.contents other before untouched
    · rw [free defines] at had
      contradiction

end Loading

/-- However far an instantiation comes, the only memory it may have touched that was there before is the shared one,
and that only if the module imports a memory. -/
theorem instantiate_loading (free : m.definesMemory = true → s.memory = none)
    (h : s.instantiate m = (t, result)) :
    ∃ touched, Loading touched s t ∧
      ∀ place ∈ touched, s.memories.size ≤ place ∨ s.memory = some place ∧ m.importedMemories ≠ [] := by
  unfold instantiate at h
  split at h
  · rename_i supplied
    cases h
    exact ⟨[], .supplyAll supplied, by simp⟩
  · rename_i s' got supplied
    have loading : Loading [] s s' := .supplyAll supplied
    have given := supplyAll_supplied supplied
    have fresh : ∀ place ∈ got.memories ++ List.range' s'.memories.size m.memories.length,
        s.memories.size ≤ place ∨ s.memory = some place ∧ m.importedMemories ≠ [] := by
      intro place among
      rw [given.memories, memoryCount_imports, List.nil_append, List.mem_append, List.mem_replicate] at among
      rcases among with ⟨imports, rfl⟩ | own
      · have imports : m.importedMemories ≠ [] := fun none => imports (by rw [none]; rfl)
        cases had : s.memory with
        | none => exact .inl (by simp [sharedPlace, had])
        | some place => exact .inr ⟨by simp [sharedPlace, had], imports⟩
      · exact .inl (Nat.le_trans loading.size (List.mem_range'_1.mp own).1)
    rcases instantiateWith_cases given.unlinked h with ⟨rfl, _⟩ | ⟨state, alone, rest⟩
    · exact ⟨[], loading, by simp⟩
    · have populated := (loading.mono (List.nil_subset _)).trans (.absorb alone)
      have places : state.inst.memories = got.memories ++ List.range' s'.memories.size m.memories.length :=
        alone.places
      rw [← places] at fresh
      rcases rest with ⟨rfl, _⟩ | ⟨_, shared, _⟩
      · exact ⟨_, populated, fresh⟩
      · have module : state.inst.module = m := alone.module
        exact ⟨_, populated.share shared (List.Subset.refl _) (module ▸ free), fresh⟩

/-- A load that fails leaves everything as it was, except for the contents of the shared memory, and those too unless
the module imports it. -/
theorem load_error (h : s.load p = (t, .error fault)) :
    t = { s with memories := t.memories } ∧ t.memories.size = s.memories.size ∧
    (∀ place, s.memory ≠ some place → t.memories[place]? = s.memories[place]?) ∧
    (p.module.importedMemories = [] ∨ s.memory = none → t = s) := by
  unfold load at h
  split at h
  · cases h
    exact ⟨rfl, rfl, fun _ _ => rfl, fun _ => rfl⟩
  · split at h
    · cases h
      exact ⟨rfl, rfl, fun _ _ => rfl, fun _ => rfl⟩
    · rename_i free
      have free : p.module.definesMemory = true → s.memory = none := by simpa using free
      split at h
      · rename_i after _ instantiated
        cases h
        obtain ⟨touched, loading, fresh⟩ := instantiate_loading free instantiated
        have size : (after.memories.take s.memories.size).size = s.memories.size := by
          have := loading.size
          simp only [Array.take_eq_extract, Array.size_extract]
          omega
        refine ⟨?_, ?_, fun place other => ?_, fun unshared => ?_⟩
        · rw [loading.rollBack_eq]
        · rw [loading.rollBack_eq]
          exact size
        · refine loading.contents_rollBack fun among => ?_
          rcases fresh place among with new | ⟨had, _⟩
          · exact new
          · exact absurd had other
        · refine loading.rollBack_eq_self fun place among => ?_
          rcases fresh place among with new | ⟨had, imports⟩
          · exact new
          · rcases unshared with none | none
            · exact absurd none imports
            · rw [none] at had
              contradiction
      · cases h

/-- The number of memories that a store has when the imports of a module have been given what they ask for. -/
def suppliedSize (s : Store σ) (m : Wasm.Module) : Nat :=
  s.memories.size + if s.memory = none then min 1 m.importedMemories.length else 0

/-- What a store has become when a module has been loaded into it. -/
structure Gained (s t : Store σ) (w : Wasm.Module) (m : LoadedModule) : Prop where
  rest : t = { s with
    imports := t.imports, modules := t.modules, memories := t.memories, memory := t.memory, pending := t.pending }
  modules : t.modules = s.modules ++ [m]
  module : m.inst.module = w
  imports : t.imports = s.imports ++ slotsFor s.modules.length w w.imports
  stubs : m.stubs = stubsFrom s.imports.length (slotsFor (σ := σ) s.modules.length w w.imports)
  /-- All imported memories are the shared one; the module's own are new. -/
  places : m.inst.memories = List.replicate w.importedMemories.length s.sharedPlace ++
    List.range' (s.suppliedSize w) w.memories.length
  size : t.memories.size = s.suppliedSize w + w.memories.length
  memory : t.memory =
    if w.definesMemory then m.inst.firstExportedMemory?
    else if w.importedMemories.length = 0 then s.memory else some s.sharedPlace
  free : w.definesMemory = true → s.memory = none
  exported : w.definesMemory = true → m.inst.firstExportedMemory?.isSome = true

theorem instantiate_ok (free : w.definesMemory = true → s.memory = none) (h : s.instantiate w = (t, .ok m))
    (pending : Option Nat) : Gained s { t with modules := t.modules ++ [m], pending := pending } w m := by
  obtain ⟨_, loading, _⟩ := instantiate_loading free h
  have rest := loading.rest
  have modules : t.modules = s.modules := by rw [rest]
  unfold instantiate at h
  split at h
  · cases h
  · rename_i s' got supplied
    have given := supplyAll_supplied supplied
    rcases instantiateWith_cases given.unlinked h with ⟨_, _, failed⟩ | ⟨state, alone, ⟨_, _, failed⟩ | ⟨r, shared, ok⟩⟩
    · contradiction
    · contradiction
    · cases r with
      | error fault => contradiction
      | ok done =>
        cases ok
        have module : state.inst.module = w := alone.module
        have pool : state.memories.size = s.suppliedSize w + w.memories.length := by
          have size : state.memories.size = _ := alone.size
          rw [size, Wasm.Module.allocate, Array.size_append, given.size]
          simp [suppliedSize, memoryCount_imports]
        have places : state.inst.memories = List.replicate w.importedMemories.length s.sharedPlace ++
            List.range' (s.suppliedSize w) w.memories.length := by
          have places : state.inst.memories = _ := alone.places
          rw [places, Wasm.Module.allocate, given.memories, given.size]
          simp [suppliedSize, memoryCount_imports]
        obtain ⟨imports, size, memory, exported⟩ := share_ok shared
        rw [module] at exported
        rw [module, absorb, given.memory] at memory
        exact
          { rest := by rw [rest]
            modules := by rw [modules]
            module := module
            imports := imports.trans given.imports
            stubs := given.stubs
            places := places
            size := size.trans pool
            memory := memory
            free := free
            exported := exported }

theorem load_instantiates (h : s.load p = (t, .ok number)) :
    number = s.modules.length ∧ ∃ after m, s.instantiate p.module = (after, .ok m) ∧ Gained s t p.module m := by
  unfold load at h
  split at h
  · cases h
  · split at h
    · cases h
    · rename_i free
      have free : p.module.definesMemory = true → s.memory = none := by simpa using free
      split at h
      · cases h
      · rename_i after m instantiated
        cases h
        exact ⟨rfl, after, m, instantiated, instantiate_ok free instantiated _⟩

theorem load_ok (h : s.load p = (t, .ok number)) :
    number = s.modules.length ∧ ∃ m, Gained s t p.module m := by
  obtain ⟨number, _, m, _, gained⟩ := load_instantiates h
  exact ⟨number, m, gained⟩

end Store
end WasmBinding
