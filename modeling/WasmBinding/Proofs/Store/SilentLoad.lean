import WasmBinding.Proofs.Store.Loading

/-! Loads run no code of the embedder. The start function of a module finds all of its imports unlinked, so that the first
call of one ends the load, and what stands behind the links of other modules makes no difference to it. -/

namespace WasmBinding

open Wasm (HostCall ImportCall Instance)

namespace Wasm.State

variable {σ : Type} {host : HostCall σ} {s : State σ} {call : ImportCall σ}

/-- The calls of imported functions that populating an instance makes; they are those of its start function. -/
def startCalls (host : HostCall σ) (budget : Budget) (eager : Bool) (s : State σ) : List (ImportCall σ) :=
  if eager && !s.segmentsFit then []
  else
    match s.putSegments with
    | (_, .error _) => []
    | (s, .ok ()) =>
      match s.inst.module.start with
      | none => []
      | some func => s.importCalls host budget func []

/-- If the embedder fails while an instance is populated, that ends there. -/
theorem populate_of_failed_import (made : call ∈ s.startCalls host budget eager)
    (failed : (host call.index call.args call.state.memories call.state.user).results = .error message) :
    (s.populate host budget eager).2 = .error (.abort (.host message)) := by
  unfold startCalls at made
  unfold populate
  by_cases refused : (eager && !s.segmentsFit) = true
  · rw [if_pos refused] at made
    cases made
  · rw [if_neg refused] at made ⊢
    cases wrote : s.putSegments with
    | mk t written =>
      rw [wrote] at made
      cases written with
      | error cause => cases made
      | ok done =>
        dsimp only at made ⊢
        cases starts : t.inst.module.start with
        | none =>
          rw [starts] at made
          cases made
        | some func =>
          rw [starts] at made
          have ended := call_of_failed_import made failed
          simp only [ended]

end Wasm.State

/-- The target that calls of an import find: that of the slot to which its stub leads. -/
def target? {σ : Type} (slots : List (ImportSlot σ)) (stubs : List Stub) (index : Nat) : Option (Target σ) :=
  stubs[index]?.bind fun stub => slots[stub.slot]?.bind ImportSlot.target

theorem target?_unlinked {σ : Type} {slots : List (ImportSlot σ)}
    (unlinked : ∀ stub ∈ stubs, ∀ slot, slots[stub.slot]? = some slot → slot.target = none) (index : Nat) :
    target? slots stubs index = none := by
  unfold target?
  rw [Option.bind_eq_none_iff]
  intro stub bound
  rw [Option.bind_eq_none_iff]
  exact unlinked stub (List.mem_of_getElem? bound)

namespace ImportSlot

variable {σ : Type}

/-- Puts something else behind a link; what is not linked stays so. -/
def relink (g : Target σ → Target σ) (slot : ImportSlot σ) : ImportSlot σ :=
  { slot with target := slot.target.map g }

@[simp] theorem relink_unlinked (g : Target σ → Target σ) (number : Nat) (i : Wasm.Import) (type : Wasm.FuncType) :
    (unlinked number i type).relink g = unlinked number i type := rfl

end ImportSlot

namespace Store

variable {σ : Type} {s t : Store σ} {m : Wasm.Module} {got : Supplies}

/-- The store as it is when a module begins to run, with what it was supplied with; `none` if it does not come to that. -/
def starting? (s : Store σ) (p : ParsedModule) : Option (Store σ × Supplies) :=
  if !p.environment.same s.environment then none
  else if p.module.definesMemory && s.memory.isSome then none
  else
    match s.supplyAll p.module {} p.module.imports with
    | (_, .error _) => none
    | (t, .ok got) => if p.module.accepts got.memories t.memories then some (t, got) else none

/-- The calls of imported functions that a load makes, in order. -/
def startCalls (s : Store σ) (p : ParsedModule) : List (ImportCall σ) :=
  match s.starting? p with
  | none => []
  | some (t, got) => (t.fresh p.module got).startCalls (t.startHost p.module got) t.budget t.eager

/-- The targets that a load calls. -/
def startTargets (s : Store σ) (p : ParsedModule) : List (Target σ) :=
  match s.starting? p with
  | none => []
  | some (t, got) => (s.startCalls p).filterMap fun call => target? t.imports got.stubs call.index

theorem starting?_some (h : s.starting? p = some (t, got)) :
    p.environment.same s.environment = true ∧ (p.module.definesMemory && s.memory.isSome) = false ∧
      s.supplyAll p.module {} p.module.imports = (t, .ok got) ∧ p.module.accepts got.memories t.memories = true := by
  unfold starting? at h
  split at h
  · contradiction
  · rename_i same
    split at h
    · contradiction
    · rename_i free
      split at h
      · contradiction
      · rename_i supplied
        split at h
        · rename_i accepted
          cases h
          exact ⟨by simpa using same, by simpa using free, supplied, accepted⟩
        · contradiction

theorem starting?_unlinked (h : s.starting? p = some (t, got)) :
    ∀ stub ∈ got.stubs, ∀ slot, t.imports[stub.slot]? = some slot → slot.target = none :=
  (supplyAll_supplied (starting?_some h).2.2.1).unlinked

/-- No load calls a target. -/
theorem startTargets_eq_nil (s : Store σ) (p : ParsedModule) : s.startTargets p = [] := by
  unfold startTargets
  split
  · rfl
  · rename_i starting
    exact List.filterMap_eq_nil_iff.mpr fun call _ => target?_unlinked (starting?_unlinked starting) call.index

theorem load_of_fault {fault : Fault} (same : p.environment.same s.environment = true)
    (free : (p.module.definesMemory && s.memory.isSome) = false)
    (failed : (s.instantiate p.module).2 = .error fault) : (s.load p).2 = .error fault := by
  unfold load
  rw [same, free]
  cases instantiated : s.instantiate p.module with
  | mk after result =>
    rw [instantiated] at failed
    cases failed
    rfl

/-- A load whose start function comes to a call of an import fails for want of it. -/
theorem load_of_startCalls (h : s.startCalls p ≠ []) : (s.load p).2 = .error .importMissing := by
  obtain ⟨call, made⟩ := List.exists_mem_of_ne_nil _ h
  unfold startCalls at made
  split at made
  · simp at made
  · rename_i t got starting
    obtain ⟨same, free, supplied, accepted⟩ := starting?_some starting
    have refused : t.startHost p.module got call.index call.args call.state.memories call.state.user =
        missing call.state.memories call.state.user := dispatch_unlinked (starting?_unlinked starting) ..
    have ended := Wasm.State.populate_of_failed_import made (congrArg Wasm.HostReply.results refused)
    refine load_of_fault same free ?_
    have populated : (t.instantiateWith p.module got).2 = .error .importMissing := by
      rw [instantiateWith_eq accepted]
      cases stopped : (t.fresh p.module got).populate (t.startHost p.module got) t.budget t.eager with
      | mk state result =>
        rw [stopped] at ended
        cases ended
        -- The words of the failed call are read back as the fault that they stand for.
        have words : Fault.ofMessage Fault.importMissing.message = .importMissing := by decide
        exact congrArg Except.error words
    unfold instantiate
    rw [supplied]
    exact populated

def relink (g : Target σ → Target σ) (s : Store σ) : Store σ :=
  { s with imports := s.imports.map (·.relink g) }

variable (g : Target σ → Target σ)

theorem supply_relink (s : Store σ) (m : Wasm.Module) (got : Supplies) (i : Wasm.Import) :
    (s.relink g).supply m got i = ((s.supply m got i).1.relink g, (s.supply m got i).2) := by
  unfold supply
  cases i.kind with
  | func type => simp [relink]
  | table limits => rfl
  | memory limits =>
    simp only [relink]
    split
    · rfl
    · split <;> rfl
  | global type =>
    dsimp only
    split <;> rfl

theorem supplyAll_relink (s : Store σ) (m : Wasm.Module) (got : Supplies) (wanted : List Wasm.Import) :
    (s.relink g).supplyAll m got wanted = ((s.supplyAll m got wanted).1.relink g, (s.supplyAll m got wanted).2) :=
  supplyAll_map (P := fun _ => True) (fun _ _ => trivial) (fun s got _ i _ => supply_relink g s m got i) trivial got

theorem share_relink (s : Store σ) (inst : Instance) :
    (s.relink g).share inst = ((s.share inst).1.relink g, (s.share inst).2) := by
  unfold share
  simp only [relink]
  repeat' split
  all_goals rfl

/-- Calls of imports that are not linked are answered alike, whatever stands behind other links. -/
theorem dispatch_relink
    (unlinked : ∀ stub ∈ got.stubs, ∀ slot, s.imports[stub.slot]? = some slot → slot.target = none)
    (userData : Nat) (memory : Option Nat) :
    dispatch (s.relink g).imports got.stubs userData memory = dispatch s.imports got.stubs userData memory := by
  have unlinked' : ∀ stub ∈ got.stubs, ∀ slot, (s.relink g).imports[stub.slot]? = some slot → slot.target = none := by
    intro stub among slot found
    rw [relink, List.getElem?_map, Option.map_eq_some_iff] at found
    obtain ⟨before, found, rfl⟩ := found
    simp only [ImportSlot.relink, unlinked stub among before found, Option.map_none]
  funext index args memories host
  rw [dispatch_unlinked unlinked', dispatch_unlinked unlinked]

theorem conclude_relink (s : Store σ) (stubs : List Stub) (r : Wasm.State σ × Except Wasm.Obstacle Unit) :
    (s.relink g).conclude stubs r = ((s.conclude stubs r).1.relink g, (s.conclude stubs r).2) := by
  obtain ⟨state, obstacle | done⟩ := r
  · rfl
  · have shared : ((s.relink g).absorb state).share state.inst = _ := share_relink g (s.absorb state) state.inst
    simp only [conclude, shared]
    cases (s.absorb state).share state.inst with
    | mk t result => cases result <;> rfl

theorem instantiateWith_relink
    (unlinked : ∀ stub ∈ got.stubs, ∀ slot, s.imports[stub.slot]? = some slot → slot.target = none) :
    (s.relink g).instantiateWith m got = ((s.instantiateWith m got).1.relink g, (s.instantiateWith m got).2) := by
  by_cases accepted : m.accepts got.memories s.memories = true
  · have answers : (s.relink g).startHost m got = s.startHost m got := dispatch_relink g unlinked ..
    rw [instantiateWith_eq (s := s.relink g) accepted, instantiateWith_eq accepted, answers]
    exact conclude_relink g s got.stubs _
  · rw [instantiateWith_refused (s := s.relink g) accepted, instantiateWith_refused accepted]

theorem instantiate_relink (s : Store σ) (m : Wasm.Module) :
    (s.relink g).instantiate m = ((s.instantiate m).1.relink g, (s.instantiate m).2) := by
  simp only [instantiate, supplyAll_relink]
  cases supplied : s.supplyAll m {} m.imports with
  | mk t result =>
    cases result with
    | error fault => rfl
    | ok got => exact instantiateWith_relink g (supplyAll_supplied supplied).unlinked

/-- A load does the same whatever stands behind the links. -/
theorem load_relink (s : Store σ) (p : ParsedModule) :
    (s.relink g).load p = ((s.load p).1.relink g, (s.load p).2) := by
  unfold load
  rw [instantiate_relink]
  change (if (!p.environment.same s.environment) = true then _ else
    if (p.module.definesMemory && s.memory.isSome) = true then _ else _) = _
  split
  · rfl
  · split
    · rfl
    · cases s.instantiate p.module with
      | mk after result =>
        cases result with
        | error fault =>
          simp only [rollBack, relink, List.length_map, List.map_take]
          rfl
        | ok loaded => rfl

theorem load_host (s : Store σ) (p : ParsedModule) : (s.load p).1.host = s.host := by
  cases loaded : s.load p with
  | mk t result =>
    cases result with
    | error fault => rw [(load_error loaded).1]
    | ok number =>
      obtain ⟨_, m, gained⟩ := load_ok loaded
      rw [gained.rest]

/-- A load in which nothing is called that is linked. -/
structure LoadsAlone (s : Store σ) (p : ParsedModule) : Prop where
  uncalled : s.startTargets p = []
  host : (s.load p).1.host = s.host
  /-- Whatever else were linked, the load would do the same. -/
  relinked : ∀ g : Target σ → Target σ, (s.relink g).load p = ((s.load p).1.relink g, (s.load p).2)
  refused : s.startCalls p ≠ [] → (s.load p).2 = .error .importMissing

theorem loadsAlone (s : Store σ) (p : ParsedModule) : s.LoadsAlone p where
  uncalled := s.startTargets_eq_nil p
  host := s.load_host p
  relinked g := s.load_relink g p
  refused := load_of_startCalls

end Store
end WasmBinding
