import WasmBinding.Proofs.Store.Service
import WasmBinding.Proofs.Wasm.LargerMemory

/-! Sizes asked for in advance. What is loaded after a size was asked for is what is loaded before the memory is resized to
it, whether a module defines the memory or imports it. -/

namespace WasmBinding

open Wasm (Instance LinearMemory)

/-- An operation that has failed, without what it left behind. -/
def settled {ε τ α : Type} : τ × Except ε α → Except ε (τ × α)
  | (t, .ok a) => .ok (t, a)
  | (_, .error e) => .error e

section

variable {ε τ α : Type} (resize : τ → Nat → Except ε τ) (load : τ → ParsedModule → τ × Except ε α)

def loadThenResize (s : τ) (p : ParsedModule) (pages : Nat) : Except ε (τ × α) := do
  let (t, a) ← settled (load s p)
  return (← resize t pages, a)

def resizeThenLoad (s : τ) (pages : Nat) (p : ParsedModule) : Except ε (τ × α) := do
  settled (load (← resize s pages) p)

/-- Asking for a size first comes to the same as resizing afterwards: with the same result or the same failure if a module
defines its memories, and with the same result if it imports one and does not run. -/
structure AgreesOnSize (s : τ) (unasked : Prop) : Prop where
  defining : unasked → ∀ p pages, p.module.importedMemories = [] → p.module.definesMemory = true →
    resizeThenLoad resize load s pages p = loadThenResize resize load s p pages
  importing : ∀ p pages r, p.module.importedMemories ≠ [] → p.module.definesMemory = false → p.module.start = none →
    loadThenResize resize load s p pages = .ok r → resizeThenLoad resize load s pages p = .ok r

end

section

variable {ε τ α : Type} {resize : τ → Nat → Except ε τ} {load : τ → ParsedModule → τ × Except ε α} {s : τ}

theorem settled_eq_ok {r : τ × Except ε α} {t : τ} {a : α} : settled r = .ok (t, a) ↔ r = (t, .ok a) := by
  obtain ⟨u, e | b⟩ := r <;> simp [settled]

theorem loadThenResize_eq_ok {u : τ} {a : α} :
    loadThenResize resize load s p pages = .ok (u, a) ↔
      ∃ t, load s p = (t, .ok a) ∧ resize t pages = .ok u := by
  simp only [loadThenResize, bind_eq_ok]
  constructor
  · rintro ⟨⟨t, b⟩, loaded, u', resized, made⟩
    cases made
    exact ⟨t, settled_eq_ok.mp loaded, resized⟩
  · rintro ⟨t, loaded, resized⟩
    exact ⟨(t, a), settled_eq_ok.mpr loaded, u, resized, rfl⟩

theorem resizeThenLoad_of_ok {t : τ} (resized : resize s pages = .ok t) :
    resizeThenLoad resize load s pages p = settled (load t p) := by
  rw [resizeThenLoad, resized]
  rfl

end

theorem growTo_enlarge {m grown : LinearMemory} (h : growTo m pages = .ok grown) : grown = m.enlarge (pages - m.pages) :=
  (growTo_eq_ok_iff.mp h).2.2

theorem growTo_of_frame {m m' grown : LinearMemory} (same : m'.frame = m.frame) (h : growTo m' pages = .ok grown) :
    growTo m pages = .ok (m.enlarge (pages - m.pages)) ∧ m'.pages = m.pages := by
  obtain ⟨size, bound⟩ := Prod.mk.inj same
  obtain ⟨least, most, _⟩ := growTo_eq_ok_iff.mp h
  have count : m'.pages = m.pages := congrArg (· / Wasm.pageSize) size
  have limit : m'.limit = m.limit := by rw [LinearMemory.limit, LinearMemory.limit, bound]
  exact ⟨growTo_eq_ok_iff.mpr ⟨count ▸ least, limit ▸ most, rfl⟩, count⟩

/-- What can be grown to one size and then to another can be grown to the other at once. -/
theorem growTo_of_growToPending {m mid grown : LinearMemory} (first : growToPending m earlier = .ok mid)
    (second : growTo mid pages = .ok grown) :
    growTo m pages = .ok grown ∧ ∀ least, earlier = some least → least ≤ pages := by
  cases earlier with
  | none =>
    cases first
    exact ⟨second, by simp⟩
  | some least =>
    have made := growTo_enlarge first
    obtain ⟨low, _, _⟩ := growTo_eq_ok_iff.mp first
    obtain ⟨low', high, _⟩ := growTo_eq_ok_iff.mp second
    have count : mid.pages = least := by
      rw [made, LinearMemory.pages_enlarge]
      omega
    have limit : mid.limit = m.limit := by
      rw [made, LinearMemory.limit, LinearMemory.limit, LinearMemory.max_enlarge]
    -- The pages that are added in two steps are those that are added in one.
    have total : least - m.pages + (pages - least) = pages - m.pages := by omega
    have both := growTo_enlarge second
    rw [count, made, LinearMemory.enlarge_enlarge, total] at both
    refine ⟨growTo_eq_ok_iff.mpr ⟨by omega, limit ▸ high, both⟩, fun other given => ?_⟩
    cases given
    omega

namespace Store

variable {σ : Type} {s t u : Store σ}

/-- Asks for a size. -/
def reserve (pages : Nat) (s : Store σ) : Store σ := { s with pending := some pages }

/-- Adds pages to one memory. The size that was asked for in advance may be another. -/
def enlarge (place count : Nat) (pending : Option Nat) (s : Store σ) : Store σ :=
  { s with memories := s.memories.modify place (·.enlarge count), pending := pending }

/-- Adds a module that has been instantiated. -/
def enroll (m : LoadedModule) (s : Store σ) : Store σ :=
  { s with modules := s.modules ++ [m], pending := if s.memory.isSome then none else s.pending }

theorem resize_reserve (unshared : s.memory = none) (least : ∀ earlier, s.pending = some earlier → earlier ≤ pages) :
    s.resize pages = .ok (s.reserve pages) := by
  have smaller : s.pending.filter (pages < ·) = none := by
    cases asked : s.pending with
    | none => rfl
    | some earlier =>
      have := least earlier asked
      rw [Option.filter_some, if_neg (by simpa using this)]
  simp only [resize, unshared, smaller, reserve]

theorem resize_shrinks (unshared : s.memory = none) (asked : s.pending = some earlier) (smaller : pages < earlier) :
    s.resize pages = .error (.shrink earlier pages) := by
  simp only [resize, unshared, asked, Option.filter_some, decide_eq_true smaller, if_true]

theorem settled_load (s : Store σ) (p : ParsedModule) :
    settled (s.load p) =
      if !p.environment.same s.environment then .error .foreignEnvironment
      else if p.module.definesMemory && s.memory.isSome then .error .memoryPresent
      else do
        let (after, m) ← settled (s.instantiate p.module)
        return (after.enroll m, s.modules.length) := by
  unfold load
  split
  · rfl
  · split
    · rfl
    · cases s.instantiate p.module with
      | mk after result => cases result <;> rfl

theorem load_enrolls (h : s.load p = (t, .ok number)) :
    ∃ after m, s.instantiate p.module = (after, .ok m) ∧ t = after.enroll m := by
  have stored := settled_eq_ok.mpr h
  rw [settled_load] at stored
  split at stored
  · cases stored
  · split at stored
    · cases stored
    · simp only [bind_eq_ok] at stored
      obtain ⟨⟨after, m⟩, instantiated, made⟩ := stored
      cases made
      exact ⟨after, m, settled_eq_ok.mp instantiated, rfl⟩

theorem supply_reserve (kind : ∀ limits, i.kind ≠ .memory limits) (pages : Nat) (s : Store σ) (m : Wasm.Module)
    (got : Supplies) :
    (s.reserve pages).supply m got i = ((s.supply m got i).1.reserve pages, (s.supply m got i).2) := by
  unfold supply
  cases other : i.kind with
  | memory limits => exact absurd other (kind limits)
  | func | table => rfl
  | global type =>
    dsimp only
    split <;> rfl

theorem supplyAll_reserve (imports : memoryCount wanted = 0) (pages : Nat) (s : Store σ) (m : Wasm.Module)
    (got : Supplies) :
    (s.reserve pages).supplyAll m got wanted =
      ((s.supplyAll m got wanted).1.reserve pages, (s.supplyAll m got wanted).2) :=
  supplyAll_map (P := fun _ => True) (fun _ _ => trivial)
    (fun s got _ i among => supply_reserve (kind_of_memoryCount imports i among) pages s m got) trivial got

/-- The memory that an instance shares if its module defines one, and its place. -/
def firstExported (s : Store σ) (inst : Instance) : Except Fault (Nat × LinearMemory) :=
  match inst.firstExportedMemory? with
  | none => .error .memoryNotExported
  | some place =>
    match s.memories[place]? with
    | none => .error .memoryNotExported
    | some m => .ok (place, m)

def shareAt (place : Nat) (m : LinearMemory) (s : Store σ) : Store σ :=
  { s with memories := s.memories.setIfInBounds place m, memory := some place }

theorem firstExported_ok (h : s.firstExported inst = .ok (place, m)) : s.memories[place]? = some m := by
  unfold firstExported at h
  repeat' split at h
  all_goals cases h
  assumption

theorem settled_share (s : Store σ) (defines : inst.module.definesMemory = true) :
    settled (s.share inst) = do
      let (place, m) ← s.firstExported inst
      return (s.shareAt place (← growToPending m s.pending), ()) := by
  unfold share firstExported
  rw [if_pos defines]
  cases exported : inst.firstExportedMemory? with
  | none => rfl
  | some place =>
    cases found : s.memories[place]? with
    | none =>
      simp only [found]
      rfl
    | some m =>
      simp only [found, Bind.bind, Except.bind]
      cases growToPending m s.pending <;> rfl

theorem resize_shareAt (found : s.memories[place]? = some m) (pages : Nat) :
    (s.shareAt place m).resize pages = (growTo m pages).map (s.shareAt place ·) := by
  have inside := (Array.getElem?_eq_some_iff.mp found).1
  simp only [resize, shareAt, Array.getElem?_setIfInBounds_self, if_pos inside]
  cases growTo m pages with
  | error fault => rfl
  | ok grown =>
    simp only [Bind.bind, Except.bind, Array.setIfInBounds_setIfInBounds]
    rfl

/-- A memory that is shared at a size that was asked for is one that is shared and then resized. -/
theorem share_reserve (unasked : s.pending = none) (defines : inst.module.definesMemory = true) (pages : Nat) :
    settled ((s.reserve pages).share inst) = do
      let (t, done) ← settled (s.share inst)
      return ((← t.resize pages).reserve pages, done) := by
  rw [settled_share _ defines, settled_share _ defines, unasked]
  have same : (s.reserve pages).firstExported inst = s.firstExported inst := rfl
  rw [same]
  cases exported : s.firstExported inst with
  | error fault => rfl
  | ok both =>
    obtain ⟨place, m⟩ := both
    have resized := resize_shareAt (firstExported_ok exported) pages
    simp only [growToPending, Bind.bind, Except.bind, Pure.pure, Except.pure, reserve, resized]
    cases growTo m pages <;> rfl

/-- How a module is instantiated whose imports fit, if what a failure leaves does not matter. -/
theorem settled_instantiateWith (accepted : m.accepts got.memories s.memories = true) :
    settled (s.instantiateWith m got) = do
      let (state, _) ← (settled ((s.fresh m got).populate (s.startHost m got) s.budget s.eager)).mapError Fault.ofObstacle
      let (t, _) ← settled ((s.absorb state).share state.inst)
      return (t, ⟨state.inst, got.stubs⟩) := by
  rw [instantiateWith_eq accepted]
  cases (s.fresh m got).populate (s.startHost m got) s.budget s.eager with
  | mk state result =>
    cases result with
    | error obstacle => rfl
    | ok done =>
      change settled (s.conclude got.stubs (state, .ok done)) = (settled ((s.absorb state).share state.inst) >>= _)
      rw [conclude]
      cases (s.absorb state).share state.inst with
      | mk t answer => cases answer <;> rfl

theorem instantiateWith_reserve
    (unlinked : ∀ stub ∈ got.stubs, ∀ slot, s.imports[stub.slot]? = some slot → slot.target = none)
    (unasked : s.pending = none) (defines : m.definesMemory = true) (pages : Nat) :
    settled ((s.reserve pages).instantiateWith m got) = do
      let (t, loaded) ← settled (s.instantiateWith m got)
      return ((← t.resize pages).reserve pages, loaded) := by
  by_cases accepted : m.accepts got.memories s.memories = true
  · have same : (s.reserve pages).fresh m got = s.fresh m got := rfl
    rw [settled_instantiateWith (s := s.reserve pages) accepted, settled_instantiateWith accepted]
    change ((settled ((s.fresh m got).populate (s.startHost m got) s.budget s.eager)).mapError Fault.ofObstacle >>= _) = _
    cases populated : (s.fresh m got).populate (s.startHost m got) s.budget s.eager with
    | mk state result =>
      cases result with
      | error obstacle => rfl
      | ok done =>
        have module : state.inst.module = m := (populate_alone unlinked populated).module
        have shared : settled (((s.reserve pages).absorb state).share state.inst) = _ :=
          share_reserve (s := s.absorb state) unasked (module ▸ defines) pages
        change (settled (((s.reserve pages).absorb state).share state.inst) >>= _) =
          ((settled ((s.absorb state).share state.inst) >>= _) >>= _)
        rw [shared]
        simp only [bind_assoc, pure_bind]
  · rw [instantiateWith_refused (s := s.reserve pages) accepted, instantiateWith_refused accepted]
    rfl

theorem instantiate_reserve (imports : m.importedMemories = []) (unasked : s.pending = none)
    (defines : m.definesMemory = true) (pages : Nat) :
    settled ((s.reserve pages).instantiate m) = do
      let (t, loaded) ← settled (s.instantiate m)
      return ((← t.resize pages).reserve pages, loaded) := by
  have foreign : memoryCount m.imports = 0 := by
    rw [memoryCount_imports, imports]
    rfl
  unfold instantiate
  rw [supplyAll_reserve foreign]
  cases supplied : s.supplyAll m {} m.imports with
  | mk t result =>
    cases result with
    | error fault => rfl
    | ok got =>
      have unasked : t.pending = none := by
        rw [(Loading.supplyAll supplied).rest]
        exact unasked
      exact instantiateWith_reserve (supplyAll_supplied supplied).unlinked unasked defines pages

theorem resize_enroll (shared : t.memory = some place) (m : LoadedModule) (pages : Nat) :
    (t.enroll m).resize pages = (t.resize pages).map fun u => (u.reserve pages).enroll m := by
  simp only [resize, enroll, shared]
  cases found : t.memories[place]? with
  | none => simp [Except.map, reserve, shared]
  | some old =>
    simp only [Bind.bind, Except.bind]
    cases growTo old pages <;> simp [Except.map, Pure.pure, Except.pure, reserve]

theorem resizeThenLoad_defining (unshared : s.memory = none) (unasked : s.pending = none)
    (imports : p.module.importedMemories = []) (defines : p.module.definesMemory = true) (pages : Nat) :
    resizeThenLoad resize load s pages p = loadThenResize resize load s p pages := by
  have reserved : s.resize pages = .ok (s.reserve pages) := resize_reserve unshared (by simp [unasked])
  rw [resizeThenLoad_of_ok reserved, loadThenResize, settled_load, settled_load]
  have environment : (s.reserve pages).environment = s.environment := rfl
  have memory : (s.reserve pages).memory = s.memory := rfl
  rw [environment, memory, unshared]
  split
  · rfl
  · simp only [Option.isSome_none, Bool.and_false, Bool.false_eq_true, if_false,
      instantiate_reserve imports unasked defines]
    cases instantiated : s.instantiate p.module with
    | mk t result =>
      cases result with
      | error fault => rfl
      | ok m =>
        -- By now the memory is shared, so that a resize grows it.
        have gained := instantiate_ok (fun _ => unshared) instantiated none
        have shared : t.memory.isSome = true := by
          rw [gained.memory, if_pos defines]
          exact gained.exported defines
        obtain ⟨place, shared⟩ := Option.isSome_iff_exists.mp shared
        simp only [settled, Bind.bind, Except.bind, Pure.pure, Except.pure, resize_enroll shared]
        cases t.resize pages <;> rfl

theorem resize_enlarge (shared : s.memory = some place) (found : s.memories[place]? = some m)
    (h : growTo m pages = .ok grown) : s.resize pages = .ok (s.enlarge place (pages - m.pages) s.pending) := by
  have pool : s.memories.setIfInBounds place grown = s.memories.modify place (·.enlarge (pages - m.pages)) := by
    rw [modify_eq_setIfInBounds found, growTo_enlarge h]
  simp only [resize, shared, found, h, Bind.bind, Except.bind, Pure.pure, Except.pure, pool, enlarge]

/-- Once there is a shared memory, imports depend neither on its size nor on one that was asked for. -/
theorem supply_enlarge (shared : s.memory = some place) (m : Wasm.Module) (got : Supplies) (i : Wasm.Import)
    (place' count : Nat) (pending : Option Nat) :
    (s.enlarge place' count pending).supply m got i =
      ((s.supply m got i).1.enlarge place' count pending, (s.supply m got i).2) := by
  unfold supply
  cases i.kind with
  | func | table => rfl
  | global type =>
    dsimp only
    split <;> rfl
  | memory limits => simp only [enlarge, shared]

theorem supplyAll_enlarge (shared : s.memory = some place) (m : Wasm.Module) (got : Supplies)
    (wanted : List Wasm.Import) (place' count : Nat) (pending : Option Nat) :
    (s.enlarge place' count pending).supplyAll m got wanted =
      ((s.supplyAll m got wanted).1.enlarge place' count pending, (s.supplyAll m got wanted).2) :=
  supplyAll_map (P := fun s => s.memory = some place) (fun shared supplied => (Loading.supply supplied).memory place shared)
    (fun _ got shared i _ => supply_enlarge shared m got i place' count pending) shared got

/-- Shares a memory that is made for an import. -/
def make (m : LinearMemory) (s : Store σ) : Store σ :=
  { s with memories := s.memories.push m, memory := some s.memories.size }

theorem supply_memory (unshared : s.memory = none) (kind : i.kind = .memory limits)
    (h : growToPending (.ofLimits limits) s.pending = .ok made) (m : Wasm.Module) (got : Supplies) :
    s.supply m got i = (s.make made, .ok { got with memories := got.memories ++ [s.memories.size] }) := by
  simp only [supply, kind, unshared, h, make]

theorem supply_memory_ok (unshared : s.memory = none) (kind : i.kind = .memory limits)
    (h : s.supply m got i = (t, .ok got')) : ∃ made, growToPending (.ofLimits limits) s.pending = .ok made := by
  simp only [supply, kind, unshared] at h
  split at h
  · cases h
  · exact ⟨_, ‹_›⟩

theorem supply_other (kind : ∀ limits, i.kind ≠ .memory limits) (h : s.supply m got i = (t, result)) :
    t.memories = s.memories ∧ t.memory = s.memory ∧ t.pending = s.pending := by
  unfold supply at h
  cases other : i.kind with
  | memory limits => exact absurd other (kind limits)
  | func | table =>
    simp only [other] at h
    cases h
    exact ⟨rfl, rfl, rfl⟩
  | global type =>
    simp only [other] at h
    split at h <;> (cases h; exact ⟨rfl, rfl, rfl⟩)

theorem make_enlarge (made : LinearMemory) (pages count : Nat) (s : Store σ) :
    (s.make made).enlarge s.memories.size count (some pages) = (s.reserve pages).make (made.enlarge count) := by
  have pool : (s.memories.push made).modify s.memories.size (·.enlarge count) = s.memories.push (made.enlarge count) := by
    apply Array.ext_getElem?
    intro place
    rw [Array.getElem?_modify, Array.getElem?_push, Array.getElem?_push]
    by_cases here : s.memories.size = place
    · simp [here]
    · simp [here, Ne.symm here]
  simp only [make, enlarge, reserve, pool]

/-- If a larger size was asked for, the memory that is made for imports is larger. -/
theorem supplyAll_make (unshared : s.memory = none) (imports : memoryCount wanted ≠ 0)
    (h : s.supplyAll m got wanted = (t, .ok got')) (found : t.memories[s.memories.size]? = some made)
    (grew : growTo made pages = .ok grown) :
    (∀ least, s.pending = some least → least ≤ pages) ∧
      (s.reserve pages).supplyAll m got wanted =
        (t.enlarge s.memories.size (pages - made.pages) (some pages), .ok got') := by
  induction wanted generalizing s got with
  | nil => exact absurd rfl imports
  | cons i rest ih =>
    unfold supplyAll at h
    split at h
    case h_2 => cases h
    case h_1 mid got₁ supplied =>
      by_cases memory : ∃ limits, i.kind = .memory limits
      · obtain ⟨limits, kind⟩ := memory
        obtain ⟨first, fits⟩ := supply_memory_ok unshared kind supplied
        rw [supply_memory unshared kind fits] at supplied
        cases supplied
        -- The other imports are given this memory, so it is the one that is found in the end.
        have same : first = made := by
          have inside : s.memories.size < (s.make first).memories.size := by simp [make]
          have kept := (Loading.supplyAll h).contents s.memories.size inside List.not_mem_nil
          have placed : (s.make first).memories[s.memories.size]? = some first := Array.getElem?_push_size
          exact (Option.some.inj ((found.symm.trans kept).trans placed)).symm
        subst same
        -- Made larger, it goes to them as it did before: none of them looks at its size.
        obtain ⟨larger, least⟩ := growTo_of_growToPending fits grew
        have again := supply_memory (s := s.reserve pages) unshared kind larger m got
        have rest := supplyAll_enlarge (s := s.make first) rfl m
          { got with memories := got.memories ++ [s.memories.size] } rest s.memories.size (pages - first.pages) (some pages)
        rw [h, make_enlarge, ← growTo_enlarge grew] at rest
        refine ⟨least, ?_⟩
        rw [supplyAll, again]
        exact rest
      · have kind : ∀ limits, i.kind ≠ .memory limits := fun limits kind => memory ⟨limits, kind⟩
        rw [memoryCount_cons_other kind] at imports
        obtain ⟨pool, place, asked⟩ := supply_other kind supplied
        rw [← pool] at found
        obtain ⟨least, again⟩ := ih (place.trans unshared) imports h found
        refine ⟨asked ▸ least, ?_⟩
        rw [supplyAll, supply_reserve kind, supplied, ← pool]
        exact again

/-- Imports get the same, and the shared memory is larger, if it is resized before they are given it. -/
theorem supplyAll_resized (imports : memoryCount wanted ≠ 0) (h : s.supplyAll m got wanted = (t, .ok got'))
    (found : t.memories[s.sharedPlace]? = some made) (grew : growTo made pages = .ok grown) :
    ∃ u pending, s.resize pages = .ok u ∧
      u.supplyAll m got wanted = (t.enlarge s.sharedPlace (pages - made.pages) pending, .ok got') := by
  cases shared : s.memory with
  | none =>
    have place : s.sharedPlace = s.memories.size := by simp [sharedPlace, shared]
    rw [place] at found ⊢
    obtain ⟨least, again⟩ := supplyAll_make shared imports h found grew
    exact ⟨_, _, resize_reserve shared least, again⟩
  | some place =>
    have here : s.sharedPlace = place := by simp [sharedPlace, shared]
    rw [here] at found ⊢
    have size : t.memories.size = s.memories.size := by
      rw [(supplyAll_supplied h).size, if_neg (by simp [shared]), Nat.add_zero]
    have inside := (Array.getElem?_eq_some_iff.mp found).1
    rw [(Loading.supplyAll h).contents place (size ▸ inside) List.not_mem_nil] at found
    refine ⟨_, s.pending, resize_enlarge shared found grew, ?_⟩
    rw [supplyAll_enlarge shared, h]

/-- A module without memories of its own is allocated alike. -/
theorem fresh_enlarge (s : Store σ) (foreign : m.memories = []) (got : Supplies) (place count : Nat)
    (pending : Option Nat) :
    (s.enlarge place count pending).fresh m got = (s.fresh m got).enlarge place count := by
  simp [fresh, enlarge, Wasm.State.enlarge, Wasm.Module.allocate, foreign]

theorem startHost_enlarge (s : Store σ) (foreign : m.memories = []) (got : Supplies) (place count : Nat)
    (pending : Option Nat) : (s.enlarge place count pending).startHost m got = s.startHost m got := by
  unfold startHost
  rw [fresh_enlarge s foreign]
  rfl

/-- A module that defines no memory and does not run is instantiated alike in a larger memory. -/
theorem instantiateWith_enlarge {loaded : LoadedModule} (foreign : m.memories = []) (idle : m.start = none)
    (h : s.instantiateWith m got = (t, .ok loaded)) :
    (∀ (place : Nat) (old : LinearMemory), s.memories[place]? = some old →
      ∃ new, t.memories[place]? = some new ∧ new.frame = old.frame) ∧
    t.memory = s.memory ∧
    ∀ place count pending, (s.enlarge place count pending).instantiateWith m got =
      (t.enlarge place count pending, .ok loaded) := by
  by_cases accepted : m.accepts got.memories s.memories = true
  · rw [instantiateWith_eq accepted] at h
    cases populated : (s.fresh m got).populate (s.startHost m got) s.budget s.eager with
    | mk state result =>
      rw [populated] at h
      cases result with
      | error obstacle => cases h
      | ok done =>
        obtain ⟨module, frames, larger⟩ := Wasm.State.populate_steady populated idle
        have undefined : ¬ state.inst.module.definesMemory = true := by
          rw [module]
          simp [fresh, Wasm.Module.allocate, Wasm.Module.definesMemory, foreign]
        have kept (store : Store σ) : store.share state.inst = (store, .ok ()) := by
          rw [share, if_neg undefined]
        simp only [conclude, kept] at h
        cases h
        refine ⟨fun place old found => ?_, rfl, fun place count pending => ?_⟩
        · have found : (s.fresh m got).memories[place]? = some old := by
            simpa [fresh, Wasm.Module.allocate, foreign] using found
          exact Wasm.State.frame_of_frames frames found
        · have accepted := Wasm.Module.accepts_enlarge m got.memories accepted place count
          have again := larger place count
          rw [instantiateWith_eq (s := s.enlarge place count pending) accepted, fresh_enlarge s foreign,
            startHost_enlarge s foreign]
          change (s.enlarge place count pending).conclude got.stubs
            ((Wasm.State.enlarge place count (s.fresh m got)).populate (s.startHost m got) s.budget s.eager) = _
          have inst : (Wasm.State.enlarge place count state).inst = state.inst := rfl
          simp only [again, conclude, inst, kept]
          rfl
  · rw [instantiateWith_refused accepted] at h
    cases h

theorem accepted_of_instantiateWith (h : s.instantiateWith m got = (t, .ok added)) :
    m.accepts got.memories s.memories = true := by
  refine Decidable.byContradiction fun refused => ?_
  rw [instantiateWith_refused refused] at h
  cases h

theorem instantiate_resized {added : LoadedModule} (imports : m.importedMemories ≠ [])
    (undefined : m.definesMemory = false) (idle : m.start = none) (h : s.instantiate m = (t, .ok added)) :
    t.memory = some s.sharedPlace ∧ ∃ new, t.memories[s.sharedPlace]? = some new ∧
      ∀ grown, growTo new pages = .ok grown → ∃ u pending, s.resize pages = .ok u ∧
        u.instantiate m = (t.enlarge s.sharedPlace (pages - new.pages) pending, .ok added) := by
  have foreign : m.memories = [] := by simpa [Wasm.Module.definesMemory] using undefined
  have count : memoryCount m.imports ≠ 0 := by
    rw [memoryCount_imports]
    exact fun none => imports (List.eq_nil_of_length_eq_zero none)
  unfold instantiate at h
  cases supplied : s.supplyAll m {} m.imports with
  | mk mid result =>
    rw [supplied] at h
    cases result with
    | error fault => cases h
    | ok got =>
      have given := supplyAll_supplied supplied
      have accepted := accepted_of_instantiateWith h
      rw [given.memories, List.nil_append, memoryCount_imports] at accepted
      obtain ⟨made, found⟩ := Wasm.Module.exists_of_accepts imports accepted
      -- Segments do not change how far the memory can grow: what can be resized now could have been before.
      obtain ⟨frames, memory, larger⟩ := instantiateWith_enlarge foreign idle h
      obtain ⟨new, placed, frame⟩ := frames _ made found
      rw [given.memory, if_neg count] at memory
      refine ⟨memory, new, placed, fun grown grew => ?_⟩
      obtain ⟨grew', same⟩ := growTo_of_frame frame grew
      obtain ⟨u, pending, resized, again⟩ := supplyAll_resized count supplied found grew'
      refine ⟨u, pending, resized, ?_⟩
      rw [instantiate, again, same]
      exact larger ..

theorem resizeThenLoad_importing (imports : p.module.importedMemories ≠ []) (undefined : p.module.definesMemory = false)
    (idle : p.module.start = none) (h : loadThenResize resize load s p pages = .ok r) :
    resizeThenLoad resize load s pages p = .ok r := by
  obtain ⟨v, number⟩ := r
  obtain ⟨t, stored, resized⟩ := loadThenResize_eq_ok.mp h
  have stored := settled_eq_ok.mpr stored
  rw [settled_load, undefined] at stored
  split at stored
  · cases stored
  · rename_i own
    simp only [Bool.false_and, Bool.false_eq_true, if_false, bind_eq_ok] at stored
    obtain ⟨⟨after, added⟩, instantiated, stored⟩ := stored
    cases stored
    obtain ⟨memory, new, placed, again⟩ := instantiate_resized imports undefined idle (settled_eq_ok.mp instantiated)
    have shown : (after.enroll added).memory = some s.sharedPlace := memory
    cases grew : growTo new pages with
    | error fault =>
      have found : (after.enroll added).memories[s.sharedPlace]? = some new := placed
      simp only [resize, shown, found, grew] at resized
      cases resized
    | ok grown =>
      obtain ⟨u, pending, resized', again⟩ := again grown grew
      have larger := resize_enlarge shown placed grew
      cases resized.symm.trans larger
      have environment : u.environment = s.environment := (Continues.resize resized').environment
      have modules : u.modules = s.modules := by
        rcases resize_cases resized' with rfl | ⟨_, rfl⟩ | ⟨_, _, _, _, _, _, rfl⟩ <;> rfl
      rw [resizeThenLoad_of_ok resized', settled_load, undefined, environment, if_neg own, again, modules]
      simp only [settled, Bind.bind, Except.bind, Pure.pure, Except.pure, enroll, enlarge, memory, Option.isSome_some,
        if_true, Bool.false_and, Bool.false_eq_true, if_false]

theorem agreesOnSize (s : Store σ) : AgreesOnSize resize load s (s.memory = none ∧ s.pending = none) where
  defining unasked _ pages imports defines := resizeThenLoad_defining unasked.1 unasked.2 imports defines pages
  importing _ _ _ imports undefined idle h := resizeThenLoad_importing imports undefined idle h

end Store
end WasmBinding
