import Mathlib.Data.List.Induction
import WasmBinding.Proofs.Store.Pool

/-! Globals and tables as places in pools. That an instance holds its own globals and tables stands for pools in which all
modules have places, as long as no place belongs to two of them. None does: a module gets a new place for every global that
it imports or defines and for every table, and what it then stores goes to its places. -/

namespace WasmBinding

open Wasm (Instance Value writeGlobals)

/-- What a module has of a kind. -/
def held? {α : Type} (kind : Instance → Array α) (modules : List LoadedModule) (c : Cell) : Option α :=
  modules[c.module]?.bind fun m => (kind m.inst)[c.index]?

section Held

variable {α : Type} {kind : Instance → Array α} {modules : List LoadedModule} {m : LoadedModule}

theorem held?_modify (modules : List LoadedModule) (k : Nat) (change : LoadedModule → LoadedModule) (c : Cell) :
    held? kind (modules.modify k change) c =
      if c.module = k then modules[k]?.bind fun m => (kind (change m).inst)[c.index]? else held? kind modules c := by
  rw [held?, List.getElem?_modify]
  by_cases own : c.module = k
  · subst own
    cases modules[c.module]? <;> simp
  · simp only [if_neg own, if_neg (Ne.symm own), id_map', held?]

theorem held?_concat (modules : List LoadedModule) (m : LoadedModule) (c : Cell) :
    held? kind (modules ++ [m]) c = if c.module = modules.length then (kind m.inst)[c.index]? else held? kind modules c := by
  rw [held?]
  by_cases last : c.module = modules.length
  · rw [if_pos last, last, List.getElem?_concat_length, Option.bind_some]
  · rw [if_neg last, getElem?_concat_ne _ _ last, held?]

end Held

namespace Pool

/-- A pool in which modules have, in places of their own, what their instances hold of a kind. -/
structure Shows {α : Type} (p : Pool α) (kind : Instance → Array α) (modules : List LoadedModule) : Prop where
  count : p.places.length = modules.length
  distinct : p.Distinct
  read : ∀ c, p.read? c = held? kind modules c

namespace Shows

variable {α : Type} {p : Pool α} {kind : Instance → Array α} {modules : List LoadedModule} {m : LoadedModule}
  {make : Making α → Making α} {made : Array α}

theorem empty (kind : Instance → Array α) : (⟨#[], []⟩ : Pool α).Shows kind [] := ⟨rfl, distinct_empty, fun _ => rfl⟩

/-- A module is added, and has written to what was made for it. -/
theorem enter {writes : List (Nat × α)} (shows : p.Shows kind modules)
    (behind : (make ⟨p.contents, []⟩).Behind p.contents made)
    (holds : ∀ i, (kind m.inst)[i]? = made[i]?.map fun was => (writes.reverse.lookup i).getD was) :
    ((p.enter make).writeAll (storesOf modules.length writes)).Shows kind (modules ++ [m]) where
  count := by
    rw [places_writeAll, Pool.enter, List.length_append, shows.count, List.length_append]
    rfl
  distinct := (shows.distinct.enter behind).writeAll _
  read c := by
    rw [(shows.distinct.enter behind).read?_writeAll, shows.distinct.read?_enter behind, lookup_storesOf, held?_concat,
      shows.count]
    by_cases new : c.module = modules.length
    · rw [if_pos new, if_pos new, if_pos new, holds]
    · rw [if_neg new, if_neg new, if_neg new, shows.read]
      simp only [Option.getD_none, Option.map_id']

/-- A module has written to what it has. -/
theorem modify {change : LoadedModule → LoadedModule} {writes : List (Nat × α)} (shows : p.Shows kind modules)
    (holds : ∀ m, modules[k]? = some m → ∀ i,
      (kind (change m).inst)[i]? = (kind m.inst)[i]?.map fun was => (writes.reverse.lookup i).getD was) :
    (p.writeAll (storesOf k writes)).Shows kind (modules.modify k change) where
  count := by rw [places_writeAll, shows.count, List.length_modify]
  distinct := shows.distinct.writeAll _
  read c := by
    rw [shows.distinct.read?_writeAll, lookup_storesOf, held?_modify, shows.read]
    by_cases own : c.module = k
    · subst own
      rw [if_pos rfl, if_pos rfl, held?]
      cases found : modules[c.module]? with
      | none => rfl
      | some m => exact (holds m found c.index).symm
    · rw [if_neg own, if_neg own]
      simp only [Option.getD_none, Option.map_id']

end Shows
end Pool

/-- The pools of a store: one with the globals of all modules, and one with their tables. -/
structure Pools where
  globals : Pool Value := {}
  tables : Pool (Array (Option Nat)) := {}

namespace Pools

/-- Adds a module, with new places for all globals and tables that it is to have. -/
def enter (p : Pools) (w : Wasm.Module) : Pools where
  globals := p.globals.enter (Making.globals w)
  tables := p.tables.enter (Making.tables w)

def write (p : Pools) (globals : List (Cell × Value)) (tables : List (Cell × Array (Option Nat))) : Pools :=
  ⟨p.globals.writeAll globals, p.tables.writeAll tables⟩

/-- The modules of a store have, in places of their own, what their instances hold. All of their tables are such as they
define themselves. -/
structure Stands {σ : Type} (p : Pools) (s : Store σ) : Prop where
  globals : p.globals.Shows Instance.globals s.modules
  tables : p.tables.Shows Instance.tables s.modules
  imports : ∀ w ∈ s.loaded, ∀ i ∈ w.imports, ∀ limits, i.kind ≠ .table limits

/-- What belongs to other modules than one is as it was. -/
structure Spares (p q : Pools) (k : Nat) : Prop where
  globals : p.globals.Spares q.globals k
  tables : p.tables.Spares q.tables k

theorem Spares.refl (p : Pools) (k : Nat) : p.Spares p k := ⟨.refl _ k, .refl _ k⟩

end Pools

namespace Store

variable {σ : Type}

/-- What code of a module leaves in its tables. -/
def tableStores (s : Store σ) (k : Nat) : List (Cell × Array (Option Nat)) :=
  match s.modules[k]? with
  | some m => storesOf k (m.inst.tables.toList.zipIdx.map Prod.swap)
  | none => []

/-- A store in use, with what has come of its pools. Loading a module adds it to them; what code stores, and what is stored
in a global from outside, goes to the places of its module. -/
inductive Pooled : Store σ → Pools → Prop
  | new {s : Store σ} (empty : s.modules = []) : Pooled s {}
  | load {s t : Store σ} (pooled : Pooled s p) (loaded : s.load q = (t, .ok number)) :
      Pooled t ((p.enter q.module).write (storesOf number (s.startWrites q.module)) (t.tableStores number))
  | call {s t : Store σ} (pooled : Pooled s p) (called : s.call f args = (t, result)) :
      Pooled t (p.write (s.callStores f args) (t.tableStores f.module))
  | setGlobal {s t : Store σ} (pooled : Pooled s p) (set : s.setGlobal g tag slot = .ok t)
      (read : Value.ofSlot? slot tag = some v) : Pooled t (p.write [(g.toCell, v)] [])
  | other {s t : Store σ} (pooled : Pooled s p) (modules : t.modules = s.modules) : Pooled t p

variable {s t : Store σ} {p : Pools} {m : LoadedModule}

theorem lookup_swap_zipIdx {α : Type} (l : List α) (i : Nat) : (l.zipIdx.map Prod.swap).reverse.lookup i = l[i]? := by
  induction l using List.reverseRecOn with
  | nil => rfl
  | append_singleton rest a ih =>
    rw [List.zipIdx_append, List.map_append, List.reverse_append]
    by_cases last : i = rest.length
    · subst last
      simp
    · rw [getElem?_concat_ne rest a last, ← ih]
      simp [List.lookup_cons, beq_false_of_ne last]

/-- Tables are overwritten by as many. -/
theorem overwritten {α : Type} {before after : Array α} (size : after.size = before.size) (i : Nat) :
    after[i]? = before[i]?.map fun was => ((after.toList.zipIdx.map Prod.swap).reverse.lookup i).getD was := by
  rw [lookup_swap_zipIdx, Array.getElem?_toList]
  by_cases inside : i < after.size
  · have before_inside : i < before.size := size ▸ inside
    rw [Array.getElem?_eq_getElem inside, Array.getElem?_eq_getElem before_inside]
    rfl
  · rw [Array.getElem?_eq_none (by omega), Array.getElem?_eq_none (by omega)]
    rfl

theorem instantiate_tables (h : s.instantiate w = (t, .ok m)) : m.inst.tables.size = w.tables.length := by
  obtain ⟨s', got, state, supplied, populated, rfl⟩ := instantiate_populates h
  have kept := Wasm.State.tables_kept (s'.startHost w got) w.tables.length
  have start : (s'.fresh w got).inst.tables.size = w.tables.length := by simp [fresh, Wasm.Module.allocate]
  have held := kept.populate s'.budget s'.eager start
  rwa [populated] at held

/-- What a call does to modules: nothing, or the one whose function it is has written to its globals. -/
theorem call_modules (called : s.call f args = (t, result)) :
    t.modules = s.modules ∧ s.callStores f args = [] ∨
    ∃ m inst writes, s.modules[f.module]? = some m ∧ t.modules = s.modules.modify f.module (fun m => { m with inst := inst }) ∧
      s.callStores f args = storesOf f.module writes ∧ inst.globals = writeGlobals m.inst.globals writes ∧
      inst.tables.size = m.inst.tables.size := by
  unfold callStores
  rcases call_cases called with ⟨_, rfl, refused⟩ | ⟨values, u, answer, given, ran, results, rfl⟩
  · rw [refused]
    exact .inl ⟨rfl, rfl⟩
  · rw [given]
    rcases run_cases ran with ⟨rfl, missing⟩ | ⟨m, found, rfl⟩
    · have missing : s.modules[f.module]? = none := missing
      have stores : s.runStores f values = [] := by simp only [runStores, missing]
      exact .inl ⟨rfl, stores⟩
    · have found : s.modules[f.module]? = some m := found
      have stores : s.runStores f values =
          storesOf f.module ((s.stateOf m).globalWrites (s.hostCall m f.index) s.budget f.index values) := by
        simp only [runStores, found]
      obtain ⟨globals, _⟩ := (s.stateOf m).call_globals (s.hostCall m f.index) s.budget f.index values
      have kept := Wasm.State.tables_kept (s.hostCall m f.index) m.inst.tables.size
      have tables := kept.call s.budget f.index values (s := s.stateOf m) rfl
      exact .inr ⟨m, _, _, found, rfl, stores, globals, tables⟩

theorem tableStores_of_module (found : s.modules[k]? = some m) :
    s.tableStores k = storesOf k (m.inst.tables.toList.zipIdx.map Prod.swap) := by
  simp only [tableStores, found]

/-- What code leaves in its tables is put in their places. -/
theorem shows_tableStores {change : LoadedModule → LoadedModule} {tables : Pool (Array (Option Nat))}
    (shows : tables.Shows Instance.tables s.modules) (found : s.modules[k]? = some m)
    (modules : t.modules = s.modules.modify k change) (size : (change m).inst.tables.size = m.inst.tables.size) :
    (tables.writeAll (t.tableStores k)).Shows Instance.tables t.modules := by
  have there : t.modules[k]? = some (change m) := by
    rw [modules, List.getElem?_modify, found]
    simp
  rw [tableStores_of_module there, modules]
  refine shows.modify fun m' found' => ?_
  cases found.symm.trans found'
  exact overwritten size

/-- Nothing changes if the contents of tables are put back where they are. -/
theorem shows_tableStores_self {tables : Pool (Array (Option Nat))} (shows : tables.Shows Instance.tables s.modules)
    (modules : t.modules = s.modules) (k : Nat) : (tables.writeAll (t.tableStores k)).Shows Instance.tables t.modules := by
  cases found : s.modules[k]? with
  | none =>
    rw [tableStores, modules, found]
    exact shows
  | some m =>
    have unchanged : t.modules = s.modules.modify k id := by rw [modules, List.modify_id]
    exact shows_tableStores shows found unchanged rfl

theorem supplyAll_no_table (h : s.supplyAll w got wanted = (t, .ok got')) :
    ∀ i ∈ wanted, ∀ limits, i.kind ≠ .table limits := by
  induction wanted generalizing s got with
  | nil => simp
  | cons i rest ih =>
    unfold supplyAll at h
    split at h
    · rename_i supplied
      refine List.forall_mem_cons.mpr ⟨?_, ih h⟩
      intro limits kind
      simp [supply, kind] at supplied
    · cases h

theorem module_of_storesOf {α : Type} {writes : List (Nat × α)} : ∀ w ∈ storesOf k writes, w.1.module = k := by
  intro w among
  obtain ⟨_, _, rfl⟩ := List.mem_map.mp among
  rfl

/-- A call stores in cells of the module whose function it is. -/
theorem module_of_callStores (s : Store σ) (f : Function) (args : List Slot) :
    ∀ w ∈ s.callStores f args, w.1.module = f.module := by
  unfold callStores runStores
  repeat' split
  · exact module_of_storesOf
  all_goals simp

theorem module_of_tableStores (s : Store σ) (k : Nat) : ∀ w ∈ s.tableStores k, w.1.module = k := by
  unfold tableStores
  split
  · exact module_of_storesOf
  · simp

namespace Pooled

/-- Whatever is done with a store, the pools have in the places of a module what its instance holds. -/
theorem shows (pooled : s.Pooled p) :
    p.globals.Shows Instance.globals s.modules ∧ p.tables.Shows Instance.tables s.modules := by
  induction pooled with
  | new empty =>
    constructor
    · rw [empty]
      exact .empty _
    · rw [empty]
      exact .empty _
  | @load _ q _ s t pooled loaded ih =>
    obtain ⟨rfl, _, m, instantiated, gained⟩ := load_instantiates loaded
    have last : t.modules[s.modules.length]? = some m := by rw [gained.modules, List.getElem?_concat_length]
    constructor
    · obtain ⟨globals, _⟩ := instantiate_globals instantiated
      rw [gained.modules]
      refine ih.1.enter (Making.behind_globals _ q.module) fun i => ?_
      rw [globals, Wasm.writeGlobals_latest]
    · have size := instantiate_tables instantiated
      rw [Pools.write, tableStores_of_module last, gained.modules]
      refine ih.2.enter (Making.behind_tables _ q.module) (overwritten ?_)
      rw [size, List.size_toArray, List.length_map]
  | @call _ f args result s t pooled called ih =>
    rcases call_modules called with ⟨same, stores⟩ | ⟨m, inst, writes, found, modules, stores, globals, tables⟩
    · constructor
      · rw [Pools.write, stores, same]
        exact ih.1
      · exact shows_tableStores_self ih.2 same f.module
    · constructor
      · rw [Pools.write, stores, modules]
        refine ih.1.modify fun m' found' i => ?_
        cases found.symm.trans found'
        rw [globals, Wasm.writeGlobals_latest]
      · exact shows_tableStores ih.2 found modules tables
  | @setGlobal _ g tag slot v s t pooled set read ih =>
    obtain ⟨w, _, rfl, written, rfl⟩ := setGlobal_ok set
    cases read.symm.trans written
    constructor
    · show (Pool.writeAll _ (storesOf g.module [(g.index, v)])).Shows Instance.globals (s.modules.modify g.module _)
      apply ih.1.modify
      intro m _ i
      exact Wasm.writeGlobals_latest m.inst.globals [(g.index, v)] i
    · show (Pool.writeAll _ (storesOf g.module [])).Shows Instance.tables (s.modules.modify g.module _)
      apply ih.2.modify
      intro m _ i
      simp
  | other pooled modules ih =>
    constructor
    · rw [modules]
      exact ih.1
    · rw [modules]
      exact ih.2

/-- No loaded module imports a table. -/
theorem importsNoTable (pooled : s.Pooled p) :
    ∀ w ∈ s.loaded, ∀ i ∈ w.imports, ∀ limits, i.kind ≠ .table limits := by
  induction pooled with
  | new empty => simp [loaded, empty]
  | load pooled loaded ih =>
    obtain ⟨_, _, m, instantiated, gained⟩ := load_instantiates loaded
    obtain ⟨_, _, _, supplied, _⟩ := instantiate_populates instantiated
    intro w among
    rw [gained.loaded, List.mem_append, List.mem_singleton] at among
    rcases among with old | rfl
    · exact ih w old
    · exact supplyAll_no_table supplied
  | call pooled called ih => rwa [(Continues.call called).loaded]
  | setGlobal pooled set read ih => rwa [(Continues.setGlobal set).loaded]
  | other pooled modules ih => rwa [loaded, modules]

theorem stands (pooled : s.Pooled p) : p.Stands s := ⟨pooled.shows.1, pooled.shows.2, pooled.importsNoTable⟩

/-- Every use of a store has its effect on the pools. -/
theorem use (pooled : s.Pooled p) (use : s.Use calls t) : ∃ q, t.Pooled q := by
  cases use with
  | idle => exact ⟨p, pooled⟩
  | @load q _ result parsed loaded =>
    cases result with
    | error fault =>
      refine ⟨p, pooled.other ?_⟩
      rw [(load_error loaded).1]
    | ok number => exact ⟨_, pooled.load loaded⟩
  | call called => exact ⟨_, pooled.call called⟩
  | setGlobal set =>
    obtain ⟨v, _, _, read, _⟩ := setGlobal_ok set
    exact ⟨_, pooled.setGlobal set read⟩
  | resize resized =>
    refine ⟨p, pooled.other ?_⟩
    rcases resize_cases resized with rfl | ⟨_, rfl⟩ | ⟨_, _, _, _, _, _, rfl⟩
    all_goals rfl
  | setTarget | setMemory | setHost => exact ⟨p, pooled.other rfl⟩

theorem used (pooled : s.Pooled p) (used : s.Used t) : ∃ q, t.Pooled q := by
  induction used with
  | refl => exact ⟨p, pooled⟩
  | use _ next ih =>
    obtain ⟨q, pooled⟩ := ih
    exact pooled.use next

/-- A call changes only what lies in the places of the module whose function it is. -/
theorem call_spares (pooled : s.Pooled p) (called : s.call f args = (t, result)) :
    ∃ q, t.Pooled q ∧ p.Spares q f.module := by
  have stands := pooled.stands
  refine ⟨_, pooled.call called, ?_⟩
  constructor
  · exact stands.globals.distinct.spares (module_of_callStores s f args)
  · exact stands.tables.distinct.spares (module_of_tableStores t f.module)

end Pooled
end Store

theorem Service.Reachable.pooled {σ : Type} {v : Service σ} (reached : v.Reachable) : ∃ p, v.store.Pooled p := by
  induction reached with
  | new created steps =>
    rw [Store.new_ok created]
    exact ⟨{}, .new rfl⟩
  | @serve before _ r _ ih =>
    obtain ⟨p, pooled⟩ := ih
    exact pooled.use (use_serve before r)

end WasmBinding
