import WasmBinding.Proofs.Store.Service
import WasmBinding.Proofs.Wasm.Constants
import WasmBinding.Proofs.Wasm.GlobalWrites
import WasmBinding.Proofs.Wasm.Values

/-! Globals as cells. A loaded module has one cell for each of its globals, imported ones included, and all cells hold values
of the types declared for them. Every use of a store changes them by storing some values: those that code writes, the one
that the embedder sets, and those that a new module begins with. Only cells declared mutable are stored into again. -/

namespace WasmBinding

open Wasm (Fitting GlobalType Instance Value writeGlobals)

/-- Where a global lies: the number of its module, and its index there. -/
structure Cell where
  module : Nat
  index : Nat
  deriving DecidableEq, Repr

def GlobalCell.toCell (g : GlobalCell) : Cell := ⟨g.module, g.index⟩

/-- What is stored if these values are written to globals of a module. -/
def storesOf {α : Type} (module : Nat) (writes : List (Nat × α)) : List (Cell × α) :=
  writes.map fun (index, v) => (⟨module, index⟩, v)

theorem lookup_storesOf {α : Type} (module : Nat) (writes : List (Nat × α)) (c : Cell) :
    (storesOf module writes).reverse.lookup c = if c.module = module then writes.reverse.lookup c.index else none := by
  have forward (writes : List (Nat × α)) :
      (storesOf module writes).lookup c = if c.module = module then writes.lookup c.index else none := by
    induction writes with
    | nil => simp [storesOf]
    | cons w rest ih =>
      obtain ⟨index, v⟩ := w
      rw [storesOf] at ih ⊢
      rw [List.map_cons, List.lookup_cons, List.lookup_cons, ih]
      by_cases same : c = ⟨module, index⟩
      · subst same
        simp
      · rw [beq_false_of_ne same]
        by_cases own : c.module = module
        · have other : c.index ≠ index := fun at_index => same (by rw [← own, ← at_index])
          rw [beq_false_of_ne other]
        · rw [if_neg own, if_neg own]
  rw [storesOf, ← List.map_reverse]
  exact forward writes.reverse

theorem getElem?_concat_ne {α : Type} (l : List α) (a : α) (other : k ≠ l.length) : (l ++ [a])[k]? = l[k]? := by
  rcases Nat.lt_or_gt_of_ne other with before | behind
  · exact List.getElem?_append_left before
  · rw [List.getElem?_eq_none (Nat.le_of_lt behind), List.getElem?_eq_none]
    rw [List.length_append]
    exact behind

namespace Store

variable {σ : Type} {s t : Store σ} {c : Cell} {m : LoadedModule}

def cell? (s : Store σ) (c : Cell) : Option Value := s.modules[c.module]?.bind fun m => m.inst.globals[c.index]?

/-- What a loaded module declares of one of its globals. -/
def declared? (s : Store σ) (c : Cell) : Option GlobalType := s.loaded[c.module]?.bind fun w => w.allGlobals[c.index]?

/-- Exactly the declared globals have cells, and these hold values of the declared types. -/
def Typed (s : Store σ) : Prop := ∀ c, (s.cell? c).map Value.type = (s.declared? c).map (·.type)

/-- What the code that a call of a function runs stores, in order. -/
def runStores (s : Store σ) (f : Function) (args : List Value) : List (Cell × Value) :=
  match s.modules[f.module]? with
  | some m => storesOf f.module ((s.stateOf m).globalWrites (s.hostCall m f.index) s.budget f.index args)
  | none => []

def callStores (s : Store σ) (f : Function) (args : List Slot) : List (Cell × Value) :=
  match f.values args with
  | .ok values => s.runStores f values
  | .error _ => []

/-- What the start function of a module that is being loaded writes to globals, in order. -/
def startWrites (s : Store σ) (w : Wasm.Module) : List (Nat × Value) :=
  match s.supplyAll w {} w.imports with
  | (s, .ok got) =>
    let state := w.allocate got.globals got.memories s.memories s.host
    let seen := (state.inst.exportedMemory? "memory").or s.memory
    state.startWrites (dispatch s.imports got.stubs s.userData seen) s.budget
  | (_, .error _) => []

/-- What a load that succeeds stores in the cells of the new module: what each global begins with, and then what the start
function writes. -/
def loadStores (s : Store σ) (w : Wasm.Module) : List (Cell × Value) :=
  storesOf s.modules.length (w.firstWrites ++ s.startWrites w)

/-- What imported globals begin with. -/
def zerosFor (imports : List Wasm.Import) : List Value :=
  (imports.filterMap fun i => match i.kind with
    | .global type => some type
    | _ => none).map (·.type.zero)

theorem zerosFor_cons (kind : i.kind = .global type) (rest : List Wasm.Import) :
    zerosFor (i :: rest) = type.type.zero :: zerosFor rest := by
  simp only [zerosFor, List.filterMap_cons, kind, List.map_cons]

theorem zerosFor_cons_other (kind : ∀ type, i.kind ≠ .global type) (rest : List Wasm.Import) :
    zerosFor (i :: rest) = zerosFor rest := by
  cases other : i.kind with
  | global type => exact absurd other (kind type)
  | func | table | memory => simp only [zerosFor, List.filterMap_cons, other]

theorem globalImport_some {type : GlobalType} (h : globalImport type = some zero) : zero = type.type.zero := by
  obtain ⟨type, mutable⟩ := type
  cases type <;> cases h <;> rfl

theorem supply_globals (h : s.supply w got i = (t, .ok got')) : got'.globals = got.globals ++ zerosFor [i] := by
  unfold supply at h
  split at h
  · rename_i kind
    cases h
    rw [zerosFor_cons_other (by simp [kind])]
    exact (List.append_nil _).symm
  · rename_i kind
    split at h <;> cases h
    rename_i made
    rw [zerosFor_cons kind, globalImport_some made]
    rfl
  · rename_i kind
    rw [zerosFor_cons_other (by simp [kind])]
    repeat' split at h
    all_goals cases h
    all_goals exact (List.append_nil _).symm
  · cases h

theorem supplyAll_globals (h : s.supplyAll w got wanted = (t, .ok got')) :
    got'.globals = got.globals ++ zerosFor wanted := by
  induction wanted generalizing s got with
  | nil =>
    cases h
    exact (List.append_nil _).symm
  | cons i rest ih =>
    unfold supplyAll at h
    split at h
    · rename_i supplied
      have joined : zerosFor (i :: rest) = zerosFor [i] ++ zerosFor rest := by
        rw [zerosFor, ← List.singleton_append, List.filterMap_append, List.map_append]
        rfl
      rw [ih h, supply_globals supplied, List.append_assoc, joined]
    · cases h

/-- A new module has the globals that it begins with, and has run its start function on them. -/
theorem instantiate_globals (h : s.instantiate w = (t, .ok m)) :
    m.inst.globals = writeGlobals (w.initialGlobals (w.importedGlobals.map (·.type.zero))) (s.startWrites w) ∧
      Fitting (w.initialGlobals (w.importedGlobals.map (·.type.zero))) (s.startWrites w) := by
  obtain ⟨s', got, state, supplied, populated, rfl⟩ := instantiate_populates h
  have zeros : got.globals = w.importedGlobals.map (·.type.zero) := supplyAll_globals supplied
  have written := Wasm.State.populate_globals populated
  simp only [startWrites, supplied, ← zeros]
  exact written

theorem cell?_of_module (found : s.modules[c.module]? = some m) : s.cell? c = m.inst.globals[c.index]? := by
  rw [cell?, found, Option.bind_some]

theorem declared?_of_module (found : s.modules[c.module]? = some m) :
    s.declared? c = m.inst.module.allGlobals[c.index]? := by
  rw [declared?, loaded, List.getElem?_map, found]
  rfl

theorem Continues.declared (h : Continues s t) (c : Cell) : t.declared? c = s.declared? c := by
  rw [declared?, h.loaded, declared?]

theorem lookup_loadStores (s : Store σ) (w : Wasm.Module) (index : Nat) :
    (s.loadStores w).reverse.lookup ⟨s.modules.length, index⟩ =
      ((s.startWrites w).reverse.lookup index).or w.firstValues[index]?.join := by
  rw [loadStores, lookup_storesOf, if_pos rfl, List.reverse_append, List.lookup_append, Wasm.Module.lookup_firstWrites]

/-- The module that will be loaded next has no cells. -/
theorem cell?_of_new (s : Store σ) (index : Nat) : s.cell? ⟨s.modules.length, index⟩ = none := by
  simp [cell?]

theorem module_of_declared (declared : s.declared? c = some d) :
    ∃ m, s.modules[c.module]? = some m ∧ m.inst.module.allGlobals[c.index]? = some d := by
  obtain ⟨w, found, known⟩ := Option.bind_eq_some_iff.mp declared
  rw [loaded, List.getElem?_map, Option.map_eq_some_iff] at found
  obtain ⟨m, found, rfl⟩ := found
  exact ⟨m, found, known⟩

theorem Keeps.declared (h : Keeps s t) (declared : s.declared? c = some d) : t.declared? c = some d := by
  obtain ⟨m, found, known⟩ := module_of_declared declared
  obtain ⟨after, found, same⟩ := h _ m found
  have module : after.inst.module = m.inst.module := congrArg Prod.fst same
  rw [declared?_of_module found, module]
  exact known

theorem Typed.types (typed : s.Typed) {k : Nat} (found : s.modules[k]? = some m) (index : Nat) :
    (m.inst.globals.map Value.type)[index]? = (m.inst.module.allGlobals[index]?).map GlobalType.type := by
  have here := typed ⟨k, index⟩
  rwa [cell?_of_module found, declared?_of_module found, ← Array.getElem?_map] at here

/-- A cell that has been looked up, as the loaded module declares it. -/
structure Denotes (s : Store σ) (g : GlobalCell) (d : GlobalType) : Prop where
  declared : s.declared? g.toCell = some d
  type : g.type = d.type.tag
  mutable : g.mutable = d.mutable

theorem Denotes.keeps (denotes : s.Denotes g d) (h : Keeps s t) : t.Denotes g d :=
  ⟨h.declared denotes.declared, denotes.type, denotes.mutable⟩

/-- A lookup by name gives a declared global: the exported one, or else the first imported one. -/
theorem findGlobal_some {name : String} (h : s.findGlobal k name = .ok (some g)) :
    ∃ m d, s.modules[k]? = some m ∧ m.globalIndex? name = some g.index ∧ g.module = k ∧ s.Denotes g d := by
  unfold findGlobal at h
  split at h
  · contradiction
  · rename_i m found
    obtain ⟨index, named, h⟩ := Option.bind_eq_some_iff.mp (Except.ok.inj h)
    obtain ⟨d, known, h⟩ := Option.bind_eq_some_iff.mp h
    cases h
    exact ⟨m, d, found, named, rfl, (declared?_of_module found).trans known, rfl, rfl⟩

/-- What a name stands for in a module never changes. -/
theorem Keeps.findGlobal {name : String} (h : Keeps s t) (found : s.findGlobal k name = .ok g) :
    t.findGlobal k name = .ok g := by
  unfold Store.findGlobal at found ⊢
  split at found
  · contradiction
  · rename_i m there
    obtain ⟨after, there, same⟩ := h k m there
    have module : after.inst.module = m.inst.module := congrArg Prod.fst same
    simp only [there, LoadedModule.globalIndex?, module]
    exact found

/-- What has come of a store when some values have been stored in its globals, in order: the latest counts. -/
structure Stored (s t : Store σ) (stores : List (Cell × Value)) : Prop where
  cells : ∀ c, t.cell? c = (stores.reverse.lookup c).or (s.cell? c)
  mutable : ∀ w ∈ stores, ∀ d, s.declared? w.1 = some d → d.mutable = true
  typed : t.Typed

namespace Stored

/-- Nothing is stored while the modules stay as they are. -/
theorem of_modules (typed : s.Typed) (same : t.modules = s.modules) : Stored s t [] where
  cells c := by rw [cell?, same, cell?, List.reverse_nil, List.lookup_nil, Option.none_or]
  mutable := by simp
  typed := by
    intro c
    have here := typed c
    rw [cell?, declared?, loaded] at here ⊢
    rwa [same]

/-- An immutable cell keeps what it holds. -/
theorem keeps (h : Stored s t stores) (declared : s.declared? c = some d) (fixed : d.mutable = false) :
    t.cell? c = s.cell? c := by
  have untouched : stores.reverse.lookup c = none := by
    rw [List.lookup_eq_none_iff]
    intro w among
    apply bne_iff_ne.mpr
    rintro rfl
    rw [h.mutable w (List.mem_reverse.mp among) d declared] at fixed
    contradiction
  rw [h.cells, untouched, Option.none_or]

/-- Fitting values are written to mutable globals of one module. -/
theorem ofWrites {change : LoadedModule → LoadedModule} {writes : List (Nat × Value)} (typed : s.Typed)
    (continues : Continues s t) (found : s.modules[k]? = some m) (modules : t.modules = s.modules.modify k change)
    (globals : (change m).inst.globals = writeGlobals m.inst.globals writes) (fitting : Fitting m.inst.globals writes)
    (mutable : ∀ w ∈ writes, ∀ d, m.inst.module.allGlobals[w.1]? = some d → d.mutable = true) :
    Stored s t (storesOf k writes) := by
  have here (index : Nat) : t.cell? ⟨k, index⟩ = (writeGlobals m.inst.globals writes)[index]? := by
    rw [cell?, modules, List.getElem?_modify, found, ← globals]
    simp
  have elsewhere {c : Cell} (other : c.module ≠ k) : t.cell? c = s.cell? c := by
    simp only [cell?, modules, List.getElem?_modify, if_neg (Ne.symm other), id_map']
  constructor
  case cells =>
    intro c
    rw [lookup_storesOf]
    by_cases own : c.module = k
    · subst own
      rw [if_pos rfl, here, Wasm.getElem?_writeGlobals fitting.inside, cell?_of_module found]
    · rw [if_neg own, elsewhere own, Option.none_or]
  case mutable =>
    intro w among d declared
    obtain ⟨write, written, rfl⟩ := List.mem_map.mp among
    exact mutable write written d ((declared?_of_module found).symm.trans declared)
  case typed =>
    intro c
    rw [continues.declared]
    by_cases own : c.module = k
    · subst own
      rw [here, ← Array.getElem?_map, fitting.types, declared?_of_module found]
      exact typed.types found c.index
    · rw [elsewhere own]
      exact typed c

theorem run (typed : s.Typed) (parsed : s.Parsed) (h : s.run f args = (t, result)) : Stored s t (s.runStores f args) := by
  have continues : Continues s t := .run h
  rcases run_cases h with ⟨rfl, missing⟩ | ⟨m, found, rfl⟩
  · rw [runStores, missing]
    exact .of_modules typed rfl
  · have setsMutable := parsed.setsMutable m.inst.module (mem_loaded found)
    obtain ⟨globals, fitting⟩ := (s.stateOf m).call_globals (s.hostCall m f.index) s.budget f.index args
    simp only [runStores, found]
    refine .ofWrites typed continues found rfl globals fitting ?_
    intro w among d declared
    have sets := Wasm.State.globalWrites_within setsMutable s.budget f.index args w among
    obtain ⟨d', known, mutable⟩ := sets w.1 rfl
    cases declared.symm.trans known
    exact mutable

theorem call (typed : s.Typed) (parsed : s.Parsed) (h : s.call f args = (t, result)) :
    Stored s t (s.callStores f args) := by
  unfold callStores
  rcases call_cases h with ⟨_, rfl, refused⟩ | ⟨values, u, answer, given, ran, results, rfl⟩
  · rw [refused]
    exact .of_modules typed rfl
  · -- What a call leaves behind is not looked at by the code it runs.
    have stored : Stored { s with results := [] } u (s.runStores f values) := .run typed parsed ran
    rw [given]
    exact ⟨stored.cells, stored.mutable, stored.typed⟩

/-- The embedder stores what the slot holds, in a cell that has the type it names. -/
theorem setGlobal (typed : s.Typed) (denotes : s.Denotes g d) (h : s.setGlobal g tag slot = .ok t) :
    ∃ v, Value.ofSlot? slot tag = some v ∧ Stored s t [(g.toCell, v)] := by
  have continues : Continues s t := .setGlobal h
  obtain ⟨v, mutable, rfl, read, rfl⟩ := setGlobal_ok h
  obtain ⟨m, found, known⟩ := module_of_declared denotes.declared
  have known : m.inst.module.allGlobals[g.index]? = some d := known
  refine ⟨v, read, ?_⟩
  show Stored s _ (storesOf g.module [(g.index, v)])
  refine .ofWrites typed continues found rfl rfl ?_ ?_
  · intro w among
    cases List.mem_singleton.mp among
    have same := Wasm.Value.ofSlot?_some read
    rw [denotes.type] at same
    rw [typed.types found, known, Option.map_some, Wasm.ValType.tag_inj same.1 (same.1 ▸ same.2)]
  · intro w among d' declared
    cases List.mem_singleton.mp among
    cases known.symm.trans declared
    exact denotes.mutable.symm.trans mutable

/-- The cells of a new module. -/
theorem load (typed : s.Typed) {p : ParsedModule} (parsed : ∃ e bytes, ParsedModule.parse e bytes = .ok p)
    (h : s.load p = (t, .ok number)) : Stored s t (s.loadStores p.module) := by
  obtain ⟨e, bytes, parsed⟩ := parsed
  have sound := (ParsedModule.parse_checked parsed).globals
  obtain ⟨_, after, m, instantiated, gained⟩ := load_instantiates h
  obtain ⟨globals, fitting⟩ := instantiate_globals instantiated
  have last : t.modules[s.modules.length]? = some m := by
    rw [gained.modules, List.getElem?_concat_length]
  have new (index : Nat) : t.cell? ⟨s.modules.length, index⟩ = m.inst.globals[index]? := cell?_of_module last
  have old {c : Cell} (other : c.module ≠ s.modules.length) : t.cell? c = s.cell? c := by
    rw [cell?, gained.modules, getElem?_concat_ne _ _ other, cell?]
  have unknown (index : Nat) : s.declared? ⟨s.modules.length, index⟩ = none := by
    rw [declared?, List.getElem?_eq_none (Nat.le_of_eq (length_loaded s)), Option.bind_none]
  constructor
  case cells =>
    intro c
    by_cases here : c.module = s.modules.length
    · obtain ⟨k, index⟩ := c
      subst here
      rw [lookup_loadStores, new, globals, Wasm.getElem?_writeGlobals fitting.inside,
        Wasm.Module.getElem?_initialGlobals sound, cell?_of_new, Option.or_none]
    · rw [loadStores, lookup_storesOf, if_neg here, old here, Option.none_or]
  case mutable =>
    intro w among d declared
    obtain ⟨write, _, rfl⟩ := List.mem_map.mp among
    rw [unknown] at declared
    contradiction
  case typed =>
    intro c
    by_cases here : c.module = s.modules.length
    · obtain ⟨k, index⟩ := c
      subst here
      have types := Wasm.Module.initialGlobals_types sound
      rw [new, declared?_of_module last, gained.module, globals, ← Array.getElem?_map, fitting.types, ← List.getElem?_map,
        ← types, ← Array.getElem?_toList, Array.toList_map]
    · rw [old here, declared?, gained.loaded, getElem?_concat_ne _ _ (length_loaded s ▸ here)]
      exact typed c

end Stored

/-- A new module's globals begin with the values of their initialisers, and zero if imported; then its start function may
write to them. -/
theorem cell?_of_load (typed : s.Typed) {p : ParsedModule} (parsed : ∃ e bytes, ParsedModule.parse e bytes = .ok p)
    (h : s.load p = (t, .ok number)) (index : Nat) :
    t.cell? ⟨number, index⟩ = ((s.startWrites p.module).reverse.lookup index).or p.module.firstValues[index]?.join := by
  obtain ⟨rfl, _⟩ := load_ok h
  rw [(Stored.load typed parsed h).cells, lookup_loadStores, cell?_of_new, Option.or_none]

/-- What a cell of a number holds is read whole. -/
theorem getGlobal_of_cell {type : ScalarType} {x : type.Carrier} (holds : s.cell? g.toCell = some (type.toValue x)) :
    s.getGlobal g = .ok (type.toSlot x) := by
  have read : s.modules[g.module]?.bind (·.inst.globals[g.index]?) = some (type.toValue x) := holds
  simp only [getGlobal, read, Option.bind_some, ScalarType.toSlot?_toValue]

theorem setGlobal_of_immutable (fixed : g.mutable = false) (tag : ValueTag) (slot : Slot) :
    s.setGlobal g tag slot = .error .immutableGlobal := by
  simp only [setGlobal, fixed, Bool.not_false, if_true]

theorem setGlobal_of_mutable (mutable : g.mutable = true) (read : (Value.ofSlot? slot g.type).isSome = true) :
    ∃ t, s.setGlobal g g.type slot = .ok t := by
  obtain ⟨v, read⟩ := Option.isSome_iff_exists.mp read
  simp only [setGlobal, mutable, read, Bool.not_true, Bool.false_eq_true, if_false, ne_eq, not_true_eq_false]
  exact ⟨_, rfl⟩

end Store
end WasmBinding
