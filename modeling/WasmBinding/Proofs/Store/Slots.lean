import WasmBinding.Proofs.Store.Frame
import WasmBinding.Proofs.Store.Loading
import WasmBinding.Proofs.Wasm.Validity

/-! The table of slots. It lists the function imports of all loaded modules in load order, and each module's stubs
lead to its own part of it, whatever was loaded, linked, rolled back and called before. -/

namespace WasmBinding

open Wasm (Instance)

def ImportSlot.cleared {σ : Type} (slot : ImportSlot σ) : ImportSlot σ := { slot with target := none }

theorem ImportSlot.cleared_of_unlinked {σ : Type} {slot : ImportSlot σ} (h : slot.target = none) :
    slot.cleared = slot := by
  cases slot
  cases h
  rfl

/-- The unlinked slots of modules that are loaded one after the other. -/
def slotTable {σ : Type} (loaded : List Wasm.Module) : List (ImportSlot σ) :=
  loaded.zipIdx.flatMap fun (w, number) => slotsFor number w w.imports

@[simp] theorem slotTable_append {σ : Type} (loaded : List Wasm.Module) (w : Wasm.Module) :
    slotTable (σ := σ) (loaded ++ [w]) = slotTable loaded ++ slotsFor loaded.length w w.imports := by
  simp [slotTable, List.zipIdx_append]

/-- The slots of a loaded module stand between those of the modules before it and after it. -/
theorem slotTable_split {σ : Type} {loaded : List Wasm.Module} {w : Wasm.Module} (found : loaded[k]? = some w) :
    slotTable (σ := σ) loaded = slotTable (loaded.take k) ++ (slotsFor k w w.imports ++
      ((loaded.drop (k + 1)).zipIdx (k + 1)).flatMap fun (w, number) => slotsFor number w w.imports) := by
  obtain ⟨before, here⟩ := List.getElem?_eq_some_iff.mp found
  have split : loaded = loaded.take k ++ w :: loaded.drop (k + 1) := by
    rw [← here, List.getElem_cons_drop, List.take_append_drop]
  have length : (loaded.take k).length = k := List.length_take_of_le (Nat.le_of_lt before)
  conv => lhs; rw [split]
  simp [slotTable, List.zipIdx_append, length]

theorem module_of_mem_slotsFor {σ : Type} {slot : ImportSlot σ} (h : slot ∈ slotsFor number m imports) :
    slot.module = number := by
  obtain ⟨_, _, rfl⟩ := List.mem_map.mp h
  rfl

/-- The slots of a loaded module are those that have its number. -/
theorem filter_slotTable {σ : Type} {loaded : List Wasm.Module} {w : Wasm.Module} (found : loaded[k]? = some w) :
    (slotTable (σ := σ) loaded).filter (·.module == k) = slotsFor k w w.imports := by
  have numbers {l : List Wasm.Module} {first : Nat} {slot : ImportSlot σ}
      (among : slot ∈ (l.zipIdx first).flatMap fun (w, number) => slotsFor number w w.imports) :
      first ≤ slot.module ∧ slot.module < first + l.length := by
    obtain ⟨⟨w, number⟩, there, own⟩ := List.mem_flatMap.mp among
    obtain ⟨low, high, _⟩ := List.mem_zipIdx there
    rw [module_of_mem_slotsFor own]
    exact ⟨low, high⟩
  have own : (slotsFor (σ := σ) k w w.imports).filter (·.module == k) = slotsFor k w w.imports :=
    List.filter_eq_self.mpr fun slot among => beq_iff_eq.mpr (module_of_mem_slotsFor among)
  have earlier : (slotTable (σ := σ) (loaded.take k)).filter (·.module == k) = [] := by
    refine List.filter_eq_nil_iff.mpr fun slot among same => ?_
    have bounds := numbers among
    have length := List.length_take_le k loaded
    have same := beq_iff_eq.mp same
    omega
  have later : (((loaded.drop (k + 1)).zipIdx (k + 1)).flatMap fun (w, number) =>
      slotsFor (σ := σ) number w w.imports).filter (·.module == k) = [] := by
    refine List.filter_eq_nil_iff.mpr fun slot among same => ?_
    have bounds := numbers among
    have same := beq_iff_eq.mp same
    omega
  rw [slotTable_split found, List.filter_append, List.filter_append, earlier, own, later, List.nil_append,
    List.append_nil]

theorem getElem?_stubsFrom {σ : Type} (first : Nat) (slots : List (ImportSlot σ)) (j : Nat) :
    (stubsFrom first slots)[j]? = slots[j]?.map fun slot => ⟨first + j, slot.results⟩ := by
  simp [stubsFrom, List.getElem?_map, List.getElem?_zipIdx, Function.comp_def]

theorem mem_funcImports {imports : List Wasm.Import} {i : Wasm.Import} :
    (i, type) ∈ funcImports imports ↔ i ∈ imports ∧ i.kind = .func type := by
  rw [funcImports, List.mem_filterMap]
  constructor
  · rintro ⟨j, among, found⟩
    split at found
    · rename_i kind
      cases found
      exact ⟨among, kind⟩
    · contradiction
  · rintro ⟨among, kind⟩
    exact ⟨i, among, by simp only [kind]⟩

theorem importedFuncs_eq (w : Wasm.Module) : w.importedFuncs = (funcImports w.imports).map (·.2) := by
  simp only [Wasm.Module.importedFuncs, funcImports, List.map_filterMap]
  congr 1
  funext i
  cases i.kind <;> rfl

theorem funcType?_of_import {w : Wasm.Module} (imported : (funcImports w.imports)[j]? = some (i, type)) :
    w.funcType? j = w.types[type]? := by
  have here : w.allFuncs[j]? = some type := by
    rw [Wasm.Module.allFuncs, importedFuncs_eq, List.getElem?_append_left, List.getElem?_map, imported]
    · rfl
    · rw [List.length_map]
      exact (List.getElem?_eq_some_iff.mp imported).1
  simp only [Wasm.Module.funcType?, here, Option.bind_eq_bind, Option.bind_some]

namespace Store

variable {σ : Type} {s t : Store σ}

/-- The slots are those of the loaded modules, and the stubs of each module lead to its own slots. -/
structure Wired (s : Store σ) : Prop where
  slots : s.imports.map ImportSlot.cleared = slotTable s.loaded
  stubs : ∀ k m, s.modules[k]? = some m →
    m.stubs = stubsFrom (slotTable (σ := σ) (s.loaded.take k)).length
      (slotsFor (σ := σ) k m.inst.module m.inst.module.imports)

theorem wired_of_no_modules (imports : s.imports = []) (modules : s.modules = []) : s.Wired where
  slots := by simp [imports, loaded, modules, slotTable]
  stubs k m found := by simp [modules] at found

/-- Linking changes nothing of a slot but its target. -/
theorem cleared_setTarget (s : Store σ) (place : Nat) (target : Target σ) :
    (s.setTarget place target).imports.map ImportSlot.cleared = s.imports.map ImportSlot.cleared := by
  apply List.ext_getElem?
  intro n
  simp only [setTarget, List.getElem?_map, List.getElem?_modify]
  cases s.imports[n]? with
  | none => rfl
  | some slot => by_cases here : place = n <;> simp [here, ImportSlot.cleared]

theorem length_loaded (s : Store σ) : s.loaded.length = s.modules.length := List.length_map ..

theorem Gained.loaded (h : Gained s t w m) : t.loaded = s.loaded ++ [w] := by
  simp only [Store.loaded, h.modules, List.map_append, List.map_cons, h.module, List.map_nil]

theorem Gained.module_cases {a : LoadedModule} (h : Gained s t w m) (found : t.modules[k]? = some a) :
    s.modules[k]? = some a ∨ k = s.modules.length ∧ a = m := by
  rw [h.modules] at found
  rcases Nat.lt_or_ge k s.modules.length with old | new
  · rw [List.getElem?_append_left old] at found
    exact .inl found
  · rw [List.getElem?_append_right new] at found
    obtain ⟨here, same⟩ := List.getElem?_eq_some_iff.mp found
    simp only [List.length_singleton] at here
    have last : k - s.modules.length = 0 := by omega
    simp only [last, List.getElem_cons_zero] at same
    exact .inr ⟨by omega, same.symm⟩

theorem Gained.keeps (h : Gained s t w m) : Keeps s t := by
  intro k before found
  have old := (List.getElem?_eq_some_iff.mp found).1
  exact ⟨before, by rw [h.modules, List.getElem?_append_left old, found], rfl⟩

namespace Wired

theorem continues (wired : s.Wired) (h : Continues s t) : t.Wired where
  slots := by
    rw [h.loaded, h.imports]
    exact wired.slots
  stubs k m found := by
    obtain ⟨before, was, same⟩ := h.module found
    obtain ⟨module, _, stubs⟩ : m.inst.module = before.inst.module ∧ _ ∧ m.stubs = before.stubs := by
      simpa [LoadedModule.shape, eq_comm] using same
    rw [stubs, module, h.loaded]
    exact wired.stubs k before was

theorem setTarget (wired : s.Wired) (place : Nat) (target : Target σ) : (s.setTarget place target).Wired where
  slots := (s.cleared_setTarget place target).trans wired.slots
  stubs := wired.stubs

theorem gained (wired : s.Wired) (h : Gained s t w m) : t.Wired where
  slots := by
    have fresh : (slotsFor (σ := σ) s.modules.length w w.imports).map ImportSlot.cleared =
        slotsFor s.modules.length w w.imports :=
      (List.map_congr_left fun slot among => ImportSlot.cleared_of_unlinked (mem_slotsFor among)).trans
        (List.map_id _)
    rw [h.imports, List.map_append, wired.slots, fresh, h.loaded, slotTable_append, length_loaded]
  stubs k m' found := by
    rw [h.modules] at found
    rw [h.loaded]
    rcases Nat.lt_or_ge k s.modules.length with old | new
    · rw [List.getElem?_append_left old] at found
      rw [List.take_append_of_le_length (by rw [length_loaded]; omega)]
      exact wired.stubs k m' found
    · have last : k = s.modules.length := by
        have := (List.getElem?_eq_some_iff.mp found).1
        simp only [List.length_append, List.length_singleton] at this
        omega
      subst last
      simp only [List.getElem?_append_right (Nat.le_refl _), Nat.sub_self, List.getElem?_cons_zero,
        Option.some.injEq] at found
      subst found
      have before : (s.loaded ++ [w]).take s.modules.length = s.loaded := by
        rw [← length_loaded, List.take_left]
      have length : s.imports.length = (slotTable (σ := σ) s.loaded).length := by
        rw [← wired.slots, List.length_map]
      rw [before, h.module, h.stubs, length]

/-- The stub of a function import leads to the slot that was made for it, whether or not that is linked by now. -/
theorem slot_of_stub {k j : Nat} {m : LoadedModule} {stub : Stub} (wired : s.Wired) (found : s.modules[k]? = some m)
    (bound : m.stubs[j]? = some stub) :
    ∃ slot i type, s.imports[stub.slot]? = some slot ∧
      (funcImports m.inst.module.imports)[j]? = some (i, type) ∧
      slot.cleared = .unlinked k i (m.inst.module.types[type]?.getD ⟨[], []⟩) ∧ stub.results = slot.results := by
  have loaded : s.loaded[k]? = some m.inst.module := by
    rw [Store.loaded, List.getElem?_map, found]
    rfl
  have table := slotTable_split (σ := σ) loaded
  rw [wired.stubs k m found, getElem?_stubsFrom, Option.map_eq_some_iff] at bound
  obtain ⟨own, made, rfl⟩ := bound
  have cleared : (s.imports.map ImportSlot.cleared)[(slotTable (σ := σ) (s.loaded.take k)).length + j]? = some own := by
    have inside := (List.getElem?_eq_some_iff.mp made).1
    rw [wired.slots, table, List.getElem?_append_right (Nat.le_add_right _ _), Nat.add_sub_cancel_left,
      List.getElem?_append_left inside, made]
  rw [List.getElem?_map, Option.map_eq_some_iff] at cleared
  obtain ⟨slot, placed, rfl⟩ := cleared
  rw [slotsFor, List.getElem?_map, Option.map_eq_some_iff] at made
  obtain ⟨⟨i, type⟩, imported, made⟩ := made
  exact ⟨slot, i, type, placed, imported, made.symm, rfl⟩

/-- The slots with the number of a loaded module are those that were made for its imports, linked or not. -/
theorem own {m : LoadedModule} (wired : s.Wired) (found : s.modules[k]? = some m) :
    (s.imports.filter (·.module == k)).map ImportSlot.cleared = slotsFor k m.inst.module m.inst.module.imports := by
  have loaded : s.loaded[k]? = some m.inst.module := by
    rw [Store.loaded, List.getElem?_map, found]
    rfl
  have cleared := List.filter_map (f := ImportSlot.cleared (σ := σ)) (p := (·.module == k)) (l := s.imports)
  rw [wired.slots, filter_slotTable loaded] at cleared
  exact cleared.symm

end Wired

/-- All loaded modules were parsed. -/
def Parsed (s : Store σ) : Prop := ∀ w ∈ s.loaded, ∃ e bytes p, ParsedModule.parse e bytes = .ok p ∧ w = p.module

namespace Parsed

theorem of_empty (modules : s.modules = []) : s.Parsed := by
  simp [Parsed, loaded, modules]

theorem continues (parsed : s.Parsed) (h : Continues s t) : t.Parsed := by
  rw [Parsed, h.loaded]
  exact parsed

theorem gained {p : ParsedModule} (parsed : s.Parsed) (h : Gained s t p.module m)
    (new : ∃ e bytes, ParsedModule.parse e bytes = .ok p) : t.Parsed := by
  rw [Parsed, h.loaded]
  intro w among
  rcases List.mem_append.mp among with old | last
  · exact parsed w old
  · obtain ⟨e, bytes, new⟩ := new
    exact ⟨e, bytes, p, new, List.mem_singleton.mp last⟩

theorem checked (parsed : s.Parsed) : ∀ w ∈ s.loaded, w.Checked := by
  intro w among
  obtain ⟨e, bytes, p, parsed, rfl⟩ := parsed w among
  exact ParsedModule.parse_checked parsed

theorem setsMutable (parsed : s.Parsed) : ∀ w ∈ s.loaded, w.Within (Wasm.Instr.SetsMutable w.allGlobals) := by
  intro w among
  obtain ⟨e, bytes, p, parsed, rfl⟩ := parsed w among
  exact ParsedModule.parse_setsMutable parsed

end Parsed

theorem mem_loaded {k : Nat} {m : LoadedModule} (found : s.modules[k]? = some m) : m.inst.module ∈ s.loaded :=
  List.mem_map_of_mem (List.mem_of_getElem? found)

/-- A slot that has been linked is the one that was, with its new target, or another that is as it was. -/
theorem getElem?_setTarget {slot : ImportSlot σ} (h : (s.setTarget here target).imports[place]? = some slot) :
    (place = here ∧ ∃ old, s.imports[place]? = some old ∧ slot = { old with target := some target }) ∨
    place ≠ here ∧ s.imports[place]? = some slot := by
  simp only [setTarget, List.getElem?_modify] at h
  by_cases same : here = place
  · simp only [same, if_true, Option.map_eq_map, Option.map_eq_some_iff] at h
    obtain ⟨old, found, rfl⟩ := h
    exact .inl ⟨same.symm, old, found, rfl⟩
  · simp only [same, if_false, id_map'] at h
    exact .inr ⟨Ne.symm same, h⟩

theorem linked_iff : s.linked k = true ↔ ∀ slot ∈ s.imports, slot.module = k → slot.target.isSome = true := by
  simp only [linked, List.all_eq_true, Bool.or_eq_true, bne_iff_ne, ne_eq, Decidable.or_iff_not_imp_left,
    Decidable.not_not]

theorem linked_setTarget (linked : s.linked k = true) (here : Nat) (target : Target σ) :
    (s.setTarget here target).linked k = true := by
  rw [linked_iff] at linked ⊢
  intro slot among own
  obtain ⟨place, found⟩ := List.mem_iff_getElem?.mp among
  rcases getElem?_setTarget found with ⟨_, old, _, rfl⟩ | ⟨_, before⟩
  · rfl
  · exact linked slot (List.mem_of_getElem? before) own

/-- The slots that a load adds are those of the new module. -/
theorem linked_gained (h : Gained s t w m) (inside : k < s.modules.length) (linked : s.linked k = true) :
    t.linked k = true := by
  rw [linked_iff, h.imports]
  intro slot among own
  rcases List.mem_append.mp among with old | new
  · exact linked_iff.mp linked slot old own
  · have number := module_of_mem_slotsFor new
    omega

end Store
end WasmBinding
