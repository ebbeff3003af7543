import WasmBinding.Proofs.Host.SignatureText
import WasmBinding.Proofs.Store.SlotValues

/-! The table of imports. It has one slot for each function import of the loaded modules, in load order, and to these the stubs
of the modules lead. A slot once found stays the slot of its import, whatever is loaded or fails to load later. -/

namespace WasmBinding

theorem ValueTag.numeric_of_code? {t : ValueTag} (code : t.code? = some c) : t.Numeric := by
  cases t with
  | none | unknown => cases code
  | i32 | i64 | f32 | f64 => simp [Numeric]

/-- What is written down has only types that can be written down. -/
theorem Signature.numeric_of_parse? {text : String} (read : Signature.parse? text = some sig) : sig.Numeric := by
  obtain ⟨result, params, _, code, codes⟩ := Signature.parse?_eq_some_iff.mp read
  constructor
  · intro t some
    rw [some] at code
    exact ValueTag.numeric_of_code? code
  · intro t among
    have coded : t.code? ∈ params.map Option.some := codes ▸ List.mem_map_of_mem among
    obtain ⟨c, _, code⟩ := List.mem_map.mp coded
    exact ValueTag.numeric_of_code? code.symm

/-- A slot whose import can be linked: its types are numbers, and at most one of them is a result. -/
structure ImportSlot.Carried {σ : Type} (slot : ImportSlot σ) : Prop where
  params : ∀ t ∈ slot.params, t.Numeric
  results : ∀ t ∈ slot.results, t.Numeric
  single : slot.results.length ≤ 1

namespace ImportSlot

variable {σ : Type} {slot other : ImportSlot σ} {sig : Signature}

theorem Carried.of_cleared (carried : slot.Carried) (same : other.cleared = slot.cleared) : other.Carried := by
  have params : other.cleared.params = slot.cleared.params := congrArg ImportSlot.params same
  have results : other.cleared.results = slot.cleared.results := congrArg ImportSlot.results same
  dsimp only [cleared] at params results
  constructor
  · rw [params]
    exact carried.params
  · rw [results]
    exact carried.results
  · rw [results]
    exact carried.single

theorem hasSignature_iff_types : slot.hasSignature sig = true ↔ slot.params = sig.params ∧ slot.results = sig.result.toList := by
  rw [hasSignature, Bool.and_eq_true, beq_iff_eq, beq_iff_eq, eq_comm (a := sig.params), eq_comm (a := sig.result.toList)]

theorem carried_of_hasSignature (numeric : sig.Numeric) (same : slot.hasSignature sig = true) : slot.Carried := by
  obtain ⟨params, results⟩ := hasSignature_iff_types.mp same
  constructor
  · rw [params]
    exact numeric.params
  · rw [results]
    intro t among
    exact numeric.result t (Option.mem_toList.mp among)
  · rw [results]
    exact Option.length_toList_le

end ImportSlot

/-- How many function imports modules have. -/
def importCount (loaded : List Wasm.Module) : Nat := (loaded.flatMap fun w => funcImports w.imports).length

theorem length_slotTable {σ : Type} (loaded : List Wasm.Module) : (slotTable (σ := σ) loaded).length = importCount loaded := by
  have each : (fun p : Wasm.Module × Nat => (slotsFor (σ := σ) p.2 p.1 p.1.imports).length) =
      (fun w => (funcImports w.imports).length) ∘ Prod.fst := by
    funext p
    rw [slotsFor, List.length_map]
    rfl
  rw [slotTable, importCount, List.length_flatMap, List.length_flatMap, each, ← List.map_map, List.zipIdx_map_fst]

namespace Store

variable {σ : Type} {s t : Store σ}

/-- The place in the table of the function import at a position of a module. -/
def slotOf (s : Store σ) (k j : Nat) : Nat := importCount (s.loaded.take k) + j

/-- The table of a store, and what leads there. -/
structure Tabled (s : Store σ) : Prop where
  table : s.imports.map ImportSlot.cleared = slotTable s.loaded
  stubs : ∀ (k : Nat) (m : LoadedModule), s.modules[k]? = some m → m.stubs.length = (funcImports m.inst.module.imports).length
  bound : ∀ (k j : Nat) (m : LoadedModule) (i : Wasm.Import) (type : Nat), s.modules[k]? = some m → (funcImports m.inst.module.imports)[j]? = some (i, type) →
    ∃ t slot, m.inst.module.types[type]? = some t ∧ s.imports[s.slotOf k j]? = some slot ∧
      slot.cleared = .unlinked k i t ∧ m.stubs[j]? = some ⟨s.slotOf k j, slot.results⟩
  targets : ∀ slot ∈ s.imports, slot.target.isSome = true → slot.Carried

theorem Wired.tabled (wired : s.Wired) (parsed : s.Parsed)
    (targets : ∀ slot ∈ s.imports, slot.target.isSome = true → slot.Carried) : s.Tabled where
  table := wired.slots
  stubs k m found := by simp [wired.stubs k m found, stubsFrom, slotsFor]
  bound k j m i type found imported := by
    have known : type < m.inst.module.types.size := by
      refine (parsed.checked _ (mem_loaded found)).functions type (Wasm.Module.mem_allFuncs.mpr (.inl ?_))
      exact ⟨i, mem_funcImports.mp (List.mem_of_getElem? imported)⟩
    have stub : m.stubs[j]? = some ⟨s.slotOf k j, (m.inst.module.types[type]).results.map (·.tag)⟩ := by
      rw [wired.stubs k m found, getElem?_stubsFrom, length_slotTable, slotsFor, List.getElem?_map, imported]
      simp [slotOf, ImportSlot.unlinked, Array.getElem?_eq_getElem known]
    obtain ⟨slot, i', type', placed, imported', cleared, results⟩ := wired.slot_of_stub found stub
    cases imported.symm.trans imported'
    rw [Array.getElem?_eq_getElem known, Option.getD_some] at cleared
    refine ⟨_, slot, Array.getElem?_eq_getElem known, placed, cleared, ?_⟩
    rw [stub, ← results]
  targets := targets

/-- Slots are only added, behind those that are there. -/
theorem Use.slots (use : s.Use calls t) : s.imports.map ImportSlot.cleared <+: t.imports.map ImportSlot.cleared := by
  rcases use.cases with continues | ⟨_, _, _, gained⟩ | ⟨slot, target, rfl⟩
  · rewrite [continues.imports]
    exact List.prefix_rfl
  · rw [gained.imports, List.map_append]
    exact List.prefix_append _ _
  · rewrite [cleared_setTarget]
    exact List.prefix_rfl

/-- A slot that is found is the first of its import, and has the types that were asked for. -/
theorem findImport_eq_ok_iff {text : String} :
    s.findImport k ns name text = .ok place ↔ s.imports.findIdx? (·.isFor k ns name) = some place ∧
      ∃ sig slot, Signature.parse? text = some sig ∧ s.imports[place]? = some slot ∧ slot.hasSignature sig = true := by
  unfold findImport
  constructor
  · intro found
    split at found
    · contradiction
    · rename_i first
      split at found
      · contradiction
      · rename_i sig read
        split at found
        · rename_i same
          cases found
          obtain ⟨slot, there, same⟩ := (Option.any_eq_true _ _).mp same
          exact ⟨first, sig, slot, read, there, same⟩
        · contradiction
  · rintro ⟨first, sig, slot, read, there, same⟩
    simp only [first, read, there, Option.any_some, same, if_true]

/-- What the handle of a slot denotes: the import that the slot is for, with its types, whatever it is linked to. -/
def denoted? (s : Store σ) (place : Nat) : Option (ImportSlot σ) := s.imports[place]?.map ImportSlot.cleared

/-- A handle that was found denotes the import that was looked for. -/
theorem denoted?_of_findImport {text : String} (found : s.findImport k ns name text = .ok place) :
    ∃ sig, Signature.parse? text = some sig ∧
      s.denoted? place = some ⟨k, ns, name, sig.params, sig.result.toList, none⟩ := by
  obtain ⟨first, sig, slot, read, there, same⟩ := findImport_eq_ok_iff.mp found
  refine ⟨sig, read, ?_⟩
  obtain ⟨params, results⟩ := ImportSlot.hasSignature_iff_types.mp same
  obtain ⟨inside, named, _⟩ := List.findIdx?_eq_some_iff_getElem.mp first
  cases (List.getElem?_eq_getElem inside).symm.trans there
  simp only [ImportSlot.isFor, Bool.and_eq_true, beq_iff_eq] at named
  rw [denoted?, List.getElem?_eq_getElem inside, Option.map_some, ImportSlot.cleared, params, results, named.1.1,
    named.1.2, named.2]

/-- What a table has at a place is there later on, since slots are only added behind. -/
theorem getElem?_of_prefix {place : Nat} {slot : ImportSlot σ}
    (added : s.imports.map ImportSlot.cleared <+: t.imports.map ImportSlot.cleared)
    (there : s.imports[place]? = some slot) : ∃ later, t.imports[place]? = some later ∧ later.cleared = slot.cleared := by
  have before : (s.imports.map ImportSlot.cleared)[place]? = some slot.cleared := by
    rw [List.getElem?_map, there, Option.map_some]
  obtain ⟨inside, here⟩ := List.getElem?_eq_some_iff.mp before
  have after := List.prefix_iff_getElem?.mp added place inside
  rwa [here, List.getElem?_map, Option.map_eq_some_iff] at after

/-- The search for an import ends at the same slot later on. -/
theorem findImport_of_prefix {text : String} (added : s.imports.map ImportSlot.cleared <+: t.imports.map ImportSlot.cleared)
    (found : s.findImport k ns name text = .ok place) : t.findImport k ns name text = .ok place := by
  obtain ⟨first, sig, slot, read, there, same⟩ := findImport_eq_ok_iff.mp found
  obtain ⟨later, there', cleared⟩ := getElem?_of_prefix added there
  have by_name (slots : List (ImportSlot σ)) :
      slots.findIdx? (·.isFor k ns name) = (slots.map ImportSlot.cleared).findIdx? (·.isFor k ns name) := by
    rw [List.findIdx?_map]
    rfl
  refine findImport_eq_ok_iff.mpr ⟨?_, sig, later, read, there', ?_⟩
  · obtain ⟨more, split⟩ := added
    rw [by_name] at first
    rw [by_name, ← split, List.findIdx?_append, first]
    rfl
  · have types : later.cleared.hasSignature sig = slot.cleared.hasSignature sig := by rw [cleared]
    exact types.trans same

end Store

namespace Service

variable {σ : Type} {v w : Service σ} {r : Request σ}

/-- A slot has the target that it had, or has been given one through a handle or a search for its import. -/
theorem target_serve (there : (v.serve r).store.imports[place]? = some slot) (linked : slot.target.isSome = true) :
    v.store.imports[place]? = some slot ∨
    ((∃ target, r = .setTarget place target) ∨ ∃ k ns name text, v.store.findImport k ns name text = .ok place) ∧
      ∃ old, v.store.imports[place]? = some old ∧ slot.cleared = old.cleared := by
  have relinked {here : Nat} {target : Target σ} (there : (v.store.setTarget here target).imports[place]? = some slot) :
      v.store.imports[place]? = some slot ∨
        place = here ∧ ∃ old, v.store.imports[place]? = some old ∧ slot.cleared = old.cleared := by
    rcases Store.getElem?_setTarget there with ⟨same, old, found, rfl⟩ | ⟨_, before⟩
    · exact .inr ⟨same, old, found, rfl⟩
    · exact .inl before
  cases r with
  | load e bytes =>
    simp only [serve] at there
    split at there
    · rename_i p parsed
      dsimp only at there
      cases loaded : v.store.load p with
      | mk t result =>
        rw [loaded] at there
        cases result with
        | error fault =>
          rw [(Store.Continues.load loaded).imports] at there
          exact .inl there
        | ok number =>
          obtain ⟨_, m, gained⟩ := Store.load_ok loaded
          rw [gained.imports, List.getElem?_append] at there
          split at there
          · exact .inl there
          · rw [mem_slotsFor (List.mem_of_getElem? there)] at linked
            contradiction
    · exact .inl there
  | setTarget here target =>
    rcases relinked there with before | ⟨rfl, old⟩
    · exact .inl before
    · exact .inr ⟨.inl ⟨target, rfl⟩, old⟩
  | link k ns name text target =>
    simp only [serve, noteStore] at there
    split at there
    · rename_i made
      obtain ⟨here, found, rfl⟩ := Store.link_ok made
      rcases relinked there with before | ⟨rfl, old⟩
      · exact .inl before
      · exact .inr ⟨.inr ⟨k, ns, name, text, found⟩, old⟩
    · exact .inl there
  | call f args =>
    have continues : Store.Continues v.store (v.store.call f args).1 := .call rfl
    rw [serve, continues.imports] at there
    exact .inl there
  | setGlobal g tag value =>
    simp only [serve, noteStore] at there
    split at there
    · rename_i set
      rw [(Store.Continues.setGlobal set).imports] at there
      exact .inl there
    · exact .inl there
  | resize pages =>
    simp only [serve, noteStore] at there
    split at there
    · rename_i resized
      rw [(Store.Continues.resize resized).imports] at there
      exact .inl there
    · exact .inl there
  | findFunction | findModuleFunction =>
    rw [serve, store_noteFunction] at there
    exact .inl there
  | findGlobal | findImport | write =>
    simp only [serve] at there
    split at there <;> exact .inl there
  | setHost host => exact .inl there

theorem mem_slots_serve (among : place ∈ (v.serve r).slots) :
    place ∈ v.slots ∨ ∃ k ns name text, v.store.findImport k ns name text = .ok place := by
  cases r with
  | findImport k ns name text =>
    simp only [serve] at among
    split at among
    · rename_i found
      rcases List.mem_cons.mp among with rfl | old
      · exact .inr ⟨k, ns, name, text, found⟩
      · exact .inl old
    · exact .inl among
  | load | findFunction | findModuleFunction | findGlobal | setTarget | link | call | setGlobal | write | resize | setHost =>
    refine .inl ?_
    simp only [serve, noteFunction, noteStore] at among
    repeat' split at among
    all_goals exact among

theorem Leads.slots {may : Service σ → Request σ → Prop} (leads : v.Leads may w) :
    v.store.imports.map ImportSlot.cleared <+: w.store.imports.map ImportSlot.cleared := by
  induction leads with
  | refl => exact List.prefix_rfl
  | serve _ r _ ih => exact ih.trans (use_serve _ r).slots

/-- Whatever can be linked, or has been, has types of numbers. -/
structure Carries (v : Service σ) : Prop where
  handles : ∀ place ∈ v.slots, ∃ slot, v.store.imports[place]? = some slot ∧ slot.Carried
  targets : ∀ slot ∈ v.store.imports, slot.target.isSome = true → slot.Carried

theorem carried_of_findImport {text : String} (found : v.store.findImport k ns name text = .ok place) :
    ∃ slot, v.store.imports[place]? = some slot ∧ slot.Carried := by
  obtain ⟨_, sig, slot, read, there, same⟩ := Store.findImport_eq_ok_iff.mp found
  exact ⟨slot, there, ImportSlot.carried_of_hasSignature (Signature.numeric_of_parse? read) same⟩

theorem Carries.serve (carries : v.Carries) (allowed : v.Allows r) : (v.serve r).Carries where
  handles place among := by
    obtain ⟨slot, there, carried⟩ : ∃ slot, v.store.imports[place]? = some slot ∧ slot.Carried := by
      rcases mem_slots_serve among with old | ⟨k, ns, name, text, found⟩
      · exact carries.handles place old
      · exact carried_of_findImport found
    obtain ⟨later, there', cleared⟩ := Store.getElem?_of_prefix (use_serve v r).slots there
    exact ⟨later, there', carried.of_cleared cleared⟩
  targets slot among linked := by
    obtain ⟨place, there⟩ := List.mem_iff_getElem?.mp among
    rcases target_serve there linked with before | ⟨given, old, before, cleared⟩
    · exact carries.targets slot (List.mem_of_getElem? before) linked
    · obtain ⟨slot', here, carried⟩ : ∃ slot, v.store.imports[place]? = some slot ∧ slot.Carried := by
        rcases given with ⟨target, rfl⟩ | ⟨k, ns, name, text, found⟩
        · exact carries.handles place allowed
        · exact carried_of_findImport found
      cases before.symm.trans here
      exact carried.of_cleared cleared

theorem Reachable.carries (reached : v.Reachable) : v.Carries := by
  induction reached with
  | new created steps =>
    rw [Store.new_ok created]
    constructor <;> simp
  | serve _ r allowed ih => exact ih.serve allowed

/-- The table of imports of a service. It lists the function imports of the loaded modules, in load order and for each module in
the order of their declaration, and each stub leads to the slot of its own import. Only what numbers can carry is ever linked.
A handle denotes the import that it was found for, now and after anything else, loads that succeed or fail included. -/
theorem import_table (reached : v.Reachable) :
    v.store.Tabled ∧
    (∀ k ns name text place, v.store.findImport k ns name text = .ok place → ∃ sig, Signature.parse? text = some sig ∧
      v.store.denoted? place = some ⟨k, ns, name, sig.params, sig.result.toList, none⟩) ∧
    (∀ place ∈ v.slots, ∃ i, v.store.denoted? place = some i ∧ i.Carried) ∧
    ∀ w, v.Leads Allows w →
      (∀ place i, v.store.denoted? place = some i → w.store.denoted? place = some i) ∧
      ∀ k ns name text place, v.store.findImport k ns name text = .ok place →
        w.store.findImport k ns name text = .ok place := by
  have carries := reached.carries
  refine ⟨reached.wired.tabled reached.parsed carries.targets, fun _ _ _ _ _ => Store.denoted?_of_findImport, ?_, ?_⟩
  · intro place among
    obtain ⟨slot, there, carried⟩ := carries.handles place among
    refine ⟨slot.cleared, ?_, carried.of_cleared rfl⟩
    rw [Store.denoted?, there, Option.map_some]
  · intro w leads
    refine ⟨fun place i denoted => ?_, fun _ _ _ _ _ => Store.findImport_of_prefix leads.slots⟩
    obtain ⟨slot, there, rfl⟩ := Option.map_eq_some_iff.mp denoted
    obtain ⟨later, there', same⟩ := Store.getElem?_of_prefix leads.slots there
    rw [Store.denoted?, there', Option.map_some, same]

end Service

namespace Rows

/-- Imports `e.f`, and then a table, which is not to be had. -/
def unsupported : Wasm.Bytes :=
  [0x00, 0x61, 0x73, 0x6d, 0x01, 0x00, 0x00, 0x00,
    0x01, 0x04, 0x01, 0x60, 0x00, 0x00,
    0x02, 0x0f, 0x02, 0x01, 0x65, 0x01, 0x66, 0x00, 0x00, 0x01, 0x65, 0x01, 0x74, 0x01, 0x70, 0x00, 0x00]

def load (bytes : Wasm.Bytes) : Request Nat := .load Sample.service.store.environment bytes

def service : Service Nat :=
  [load Echo.binary, .findImport 0 "e" "f" "i(i)", load unsupported, load Echo.binary].foldl Service.serve Sample.service

theorem reachable : service.Reachable :=
  (((Sample.reachable_service.serve (load Echo.binary) trivial).serve (.findImport 0 "e" "f" "i(i)") trivial).serve
    (load unsupported) trivial).serve (load Echo.binary) trivial

theorem stubs : service.store.modules.map (·.stubs) = [[⟨0, [.i32]⟩], [⟨1, [.i32]⟩]] := by decide +kernel

theorem found : service.store.findImport 0 "e" "f" "i(i)" = .ok 0 := by rfl

end Rows

/-- The second module has the slot that the failed load had before it, and the handle of the first is as good as it was. -/
theorem import_table_rows :
    Rows.service.slots = [0] ∧ Rows.service.store.modules.map (·.stubs) = [[⟨0, [.i32]⟩], [⟨1, [.i32]⟩]] ∧
      Rows.service.store.imports.map ImportSlot.cleared = slotTable Rows.service.store.loaded ∧
      ∀ w, Rows.service.Leads Service.Allows w → w.store.findImport 0 "e" "f" "i(i)" = .ok 0 ∧
        w.store.denoted? 0 = some ⟨0, "e", "f", [.i32], [.i32], none⟩ := by
  obtain ⟨tabled, _, _, stays⟩ := Service.import_table Rows.reachable
  refine ⟨by decide +kernel, Rows.stubs, tabled.table, fun w leads => ?_⟩
  exact ⟨(stays w leads).2 _ _ _ _ _ Rows.found, (stays w leads).1 0 _ rfl⟩

end WasmBinding
