import WasmBinding.Proofs.Store.Service

/-! Looking up functions by name. The earliest module that exports a name answers for it, and what it answers depends on
the export and on whether the imports of that module are linked. A function that was found is found again for as long as
the store lasts. -/

namespace WasmBinding

open Wasm (Bytes)

namespace LoadedModule

def Exports (m : LoadedModule) (name : String) : Prop := ∃ e ∈ m.inst.module.exports, e.name = name

theorem export?_eq_none_iff {m : LoadedModule} {name : String} : m.inst.module.export? name = none ↔ ¬ m.Exports name := by
  simp [Wasm.Module.export?, Exports]

theorem exports_of_shape {m after : LoadedModule} {name : String} (same : after.shape = m.shape) :
    after.Exports name ↔ m.Exports name := by
  have module : after.inst.module = m.inst.module := congrArg Prod.fst same
  rw [Exports, Exports, module]

end LoadedModule

namespace Store

variable {σ : Type} {s t : Store σ}

/-- Whether some function import of a module has no target. -/
def Unlinked (s : Store σ) (k : Nat) : Prop := ∃ slot ∈ s.imports, slot.module = k ∧ slot.target = none

theorem unlinked_iff : s.Unlinked k ↔ ¬ s.linked k = true := by
  simp only [Unlinked, linked, Bool.not_eq_true, List.all_eq_false, Bool.or_eq_true, bne_iff_ne, ne_eq, not_or,
    Decidable.not_not, Option.isSome_eq_false_iff, Option.isNone_iff_eq_none]

/-- The earliest loaded module with an export of a name, by its number, and that export. -/
structure First (s : Store σ) (name : String) (k : Nat) (m : LoadedModule) (e : Wasm.Export) : Prop where
  module : s.modules[k]? = some m
  exported : e ∈ m.inst.module.exports
  named : e.name = name
  earlier : ∀ j < k, ∀ before, s.modules[j]? = some before → ¬ before.Exports name

/-- What the lookup of an export has to answer. -/
structure Lookup (s : Store σ) (k : Nat) (m : LoadedModule) (e : Wasm.Export)
    (answer : Except Fault (Option Function)) : Prop where
  other : answer = .ok none ↔ e.kind ≠ .func
  missing : answer = .error .importMissing ↔ e.kind = .func ∧ s.Unlinked k
  function : e.kind = .func → ¬ s.Unlinked k → ∃ type, m.inst.module.funcType? e.index = some type ∧
    answer = .ok (some ⟨k, e.index, type.params.map (·.tag), type.results.map (·.tag)⟩)

/-- Some module is the first that exports a name, unless none does. -/
theorem first_or_none (s : Store σ) (name : String) :
    (∃ k m e, s.First name k m e) ∨ ∀ m ∈ s.modules, ¬ m.Exports name := by
  cases first : s.modules.findIdx? fun m => (m.inst.module.export? name).isSome with
  | none =>
    right
    intro m among
    have absent := List.findIdx?_eq_none_iff.mp first m among
    simpa [LoadedModule.export?_eq_none_iff] using absent
  | some k =>
    left
    obtain ⟨inside, exported, earlier⟩ := List.findIdx?_eq_some_iff_getElem.mp first
    obtain ⟨e, exported⟩ := Option.isSome_iff_exists.mp exported
    have named := List.find?_some exported
    refine ⟨k, s.modules[k], e, List.getElem?_eq_getElem inside, List.mem_of_find?_eq_some exported,
      beq_iff_eq.mp named, ?_⟩
    intro j before m found
    obtain ⟨_, rfl⟩ := List.getElem?_eq_some_iff.mp found
    have absent := earlier j before
    simpa [LoadedModule.export?_eq_none_iff] using absent

theorem findFunction_of_none (absent : ∀ m ∈ s.modules, ¬ m.Exports name) :
    s.findFunction name = .error .lookupFailed := by
  unfold findFunction
  dsimp only
  rw [List.findSome?_eq_none_iff.mpr]
  · rfl
  · rintro ⟨m, k⟩ among
    have among := List.mem_of_getElem? (List.mk_mem_zipIdx_iff_getElem?.mp among)
    simp only [LoadedModule.export?_eq_none_iff.mpr (absent m among), Option.map_none]

/-- A search of a list, element by element with their positions, ends at the first for which there is something. -/
theorem findSome?_zipIdx {α β : Type} {l : List α} {a : α} {b : β} {f : α × Nat → Option β} (found : l[k]? = some a)
    (here : f (a, k) = some b) (earlier : ∀ j < k, ∀ c, l[j]? = some c → f (c, j) = none) :
    l.zipIdx.findSome? f = some b := by
  obtain ⟨inside, at_place⟩ := List.getElem?_eq_some_iff.mp found
  have split : l = l.take k ++ a :: l.drop (k + 1) := by
    rw [← at_place, List.getElem_cons_drop, List.take_append_drop]
  have length : (l.take k).length = k := List.length_take_of_le (Nat.le_of_lt inside)
  have before : (l.take k).zipIdx.findSome? f = none := by
    apply List.findSome?_eq_none_iff.mpr
    rintro ⟨c, j⟩ among
    obtain ⟨inside, _⟩ := List.mem_zipIdx' among
    rw [length] at inside
    have found := List.mk_mem_zipIdx_iff_getElem?.mp among
    rw [List.getElem?_take_of_lt inside] at found
    exact earlier j inside c found
  rw [split, List.zipIdx_append, List.findSome?_append, before, length, Nat.zero_add, List.zipIdx_cons,
    List.findSome?_cons, here, Option.none_or]

theorem First.findFunction {m : LoadedModule} (first : s.First name k m e) (checked : m.inst.module.Checked) :
    s.findFunction name = s.findModuleFunction k name := by
  have exported : m.inst.module.export? name = some e := first.named ▸ checked.names e first.exported
  unfold Store.findFunction
  dsimp only
  rw [findSome?_zipIdx first.module]
  case here => rw [exported, Option.map_some]
  case earlier =>
    intro j before c found
    rw [LoadedModule.export?_eq_none_iff.mpr (first.earlier j before c found), Option.map_none]
  rw [Option.getD_some, findModuleFunction, first.module]
  simp only [exported]

/-- A lookup in a module answers for the export of the name. -/
theorem answer_findModuleFunction {m : LoadedModule} (checked : m.inst.module.Checked)
    (found : s.modules[k]? = some m) (exported : e ∈ m.inst.module.exports) (named : e.name = name) :
    s.Lookup k m e (s.findModuleFunction k name) := by
  have first : m.inst.module.export? name = some e := named ▸ checked.names e exported
  by_cases func : e.kind = .func
  · obtain ⟨type, known⟩ := checked.funcType? exported func
    rw [findModuleFunction_of_export found first func known]
    by_cases linked : s.linked k = true
    · have all : ¬ s.Unlinked k := fun some => unlinked_iff.mp some linked
      rw [if_pos linked]
      exact ⟨by simp [func], by simp [all], fun _ _ => ⟨type, known, rfl⟩⟩
    · have some : s.Unlinked k := unlinked_iff.mpr linked
      rw [if_neg linked]
      exact ⟨by simp [func], by simp [func, some], fun _ all => absurd some all⟩
  · have answer : s.findModuleFunction k name = .ok none := by
      simp only [findModuleFunction, found, first, resolve, if_pos func]
    rw [answer]
    exact ⟨by simp [func], by simp [func], fun func' => absurd func' func⟩

theorem Lookup.ne_lookupFailed {m : LoadedModule} (answer : s.Lookup k m e r) : r ≠ .error .lookupFailed := by
  rintro rfl
  by_cases func : e.kind = .func
  · by_cases some : s.Unlinked k
    · cases answer.missing.mpr ⟨func, some⟩
    · obtain ⟨_, _, same⟩ := answer.function func some
      cases same
  · cases answer.other.mpr func

theorem findModuleFunction_some (h : s.findModuleFunction k name = .ok (some f)) :
    f.module = k ∧ ∃ m e, s.modules[k]? = some m ∧ m.inst.module.export? name = some e ∧
      s.resolve k m e = .ok (some f) := by
  simp only [findModuleFunction] at h
  split at h
  · contradiction
  · rename_i m found
    split at h
    · contradiction
    · rename_i e exported
      obtain ⟨_, type, _, rfl⟩ := resolve_some h
      exact ⟨rfl, m, e, found, exported, h⟩

theorem findModuleFunction_stays (keeps : s.Keeps t) (links : s.linked k = true → t.linked k = true)
    (h : s.findModuleFunction k name = .ok (some f)) : t.findModuleFunction k name = .ok (some f) := by
  obtain ⟨_, m, e, found, exported, resolved⟩ := findModuleFunction_some h
  obtain ⟨after, found', same⟩ := keeps k m found
  have module : after.inst.module = m.inst.module := congrArg Prod.fst same
  have linked := links (resolve_some resolved).1
  simp only [findModuleFunction, found', module, exported]
  simp only [resolve, (resolve_some resolved).1, linked, module] at resolved ⊢
  exact resolved

theorem First.keeps {m : LoadedModule} (first : s.First name k m e) (keeps : s.Keeps t) :
    ∃ after, t.First name k after e ∧ after.inst.module = m.inst.module := by
  obtain ⟨after, found, same⟩ := keeps k m first.module
  have module : after.inst.module = m.inst.module := congrArg Prod.fst same
  refine ⟨after, ⟨found, module ▸ first.exported, first.named, ?_⟩, module⟩
  intro j inside later there
  have old : j < s.modules.length := Nat.lt_trans inside (List.getElem?_eq_some_iff.mp first.module).1
  obtain ⟨later', there', same⟩ := keeps j _ (List.getElem?_eq_getElem old)
  cases there.symm.trans there'
  rw [LoadedModule.exports_of_shape same]
  exact first.earlier j inside _ (List.getElem?_eq_getElem old)

theorem Use.linked (use : s.Use calls t) (inside : k < s.modules.length) (linked : s.linked k = true) :
    t.linked k = true := by
  rcases use.cases with continues | ⟨_, _, _, gained⟩ | ⟨slot, target, rfl⟩
  · rw [Store.linked, continues.imports]
    exact linked
  · exact linked_gained gained inside linked
  · exact linked_setTarget linked slot target

end Store

namespace Service

variable {σ : Type} {v w : Service σ}

theorem Reachable.parsed (reached : v.Reachable) : v.store.Parsed := by
  induction reached with
  | new created steps =>
    rw [Store.new_ok created]
    exact .of_empty rfl
  | serve _ r _ ih => exact (use_serve _ r).parsed ih

theorem Reachable.findFunction_first {m : LoadedModule} (reached : v.Reachable) (first : v.store.First name k m e) :
    v.store.findFunction name = v.store.findModuleFunction k name ∧
      v.store.Lookup k m e (v.store.findModuleFunction k name) := by
  have checked := reached.parsed.checked _ (Store.mem_loaded first.module)
  exact ⟨first.findFunction checked, Store.answer_findModuleFunction checked first.module first.exported first.named⟩

theorem Reachable.findFunction_eq_lookupFailed_iff (reached : v.Reachable) (name : String) :
    v.store.findFunction name = .error .lookupFailed ↔ ∀ m ∈ v.store.modules, ¬ m.Exports name := by
  constructor
  · intro failed
    rcases v.store.first_or_none name with ⟨k, m, e, first⟩ | absent
    · obtain ⟨same, answer⟩ := reached.findFunction_first first
      exact absurd (same.symm.trans failed) answer.ne_lookupFailed
    · exact absent
  · exact Store.findFunction_of_none

theorem Leads.findModuleFunction {may : Service σ → Request σ → Prop} (leads : v.Leads may w)
    (found : v.store.findModuleFunction k name = .ok (some f)) :
    w.store.findModuleFunction k name = .ok (some f) := by
  induction leads with
  | refl => exact found
  | @serve u leads r may ih =>
    have use := use_serve u r
    obtain ⟨_, m, _, there, _⟩ := Store.findModuleFunction_some ih
    exact Store.findModuleFunction_stays use.keeps (use.linked (List.getElem?_eq_some_iff.mp there).1) ih

theorem Leads.keeps {may : Service σ → Request σ → Prop} (leads : v.Leads may w) : v.store.Keeps w.store := by
  induction leads with
  | refl => exact .refl _
  | serve leads r may ih => exact ih.trans (use_serve _ r).keeps

theorem Leads.findFunction (reached : v.Reachable) (leads : v.Leads Allows w)
    (found : v.store.findFunction name = .ok (some f)) : w.store.findFunction name = .ok (some f) := by
  rcases v.store.first_or_none name with ⟨k, m, e, first⟩ | absent
  · rw [(reached.findFunction_first first).1] at found
    obtain ⟨after, first', _⟩ := first.keeps leads.keeps
    rw [((leads.reachable (fun _ _ allowed => allowed) reached).findFunction_first first').1]
    exact leads.findModuleFunction found
  · rw [Store.findFunction_of_none absent] at found
    contradiction

/-- A lookup by name follows load order: the earliest module with an export of the name answers as it does when it is asked
itself, and only if there is none the lookup fails for that. A function that was found, by name alone or in a module, is found
again after whatever is done with the store, and its module still has the same code. -/
theorem lookup_in_load_order (reached : v.Reachable) (name : String) :
    (v.store.findFunction name = .error .lookupFailed ↔ ∀ m ∈ v.store.modules, ¬ m.Exports name) ∧
    ((∃ m ∈ v.store.modules, m.Exports name) → ∃ k m e, v.store.First name k m e) ∧
    (∀ k m e, v.store.First name k m e →
      v.store.findFunction name = v.store.findModuleFunction k name ∧
        v.store.Lookup k m e (v.store.findModuleFunction k name)) ∧
    ∀ f w, v.Leads Allows w →
      (v.store.findFunction name = .ok (some f) → w.store.findFunction name = .ok (some f)) ∧
      (∀ k, v.store.findModuleFunction k name = .ok (some f) → w.store.findModuleFunction k name = .ok (some f)) ∧
      (v.store.Resolves f → ∃ m after, v.store.modules[f.module]? = some m ∧ w.store.modules[f.module]? = some after ∧
        after.inst.module = m.inst.module) := by
  refine ⟨reached.findFunction_eq_lookupFailed_iff name, ?_, ?_, ?_⟩
  · rintro ⟨m, among, exports⟩
    rcases v.store.first_or_none name with first | absent
    · exact first
    · exact absurd exports (absent m among)
  · intro k m e first
    exact reached.findFunction_first first
  · intro f w leads
    refine ⟨leads.findFunction reached, fun k found => leads.findModuleFunction found, ?_⟩
    intro resolves
    obtain ⟨m, _, offers⟩ := resolves.offers
    obtain ⟨after, found, same⟩ := leads.keeps _ m offers.module
    exact ⟨m, after, offers.module, found, congrArg Prod.fst same⟩

end Service

namespace Shadow

/-- Exports `r`, which answers a number. -/
def binary (number : UInt8) : Bytes :=
  [0x00, 0x61, 0x73, 0x6d, 0x01, 0x00, 0x00, 0x00,
    0x01, 0x05, 0x01, 0x60, 0x00, 0x01, 0x7f,
    0x03, 0x02, 0x01, 0x00,
    0x07, 0x05, 0x01, 0x01, 0x72, 0x00, 0x00,
    0x0a, 0x06, 0x01, 0x04, 0x00, 0x41, number, 0x0b]

def load (number : UInt8) : Request Nat := .load Sample.service.store.environment (binary number)

def service : Service Nat := (Sample.service.serve (load 5)).serve (load 6)

theorem reachable : service.Reachable := (Sample.reachable_service.serve (load 5) trivial).serve (load 6) trivial

def function : Function := ⟨0, 0, [], [.i32]⟩

theorem loaded : 0 < service.store.modules.length := by decide +kernel

def module : LoadedModule := service.store.modules.get ⟨0, loaded⟩

theorem exported : ⟨"r", .func, 0⟩ ∈ module.inst.module.exports := by decide +kernel

theorem first : service.store.First "r" 0 module ⟨"r", .func, 0⟩ where
  module := List.getElem?_eq_getElem loaded
  exported := exported
  named := rfl
  earlier j before := absurd before (Nat.not_lt_zero j)

theorem found : service.store.findModuleFunction 0 "r" = .ok (some function) := by rfl

end Shadow

/-- A third module with the name does not hide the function of the first either. -/
theorem lookup_in_load_order_shadow :
    Shadow.service.store.findFunction "r" = .ok (some Shadow.function) ∧
      (Shadow.service.serve (Shadow.load 7)).store.findFunction "r" = .ok (some Shadow.function) := by
  obtain ⟨_, _, answers, stays⟩ := Service.lookup_in_load_order Shadow.reachable "r"
  have found := (answers _ _ _ Shadow.first).1.trans Shadow.found
  have leads : Shadow.service.Leads Service.Allows (Shadow.service.serve (Shadow.load 7)) := .serve .refl _ trivial
  exact ⟨found, (stays _ _ leads).1 found⟩

end WasmBinding
