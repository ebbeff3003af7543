import WasmBinding.Proofs.Host.Linking

/-! Resolution. A lookup gives out a function only while every import of its module has a target, and then no call of it
ever reaches one that has none. Imports of one name share one link, which only the first of them gets. -/

namespace WasmBinding

open Wasm (ImportCall)

/-- The names of the functions that a module of a number imports, with repetitions. -/
def importNames (k : Nat) (w : Wasm.Module) : List ImportName := (funcImports w.imports).map fun (i, _) => ⟨k, i.ns, i.name⟩

theorem map_importName_slotsFor {σ : Type} (k : Nat) (w : Wasm.Module) :
    (slotsFor (σ := σ) k w w.imports).map ImportSlot.importName = importNames k w := by
  rw [slotsFor, List.map_map]
  rfl

namespace Store

variable {σ : Type} {s t : Store σ} {name : ImportName}

/-- The names on the slots of a loaded module are those of its imports. -/
theorem Wired.names {m : LoadedModule} (wired : s.Wired) (found : s.modules[k]? = some m) :
    (s.imports.filter (·.module == k)).map ImportSlot.importName = importNames k m.inst.module := by
  calc (s.imports.filter (·.module == k)).map ImportSlot.importName
    _ = ((s.imports.filter (·.module == k)).map ImportSlot.cleared).map ImportSlot.importName := by
      rw [List.map_map]
      rfl
    _ = importNames k m.inst.module := by rw [wired.own found, map_importName_slotsFor]

/-- The first slot of an import has a target. -/
def Answers (s : Store σ) (name : ImportName) : Prop :=
  ∃ place slot, s.imports.findIdx? (·.importName == name) = some place ∧ s.imports[place]? = some slot ∧
    slot.target.isSome = true

theorem Answers.append (answers : s.Answers name) (imports : t.imports = s.imports ++ more) : t.Answers name := by
  obtain ⟨place, slot, first, found, linked⟩ := answers
  refine ⟨place, slot, ?_, ?_, linked⟩
  · rw [imports, List.findIdx?_append, first, Option.some_or]
  · have inside := (List.getElem?_eq_some_iff.mp found).1
    rw [imports, List.getElem?_append_left inside, found]

theorem setTarget_self (found : s.imports[here]? = some slot) (target : Target σ) :
    (s.setTarget here target).imports[here]? = some { slot with target := some target } := by
  simp [setTarget, found]

theorem setTarget_ne {here place : Nat} (other : place ≠ here) (s : Store σ) (target : Target σ) :
    (s.setTarget here target).imports[place]? = s.imports[place]? := by
  simp [setTarget, other.symm]

theorem Answers.setTarget (answers : s.Answers name) (here : Nat) (target : Target σ) :
    (s.setTarget here target).Answers name := by
  obtain ⟨place, slot, first, found, linked⟩ := answers
  rw [← findIdx?_setTarget s here target] at first
  by_cases same : place = here
  · subst same
    exact ⟨place, _, first, setTarget_self found target, rfl⟩
  · exact ⟨place, slot, first, (setTarget_ne same s target).trans found, linked⟩

end Store

namespace Session

variable {σ : Type} {s t : Session σ} {f : FunctionRef} {args : List Scalar} {call : ImportCall (Linked σ)}

theorem Reachable.parsed (reached : s.Reachable) : s.host.store.Parsed := by
  induction reached with
  | new created steps =>
    rw [Host.new_ok created]
    exact .of_empty rfl
  | @perform before reached op allowed ih =>
    cases effect_perform before op with
    | used host links => exact ih.continues host.store
    | loaded gained host links parsed => exact ih.gained gained parsed
    | linked linked links =>
      obtain ⟨_, _, host⟩ := Host.link_ok linked
      rw [host]
      exact ih

/-- An import that has once been linked has a target from then on. -/
theorem Reachable.answers (reached : s.Reachable) : ∀ name g, (name, g) ∈ s.links → s.host.store.Answers name := by
  induction reached with
  | new created steps =>
    intro name g among
    cases among
  | @perform before reached op allowed ih =>
    intro name g among
    cases effect_perform before op with
    | used host links =>
      rw [links] at among
      have imports : (before.perform op).host.store.imports = before.host.store.imports ++ [] := by
        rw [host.store.imports, List.append_nil]
      exact (ih name g among).append imports
    | loaded gained host links =>
      rw [links] at among
      exact (ih name g among).append gained.imports
    | linked linked links =>
      obtain ⟨here, found, host⟩ := Host.link_ok linked
      obtain ⟨first, slot, placed, named, _⟩ := Store.findImport_ok found
      rw [host]
      rw [links] at among
      rcases List.mem_cons.mp among with new | old
      · cases new
        exact ⟨here, _, (Store.findIdx?_setTarget ..).trans first, Store.setTarget_self placed _, rfl⟩
      · exact (ih name g old).setTarget here _

/-- If all slots of a module have targets, each is the first of its name, and its name was linked. -/
theorem Coherent.backed_of_linked (coherent : s.Coherent) (linked : s.host.store.linked k = true)
    (inside : place < s.host.store.imports.length) (own : s.host.store.imports[place].module = k) :
    s.host.store.imports.findIdx? (·.importName == s.host.store.imports[place].importName) = some place ∧
      ∃ g, (s.host.store.imports[place].importName, g) ∈ s.links := by
  have answered := Store.linked_iff.mp linked _ (List.getElem_mem inside) own
  obtain ⟨target, answered⟩ := Option.isSome_iff_exists.mp answered
  obtain ⟨first, key, g, known, got, _⟩ :=
    coherent.backed place _ target (List.getElem?_eq_getElem inside) answered
  have latest : s.latest s.host.store.imports[place].importName = some g := by
    rw [← coherent.latest, Registry.find?, known, Option.bind_some, got]
  obtain ⟨before, after, links, _⟩ := List.lookup_eq_some_iff.mp latest
  exact ⟨first, g, links ▸ List.mem_append_right before List.mem_cons_self⟩

/-- If no two slots of a module have one name, those whose names were linked have targets. -/
theorem Reachable.target_of_link {slot : ImportSlot (Linked σ)} (reached : s.Reachable)
    (apart : s.host.store.imports.Pairwise fun a b => a.module = k → b.module = k → a.importName ≠ b.importName)
    (among : slot ∈ s.host.store.imports) (own : slot.module = k) (link : (slot.importName, g) ∈ s.links) :
    slot.target.isSome = true := by
  obtain ⟨place, first, found, placed, answered⟩ := reached.answers _ g link
  obtain ⟨inside, same, foremost⟩ := List.findIdx?_eq_some_iff_getElem.mp found
  obtain ⟨here, insideHere, rfl⟩ := List.mem_iff_getElem.mp among
  have same := beq_iff_eq.mp same
  have module : s.host.store.imports[place].module = k := (congrArg ImportName.module same).trans own
  -- The slot is the first of its name, for an earlier one would have the same number.
  rcases Nat.lt_trichotomy place here with before | rfl | after
  · exact absurd same (List.pairwise_iff_getElem.mp apart place here inside insideHere before module own)
  · cases (List.getElem?_eq_getElem inside).symm.trans placed
    exact answered
  · exact absurd (beq_self_eq_true _) (foremost here after)

/-- All imports of a module have targets exactly if each of them was linked and no two have one name. -/
theorem Reachable.linked_iff {m : LoadedModule} (reached : s.Reachable) (found : s.host.store.modules[k]? = some m) :
    s.host.store.linked k = true ↔
      (∀ i ∈ importNames k m.inst.module, ∃ g, (i, g) ∈ s.links) ∧ (importNames k m.inst.module).Nodup := by
  have coherent := reached.coherent
  rw [← coherent.wired.names found, List.Nodup, List.pairwise_map, List.pairwise_filter]
  simp only [List.mem_map, List.mem_filter, beq_iff_eq]
  constructor
  · intro linked
    constructor
    · rintro i ⟨slot, ⟨among, own⟩, rfl⟩
      obtain ⟨place, inside, rfl⟩ := List.mem_iff_getElem.mp among
      exact (coherent.backed_of_linked linked inside own).2
    · refine List.pairwise_iff_getElem.mpr fun p q insideP insideQ before ownP ownQ same => ?_
      have firstP := (coherent.backed_of_linked linked insideP ownP).1
      have firstQ := (coherent.backed_of_linked linked insideQ ownQ).1
      rw [same, firstQ] at firstP
      exact Nat.ne_of_gt before (Option.some.inj firstP)
  · rintro ⟨links, apart⟩
    refine Store.linked_iff.mpr fun slot among own => ?_
    obtain ⟨g, link⟩ := links _ ⟨slot, ⟨among, own⟩, rfl⟩
    exact reached.target_of_link apart among own link

/-- A handle whose module has a target for every import. -/
structure Resolved (s : Session σ) (f : FunctionRef) : Prop where
  issued : s.Issued f
  linked : s.host.store.linked f.function.module = true

theorem Found.resolved (found : s.Found f) : s.Resolved f := ⟨found.issued, found.2.linked⟩

theorem Resolved.effect (resolved : s.Resolved f) (h : Effect s t) : t.Resolved f where
  issued := resolved.issued.effect h
  linked := by
    cases h with
    | used host links =>
      rw [Store.linked, host.store.imports]
      exact resolved.linked
    | loaded gained host links =>
      obtain ⟨_, m, type, offers⟩ := resolved.issued
      exact Store.linked_gained gained (List.getElem?_eq_some_iff.mp offers.module).1 resolved.linked
    | linked linked links =>
      obtain ⟨here, _, host⟩ := Host.link_ok linked
      rw [host]
      exact Store.linked_setTarget resolved.linked here _

theorem Reachable.resolved (reached : s.Reachable) : ∀ f ∈ s.functions, s.Resolved f := by
  induction reached with
  | new created steps => simp
  | @perform before reached op allowed ih =>
    intro f among
    have effect := effect_perform before op
    rcases mem_functions_perform among with old | new
    · exact (ih f old).effect effect
    · exact new.resolved.effect effect

theorem Resolved.target {m : LoadedModule} (resolved : s.Resolved f)
    (reaches : s.host.store.Reaches f.function call m stub slot i type) : slot.target.isSome = true := by
  have own : slot.module = f.function.module := congrArg ImportSlot.module reaches.made
  exact Store.linked_iff.mp resolved.linked slot (List.mem_of_getElem? reaches.placed) own

/-- A session that comes of another by further operations. -/
inductive Leads (s : Session σ) : Session σ → Prop
  | refl : Leads s s
  | perform {t : Session σ} (leads : Leads s t) (op : Operation σ) (allowed : t.Allows op) : Leads s (t.perform op)

theorem Leads.reachable (leads : s.Leads t) (reached : s.Reachable) : t.Reachable := by
  induction leads with
  | refl => exact reached
  | perform leads op allowed ih => exact ih.perform op allowed

theorem Leads.resolved (leads : s.Leads t) (resolved : s.Resolved f) : t.Resolved f := by
  induction leads with
  | refl => exact resolved
  | perform leads op allowed ih => exact ih.effect (effect_perform _ op)

theorem reaches_target (reached : s.Reachable) (resolved : s.Resolved f) (made : call ∈ s.host.importCalls f args) :
    ∃ m stub slot i type, s.host.store.Reaches f.function call m stub slot i type ∧ slot.target.isSome = true := by
  obtain ⟨m, stub, slot, i, type, reaches⟩ :=
    Store.importCalls_reach reached.coherent.wired (Host.mem_importCalls made).2
  exact ⟨m, stub, slot, i, type, reaches, resolved.target reaches⟩

/-- What it takes to use a module: its exported functions can be looked up exactly if each of its imports was linked with
success at some time and no two of them have one name. From then on no call of such a function reaches an import without
a target. -/
theorem usable_iff {m : LoadedModule} {e : Wasm.Export} (reached : s.Reachable)
    (found : s.host.store.modules[k]? = some m) (exported : e ∈ m.inst.module.exports) (func : e.kind = .func) :
    ((∃ f, s.host.findModuleFunction ⟨s.host.id, k⟩ e.name = .ok f) ↔
      (∀ i ∈ importNames k m.inst.module, ∃ g, (i, g) ∈ s.links) ∧ (importNames k m.inst.module).Nodup) ∧
    ∀ f, s.host.findModuleFunction ⟨s.host.id, k⟩ e.name = .ok f →
      ∀ t, s.Leads t → ∀ args, ∀ call ∈ t.host.importCalls f args, ∃ m stub slot i type,
        t.host.store.Reaches f.function call m stub slot i type ∧ slot.target.isSome = true := by
  have loaded : m.inst.module ∈ s.host.store.loaded := List.mem_map_of_mem (List.mem_of_getElem? found)
  have checked := reached.parsed.checked _ loaded
  obtain ⟨type, known⟩ := checked.funcType? exported func
  have looked := Store.findModuleFunction_of_export found (checked.names e exported) func known
  refine ⟨?_, fun f got t leads args call made => ?_⟩
  · rw [← reached.linked_iff found]
    constructor
    · rintro ⟨f, got⟩
      have answered := (Host.findModuleFunction_ok.mp got).2.2
      rw [looked] at answered
      split at answered
      · assumption
      · contradiction
    · intro linked
      rw [if_pos linked] at looked
      exact ⟨⟨s.host.id, _⟩, Host.findModuleFunction_ok.mpr ⟨rfl, rfl, looked⟩⟩
  · have resolved := (found_of_findModuleFunction got).resolved
    exact reaches_target (leads.reachable reached) (leads.resolved resolved) made

end Session

theorem exists_module_of_facts {σ : Type} {s : Session σ} {exports : List Wasm.Export}
    (facts : s.host.store.modules[k]?.map (fun m => (importNames k m.inst.module, m.inst.module.exports)) =
      some (names, exports)) :
    ∃ m, s.host.store.modules[k]? = some m ∧ importNames k m.inst.module = names ∧
      m.inst.module.exports = exports := by
  obtain ⟨m, found, both⟩ := Option.map_eq_some_iff.mp facts
  exact ⟨m, found, Prod.mk.inj both⟩

theorem exists_link {σ : Type} {s : Session σ} (among : i ∈ s.links.map (·.1)) : ∃ g, (i, g) ∈ s.links := by
  obtain ⟨⟨_, g⟩, linked, rfl⟩ := List.mem_map.mp among
  exact ⟨g, linked⟩

theorem usable_iff_relay : ∃ f, Relay.session.host.findModuleFunction ⟨0, 0⟩ "r" = .ok f := by
  obtain ⟨m, found, imports, exports⟩ : ∃ m, Relay.session.host.store.modules[0]? = some m ∧
      importNames 0 m.inst.module = [⟨0, "e", "f"⟩] ∧ m.inst.module.exports = [⟨"r", .func, 1⟩] :=
    exists_module_of_facts (by decide +kernel)
  have links : Relay.session.links.map (·.1) = [⟨0, "e", "f"⟩, ⟨0, "e", "f"⟩] := by decide +kernel
  have usable := Session.usable_iff Relay.reachable found (exports ▸ List.mem_singleton_self _) rfl
  refine usable.1.mpr ⟨fun i among => exists_link ?_, by rw [imports]; decide⟩
  rw [imports] at among
  rw [links]
  exact List.mem_cons_of_mem _ among

namespace Twice

/-- Imports `e.f`, which takes and answers nothing, two times, and exports `r`, which does nothing. -/
def binary : Wasm.Bytes :=
  [0x00, 0x61, 0x73, 0x6d, 0x01, 0x00, 0x00, 0x00,
    0x01, 0x04, 0x01, 0x60, 0x00, 0x00,
    0x02, 0x0d, 0x02, 0x01, 0x65, 0x01, 0x66, 0x00, 0x00, 0x01, 0x65, 0x01, 0x66, 0x00, 0x00,
    0x03, 0x02, 0x01, 0x00,
    0x07, 0x05, 0x01, 0x01, 0x72, 0x00, 0x02,
    0x0a, 0x04, 0x01, 0x02, 0x00, 0x0b]

def idle : HostFunction Nat where
  params := []
  result := none
  body := .plain fun _ count => (count, some ())

def session : Session Nat :=
  (Sample.start.perform (.parseAndLoad binary)).perform (.link ⟨0, 0⟩ "e" "f" idle)

theorem reachable : session.Reachable :=
  (Sample.reachable_start.perform (.parseAndLoad binary) trivial).perform (.link ⟨0, 0⟩ "e" "f" idle) trivial

end Twice

/-- Everything that the module imports is linked, but the function that it exports cannot be looked up. -/
theorem twice_imported_unusable :
    Twice.session.Reachable ∧ ∃ m, Twice.session.host.store.modules[0]? = some m ∧
      (∀ i ∈ importNames 0 m.inst.module, ∃ g, (i, g) ∈ Twice.session.links) ∧
      ∃ e ∈ m.inst.module.exports, e.kind = .func ∧
        Twice.session.host.findModuleFunction ⟨0, 0⟩ e.name = .error .missingImport := by
  obtain ⟨m, found, imports, exports⟩ : ∃ m, Twice.session.host.store.modules[0]? = some m ∧
      importNames 0 m.inst.module = [⟨0, "e", "f"⟩, ⟨0, "e", "f"⟩] ∧ m.inst.module.exports = [⟨"r", .func, 2⟩] :=
    exists_module_of_facts (by decide +kernel)
  have links : Twice.session.links.map (·.1) = [⟨0, "e", "f"⟩] := by decide +kernel
  refine ⟨Twice.reachable, m, found, fun i among => exists_link ?_, ⟨"r", .func, 2⟩, by simp [exports], rfl, rfl⟩
  rw [imports] at among
  rw [links]
  simpa using among

end WasmBinding
