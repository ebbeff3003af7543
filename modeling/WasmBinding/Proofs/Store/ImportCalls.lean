import WasmBinding.Proofs.Store.SharedMemory
import WasmBinding.Proofs.Wasm.Values

/-! The calls of imported functions that happen while a function runs that was called from outside. Each goes through a
stub of the module to a slot that was made for the import, with arguments of its types. -/

namespace WasmBinding

open Wasm (ImportCall HostReply Value)

namespace Store

variable {σ : Type} {s t : Store σ} {call : ImportCall σ}

/-- The calls of imported functions that a call makes, in order. -/
def importCalls (s : Store σ) (f : Function) (args : List Slot) : List (ImportCall σ) :=
  match s.modules[f.module]?, f.values args with
  | some m, .ok values => (s.stateOf m).importCalls (s.hostCall m f.index) s.budget f.index values
  | _, _ => []

def answer (s : Store σ) (m : LoadedModule) (f : Function) (call : ImportCall σ) : HostReply σ :=
  s.hostCall m f.index call.index call.args call.state.memories call.state.user

theorem mem_importCalls (made : call ∈ s.importCalls f args) :
    ∃ m values, s.modules[f.module]? = some m ∧ f.values args = .ok values ∧
      call ∈ (s.stateOf m).importCalls (s.hostCall m f.index) s.budget f.index values := by
  unfold importCalls at made
  split at made
  · rename_i m values found given
    exact ⟨m, values, found, given, made⟩
  · simp at made

theorem importCalls_layout {m : LoadedModule} (found : s.modules[f.module]? = some m)
    (made : call ∈ s.importCalls f args) : (s.stateOf m).SameLayout call.state := by
  obtain ⟨m', values, found', _, made⟩ := mem_importCalls made
  cases found.symm.trans found'
  have kept : Wasm.Kept (s.hostCall m f.index) (s.stateOf m).SameLayout :=
    Wasm.State.SameLayout.kept size_dispatch _
  exact kept.importCalls_call _ _ _ (.refl _) call made

/-- What all linked functions keep of their state holds of it at the call. -/
theorem importCalls_host {P : σ → Prop}
    (keeps : ∀ slot ∈ s.imports, ∀ target, slot.target = some target →
      ∀ call host, P host → P (target.function call host).host)
    (holds : P s.host) (made : call ∈ s.importCalls f args) : P call.state.user := by
  obtain ⟨m, values, _, _, made⟩ := mem_importCalls made
  have kept : Wasm.Kept (s.hostCall m f.index) fun state => P state.user :=
    { change := fun holds change => change.user_eq ▸ holds
      answer := fun index args _ holds => user_dispatch keeps index args _ _ holds }
  exact kept.importCalls_call _ _ _ holds call made

theorem importCalls_imported {m : LoadedModule} (found : s.modules[f.module]? = some m)
    (made : call ∈ s.importCalls f args) : call.index < m.inst.module.importedFuncs.length := by
  have module : call.state.inst.module = m.inst.module := (importCalls_layout found made).module
  obtain ⟨_, _, _, _, made⟩ := mem_importCalls made
  exact module ▸ Wasm.State.importCalls_imported made

/-- Where a call of an imported function goes: through a stub to the slot that was made for the import. -/
structure Reaches (s : Store σ) (f : Function) (call : ImportCall σ) (m : LoadedModule) (stub : Stub)
    (slot : ImportSlot σ) (i : Wasm.Import) (type : Nat) : Prop where
  found : s.modules[f.module]? = some m
  bound : m.stubs[call.index]? = some stub
  placed : s.imports[stub.slot]? = some slot
  imported : (funcImports m.inst.module.imports)[call.index]? = some (i, type)
  made : slot.cleared = .unlinked f.module i (m.inst.module.types[type]?.getD ⟨[], []⟩)
  results : stub.results = slot.results

theorem importCalls_reach (wired : s.Wired) (made : call ∈ s.importCalls f args) :
    ∃ m stub slot i type, s.Reaches f call m stub slot i type := by
  obtain ⟨m, _, found, _⟩ := mem_importCalls made
  have imported := importCalls_imported found made
  obtain ⟨stub, bound⟩ : ∃ stub, m.stubs[call.index]? = some stub := by
    rw [importedFuncs_eq, List.length_map] at imported
    exact ⟨_, List.getElem?_eq_getElem (by simpa [wired.stubs _ m found, stubsFrom, slotsFor] using imported)⟩
  obtain ⟨slot, i, type, placed, imported, made, results⟩ := wired.slot_of_stub found bound
  exact ⟨m, stub, slot, i, type, found, bound, placed, imported, made, results⟩

theorem Reaches.types {m : LoadedModule} (reaches : s.Reaches f call m stub slot i type)
    (known : m.inst.module.funcType? call.index = some form) :
    slot.params = form.params.map (·.tag) ∧ slot.results = form.results.map (·.tag) := by
  rw [funcType?_of_import reaches.imported] at known
  have made := reaches.made
  rw [known, Option.getD_some] at made
  exact ⟨congrArg ImportSlot.params made, congrArg ImportSlot.results made⟩

theorem tags_of_mapM {args : List Slot} {params : List ValueTag} {values : List Value}
    (length : args.length = params.length)
    (given : (args.zip params).mapM (fun (slot, tag) => Value.ofSlot? slot tag) = some values) :
    values.map (·.type.tag) = params ∧ .unknown ∉ params := by
  induction params generalizing args values with
  | nil =>
    simp only [List.zip_nil_right, List.mapM_nil, Option.pure_def, Option.some.injEq] at given
    simp [← given]
  | cons tag rest ih =>
    cases args with
    | nil => contradiction
    | cons slot slots =>
      simp only [List.zip_cons_cons, List.mapM_cons, Option.bind_eq_bind, Option.bind_eq_some_iff, Option.pure_def,
        Option.some.injEq] at given
      obtain ⟨v, first, vs, others, rfl⟩ := given
      obtain ⟨same, known⟩ := Value.ofSlot?_some first
      obtain ⟨tags, absent⟩ := ih (Nat.succ.inj length) others
      exact ⟨by rw [List.map_cons, same, tags], by simp [known.symm, absent]⟩

/-- Arguments from outside have the types of the parameters, which are those of numbers. -/
theorem values_typed {f : Function} {values : List Value} (given : f.values args = .ok values) :
    values.map (·.type.tag) = f.params ∧ .unknown ∉ f.params := by
  unfold Function.values at given
  split at given
  · contradiction
  · rename_i length
    split at given
    · rename_i carried
      cases given
      exact tags_of_mapM (Decidable.not_not.mp length) carried
    · contradiction

theorem importCalls_typed {m : LoadedModule} (offers : s.Offers f m type) (made : call ∈ s.importCalls f args) :
    call.Typed := by
  obtain ⟨m', values, found, given, made⟩ := mem_importCalls made
  cases offers.module.symm.trans found
  refine Wasm.State.importCalls_typed made fun type' known => ?_
  cases offers.known.symm.trans known
  obtain ⟨tags, absent⟩ := values_typed given
  rw [offers.params] at tags absent
  exact Wasm.types_of_tags tags fun t among unknown => absent (unknown ▸ List.mem_map_of_mem among)

theorem run_of_abort {m : LoadedModule} (found : s.modules[f.module]? = some m)
    (aborted : (s.stateOf m).call (s.hostCall m f.index) s.budget f.index values = (state, .error cause)) :
    s.run f values = (s.commit f.module state, .error (.ofAbort cause)) := by
  simp only [run, found, aborted]

/-- If the embedder fails, so does the call from outside, with the same words and without results, and what the embedder
left behind stays. -/
theorem call_of_failed_import {m : LoadedModule} (found : s.modules[f.module]? = some m)
    (made : call ∈ s.importCalls f args) (failed : (s.answer m f call).results = .error message) :
    ∃ t, s.call f args = (t, .error (.ofAbort (.host message))) ∧ t.results = [] ∧
      t.memories = (s.answer m f call).memories ∧ t.host = (s.answer m f call).user := by
  obtain ⟨m', values, found', given, made⟩ := mem_importCalls made
  cases found.symm.trans found'
  have ran := run_of_abort (s := { s with results := [] }) found (Wasm.State.call_of_failed_import made failed)
  refine ⟨{ s with results := [] }.commit f.module (call.state.answered (s.answer m f call)), ?_, rfl, rfl, rfl⟩
  simp only [Store.call, given, ran]
  rfl

end Store
end WasmBinding
