import WasmBinding.Proofs.Host.Registry
import WasmBinding.Proofs.Host.Session
import WasmBinding.Proofs.Signature
import WasmBinding.Proofs.Store.ImportCalls

/-! Linking. The slots of the store and the registry of the host stay in step, so that a call of an imported function
runs the function that was linked to its import last. -/

namespace WasmBinding

open Wasm (ImportCall)

def ImportSlot.importName {σ : Type} (slot : ImportSlot σ) : ImportName := ⟨slot.module, slot.ns, slot.name⟩

theorem ImportSlot.isFor_eq {σ : Type} (slot : ImportSlot σ) (module : Nat) (ns name : String) :
    slot.isFor module ns name = (slot.importName == ⟨module, ns, name⟩) := by
  rw [Bool.eq_iff_iff]
  simp [isFor, importName, and_assoc]

theorem ImportSlot.importName_cleared {σ : Type} (slot : ImportSlot σ) :
    slot.cleared.importName = slot.importName := rfl

/-- A slot and a typed function with the types that the slot was made for. -/
structure ImportSlot.Fits {σ τ : Type} (slot : ImportSlot σ) (f : HostFunction τ) : Prop where
  params : slot.params = f.params.map ScalarType.tag
  results : slot.results = (f.result.map ScalarType.tag).toList

namespace Store

variable {σ : Type} {s : Store σ}

/-- A link is made to the first slot of the import, and only if the function has exactly its types. -/
theorem findImport_ok {τ : Type} {f : HostFunction τ} (h : s.findImport k ns name f.signature = .ok place) :
    s.imports.findIdx? (·.importName == ⟨k, ns, name⟩) = some place ∧
      ∃ slot, s.imports[place]? = some slot ∧ slot.importName = ⟨k, ns, name⟩ ∧ slot.Fits f := by
  simp only [findImport, ImportSlot.isFor_eq, HostFunction.signature, Signature.parse?_write] at h
  split at h
  · contradiction
  · rename_i first
    split at h
    · rename_i same
      cases h
      obtain ⟨inside, named, _⟩ := List.findIdx?_eq_some_iff_getElem.mp first
      rw [List.getElem?_eq_getElem inside, Option.any_some, ImportSlot.hasSignature, Bool.and_eq_true, beq_iff_eq,
        beq_iff_eq] at same
      exact ⟨first, _, List.getElem?_eq_getElem inside, beq_iff_eq.mp named, same.1.symm, same.2.symm⟩
    · contradiction

/-- Linking changes no slot's import, so that every import has the same first slot as before. -/
theorem findIdx?_setTarget (s : Store σ) (here : Nat) (target : Target σ) (name : ImportName) :
    (s.setTarget here target).imports.findIdx? (·.importName == name) =
      s.imports.findIdx? (·.importName == name) := by
  have by_name (slots : List (ImportSlot σ)) :
      slots.findIdx? (·.importName == name) = (slots.map ImportSlot.cleared).findIdx? (·.importName == name) := by
    rw [List.findIdx?_map]
    rfl
  rw [by_name, cleared_setTarget, ← by_name]

end Store

/-- A linked slot is the first of its import, and its target names a key of the registry under which there is a function
with exactly its types. -/
structure Backed {σ : Type} (slots : List (ImportSlot (Linked σ))) (r : Registry σ) (place : Nat)
    (slot : ImportSlot (Linked σ)) (target : Target (Linked σ)) : Prop where
  first : slots.findIdx? (·.importName == slot.importName) = some place
  backed : ∃ key f, r.key? slot.importName = some key ∧ r.get? key = some f ∧ slot.Fits f ∧
    target = ⟨Registry.contextOfKey key, callLinked⟩

namespace Backed

variable {σ : Type} {slots : List (ImportSlot (Linked σ))} {r : Registry σ} {slot : ImportSlot (Linked σ)}
  {target : Target (Linked σ)}

theorem append (h : Backed slots r place slot target) (more : List (ImportSlot (Linked σ))) :
    Backed (slots ++ more) r place slot target where
  first := by rw [List.findIdx?_append, h.first, Option.some_or]
  backed := h.backed

end Backed

namespace Session

variable {σ : Type} {s t : Session σ}

/-- The slots of the store, the registry and the history of links agree. -/
structure Coherent (s : Session σ) : Prop where
  wired : s.host.store.Wired
  latest : ∀ name, s.host.registry.find? name = s.latest name
  backed : ∀ (place : Nat) (slot : ImportSlot (Linked σ)) (target : Target (Linked σ)),
    s.host.store.imports[place]? = some slot → slot.target = some target →
      Backed s.host.store.imports s.host.registry place slot target

theorem latest_eq (links : t.links = s.links) : t.latest = s.latest := by
  funext name
  rw [latest, links, latest]

namespace Coherent

theorem trampolined (coherent : s.Coherent) : s.host.Trampolined := by
  intro slot among target linked
  obtain ⟨place, found⟩ := List.mem_iff_getElem?.mp among
  obtain ⟨_, _, _, _, _, rfl⟩ := (coherent.backed place slot target found linked).backed
  rfl

theorem used (coherent : s.Coherent) (host : Host.Uses s.host t.host) (links : t.links = s.links) : t.Coherent where
  wired := coherent.wired.continues host.store
  latest name := by
    rw [host.registry coherent.trampolined, latest_eq links]
    exact coherent.latest name
  backed place slot target found linked := by
    rw [host.registry coherent.trampolined, host.store.imports]
    rw [host.store.imports] at found
    exact coherent.backed place slot target found linked

theorem loaded (coherent : s.Coherent) (gained : Store.Gained s.host.store t.host.store w m)
    (links : t.links = s.links) : t.Coherent := by
  have registry := Host.registry_of_gained gained
  refine ⟨coherent.wired.gained gained, fun name => ?_, fun place slot target found linked => ?_⟩
  · rw [registry, latest_eq links]
    exact coherent.latest name
  · rw [gained.imports] at found ⊢
    rw [registry]
    rcases Nat.lt_or_ge place s.host.store.imports.length with old | new
    · rw [List.getElem?_append_left old] at found
      exact (coherent.backed place slot target found linked).append _
    · rw [List.getElem?_append_right new] at found
      have unlinked := mem_slotsFor (List.mem_of_getElem? found)
      rw [unlinked] at linked
      contradiction

theorem linked {m : ModuleRef} {f : HostFunction σ} (coherent : s.Coherent)
    (linked : s.host.link m ns name f = .ok t.host) (links : t.links = (⟨m.index, ns, name⟩, f) :: s.links) :
    t.Coherent := by
  obtain ⟨here, found, host⟩ := Host.link_ok linked
  obtain ⟨first, old, placed, named, fits⟩ := Store.findImport_ok found
  have registry : t.host.registry = s.host.registry.set ⟨m.index, ns, name⟩ f := by
    rw [host]
    rfl
  refine ⟨?_, fun other => ?_, fun place slot target found answered => ?_⟩
  · rw [host]
    exact (coherent.wired.setTarget here _).continues (.setHost _ _)
  · rw [registry, Session.latest, links]
    by_cases same : other = ⟨m.index, ns, name⟩
    · rw [same, Registry.find?_set_self, List.lookup_cons_self]
    · rw [Registry.find?_set_ne same, coherent.latest other, Session.latest, List.lookup_cons, beq_false_of_ne same]
  · rw [registry, host]
    rw [host] at found
    rcases Store.getElem?_setTarget found with ⟨rfl, was, before, rfl⟩ | ⟨elsewhere, before⟩
    · -- The slot that has just been linked.
      cases placed.symm.trans before
      cases answered
      refine ⟨?_, _, f, ?_, Registry.get?_set_self .., ⟨fits.params, fits.results⟩, rfl⟩
      · exact (Store.findIdx?_setTarget ..).trans (named ▸ first)
      · exact named ▸ Registry.key?_set_self ..
    · -- Another slot, which must be for another import since only the first slot of an import is linked.
      obtain ⟨foremost, key, g, known, got, fits, rfl⟩ := coherent.backed place slot target before answered
      have other : slot.importName ≠ ⟨m.index, ns, name⟩ := fun same => by
        rw [same, first] at foremost
        exact elsewhere (Option.some.inj foremost).symm
      refine ⟨?_, key, g, Registry.key?_set_of_some known _ f, ?_, fits, rfl⟩
      · exact (Store.findIdx?_setTarget ..).trans foremost
      · rw [Registry.get?_set_ne other known, got]

end Coherent

theorem Reachable.coherent (reached : s.Reachable) : s.Coherent := by
  induction reached with
  | new created steps =>
    rw [Host.new_ok created]
    exact ⟨Store.wired_of_no_modules rfl rfl, fun _ => rfl, fun place slot target found _ => by simp [Host.bounded] at found⟩
  | @perform before reached op allowed coherent =>
    cases effect_perform before op with
    | used host links => exact coherent.used host links
    | loaded gained host links => exact coherent.loaded gained links
    | linked linked links => exact coherent.linked linked links

end Session

def Host.importCalls {σ : Type} (h : Host σ) (f : FunctionRef) (args : List Scalar) : List (ImportCall (Linked σ)) :=
  match h.checkCall f args with
  | .ok () => h.store.importCalls f.function (args.map Scalar.toSlot)
  | .error _ => []

theorem Host.mem_importCalls {σ : Type} {h : Host σ} {call : ImportCall (Linked σ)}
    (made : call ∈ h.importCalls f args) :
    h.checkCall f args = .ok () ∧ call ∈ h.store.importCalls f.function (args.map Scalar.toSlot) := by
  unfold importCalls at made
  split at made
  · rename_i checked
    exact ⟨checked, made⟩
  · simp at made

theorem ImportSlot.importName_of_cleared {σ : Type} {slot : ImportSlot σ} {i : Wasm.Import} {type : Wasm.FuncType}
    (made : slot.cleared = .unlinked k i type) : slot.importName = ⟨k, i.ns, i.name⟩ := by
  rw [← slot.importName_cleared, made]
  rfl

theorem answer_callLinked {σ : Type} {g : HostFunction σ} {host : Linked σ}
    (called : host.registry.called? context = some g) :
    Target.answer ⟨context, callLinked⟩ results userData memory args memories host =
      Target.answer ⟨context, g.raw⟩ results userData memory args memories host := by
  simp only [Target.answer, callLinked, called]

namespace Session

variable {σ : Type} {s : Session σ} {f : FunctionRef} {args : List Scalar} {call : ImportCall (Linked σ)}

/-- Behind a linked slot that a call reaches is the function that was linked to its import last, with the types of the
import, and that is what answers. -/
theorem Coherent.answer_eq (coherent : s.Coherent) (made : call ∈ s.host.importCalls f args)
    (reaches : s.host.store.Reaches f.function call m stub slot i type) (linked : slot.target = some target) :
    ∃ g, s.latest ⟨f.function.module, i.ns, i.name⟩ = some g ∧ slot.Fits g ∧
      call.state.user.registry.called? target.context = some g ∧
      s.host.store.answer m f.function call =
        Target.answer ⟨target.context, g.raw⟩ stub.results s.host.store.userData
          (s.host.store.seenMemory m.inst f.function.index) call.args call.state.memories call.state.user := by
  obtain ⟨key, g, known, got, fits, rfl⟩ := (coherent.backed _ slot target reaches.placed linked).backed
  have registry : call.state.user.registry = s.host.registry :=
    Store.importCalls_host (P := fun host => host.registry = s.host.registry)
      (fun slot among target linked call host same => by
        rw [coherent.trampolined slot among target linked, Host.registry_callLinked, same])
      rfl (Host.mem_importCalls made).2
  have called : call.state.user.registry.called? (Registry.contextOfKey key) = some g := by
    rw [registry, Registry.called?_contextOfKey, got]
  refine ⟨g, ?_, fits, called, ?_⟩
  · rw [← ImportSlot.importName_of_cleared reaches.made, ← coherent.latest, Registry.find?, known, Option.bind_some, got]
  · rw [Store.answer, Store.hostCall, dispatch_linked reaches.bound reaches.placed linked]
    exact answer_callLinked called

/-- Whenever code calls an import that is linked, what answers is the function that was linked to that import of that
module last, whatever has been loaded, linked and called in between and whenever the handle was looked up. -/
theorem latest_link_answers (reached : s.Reachable) (made : call ∈ s.host.importCalls f args) :
    ∃ m stub slot i type, s.host.store.Reaches f.function call m stub slot i type ∧
      ∀ target, slot.target = some target →
        ∃ g, s.latest ⟨f.function.module, i.ns, i.name⟩ = some g ∧
          call.state.user.registry.called? target.context = some g ∧
          s.host.store.answer m f.function call =
            Target.answer ⟨target.context, g.raw⟩ stub.results s.host.store.userData
              (s.host.store.seenMemory m.inst f.function.index) call.args call.state.memories call.state.user := by
  have coherent := reached.coherent
  obtain ⟨m, stub, slot, i, type, reaches⟩ := Store.importCalls_reach coherent.wired (Host.mem_importCalls made).2
  refine ⟨m, stub, slot, i, type, reaches, fun target linked => ?_⟩
  obtain ⟨g, latest, _, called, answered⟩ := coherent.answer_eq made reaches linked
  exact ⟨g, latest, called, answered⟩

end Session

namespace Relay

/-- Imports `e.f` and exports `r`, which calls it; both take and answer one 32-bit integer. -/
def binary : Wasm.Bytes :=
  [0x00, 0x61, 0x73, 0x6d, 0x01, 0x00, 0x00, 0x00,
    0x01, 0x06, 0x01, 0x60, 0x01, 0x7f, 0x01, 0x7f,
    0x02, 0x07, 0x01, 0x01, 0x65, 0x01, 0x66, 0x00, 0x00,
    0x03, 0x02, 0x01, 0x00,
    0x07, 0x05, 0x01, 0x01, 0x72, 0x00, 0x01,
    0x0a, 0x08, 0x01, 0x06, 0x00, 0x20, 0x00, 0x10, 0x00, 0x0b]

/-- Answers its argument, and counts its calls in steps. -/
def counting (step : Nat) : HostFunction Nat where
  params := [.i32]
  result := some .i32
  body := .plain fun (v, _) count => (count + step, some v)

def operations : List (Operation Nat) :=
  [.parseAndLoad binary, .link ⟨0, 0⟩ "e" "f" (counting 1), .findFunction "r", .link ⟨0, 0⟩ "e" "f" (counting 2)]

/-- The handle is looked up between two links. -/
def session : Session Nat := operations.foldl Session.perform Sample.start

def handle : FunctionRef := ⟨0, ⟨0, 1, [.i32], [.i32]⟩⟩

theorem reachable : session.Reachable := by
  have loaded := Sample.reachable_start.perform (.parseAndLoad binary) trivial
  have linked := loaded.perform (.link ⟨0, 0⟩ "e" "f" (counting 1)) trivial
  have found := linked.perform (.findFunction "r") trivial
  exact found.perform (.link ⟨0, 0⟩ "e" "f" (counting 2)) trivial

theorem issued : handle ∈ session.functions := by decide +kernel

theorem called : (session.host.importCalls handle [⟨.i32, 5⟩]).length = 1 := by decide +kernel

theorem linked : session.host.store.imports.all (·.target.isSome) = true := by decide +kernel

end Relay

theorem latest_link_answers_relay :
    ∃ call ∈ Relay.session.host.importCalls Relay.handle [⟨.i32, 5⟩], ∃ m stub slot i type,
      Relay.session.host.store.Reaches Relay.handle.function call m stub slot i type ∧ slot.target.isSome ∧
      ∀ target, slot.target = some target →
        ∃ g, Relay.session.latest ⟨0, i.ns, i.name⟩ = some g ∧
          call.state.user.registry.called? target.context = some g ∧
          Relay.session.host.store.answer m Relay.handle.function call =
            Target.answer ⟨target.context, g.raw⟩ stub.results Relay.session.host.store.userData
              (Relay.session.host.store.seenMemory m.inst 1) call.args call.state.memories call.state.user := by
  have made := List.getElem_mem (Relay.called ▸ Nat.zero_lt_one)
  obtain ⟨m, stub, slot, i, type, reaches, answered⟩ := Session.latest_link_answers Relay.reachable made
  have linked := List.all_eq_true.mp Relay.linked slot (List.mem_of_getElem? reaches.placed)
  exact ⟨_, made, m, stub, slot, i, type, reaches, linked, answered⟩

end WasmBinding
