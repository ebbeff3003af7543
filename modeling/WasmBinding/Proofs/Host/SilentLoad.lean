import WasmBinding.Proofs.Host.Linking
import WasmBinding.Proofs.Store.SilentLoad

/-! Loads into a host. No function that was linked runs while a module is loaded, and a start function that calls an import
makes the load fail, also if an import of the same name is linked for another module. -/

namespace WasmBinding

namespace Host

variable {σ : Type}

theorem load_linked (h : Host σ) (p : ParsedModule) : (h.load p).1.store.host = h.store.host := by
  have kept := h.store.load_host p
  unfold load
  split
  · rfl
  · split
    · rename_i loaded
      rw [loaded] at kept
      exact kept
    · rename_i failed
      rw [failed] at kept
      exact kept

theorem load_of_startCalls {h : Host σ} {p : ParsedModule} (called : h.store.startCalls p ≠ []) :
    (h.load p).2 = .error .missingImport := by
  have refused := Store.load_of_startCalls called
  have same : p.environment.same h.environment = true := by
    cases starting : h.store.starting? p with
    | none => simp [Store.startCalls, starting] at called
    | some both => exact (Store.starting?_some starting).1
  unfold load
  rw [same]
  cases loaded : h.store.load p with
  | mk t result =>
    rw [loaded] at refused
    cases refused
    rfl

end Host

/-- Whatever a store or a host has come to, a load calls no target and no linked function: it would do the same if
others were linked. If the start function of the module comes to a call of an import, the load fails for want of it. -/
theorem loads_call_no_target {σ : Type} :
    (∀ (s : Store σ) (p : ParsedModule), s.LoadsAlone p) ∧
    ∀ (h : Host σ) (p : ParsedModule), h.store.LoadsAlone p ∧
      (h.load p).1.registry = h.registry ∧ (h.load p).1.user = h.user ∧
      (h.store.startCalls p ≠ [] → (h.load p).2 = .error .missingImport) := by
  refine ⟨Store.loadsAlone, fun h p => ⟨h.store.loadsAlone p, ?_, ?_, Host.load_of_startCalls⟩⟩
  · exact congrArg Linked.registry (h.load_linked p)
  · exact congrArg Linked.user (h.load_linked p)

/-- Imports `e.f`, puts it into a table and calls it from there as it starts. -/
def Relay.starter : Wasm.Bytes :=
  [0x00, 0x61, 0x73, 0x6d, 0x01, 0x00, 0x00, 0x00,
    0x01, 0x04, 0x01, 0x60, 0x00, 0x00,
    0x02, 0x07, 0x01, 0x01, 0x65, 0x01, 0x66, 0x00, 0x00,
    0x03, 0x02, 0x01, 0x00,
    0x04, 0x04, 0x01, 0x70, 0x00, 0x01,
    0x08, 0x01, 0x01,
    0x09, 0x07, 0x01, 0x00, 0x41, 0x00, 0x0b, 0x01, 0x00,
    0x0a, 0x09, 0x01, 0x07, 0x00, 0x41, 0x00, 0x11, 0x00, 0x00, 0x0b]

/-- The import `e.f` of the first module is linked, that of the second is called once and not found. -/
theorem loads_call_no_target_relay :
    ∃ p, ParsedModule.parse Sample.environment Relay.starter = .ok p ∧
      (Relay.session.host.store.imports.map fun slot => (slot.ns, slot.name, slot.target.isSome)) = [("e", "f", true)] ∧
      Relay.session.host.store.startCalls p ≠ [] ∧ (Relay.session.host.load p).2 = .error .missingImport ∧
      (Relay.session.host.load p).1.user = Relay.session.host.user := by
  have calls : (ParsedModule.parse Sample.environment Relay.starter).toOption.map
      (fun p => (Relay.session.host.store.startCalls p).length) = some 1 := by decide +kernel
  obtain ⟨p, parsed, called⟩ := Option.map_eq_some_iff.mp calls
  have reached : Relay.session.host.store.startCalls p ≠ [] := List.ne_nil_of_length_eq_add_one called
  obtain ⟨_, _, user, refused⟩ := loads_call_no_target.2 Relay.session.host p
  exact ⟨p, ok_of_toOption parsed, by decide +kernel, reached, refused reached, user⟩

end WasmBinding
