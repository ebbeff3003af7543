import WasmBinding.Proofs.Host.Linking

/-! Loads that fail. Whatever was done before the failure is taken back, except for what the segments and the start
function of a module wrote into a memory that it imports and that was there before. -/

namespace WasmBinding

open Wasm (Bytes)

namespace Host

variable {σ : Type} {h after : Host σ}

/-- A host after a load that has failed. Only if the module `touches` the memory can its contents differ. -/
structure RolledBack (touches : Prop) (h after : Host σ) : Prop where
  modules : after.store.modules = h.store.modules
  binaries : after.binaries = h.binaries
  imports : after.store.imports = h.store.imports
  registry : after.registry = h.registry
  user : after.user = h.user
  shared : after.store.memory = h.store.memory
  pending : after.store.pending = h.store.pending
  results : after.store.results = h.store.results
  globals : ∀ g, after.store.getGlobal g = h.store.getGlobal g
  /-- No memory has come or gone, and only the shared one can have changed. -/
  size : after.store.memories.size = h.store.memories.size
  others : ∀ place, h.store.memory ≠ some place → after.store.memories[place]? = h.store.memories[place]?
  untouched : ¬ touches → after = h

theorem RolledBack.refl (touches : Prop) (h : Host σ) : RolledBack touches h h :=
  ⟨rfl, rfl, rfl, rfl, rfl, rfl, rfl, rfl, fun _ => rfl, rfl, fun _ _ => rfl, fun _ => rfl⟩

/-- Whether loading a module can write to a memory that is there already. -/
def Touches (h : Host σ) (p : ParsedModule) : Prop :=
  p.module.importedMemories ≠ [] ∧ h.store.memory ≠ none

theorem rolledBack_load (failed : h.load p = (after, .error e)) : RolledBack (h.Touches p) h after := by
  obtain ⟨same, size, others, unshared⟩ := load_error failed
  have untouched : ¬ h.Touches p → after = h := fun apart => by
    rcases Decidable.not_and_iff_not_or_not.mp apart with none | none
    · exact unshared (.inl (Decidable.not_not.mp none))
    · exact unshared (.inr (Decidable.not_not.mp none))
  have store : after.store = { h.store with memories := after.store.memories } := congrArg Host.store same
  constructor
  case size => exact size
  case others => exact others
  case untouched => exact untouched
  case binaries => rw [same]
  case modules | imports | shared | pending | results => rw [store]
  case registry | user =>
    rw [same]
    rfl
  case globals =>
    rw [same]
    exact fun _ => rfl

theorem parseAndLoad_cases (failed : h.parseAndLoad bytes = (after, .error e)) :
    after = h ∨ ∃ p, ParsedModule.parse h.environment bytes = .ok p ∧ h.load p = (after, .error e) := by
  unfold parseAndLoad at failed
  split at failed
  · rename_i p parsed
    exact .inr ⟨p, parsed, failed⟩
  · cases failed
    exact .inl rfl

/-- A failed load is rolled back, be it of a module or of a binary that is parsed first. -/
theorem failed_load_rolls_back (h : Host σ) :
    (∀ p after e, h.load p = (after, .error e) → RolledBack (h.Touches p) h after) ∧
    ∀ bytes after e, h.parseAndLoad bytes = (after, .error e) →
      RolledBack (∃ p, ParsedModule.parse h.environment bytes = .ok p ∧ h.Touches p) h after := by
  refine ⟨fun p after e failed => rolledBack_load failed, fun bytes after e failed => ?_⟩
  rcases parseAndLoad_cases failed with rfl | ⟨p, parsed, failed⟩
  · exact .refl _ _
  · have rolledBack := rolledBack_load failed
    exact { rolledBack with untouched := fun apart => rolledBack.untouched fun touches => apart ⟨p, parsed, touches⟩ }

end Host

/-- A module that imports the function `e.f`, which gets a slot, and the table `e.t`, which is not supported. -/
def Relay.unsupported : Bytes :=
  [0x00, 0x61, 0x73, 0x6d, 0x01, 0x00, 0x00, 0x00,
    0x01, 0x04, 0x01, 0x60, 0x00, 0x00,
    0x02, 0x0f, 0x02, 0x01, 0x65, 0x01, 0x66, 0x00, 0x00, 0x01, 0x65, 0x01, 0x74, 0x01, 0x70, 0x00, 0x00]

theorem failed_load_rolls_back_relay :
    ∃ after e, Relay.session.host.parseAndLoad Relay.unsupported = (after, .error e) ∧
      Host.RolledBack (∃ p, ParsedModule.parse Relay.session.host.environment Relay.unsupported = .ok p ∧
        Relay.session.host.Touches p) Relay.session.host after := by
  have failed : (Relay.session.host.parseAndLoad Relay.unsupported).2.isOk = false := by decide +kernel
  cases loaded : Relay.session.host.parseAndLoad Relay.unsupported with
  | mk after answer =>
    cases answer with
    | ok m =>
      rw [loaded] at failed
      contradiction
    | error e => exact ⟨after, e, rfl, (Host.failed_load_rolls_back _).2 _ _ _ loaded⟩

end WasmBinding
