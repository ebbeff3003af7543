import WasmBinding.Proofs.Host.Session
import WasmBinding.Proofs.Store.SharedMemory

/-! The one memory of a host. Every memory that a loaded module imports is the one that the host shows, and so is the
only memory of a module that defines one; a second memory beside one that a module defines is not. -/

namespace WasmBinding

theorem Store.sharing_of_empty {σ : Type} {s : Store σ} (memory : s.memory = none) (modules : s.modules = []) :
    s.Sharing :=
  ⟨by simp [memory], by simp [modules]⟩

/-- What code of a module finds as its memory of an index, and what the host shows, is the same memory. -/
def Host.Shows {σ : Type} (h : Host σ) (m : LoadedModule) (index : Nat) : Prop :=
  ∃ place contents, (h.store.stateOf m).memory? index = some (place, contents) ∧ h.store.memory = some place ∧
    h.memory = .ok contents.bytes

theorem Host.memory_eq_ok_iff {σ : Type} {h : Host σ} : h.memory = .ok m ↔ h.store.memory? = some m := by
  unfold memory
  split <;> simp [*]

namespace Session

variable {σ : Type} {s : Session σ} {m : LoadedModule}

theorem Reachable.sharing (reached : s.Reachable) : s.host.store.Sharing := by
  induction reached with
  | new created steps =>
    rw [Host.new_ok created]
    exact Store.sharing_of_empty rfl rfl
  | @perform before reached op allowed sharing =>
    cases effect_perform before op with
    | used host links => exact sharing.continues host.store
    | loaded gained host links => exact sharing.gained gained
    | linked linked links =>
      obtain ⟨place, _, host⟩ := Host.link_ok linked
      rw [host]
      exact (sharing.setTarget place _).continues (.setHost _ _)

theorem shows_iff (sharing : s.host.store.Sharing) (loaded : m ∈ s.host.store.modules)
    (placed : m.inst.memories[index]? = some place) :
    s.host.Shows m index ↔ s.host.store.memory = some place := by
  constructor
  · rintro ⟨other, contents, found, shared, _⟩
    have placed' := (Wasm.State.memory?_some found).1
    cases placed.symm.trans placed'
    exact shared
  · intro shared
    have inside := (sharing.fits m loaded).inside place (List.mem_of_getElem? placed)
    have found : s.host.store.memories[place]? = some s.host.store.memories[place] := Array.getElem?_eq_getElem inside
    refine ⟨place, s.host.store.memories[place], ?_, shared, ?_⟩
    · simp only [Wasm.State.memory?, Store.stateOf, placed, found, Option.bind_eq_bind, Option.bind_some,
        Option.pure_def]
    · simp only [Host.memory, Store.memory?, bytesAt, shared, found, Option.bind_some, Option.map_some]

theorem shows_all_iff (sharing : s.host.store.Sharing) (loaded : m ∈ s.host.store.modules) :
    (∀ index < m.inst.module.allMemories.length, s.host.Shows m index) ↔
      m.inst.module.memories = [] ∨ m.inst.module.allMemories.length = 1 := by
  have fits := sharing.fits m loaded
  rw [← fits.shared_iff, ← fits.count]
  constructor
  · intro shown place among
    obtain ⟨index, placed⟩ := List.mem_iff_getElem?.mp among
    have inside := (List.getElem?_eq_some_iff.mp placed).1
    exact (shows_iff sharing loaded placed).mp (shown index inside)
  · intro shared index inside
    exact (shows_iff sharing loaded (List.getElem?_eq_getElem inside)).mpr (shared _ (List.getElem_mem inside))

theorem shows_exported (sharing : s.host.store.Sharing) (loaded : m ∈ s.host.store.modules)
    (defines : m.inst.module.memories ≠ []) :
    ∃ e ∈ m.inst.module.exports, e.kind = .memory ∧ s.host.Shows m e.index := by
  obtain ⟨place, first, shared⟩ := (sharing.fits m loaded).defining defines
  simp only [Wasm.Instance.firstExportedMemory?, Option.bind_eq_bind, Option.bind_eq_some_iff] at first
  obtain ⟨e, found, placed⟩ := first
  have kind := List.find?_some found
  exact ⟨e, List.mem_of_find?_eq_some found, beq_iff_eq.mp kind, (shows_iff sharing loaded placed).mpr shared⟩

/-- Exactly when there is only one memory: every memory that code of a loaded module can reach is the one that the host
shows, unless a module defines a memory and has another beside it. A module that defines memories exports at least the
shared one. -/
theorem one_memory_iff (reached : s.Reachable) :
    ((∀ m ∈ s.host.store.modules, ∀ index < m.inst.module.allMemories.length, s.host.Shows m index) ↔
      ∀ m ∈ s.host.store.modules, m.inst.module.memories = [] ∨ m.inst.module.allMemories.length = 1) ∧
    ∀ m ∈ s.host.store.modules, m.inst.module.memories ≠ [] →
      ∃ e ∈ m.inst.module.exports, e.kind = .memory ∧ s.host.Shows m e.index := by
  have sharing := reached.sharing
  refine ⟨⟨fun shown m loaded => ?_, fun single m loaded => ?_⟩, fun m loaded => shows_exported sharing loaded⟩
  · exact (shows_all_iff sharing loaded).mp (shown m loaded)
  · exact (shows_all_iff sharing loaded).mpr (single m loaded)

end Session

namespace Twin

/-- Defines two memories of one page and exports the first. -/
def binary : Wasm.Bytes :=
  [0x00, 0x61, 0x73, 0x6d, 0x01, 0x00, 0x00, 0x00,
    0x05, 0x05, 0x02, 0x00, 0x01, 0x00, 0x01,
    0x07, 0x05, 0x01, 0x01, 0x6d, 0x02, 0x00]

def session : Session Nat := Sample.start.perform (.parseAndLoad binary)

theorem reachable : session.Reachable := Sample.reachable_start.perform (.parseAndLoad binary) trivial

theorem shared : session.host.store.memory = some 0 := by decide +kernel

theorem exists_module : ∃ m ∈ session.host.store.modules, m.inst.memories = [0, 1] ∧
    m.inst.module.memories.length = 2 ∧ m.inst.module.allMemories.length = 2 ∧
    m.inst.module.exports.map (·.index) = [0] := by
  have modules : session.host.store.modules.map (fun m => (m.inst.memories, m.inst.module.memories.length,
      m.inst.module.allMemories.length, m.inst.module.exports.map (·.index))) = [([0, 1], 2, 2, [0])] := by
    decide +kernel
  obtain ⟨m, among, facts⟩ := List.mem_map.mp (modules ▸ List.mem_singleton_self _)
  simp only [Prod.mk.injEq] at facts
  exact ⟨m, among, facts⟩

end Twin

/-- A memory of a loaded module that is neither exported nor shown by the host. -/
theorem twin_memory_hidden :
    Twin.session.Reachable ∧ ∃ m ∈ Twin.session.host.store.modules, ∃ index < m.inst.module.allMemories.length,
      index ∉ m.inst.module.exports.map (·.index) ∧ ¬ Twin.session.host.Shows m index := by
  obtain ⟨m, among, places, _, count, exports⟩ := Twin.exists_module
  refine ⟨Twin.reachable, m, among, 1, by omega, by simp [exports], fun shown => ?_⟩
  have placed : m.inst.memories[1]? = some 1 := by rw [places]; rfl
  have same := (Session.shows_iff Twin.reachable.sharing among placed).mp shown
  rw [Twin.shared] at same
  contradiction

theorem one_memory_iff_twin :
    ¬ ∀ m ∈ Twin.session.host.store.modules, ∀ index < m.inst.module.allMemories.length,
      Twin.session.host.Shows m index := by
  intro shown
  obtain ⟨m, among, _, own, count, _⟩ := Twin.exists_module
  rcases (Session.one_memory_iff Twin.reachable).1.mp shown m among with none | one
  · simp [none] at own
  · omega

end WasmBinding
