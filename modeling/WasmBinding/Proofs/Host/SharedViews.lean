import WasmBinding.Proofs.Host.Marshalling
import WasmBinding.Proofs.Host.Resolution

/-! What linked functions see of memory. While no module has two memories there is only one, and a function that looks at
memory sees it as code has left it at that moment. What the function writes is what code and the host find there. -/

namespace WasmBinding

open Wasm (HostCall ImportCall LinearMemory)

namespace Wasm

variable {σ : Type} {host : HostCall σ} {s t : State σ}

/-- What comes of a state by steps of code, whatever code it is. -/
inductive State.Passes (host : HostCall σ) (s : State σ) : State σ → Prop
  | start : Passes host s s
  | step {t : State σ} (passes : Passes host s t) (c : Control) : Passes host s (t.step host c).state

theorem Kept.passes {P : State σ → Prop} (kept : Kept host P) (passes : s.Passes host t) (holds : P s) : P t := by
  induction passes with
  | start => exact holds
  | step _ c ih => exact kept.step c ih

/-- Code that calls an imported function goes on from the state in which the embedder has left it. -/
theorem State.state_step_of_importCall {call : ImportCall σ} (called : s.importCall? c = some call) (host : HostCall σ) :
    (s.step host c).state = s.answered (host call.index call.args s.memories s.user) := by
  obtain ⟨_, _, _, _, _, _, _, _, stepped⟩ := step_of_importCall called
  rw [stepped, state_resume]

end Wasm

namespace Store

variable {σ : Type} {s : Store σ} {m : LoadedModule}

theorem Sharing.shared_of_single (sharing : s.Sharing) (loaded : m ∈ s.modules)
    (single : m.inst.module.allMemories.length ≤ 1) : ∀ place ∈ m.inst.memories, s.memory = some place := by
  refine (sharing.fits m loaded).shared_iff.mpr ?_
  by_cases none : m.inst.module.memories = []
  · exact .inl none
  · have own : 0 < m.inst.module.memories.length := List.length_pos_iff.mpr none
    simp only [Wasm.Module.allMemories, List.length_append] at single ⊢
    omega

/-- The memory that a module exports under the name is the shared one, so that it makes no difference to look there. -/
theorem Sharing.seenMemory_eq (sharing : s.Sharing) (loaded : m ∈ s.modules)
    (single : m.inst.module.allMemories.length ≤ 1) (func : Nat) : s.seenMemory m.inst func = s.memory := by
  unfold seenMemory
  split
  · rfl
  · cases exported : m.inst.exportedMemory? "memory" with
    | none => exact Option.none_or
    | some place =>
      rw [Option.some_or]
      exact (sharing.shared_of_single loaded single place (Wasm.Instance.mem_of_exportedMemory? exported)).symm

end Store

theorem bytesAt_writeBack {memories : Array LinearMemory} (seen : bytesAt memories place = some m) (bytes : Memory) :
    bytesAt (writeBack memories place (some bytes)) place = some bytes := by
  cases place with
  | none => contradiction
  | some place =>
    obtain ⟨old, found, _⟩ := Option.map_eq_some_iff.mp seen
    have inside := (Array.getElem?_eq_some_iff.mp found).1
    simp [bytesAt, writeBack, Array.getElem?_modify, inside]

namespace HostFunction

/-- What is run by functions that look at memory, of given types. -/
abbrev Look {σ : Type} (g : HostFunction σ) : Type :=
  (m : Memory) → Args g.params → σ → { after : Memory // after.size = m.size } × σ × Option g.result.Carrier

variable {σ : Type} {g : HostFunction σ} {typed : Args g.params} {run : g.Look}

theorem storeResult_ne_invalidMemoryAccess (g : HostFunction σ) (e : Exchange) (value : Option g.result.Carrier) :
    (g.storeResult e value).1 ≠ .failed .invalidMemoryAccess := by
  unfold storeResult
  repeat' split
  all_goals simp

/-- A function that looks at memory fails for want of one exactly if there is none. -/
theorem apply_eq_invalidMemoryAccess_iff (viewing : g.body = .viewing run) (e : Exchange) (user : σ) :
    (g.apply e user).1 = .failed .invalidMemoryAccess ↔ e.memory = none := by
  unfold apply
  split
  · rename_i plain
    rw [viewing] at plain
    contradiction
  · split
    · rename_i absent
      simp [absent]
    · rename_i present
      simp only [present, reduceCtorEq, iff_false]
      split
      · simp
      · exact g.storeResult_ne_invalidMemoryAccess _ _

theorem respond_of_memory (viewing : g.body = .viewing run) (seen : bytesAt memories place = some m)
    (host : Linked σ) :
    g.respond typed place memories host =
      ⟨writeBack memories place (some (run m typed host.user).1.val),
        { host with user := (run m typed host.user).2.1 }, g.reply (run m typed host.user).2.2⟩ := by
  unfold respond
  rw [viewing]
  simp only [seen]

theorem respond_of_no_memory (viewing : g.body = .viewing run) (unseen : bytesAt memories place = none)
    (host : Linked σ) : g.respond typed place memories host = ⟨memories, host, .error unreachable⟩ := by
  unfold respond
  rw [viewing]
  simp only [unseen]

end HostFunction

namespace Host

variable {σ : Type} {h : Host σ}

/-- The host at a moment in the course of a call: what code has changed so far is put back. -/
def amid (h : Host σ) (f : FunctionRef) (state : Wasm.State (Linked σ)) : Host σ :=
  { h with store := h.store.commit f.function.module state }

/-- Every memory that code of a loaded module can reach is the one that the host shows. -/
def Unites (h : Host σ) : Prop :=
  ∀ m ∈ h.store.modules, ∀ index < m.inst.module.allMemories.length, h.Shows m index

/-- What becomes of a call of a linked function that looks at memory, for the arguments that it gets. -/
structure Views (h : Host σ) (f : FunctionRef) (args : List Scalar) (call : ImportCall (Linked σ)) (m : LoadedModule)
    (stub : Stub) (g : HostFunction σ) (typed : Args g.params) (run : g.Look) : Prop where
  /-- The function is called on the slots of the operands, and fails for want of a memory exactly if the host has none. -/
  lacks : ∃ slots, call.args.mapM Wasm.Value.toSlot? = some slots ∧
    ((g.apply ⟨List.replicate stub.results.length 0 ++ slots,
      bytesAt call.state.memories (h.store.seenMemory m.inst f.function.index)⟩ call.state.user.user).1 =
        .failed .invalidMemoryAccess ↔ (h.amid f call.state).memory = .error .invalidMemoryAccess)
  /-- Then it does nothing, and the call from outside ends in a trap. -/
  traps : (h.amid f call.state).memory = .error .invalidMemoryAccess →
    h.store.answer m f.function call = ⟨call.state.memories, call.state.user, .error unreachable⟩ ∧
      (h.call f args).2 = .error (.engine (.trap .unreachable))
  /-- Otherwise it runs on the memory that the host has at that moment, and leaves the host the one that it has written. -/
  sees : ∀ view, (h.amid f call.state).memory = .ok view →
    (h.store.answer m f.function call).user =
        { call.state.user with user := (run view typed call.state.user.user).2.1 } ∧
      (h.store.answer m f.function call).results = g.reply (run view typed call.state.user.user).2.2 ∧
      (h.amid f (call.state.answered (h.store.answer m f.function call))).memory =
        .ok (run view typed call.state.user.user).1.val
  /-- Code goes on from there. If the function fails, the call from outside ends there. -/
  goesOn : ∀ c, call.state.importCall? c = some call →
    (call.state.step (h.store.hostCall m f.function.index) c).state =
      call.state.answered (h.store.answer m f.function call)
  fails : ∀ message, (h.store.answer m f.function call).results = .error message →
    (h.call f args).1.memory = (h.amid f (call.state.answered (h.store.answer m f.function call))).memory
  /-- At every later moment of the call, code of every module finds what the host shows. -/
  later : ∀ state,
    (call.state.answered (h.store.answer m f.function call)).Passes (h.store.hostCall m f.function.index) state →
      (h.amid f state).Unites

theorem unites_of_single (sharing : h.store.Sharing) (single : ∀ w ∈ h.store.loaded, w.allMemories.length ≤ 1) :
    h.Unites := by
  intro m loaded index inside
  have places := sharing.shared_of_single loaded (single m.inst.module (List.mem_map_of_mem loaded))
  rw [← (sharing.fits m loaded).count] at inside
  have placed := List.getElem?_eq_getElem inside
  have shared := places _ (List.getElem_mem inside)
  exact (Session.shows_iff (s := { host := h }) sharing loaded placed).mpr shared

theorem amid_unites {m : LoadedModule} (sharing : h.store.Sharing) (single : ∀ w ∈ h.store.loaded, w.allMemories.length ≤ 1)
    (found : h.store.modules[f.function.module]? = some m) (layout : (h.store.stateOf m).SameLayout state) :
    (h.amid f state).Unites := by
  have continues := Store.Continues.commit found layout
  have single : ∀ w ∈ (h.amid f state).store.loaded, w.allMemories.length ≤ 1 := by
    rw [amid, continues.loaded]
    exact single
  exact unites_of_single (sharing.continues continues) single

theorem memory_amid_eq_ok_iff : (h.amid f state).memory = .ok m ↔ bytesAt state.memories h.store.memory = some m :=
  memory_eq_ok_iff

theorem memory_amid_eq_error_iff :
    (h.amid f state).memory = .error .invalidMemoryAccess ↔ bytesAt state.memories h.store.memory = none := by
  have shown : (h.amid f state).store.memory? = bytesAt state.memories h.store.memory := rfl
  rw [memory, shown]
  split <;> simp [*]

end Host

namespace Session

variable {σ : Type} {s : Session σ} {f : FunctionRef} {args : List Scalar} {call : ImportCall (Linked σ)}

theorem Reachable.views {m : LoadedModule} {g : HostFunction σ} {typed : Args g.params} {run : g.Look}
    (reached : s.Reachable)
    (single : ∀ w ∈ s.host.store.loaded, w.allMemories.length ≤ 1) (made : call ∈ s.host.importCalls f args)
    (found : s.host.store.modules[f.function.module]? = some m) (carries : g.Carries stub.results call.args typed)
    (answers : s.host.store.answer m f.function call =
      g.respond typed (s.host.store.seenMemory m.inst f.function.index) call.state.memories call.state.user)
    (viewing : g.body = .viewing run) : s.host.Views f args call m stub g typed run := by
  have sharing := reached.sharing
  have loaded := List.mem_of_getElem? found
  have layout := Store.importCalls_layout found (Host.mem_importCalls made).2
  have seen := sharing.seenMemory_eq loaded (single m.inst.module (List.mem_map_of_mem loaded)) f.function.index
  rw [seen] at answers
  constructor
  case lacks =>
    obtain ⟨slots, carried, _⟩ := carries.decodes
    refine ⟨slots, carried, ?_⟩
    rw [HostFunction.apply_eq_invalidMemoryAccess_iff viewing, seen, Host.memory_amid_eq_error_iff]
  case traps =>
    intro none
    have unseen := Host.memory_amid_eq_error_iff.mp none
    rw [HostFunction.respond_of_no_memory viewing unseen] at answers
    have failed : (s.host.store.answer m f.function call).results = .error unreachable := by rw [answers]
    obtain ⟨_, ended, _⟩ := Host.call_of_failed_import made found failed
    exact ⟨answers, by rw [ended]⟩
  case sees =>
    intro view present
    have seen := Host.memory_amid_eq_ok_iff.mp present
    rw [HostFunction.respond_of_memory viewing seen] at answers
    rw [answers]
    refine ⟨rfl, rfl, Host.memory_amid_eq_ok_iff.mpr ?_⟩
    exact bytesAt_writeBack seen _
  case goesOn =>
    intro c called
    exact Wasm.State.state_step_of_importCall called _
  case fails =>
    intro message failed
    have replied := g.respond_cases typed s.host.store.memory call.state.memories call.state.user
    rw [← answers] at replied
    rcases replied with trapped | ⟨v, ok⟩
    · obtain ⟨after, ended, _, memories, _⟩ := Host.call_of_failed_import made found trapped
      have shared : after.store.memory = s.host.store.memory := by
        have used := Host.Uses.call s.host f args
        rw [ended] at used
        exact used.store.memory
      rw [ended]
      simp only [Host.memory, Store.memory?, shared, memories]
      rfl
    · rw [ok] at failed
      contradiction
  case later =>
    intro state passes
    have kept : Wasm.Kept (s.host.store.hostCall m f.function.index) (s.host.store.stateOf m).SameLayout :=
      Wasm.State.SameLayout.kept size_dispatch _
    have size : (s.host.store.answer m f.function call).memories.size = call.state.memories.size := size_dispatch ..
    have answered : (s.host.store.stateOf m).SameLayout (call.state.answered (s.host.store.answer m f.function call)) :=
      ⟨layout.module, layout.places, size.trans layout.size⟩
    exact Host.amid_unites sharing single found (kept.passes passes answered)

/-- While no module has more than one memory, a linked function that looks at memory sees the one of the host as it is when
it is called, and what it writes is what the host and code of all modules find from then on. It fails for want of a memory
only if the host has none. -/
theorem views_shared_memory (reached : s.Reachable) (single : ∀ w ∈ s.host.store.loaded, w.allMemories.length ≤ 1)
    (issued : f ∈ s.functions) (made : call ∈ s.host.importCalls f args) :
    (s.host.amid f call.state).Unites ∧
    (∃ m stub slot i type g typed, s.host.store.Reaches f.function call m stub slot i type ∧
      s.latest ⟨f.function.module, i.ns, i.name⟩ = some g ∧ g.Carries stub.results call.args typed ∧
      ∀ run, g.body = .viewing run → s.host.Views f args call m stub g typed run) ∧
    ∀ t, s.Leads t → (∀ w ∈ t.host.store.loaded, w.allMemories.length ≤ 1) → t.host.Unites := by
  have resolved := reached.resolved f issued
  obtain ⟨m, stub, slot, i, type, reaches, linked⟩ := reaches_target reached resolved made
  obtain ⟨target, linked⟩ := Option.isSome_iff_exists.mp linked
  obtain ⟨g, typed, latest, carries, answers⟩ := reached.coherent.responds resolved.issued made reaches linked
  refine ⟨?_, ⟨m, stub, slot, i, type, g, typed, reaches, latest, carries, ?_⟩, ?_⟩
  · have layout := Store.importCalls_layout reaches.found (Host.mem_importCalls made).2
    exact Host.amid_unites reached.sharing single reaches.found layout
  · intro run viewing
    exact reached.views single made reaches.found carries answers viewing
  · intro t leads single
    exact Host.unites_of_single (leads.reachable reached).sharing single

end Session

namespace Mirror

/-- Imports `e.f` and exports the memory `m` and `r`, which stores 7 at address 0 and calls `e.f`. -/
def binary : Wasm.Bytes :=
  [0x00, 0x61, 0x73, 0x6d, 0x01, 0x00, 0x00, 0x00,
    0x01, 0x04, 0x01, 0x60, 0x00, 0x00,
    0x02, 0x07, 0x01, 0x01, 0x65, 0x01, 0x66, 0x00, 0x00,
    0x03, 0x02, 0x01, 0x00,
    0x05, 0x03, 0x01, 0x00, 0x01,
    0x07, 0x09, 0x02, 0x01, 0x6d, 0x02, 0x00, 0x01, 0x72, 0x00, 0x01,
    0x0a, 0x0d, 0x01, 0x0b, 0x00, 0x41, 0x00, 0x41, 0x07, 0x3a, 0x00, 0x00, 0x10, 0x00, 0x0b]

/-- Copies the byte at address 0 to address 1. -/
def copying : HostFunction Nat where
  params := []
  result := none
  body := .viewing fun m _ count => (⟨m.set 1 (m.byte 0), Memory.size_set ..⟩, count, some ())

def loaded : Session Nat := Sample.start.perform (.parseAndLoad binary)

def session : Session Nat := (loaded.perform (.link ⟨0, 0⟩ "e" "f" copying)).perform (.findFunction "r")

def handle : FunctionRef := ⟨0, ⟨0, 1, [], []⟩⟩

theorem reachable : session.Reachable := by
  have loaded := Sample.reachable_start.perform (.parseAndLoad binary) trivial
  have linked := loaded.perform (.link ⟨0, 0⟩ "e" "f" copying) trivial
  exact linked.perform (.findFunction "r") trivial

theorem links : session.links = [(⟨0, "e", "f"⟩, copying)] := by
  have linked : (loaded.host.link ⟨0, 0⟩ "e" "f" copying).isOk = true := by decide +kernel
  have noted (s : Session Nat) (name : String) : (s.perform (.findFunction name)).links = s.links := by
    simp only [Session.perform, Session.noteFunction]
    split <;> rfl
  rw [session, noted]
  cases answered : loaded.host.link ⟨0, 0⟩ "e" "f" copying with
  | error e =>
    rw [answered] at linked
    contradiction
  | ok host =>
    simp only [Session.perform, answered]
    rfl

theorem eq_copying (latest : session.latest name = some g) : g = copying := by
  rw [Session.latest, links, List.lookup_cons] at latest
  split at latest
  · exact (Option.some.inj latest).symm
  · contradiction

theorem single : ∀ w ∈ session.host.store.loaded, w.allMemories.length ≤ 1 := by
  have all : session.host.store.loaded.all (fun w => w.allMemories.length ≤ 1) = true := by decide +kernel
  simpa using all

theorem issued : handle ∈ session.functions := by decide +kernel

theorem called : (session.host.importCalls handle []).length = 1 := by decide +kernel

end Mirror

theorem views_shared_memory_mirror :
    ∃ call ∈ Mirror.session.host.importCalls Mirror.handle [],
      (Mirror.session.host.amid Mirror.handle call.state).Unites ∧
      ∃ m stub slot i type typed,
        Mirror.session.host.store.Reaches Mirror.handle.function call m stub slot i type ∧
        Mirror.copying.Carries stub.results call.args typed ∧
        Mirror.session.host.Views Mirror.handle [] call m stub Mirror.copying typed
          fun m _ count => (⟨m.set 1 (m.byte 0), Memory.size_set ..⟩, count, some ()) := by
  have made := List.getElem_mem (Mirror.called ▸ Nat.zero_lt_one)
  obtain ⟨unites, ⟨m, stub, slot, i, type, g, typed, reaches, latest, carries, views⟩, _⟩ :=
    Session.views_shared_memory Mirror.reachable Mirror.single Mirror.issued made
  cases Mirror.eq_copying latest
  exact ⟨_, made, unites, m, stub, slot, i, type, typed, reaches, carries, views _ rfl⟩

end WasmBinding
