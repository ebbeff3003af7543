import WasmBinding.Proofs.Host.Linking
import WasmBinding.Proofs.Host.OneMemory

/-! Marshalling. A linked function runs once on the values with which code calls its import, its result becomes the
number with the same bits, and the only failures are its own and a missing memory. -/

namespace WasmBinding

open Wasm (ImportCall HostReply LinearMemory Value)

namespace HostFunction

variable {σ : Type}

/-- What a result comes to: the numbers with its bits, or a failure if the function gave up. -/
def reply (f : HostFunction σ) : Option f.result.Carrier → Except String (List Value)
  | some v => .ok (f.result.toValues v)
  | none => .error unreachable

/-- What a function answers, in terms of its own types. It runs once; one that looks at memory does so on the memory at
a place, and does not run if there is none. -/
def respond (f : HostFunction σ) (args : Args f.params) (place : Option Nat) (memories : Array LinearMemory)
    (host : Linked σ) : HostReply (Linked σ) :=
  match f.body with
  | .plain run =>
    let (user, value) := run args host.user
    ⟨memories, { host with user := user }, f.reply value⟩
  | .viewing run =>
    match bytesAt memories place with
    | some m =>
      let (after, user, value) := run m args host.user
      ⟨writeBack memories place (some after.val), { host with user := user }, f.reply value⟩
    | none => ⟨memories, host, .error unreachable⟩

/-- Arguments as code passes them and as the function gets them. The conversions on the way do not fail. -/
structure Carries (f : HostFunction σ) (results : List ValueTag) (values : List Value) (args : Args f.params) : Prop where
  same : (Args.toScalars f.params args).map Scalar.toValue = values
  decodes : ∃ slots, values.mapM Value.toSlot? = some slots ∧
    f.args? (List.replicate results.length 0 ++ slots) = some args
  /-- A result is stored in front of any arguments, and read back from there. -/
  encodes : ∀ v slots, ∃ stack, f.result.store v (List.replicate results.length 0 ++ slots) = some stack ∧
    (stack.zip results).mapM (fun (slot, tag) => Value.ofSlot? slot tag) = some (f.result.toValues v)

theorem exists_carries (f : HostFunction σ) {results : List ValueTag} {values : List Value}
    (params : values.map (·.type.tag) = f.params.map ScalarType.tag)
    (types : results = (f.result.map ScalarType.tag).toList) : ∃ args, f.Carries results values args := by
  obtain ⟨args, slots, same, carried, length, back⟩ := Args.exists_of_values params
  have leading : results.length = f.result.slots := by
    rw [types]
    cases f.result <;> rfl
  refine ⟨args, same, ⟨slots, carried, ?_⟩, fun v rest => ?_⟩
  · rw [args?, leading]
    simp [length, back]
  · obtain ⟨stack, stored⟩ := f.result.store_of_slots v rest
    exact ⟨stack, leading ▸ stored, types ▸ ResultType.values_of_store stored⟩

/-- What comes back of an exchange in whose leading slot a result was stored. -/
theorem Carries.finish {f : HostFunction σ} {args : Args f.params} (carries : f.Carries results values args)
    (slots : List Slot) (memory : Option Memory) (value : Option f.result.Carrier) :
    ∃ outcome after, f.storeResult ⟨List.replicate results.length 0 ++ slots, memory⟩ value = (outcome, after) ∧
      after.memory = memory ∧
      (value = none ∧ outcome = .gaveUp ∧ f.reply value = .error unreachable ∨
        ∃ numbers, outcome = .done ∧ f.reply value = .ok numbers ∧
          (after.stack.zip results).mapM (fun (slot, tag) => Value.ofSlot? slot tag) = some numbers) := by
  cases value with
  | none => exact ⟨_, _, rfl, rfl, .inl ⟨rfl, rfl, rfl⟩⟩
  | some v =>
    obtain ⟨stack, stored, read⟩ := carries.encodes v slots
    refine ⟨.done, ⟨stack, memory⟩, ?_, rfl, .inr ⟨_, rfl, rfl, read⟩⟩
    simp only [storeResult, stored]

/-- The detour through slots makes no difference. -/
theorem answer_raw {f : HostFunction σ} {args : Args f.params} (carries : f.Carries results values args)
    (context userData : Nat) (place : Option Nat) (memories : Array LinearMemory) (host : Linked σ) :
    Target.answer ⟨context, f.raw⟩ results userData place values memories host =
      f.respond args place memories host := by
  obtain ⟨slots, carried, given⟩ := carries.decodes
  have finish := carries.finish slots
  cases f with
  | mk params result body =>
    cases body with
    | plain run =>
      obtain ⟨outcome, after, stored, memory, ended⟩ := finish (bytesAt memories place) (run args host.user).2
      simp only [Target.answer, carried, raw, apply, given, respond, stored, memory, writeBack_bytesAt]
      rcases ended with ⟨_, rfl, reply⟩ | ⟨numbers, rfl, reply, read⟩
      · simp only [reply]
        rfl
      · simp only [reply, read, if_true]
    | viewing run =>
      simp only [Target.answer, carried, raw, apply, respond]
      generalize bytesAt memories place = seen
      cases seen with
      | none => cases place <;> rfl
      | some m =>
        obtain ⟨outcome, after, stored, memory, ended⟩ :=
          finish (some (run m args host.user).1.val) (run m args host.user).2.2
        simp only [given, stored, memory]
        rcases ended with ⟨_, rfl, reply⟩ | ⟨numbers, rfl, reply, read⟩
        · simp only [reply]
          rfl
        · simp only [reply, read, if_true]

theorem respond_cases (f : HostFunction σ) (args : Args f.params) (place : Option Nat) (memories : Array LinearMemory)
    (host : Linked σ) :
    (f.respond args place memories host).results = .error unreachable ∨
    ∃ v, (f.respond args place memories host).results = .ok (f.result.toValues v) := by
  have replied (value : Option f.result.Carrier) :
      f.reply value = .error unreachable ∨ ∃ v, f.reply value = .ok (f.result.toValues v) := by
    cases value with
    | none => exact .inl rfl
    | some v => exact .inr ⟨v, rfl⟩
  unfold respond
  split
  · exact replied _
  · split
    · exact replied _
    · exact .inl rfl

theorem types_toValues (f : HostFunction σ) {types : List Wasm.ValType} {v : f.result.Carrier}
    (same : (f.result.map ScalarType.tag).toList = types.map (·.tag)) :
    (f.result.toValues v).map Value.type = types := by
  refine Wasm.types_of_tags ((f.result.tags_toValues v).trans same) fun t among unknown => ?_
  have tag : t.tag ∈ (f.result.map ScalarType.tag).toList := same ▸ List.mem_map_of_mem among
  obtain ⟨scalar, _, scalar_tag⟩ := Option.map_eq_some_iff.mp (Option.mem_toList.mp tag)
  exact scalar.tag_ne_unknown (scalar_tag.trans unknown)

end HostFunction

/-- What becomes of a call of a linked import, for the function that is linked and the arguments that it gets. -/
structure Host.Marshals {σ : Type} (h : Host σ) (f : FunctionRef) (args : List Scalar) (call : ImportCall (Linked σ))
    (m : LoadedModule) (stub : Stub) (g : HostFunction σ) (typed : Args g.params) : Prop where
  carries : g.Carries stub.results call.args typed
  answers : h.store.answer m f.function call =
    g.respond typed (h.store.seenMemory m.inst f.function.index) call.state.memories call.state.user
  /-- There is a memory to look at, unless the host has none and the caller exports none under the name. -/
  unseen : bytesAt call.state.memories (h.store.seenMemory m.inst f.function.index) = none ↔
    h.store.memory = none ∧
      (f.function.index < m.inst.module.importedFuncs.length ∨ m.inst.exportedMemory? "memory" = none)
  /-- Code goes on with the numbers of the result in place of the operands. -/
  yields : ∀ numbers, (h.store.answer m f.function call).results = .ok numbers →
    ∀ c, call.state.importCall? c = some call →
      ∃ frame, call.state.callee? c = some (call.index, frame) ∧
        call.state.step (h.store.hostCall m f.function.index) c =
          .next (call.state.answered (h.store.answer m f.function call))
            ⟨{ frame with values := numbers.reverse ++ frame.values.drop call.args.length }, c.callers⟩
  /-- A failure ends the call from outside, which has no results. Nothing runs any more. -/
  fails : ∀ message, (h.store.answer m f.function call).results = .error message →
    ∃ after e, h.call f args = (after, .error e) ∧ e = .engine (.trap .unreachable) ∧
      e.message = "[trap] unreachable executed" ∧ after.store.results = [] ∧
      after.store.memories = (h.store.answer m f.function call).memories ∧
      after.store.host = (h.store.answer m f.function call).user

theorem Host.call_of_failed_import {σ : Type} {h : Host σ} {call : ImportCall (Linked σ)}
    (made : call ∈ h.importCalls f args) (found : h.store.modules[f.function.module]? = some m)
    (failed : (h.store.answer m f.function call).results = .error unreachable) :
    ∃ after, h.call f args = (after, .error (.engine (.trap .unreachable))) ∧ after.store.results = [] ∧
      after.store.memories = (h.store.answer m f.function call).memories ∧
      after.store.host = (h.store.answer m f.function call).user := by
  obtain ⟨checked, made⟩ := Host.mem_importCalls made
  obtain ⟨t, ended, left⟩ := Store.call_of_failed_import found made failed
  have trap : Fault.ofAbort (.host unreachable) = .trap .unreachable := by decide
  rw [trap] at ended
  refine ⟨{ h with store := t }, ?_, left⟩
  simp only [Host.call, checked, ended]
  rfl

namespace Session

variable {σ : Type} {s : Session σ} {f : FunctionRef} {args : List Scalar} {call : ImportCall (Linked σ)}

/-- The memory that a linked function sees is there whenever it is called. -/
theorem bytesAt_seenMemory (sharing : s.host.store.Sharing) (found : s.host.store.modules[f.function.module]? = some m)
    (made : call ∈ s.host.importCalls f args) :
    bytesAt call.state.memories (s.host.store.seenMemory m.inst f.function.index) = none ↔
      s.host.store.memory = none ∧
        (f.function.index < m.inst.module.importedFuncs.length ∨ m.inst.exportedMemory? "memory" = none) := by
  have layout := Store.importCalls_layout found (Host.mem_importCalls made).2
  have size : call.state.memories.size = s.host.store.memories.size := layout.size
  have unseen : bytesAt call.state.memories (s.host.store.seenMemory m.inst f.function.index) = none ↔
      s.host.store.seenMemory m.inst f.function.index = none := by
    cases seen : s.host.store.seenMemory m.inst f.function.index with
    | none => simp [bytesAt]
    | some place =>
      have inside := sharing.seen_lt (List.mem_of_getElem? found) seen
      simp [bytesAt, Array.getElem?_eq_getElem (size ▸ inside)]
  rw [unseen, Store.seenMemory]
  split
  · rename_i imported
    simp [imported]
  · rename_i own
    simp [own, Option.or_eq_none_iff, and_comm]

/-- The function that was linked last answers, on the values of the operands in its own types. -/
theorem Coherent.responds {m : LoadedModule} (coherent : s.Coherent) (issued : s.Issued f)
    (made : call ∈ s.host.importCalls f args) (reaches : s.host.store.Reaches f.function call m stub slot i type)
    (linked : slot.target = some target) :
    ∃ g typed, s.latest ⟨f.function.module, i.ns, i.name⟩ = some g ∧ g.Carries stub.results call.args typed ∧
      s.host.store.answer m f.function call =
        g.respond typed (s.host.store.seenMemory m.inst f.function.index) call.state.memories call.state.user := by
  obtain ⟨g, latest, fits, _, answered⟩ := coherent.answer_eq made reaches linked
  obtain ⟨_, m', known, offers⟩ := issued
  have made := (Host.mem_importCalls made).2
  obtain ⟨_, form, known, operands⟩ := Store.importCalls_typed offers made
  have module : call.state.inst.module = m.inst.module := (Store.importCalls_layout reaches.found made).module
  obtain ⟨params, _⟩ := reaches.types (module ▸ known)
  have tags : call.args.map (·.type.tag) = g.params.map ScalarType.tag := by
    rw [← fits.params, params, ← operands, List.map_map]
    rfl
  obtain ⟨typed, carries⟩ := g.exists_carries tags (reaches.results.trans fits.results)
  exact ⟨g, typed, latest, carries, answered.trans (HostFunction.answer_raw carries _ _ _ _ _)⟩

/-- Whenever code calls an import that is linked, the function that was linked last gets the values of the operands in
its own types, and code gets the number with the bits of its result. -/
theorem marshalling_exact (reached : s.Reachable) (issued : f ∈ s.functions) (made : call ∈ s.host.importCalls f args) :
    ∃ m stub slot i type, s.host.store.Reaches f.function call m stub slot i type ∧
      ∀ target, slot.target = some target →
        ∃ g typed, s.latest ⟨f.function.module, i.ns, i.name⟩ = some g ∧
          s.host.Marshals f args call m stub g typed := by
  have coherent := reached.coherent
  obtain ⟨_, made'⟩ := Host.mem_importCalls made
  obtain ⟨m, stub, slot, i, type, reaches⟩ := Store.importCalls_reach coherent.wired made'
  refine ⟨m, stub, slot, i, type, reaches, fun target linked => ?_⟩
  obtain ⟨g, latest, fits, _, answered⟩ := coherent.answer_eq made reaches linked
  -- The types of the import are those of the function.
  obtain ⟨_, m', known, offers⟩ := reached.issued f issued
  obtain ⟨_, form, known, operands⟩ := Store.importCalls_typed offers made'
  have module : call.state.inst.module = m.inst.module := (Store.importCalls_layout reaches.found made').module
  obtain ⟨params, results⟩ := reaches.types (module ▸ known)
  have tags : call.args.map (·.type.tag) = g.params.map ScalarType.tag := by
    rw [← fits.params, params, ← operands, List.map_map]
    rfl
  obtain ⟨typed, carries⟩ := g.exists_carries tags (reaches.results.trans fits.results)
  have answers := answered.trans (HostFunction.answer_raw carries _ _ _ _ _)
  have replied := g.respond_cases typed (s.host.store.seenMemory m.inst f.function.index) call.state.memories
    call.state.user
  rw [← answers] at replied
  refine ⟨g, typed, latest, carries, answers, bytesAt_seenMemory reached.sharing reaches.found made, ?_, ?_⟩
  · intro numbers ok c called
    refine Wasm.State.step_of_results called ok fun form' known' => ?_
    cases known.symm.trans known'
    rcases replied with trapped | ⟨v, replied⟩
    · rw [trapped] at ok
      contradiction
    · rw [replied] at ok
      cases ok
      exact g.types_toValues (fits.results.symm.trans results)
  · intro message failed
    rcases replied with trapped | ⟨v, ok⟩
    · obtain ⟨after, ended, left⟩ := Host.call_of_failed_import made reaches.found trapped
      exact ⟨after, _, ended, rfl, rfl, left⟩
    · rw [failed] at ok
      contradiction

end Session

theorem marshalling_exact_relay :
    ∃ call ∈ Relay.session.host.importCalls Relay.handle [⟨.i32, 5⟩], ∃ m stub slot i type,
      Relay.session.host.store.Reaches Relay.handle.function call m stub slot i type ∧ slot.target.isSome ∧
      ∀ target, slot.target = some target →
        ∃ g typed, Relay.session.latest ⟨0, i.ns, i.name⟩ = some g ∧
          Relay.session.host.Marshals Relay.handle [⟨.i32, 5⟩] call m stub g typed := by
  have made := List.getElem_mem (Relay.called ▸ Nat.zero_lt_one)
  obtain ⟨m, stub, slot, i, type, reaches, marshals⟩ := Session.marshalling_exact Relay.reachable Relay.issued made
  have linked := List.all_eq_true.mp Relay.linked slot (List.mem_of_getElem? reaches.placed)
  exact ⟨_, made, m, stub, slot, i, type, reaches, linked, marshals⟩

end WasmBinding
