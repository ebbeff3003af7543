import WasmBinding.Proofs.Store.Calling
import WasmBinding.Proofs.Wasm.Answers
import WasmBinding.Proofs.Wasm.SlotBits

/-! Calls of raw functions. A raw function finds zeros for its results and behind them the operands of the call, each in a slot
that holds nothing else; of what it leaves, code gets the values of the result types. -/

namespace WasmBinding

open Wasm (HostReply ImportCall LinearMemory Value)

variable {σ : Type}

/-- What a raw function is called on, unless an operand fits into no slot. -/
def exchange? (results : List ValueTag) (place : Option Nat) (args : List Value) (memories : Array LinearMemory) :
    Option Exchange :=
  (args.mapM Value.toSlot?).map fun slots => ⟨List.replicate results.length 0 ++ slots, bytesAt memories place⟩

def Target.reply (target : Target σ) (userData : Nat) (e : Exchange) (host : σ) : RawReply σ e :=
  target.function ⟨userData, target.context, e⟩ host

namespace RawReply

variable {e : Exchange} {a b : RawReply σ e}

/-- What becomes of a reply: the memory is written back, and the results are read. -/
def finish (reply : RawReply σ e) (results : List ValueTag) (place : Option Nat) (memories : Array LinearMemory) :
    HostReply σ :=
  let memories := writeBack memories place reply.exchange.val.memory
  match reply.trap with
  | some message => ⟨memories, reply.host, .error message⟩
  | none =>
    match (reply.exchange.val.stack.zip results).mapM fun (slot, tag) => Value.ofSlot? slot tag with
    | some values => ⟨memories, reply.host, .ok values⟩
    | none => ⟨memories, reply.host, .error unreachable⟩

/-- Two replies that differ in nothing but what the slots hold beside the results. -/
structure Alike (results : List ValueTag) (a b : RawReply σ e) : Prop where
  host : b.host = a.host
  trap : b.trap = a.trap
  memory : b.exchange.val.memory = a.exchange.val.memory
  slots : ValueTag.SameValues results a.exchange.val.stack b.exchange.val.stack

theorem Alike.refl (results : List ValueTag) (a : RawReply σ e) : a.Alike results a := ⟨rfl, rfl, rfl, .refl _ _⟩

theorem Alike.finish (alike : a.Alike results b) (place : Option Nat) (memories : Array LinearMemory) :
    b.finish results place memories = a.finish results place memories := by
  simp only [RawReply.finish, alike.host, alike.trap, alike.memory, Value.mapM_ofSlot?_congr alike.slots]

end RawReply

theorem Target.answer_eq (target : Target σ) (results : List ValueTag) (userData : Nat) (place : Option Nat)
    (args : List Value) (memories : Array LinearMemory) (host : σ) :
    target.answer results userData place args memories host =
      match exchange? results place args memories with
      | some e => (target.reply userData e host).finish results place memories
      | none => ⟨memories, host, .error unreachable⟩ := by
  unfold answer exchange?
  cases args.mapM Value.toSlot? <;> rfl

namespace Store

variable {s : Store σ} {f : Function} {args : List Slot} {call : ImportCall σ} {results : List ValueTag} {e : Exchange}

/-- The target of a slot. -/
def targetAt (s : Store σ) (slot : Nat) : Option (Target σ) := s.imports[slot]?.bind ImportSlot.target

/-- While a function runs that was called from outside, code calls what stands behind a slot: on an exchange, and with the
state that the embedder has by then. Results of some types are read from what it leaves. -/
inductive Asks (s : Store σ) (f : Function) (args : List Slot) : (slot : Nat) → List ValueTag → Exchange → σ → Prop
  | call {m : LoadedModule} {call : ImportCall σ} {stub : Stub} {e : Exchange} (found : s.modules[f.module]? = some m)
    (made : call ∈ s.importCalls f args) (bound : m.stubs[call.index]? = some stub)
    (carried : exchange? stub.results (s.seenMemory m.inst f.index) call.args call.state.memories = some e) :
    Asks s f args stub.slot stub.results e call.state.user

/-- An imported function is looked up anew at each call. -/
theorem answer_eq (s : Store σ) (m : LoadedModule) (f : Function) (call : ImportCall σ) :
    s.answer m f call =
      match m.stubs[call.index]?, m.stubs[call.index]?.bind fun stub => s.targetAt stub.slot with
      | some stub, some target =>
        match exchange? stub.results (s.seenMemory m.inst f.index) call.args call.state.memories with
        | some e => (target.reply s.userData e call.state.user).finish stub.results (s.seenMemory m.inst f.index)
            call.state.memories
        | none => ⟨call.state.memories, call.state.user, .error unreachable⟩
      | _, _ => missing call.state.memories call.state.user := by
  simp only [answer, hostCall, dispatch, Target.answer_eq, missing]
  rfl

/-- Calls of imported functions are refused, or answered by a raw function on such an exchange. -/
theorem answer_cases {m : LoadedModule} (found : s.modules[f.module]? = some m) (made : call ∈ s.importCalls f args) :
    (∃ message, s.answer m f call = ⟨call.state.memories, call.state.user, .error message⟩) ∨
    ∃ slot results e target, s.Asks f args slot results e call.state.user ∧ s.targetAt slot = some target ∧
      s.answer m f call = (target.reply s.userData e call.state.user).finish results (s.seenMemory m.inst f.index)
        call.state.memories := by
  rw [answer_eq]
  split
  · rename_i stub target bound linked
    rw [bound, Option.bind_some] at linked
    split
    · rename_i e carried
      exact .inr ⟨_, _, e, target, .call found made bound carried, linked, rfl⟩
    · exact .inl ⟨_, rfl⟩
  · exact .inl ⟨_, rfl⟩

/-- An exchange for a slot: zeros in the place of the results, and canonical slots of the operands. -/
structure Offered (slot : ImportSlot σ) (e : Exchange) (operands : List Slot) : Prop where
  stack : e.stack = List.replicate slot.results.length 0 ++ operands
  length : operands.length = slot.params.length
  canonical : ∀ (i : Nat) (tag : ValueTag) (x : Slot), slot.params[i]? = some tag → operands[i]? = some x → tag.Canonical x

/-- Raw functions are called on such exchanges only. -/
theorem Asks.offered {m : LoadedModule} (wired : s.Wired) (offers : s.Offers f m type)
    {host : σ} (asks : s.Asks f args place results e host) :
    ∃ slot operands, s.imports[place]? = some slot ∧ results = slot.results ∧ Offered slot e operands := by
  cases asks with
  | @call _ call stub _ found made bound carried =>
    obtain ⟨_, _, slot, i, number, reaches⟩ := importCalls_reach wired made
    cases found.symm.trans reaches.found
    cases bound.symm.trans reaches.bound
    cases found.symm.trans offers.module
    obtain ⟨_, form, known, operands⟩ := importCalls_typed offers made
    have module : call.state.inst.module = m.inst.module := (importCalls_layout found made).module
    obtain ⟨params, _⟩ := reaches.types (module ▸ known)
    obtain ⟨given, slots, rfl⟩ := Option.map_eq_some_iff.mp carried
    have same := Value.map_of_mapM slots
    have length : given.length = slot.params.length := by
      have lengths := congrArg List.length same
      have types := congrArg List.length operands
      simp only [List.length_map] at lengths types
      rw [params, List.length_map, lengths, types]
    refine ⟨slot, given, reaches.placed, reaches.results, ?_, length, fun i tag x known here => ?_⟩
    · rw [reaches.results]
    · obtain ⟨v, there, _, canonical⟩ := Value.exists_of_carried ⟨[], (List.append_nil _).trans same⟩ here
      have typed : (call.args.map Value.type)[i]? = some v.type := by
        rw [List.getElem?_map, there]
        rfl
      rw [params, ← operands, List.getElem?_map, typed] at known
      cases known
      exact canonical

/-- Whenever a raw function is called in the one store, the one in its place in the other gives the same reply, but for what
the slots hold beside the results. -/
def RepliesAlike (s t : Store σ) (f : Function) (args : List Slot) : Prop :=
  ∀ slot results e host, s.Asks f args slot results e host → ∀ a b, s.targetAt slot = some a → t.targetAt slot = some b →
    (a.reply s.userData e host).Alike results (b.reply t.userData e host)

end Store
end WasmBinding
