import WasmBinding.Proofs.Host.Marshalling
import WasmBinding.Proofs.Host.Resolution
import WasmBinding.Proofs.Store.Calling

/-! What a call comes to. One that is refused runs nothing. Any other runs once, and returns, or loses results that no slot
can hold, or ends in a trap; whatever the linked functions do, there is nothing else. -/

namespace WasmBinding

open Wasm (Abort ImportCall Trap Value)

theorem Wasm.Trap.mark_prefix (cause : Trap) : Trap.mark.toList <+: cause.message.toList := by
  cases cause <;> decide +kernel

/-- The words in which a linked function fails are those of a trap. -/
theorem Fault.ofAbort_unreachable : ofAbort (.host unreachable) = .trap .unreachable := by decide +kernel

namespace Host

variable {σ : Type}

/-- The run that a call starts, and how it ends. A call that is refused starts none. -/
def ran? (h : Host σ) (f : FunctionRef) (args : List Scalar) :
    Option (Wasm.State (Linked σ) × Except Abort (List Value)) :=
  match h.checkCall f args, h.store.modules[f.function.module]? with
  | .ok (), some m => some (h.store.outcome f.function m (args.map Scalar.toValue))
  | _, _ => none

/-- The run that a call for a result starts; a result of another type is refused as well. -/
def ranFor? (h : Host σ) (f : FunctionRef) (type : ScalarType) (args : List Scalar) :
    Option (Wasm.State (Linked σ) × Except Abort (List Value)) :=
  if f.function.results = [type.tag] then h.ran? f args else none

/-- A host after a run that has left some results for the caller. -/
def finished (h : Host σ) (f : FunctionRef) (state : Wasm.State (Linked σ)) (results : List Slot) : Host σ :=
  { h with store := h.store.finished f.function state results }

/-- All that a call can come to. -/
inductive Ending (h : Host σ) (f : FunctionRef) (args : List Scalar) : Host σ × Except Error Unit → Prop where
  | refused (idle : h.ran? f args = none) : Ending h f args (h, .error .invalidSignature)
  | returned (ran : h.ran? f args = some (state, .ok values)) (types : values.map (·.type.tag) = f.function.results)
      (carried : .unknown ∉ f.function.results) :
      Ending h f args (h.finished f state (leadingSlots values), .ok ())
  | lost (ran : h.ran? f args = some (state, .ok values)) (unknown : .unknown ∈ f.function.results) :
      Ending h f args (h.finished f state (leadingSlots values), .error .invalidSignature)
  | trapped {trap : Trap} (ran : h.ran? f args = some (state, .error cause)) (same : Fault.ofAbort cause = .trap trap) :
      Ending h f args (h.finished f state [], .error (.engine (.trap trap)))

/-- All that a call for a result of a type can come to. -/
inductive EndingFor (h : Host σ) (f : FunctionRef) (type : ScalarType) (args : List Scalar) :
    Host σ × Except Error type.Carrier → Prop where
  | refused (idle : h.ranFor? f type args = none) : EndingFor h f type args (h, .error .invalidSignature)
  | returned (v : type.Carrier) (ran : h.ranFor? f type args = some (state, .ok [type.toValue v])) :
      EndingFor h f type args (h.finished f state [type.toSlot v], .ok v)
  | trapped {trap : Trap} (ran : h.ranFor? f type args = some (state, .error cause))
      (same : Fault.ofAbort cause = .trap trap) :
      EndingFor h f type args (h.finished f state [], .error (.engine (.trap trap)))

namespace EndingFor

variable {h : Host σ} {type : ScalarType} {after : Host σ × Except Error type.Carrier}

theorem refused_iff (ending : h.EndingFor f type args after) :
    after.2 = .error .invalidSignature ↔ h.ranFor? f type args = none := by
  cases ending with
  | refused idle => simp [idle]
  | returned v ran => simp [ran]
  | trapped ran => simp [ran]

theorem unchanged (ending : h.EndingFor f type args after) (idle : h.ranFor? f type args = none) : after.1 = h := by
  cases ending with
  | refused => rfl
  | returned v ran | trapped ran =>
    rw [idle] at ran
    contradiction

end EndingFor

/-- The results that a run has left are there until the next one. -/
theorem getResults_finished {results : List Slot} (count : results.length = f.function.results.length) (h : Host σ)
    (state : Wasm.State (Linked σ)) :
    (h.finished f state results).store.getResults f.function results.length = .ok results := by
  simp [finished, Store.finished, Store.getResults, count]

end Host

namespace Session

variable {σ : Type} {s : Session σ} {f : FunctionRef} {args : List Scalar} {call : ImportCall (Linked σ)}

theorem Issued.checkCall (issued : s.Issued f) (args : List Scalar) :
    s.host.checkCall f args =
      if args.map (·.type.tag) = f.function.params then .ok () else .error .invalidSignature := by
  simp only [Host.checkCall, Host.own, issued.1, if_true, bind, Except.bind]

theorem Issued.ran?_eq_some {m : LoadedModule} (issued : s.Issued f)
    (found : s.host.store.modules[f.function.module]? = some m) (fits : args.map (·.type.tag) = f.function.params) :
    s.host.ran? f args = some (s.host.store.outcome f.function m (args.map Scalar.toValue)) := by
  simp only [Host.ran?, issued.checkCall args, if_pos fits, found]

theorem Issued.ran?_eq_none_iff (issued : s.Issued f) (args : List Scalar) :
    s.host.ran? f args = none ↔ args.map (·.type.tag) ≠ f.function.params := by
  obtain ⟨m, type, offers⟩ := issued.2
  rw [Host.ran?, issued.checkCall args, offers.module]
  by_cases fits : args.map (·.type.tag) = f.function.params
  · simp [fits]
  · simp [fits]

/-- A linked function that fails is reported in the one way there is, provided that a linked function is what stands
behind the call. -/
theorem Coherent.unreachable_of_failed {m : LoadedModule} (coherent : s.Coherent) (resolved : s.Resolved f)
    (found : s.host.store.modules[f.function.module]? = some m) (made : call ∈ s.host.importCalls f args)
    (failed : (s.host.store.answer m f.function call).results = .error message) : message = unreachable := by
  have made' := (Host.mem_importCalls made).2
  obtain ⟨m', stub, slot, i, type, reaches⟩ := Store.importCalls_reach coherent.wired made'
  cases found.symm.trans reaches.found
  obtain ⟨target, linked⟩ := Option.isSome_iff_exists.mp (resolved.target reaches)
  obtain ⟨g, typed, _, _, answered⟩ := coherent.responds resolved.issued made reaches linked
  rw [answered] at failed
  rcases g.respond_cases typed (s.host.store.seenMemory m.inst f.function.index) call.state.memories call.state.user
    with trapped | ⟨v, replied⟩
  · rw [trapped] at failed
    exact (Except.error.inj failed).symm
  · rw [replied] at failed
    contradiction

theorem Reachable.call_ending (reached : s.Reachable) (resolved : s.Resolved f) (args : List Scalar) :
    s.host.Ending f args (s.host.call f args) := by
  have issued := resolved.issued
  obtain ⟨m, type, offers⟩ := issued.2
  by_cases fits : args.map (·.type.tag) = f.function.params
  · have checked : s.host.checkCall f args = .ok () := by rw [issued.checkCall args, if_pos fits]
    have given := Function.values_scalars fits
    have ran := issued.ran?_eq_some offers.module fits
    rcases Store.call_outcome offers given with
      ⟨state, values, ended, carried, called⟩ | ⟨state, values, ended, unknown, called⟩ | ⟨state, cause, ended, called⟩
    all_goals
      rw [ended] at ran
      simp only [Host.call, checked, called]
    · exact .returned ran (Store.outcome_typed offers ended) carried
    · exact .lost ran unknown
    · cases cause with
      | trap cause => exact .trapped ran rfl
      | host message =>
        obtain ⟨call, made, failed⟩ := Store.outcome_failed offers.module given ended
        have made : call ∈ s.host.importCalls f args := by
          simp only [Host.importCalls, checked]
          exact made
        cases reached.coherent.unreachable_of_failed resolved offers.module made failed
        rw [Fault.ofAbort_unreachable]
        exact .trapped ran Fault.ofAbort_unreachable
  · have refused : s.host.call f args = (s.host, .error .invalidSignature) := by
      simp only [Host.call, issued.checkCall args, if_neg fits]
    rw [refused]
    exact .refused ((issued.ran?_eq_none_iff args).mpr fits)

/-- Whenever a function was looked up, and whatever has been loaded and linked since then: a call of it succeeds, or is
refused for its types, or ends in a trap. What it calls is always linked, and if a linked function fails, the call ends in
the trap that stands for that. -/
theorem call_outcomes (reached : s.Reachable) (issued : f ∈ s.functions) (args : List Scalar) :
    ((s.host.call f args).2 = .ok () ∨ (s.host.call f args).2 = .error .invalidSignature ∨
      ∃ trap : Trap, (s.host.call f args).2 = .error (.engine (.trap trap)) ∧
        (Error.engine (.trap trap)).isTrap = true ∧ Trap.mark.toList <+: (Error.engine (.trap trap)).message.toList) ∧
    ∀ call ∈ s.host.importCalls f args, ∃ m stub slot i type,
      s.host.store.Reaches f.function call m stub slot i type ∧ slot.target.isSome = true ∧
      ∀ message, (s.host.store.answer m f.function call).results = .error message →
        (s.host.call f args).2 = .error (.engine (.trap .unreachable)) := by
  have resolved := reached.resolved f issued
  constructor
  · have ending := reached.call_ending resolved args
    generalize s.host.call f args = after at ending
    cases ending with
    | refused => exact .inr (.inl rfl)
    | returned => exact .inl rfl
    | lost => exact .inr (.inl rfl)
    | @trapped _ _ trap => exact .inr (.inr ⟨trap, rfl, rfl, trap.mark_prefix⟩)
  · intro call made
    obtain ⟨m, stub, slot, i, type, reaches, linked⟩ := reaches_target reached resolved made
    refine ⟨m, stub, slot, i, type, reaches, linked, fun message failed => ?_⟩
    cases reached.coherent.unreachable_of_failed resolved reaches.found made failed
    obtain ⟨after, called, _⟩ := Host.call_of_failed_import made reaches.found failed
    rw [called]

theorem Reachable.callFor_ending (reached : s.Reachable) (resolved : s.Resolved f) (type : ScalarType)
    (args : List Scalar) : s.host.EndingFor f type args (s.host.callFor f type args) := by
  by_cases single : f.function.results = [type.tag]
  · have same : s.host.ranFor? f type args = s.host.ran? f args := if_pos single
    have ending := reached.call_ending resolved args
    generalize called : s.host.call f args = after at ending
    simp only [Host.callFor, if_neg (Decidable.not_not.mpr single), called]
    cases ending with
    | refused idle => exact .refused (same.trans idle)
    | @returned state values ran types carried =>
      rw [single] at types
      obtain ⟨value, rfl, tag⟩ := List.map_eq_singleton_iff.mp types
      obtain ⟨v, rfl⟩ := ScalarType.exists_toValue tag
      have slots : leadingSlots [type.toValue v] = [type.toSlot v] := by simp [leadingSlots]
      have count : [type.toSlot v].length = f.function.results.length := by rw [single]; rfl
      have fetched : (s.host.finished f state [type.toSlot v]).store.getResults f.function 1 = .ok [type.toSlot v] :=
        Host.getResults_finished count s.host state
      simp only [slots, fetched, orError, List.head?_cons, ScalarType.ofSlot_toSlot]
      exact .returned v (same.trans ran)
    | lost ran unknown =>
      rw [single] at unknown
      exact absurd (List.mem_singleton.mp unknown).symm type.tag_ne_unknown
    | trapped ran trap => exact .trapped (same.trans ran) trap
  · have refused : s.host.callFor f type args = (s.host, .error .invalidSignature) := if_pos single
    rw [refused]
    exact .refused (if_neg single)

/-- A call is reported to have been refused for its types exactly if it was, and then nothing ran, or if the function ran
and returned something that no slot can hold, and then its effects stay. A call for a result of a type is reported so only
if nothing ran. -/
theorem invalidSignature_iff (reached : s.Reachable) (issued : f ∈ s.functions) (args : List Scalar) :
    ((s.host.call f args).2 = .error .invalidSignature ↔
      s.host.ran? f args = none ∨
        .unknown ∈ f.function.results ∧ ∃ state values, s.host.ran? f args = some (state, .ok values) ∧
          (s.host.call f args).1 = s.host.finished f state (leadingSlots values)) ∧
    (s.host.ran? f args = none ↔ args.map (·.type.tag) ≠ f.function.params) ∧
    (s.host.ran? f args = none → (s.host.call f args).1 = s.host ∧ s.host.importCalls f args = []) ∧
    ∀ type : ScalarType, (s.host.callFor f type args).2 = .error .invalidSignature →
      s.host.ranFor? f type args = none ∧ (s.host.callFor f type args).1 = s.host := by
  have resolved := reached.resolved f issued
  have idle_iff := resolved.issued.ran?_eq_none_iff args
  have ending := reached.call_ending resolved args
  refine ⟨?_, idle_iff, fun idle => ?_, fun type refused => ?_⟩
  · generalize s.host.call f args = after at ending
    cases ending with
    | refused idle => exact iff_of_true rfl (.inl idle)
    | returned ran _ carried => simp [ran, carried]
    | lost ran unknown => exact iff_of_true rfl (.inr ⟨unknown, _, _, ran, rfl⟩)
    | trapped ran => simp [ran]
  · have types := idle_iff.mp idle
    have refused : s.host.checkCall f args = .error .invalidSignature := by
      rw [resolved.issued.checkCall args, if_neg types]
    simp only [Host.call, Host.importCalls, refused, and_self]
  · have ending := reached.callFor_ending resolved type args
    have idle := ending.refused_iff.mp refused
    exact ⟨idle, ending.unchanged idle⟩

end Session

theorem call_outcomes_relay :
    (Relay.session.host.call Relay.handle [⟨.i32, 5⟩]).2 = .ok () ∧
      ∃ call ∈ Relay.session.host.importCalls Relay.handle [⟨.i32, 5⟩], ∃ m stub slot i type,
        Relay.session.host.store.Reaches Relay.handle.function call m stub slot i type ∧ slot.target.isSome = true := by
  obtain ⟨outcome, linked⟩ := Session.call_outcomes Relay.reachable Relay.issued [⟨.i32, 5⟩]
  have succeeded : (Relay.session.host.call Relay.handle [⟨.i32, 5⟩]).2.isOk = true := by decide +kernel
  have made := List.getElem_mem (Relay.called ▸ Nat.zero_lt_one)
  obtain ⟨m, stub, slot, i, type, reaches, target, _⟩ := linked _ made
  refine ⟨?_, _, made, m, stub, slot, i, type, reaches, target⟩
  rcases outcome with returned | refused | ⟨trap, trapped, _⟩
  · exact returned
  · rw [refused] at succeeded
    cases succeeded
  · rw [trapped] at succeeded
    cases succeeded

theorem exists_ok_of_any {α β ε : Type} {o : Option (α × Except ε β)} (ok : o.any (·.2.isOk) = true) :
    ∃ a b, o = some (a, .ok b) := by
  obtain ⟨⟨a, answer⟩, rfl, ok⟩ := (Option.any_eq_true _ _).mp ok
  cases answer with
  | error e => contradiction
  | ok b => exact ⟨a, b, rfl⟩

namespace Lost

/-- Imports `e.f` and exports `r`, which stores 7 at address 0 of the memory `m`, calls `e.f` and answers a null
reference. -/
def binary : Wasm.Bytes :=
  [0x00, 0x61, 0x73, 0x6d, 0x01, 0x00, 0x00, 0x00,
    0x01, 0x08, 0x02, 0x60, 0x00, 0x00, 0x60, 0x00, 0x01, 0x70,
    0x02, 0x07, 0x01, 0x01, 0x65, 0x01, 0x66, 0x00, 0x00,
    0x03, 0x02, 0x01, 0x01,
    0x05, 0x03, 0x01, 0x00, 0x01,
    0x07, 0x09, 0x02, 0x01, 0x6d, 0x02, 0x00, 0x01, 0x72, 0x00, 0x01,
    0x0a, 0x0f, 0x01, 0x0d, 0x00, 0x41, 0x00, 0x41, 0x07, 0x3a, 0x00, 0x00, 0x10, 0x00, 0xd0, 0x70, 0x0b]

/-- Counts its calls. -/
def counting : HostFunction Nat where
  params := []
  result := none
  body := .plain fun _ count => (count + 1, some ())

def session : Session Nat :=
  ((Sample.start.perform (.parseAndLoad binary)).perform (.link ⟨0, 0⟩ "e" "f" counting)).perform (.findFunction "r")

def handle : FunctionRef := ⟨0, ⟨0, 1, [], [.unknown]⟩⟩

theorem reachable : session.Reachable := by
  have loaded := Sample.reachable_start.perform (.parseAndLoad binary) trivial
  have linked := loaded.perform (.link ⟨0, 0⟩ "e" "f" counting) trivial
  exact linked.perform (.findFunction "r") trivial

theorem issued : handle ∈ session.functions := by decide +kernel

theorem ran : ∃ state values, session.host.ran? handle [] = some (state, .ok values) :=
  exists_ok_of_any (by decide +kernel)

theorem refused : (session.host.call handle []).2 = .error .invalidSignature := by
  obtain ⟨state, values, ran⟩ := ran
  have ending := reachable.call_ending (reachable.resolved handle issued) []
  generalize session.host.call handle [] = after at ending
  cases ending with
  | refused | lost => rfl
  | returned _ _ carried => exact absurd (List.mem_singleton_self _) carried
  | trapped other =>
    rw [ran] at other
    cases other

end Lost

/-- The call is reported to have been refused for its types, but it has written to the memory and called what is linked. -/
theorem lost_result_ran :
    Lost.session.Reachable ∧ Lost.handle ∈ Lost.session.functions ∧
      (Lost.session.host.call Lost.handle []).2 = .error .invalidSignature ∧
      (Lost.session.host.call Lost.handle []).1.user ≠ Lost.session.host.user ∧
      (Lost.session.host.call Lost.handle []).1.store.memory?.map (·.byte 0) ≠
        Lost.session.host.store.memory?.map (·.byte 0) ∧
      (Lost.session.host.importCalls Lost.handle []).length = 1 :=
  ⟨Lost.reachable, Lost.issued, Lost.refused, by decide +kernel, by decide +kernel, by decide +kernel⟩

theorem invalidSignature_iff_lost :
    ∃ state values, Lost.session.host.ran? Lost.handle [] = some (state, .ok values) ∧
      (Lost.session.host.call Lost.handle []).1 = Lost.session.host.finished Lost.handle state (leadingSlots values) := by
  obtain ⟨state, values, ran⟩ := Lost.ran
  rcases (Session.invalidSignature_iff Lost.reachable Lost.issued []).1.mp Lost.refused with idle | ⟨_, left⟩
  · rw [idle] at ran
    contradiction
  · exact left

end WasmBinding
