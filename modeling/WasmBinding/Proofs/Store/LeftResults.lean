import WasmBinding.Proofs.Store.Calling
import WasmBinding.Proofs.Store.Service

/-! What failed calls leave behind. A call that returns values of which one fits into no slot fails, and the slots of the
values in front of that one stay until the next call, whatever function they are asked of. -/

namespace WasmBinding

open Wasm (Value)

/-- As many values get slots as there are types of numbers in front. -/
theorem length_leadingSlots (values : List Value) :
    (leadingSlots values).length = ((values.map (·.type.tag)).takeWhile (· ≠ .unknown)).length := by
  induction values with
  | nil => rfl
  | cons v rest ih =>
    cases carried : v.toSlot? with
    | none =>
      have unknown := Value.toSlot?_eq_none_iff.mp carried
      simp [leadingSlots, carried, unknown]
    | some slot =>
      have known : v.type.tag ≠ .unknown := by
        intro unknown
        rw [Value.toSlot?_eq_none_iff.mpr unknown] at carried
        contradiction
      simp [leadingSlots, carried, known, ih]

namespace Store

variable {σ : Type} {s : Store σ} {f : Function}

theorem getResults_eq_ok_iff :
    s.getResults f n = .ok slots ↔ n = f.results.length ∧ s.results.length = n ∧ slots = s.results := by
  unfold getResults
  split
  · rename_i both
    simp [both, eq_comm]
  · rename_i other
    simp only [reduceCtorEq, false_iff]
    rintro ⟨count, left, _⟩
    exact other ⟨count, left⟩

/-- The values that a function returns if it is called from outside, if it runs and returns. -/
def returned? (s : Store σ) (f : Function) (args : List Slot) : Option (List Value) :=
  match s.modules[f.module]?, f.values args with
  | some m, .ok values => (s.outcome f m values).2.toOption
  | _, _ => none

/-- What is there to be asked for after a call that has failed. -/
def leftBy (s : Store σ) (f : Function) (args : List Slot) : List Slot :=
  match s.returned? f args with
  | some values => leadingSlots values
  | none => []

theorem results_of_failed {m : LoadedModule} (offers : s.Offers f m type) (failed : (s.call f args).2 = .error fault) :
    (s.call f args).1.results = s.leftBy f args := by
  unfold leftBy returned?
  rw [offers.module]
  cases given : f.values args with
  | error refusal =>
    simp only [call, given]
  | ok values =>
    rcases call_outcome offers given with
      ⟨state, results, ended, _, called⟩ | ⟨state, results, ended, _, called⟩ | ⟨state, cause, ended, called⟩
    · rw [called] at failed
      contradiction
    · rw [called]
      simp only [ended, Except.toOption]
      rfl
    · rw [called]
      simp only [ended, Except.toOption]
      rfl

theorem returned?_typed {m : LoadedModule} (offers : s.Offers f m type) (returned : s.returned? f args = some values) :
    values.map (·.type.tag) = f.results := by
  unfold returned? at returned
  rw [offers.module] at returned
  cases given : f.values args with
  | error refusal =>
    rw [given] at returned
    contradiction
  | ok operands =>
    rw [given] at returned
    cases ended : s.outcome f m operands with
    | mk state answer =>
      simp only [ended] at returned
      cases answer with
      | error cause => contradiction
      | ok results =>
        cases returned
        exact outcome_typed offers ended

end Store

namespace Service

variable {σ : Type} {u v w : Service σ} {f g h : Function}

/-- Anything but a call that succeeds. -/
def AllowsFailing (v : Service σ) (r : Request σ) : Prop :=
  v.Allows r ∧ ∀ f args, r = .call f args → (v.store.call f args).2 ≠ .ok ()

/-- Anything but a call. -/
def AllowsQuiet (v : Service σ) (r : Request σ) : Prop := v.Allows r ∧ r.isCall = false

theorem Leads.results (leads : v.Leads AllowsQuiet w) : w.store.results = v.store.results := by
  induction leads with
  | refl => rfl
  | @serve w _ r allowed ih =>
    have use := use_serve w r
    rw [allowed.2] at use
    exact use.results.trans ih

/-- The last call on the way from one service to another is one that fails. -/
structure LastFailure (v u w : Service σ) (h : Function) (given : List Slot) : Prop where
  before : v.Leads AllowsFailing u
  offered : h ∈ u.functions
  failed : ∃ fault, (u.store.call h given).2 = .error fault
  since : (u.serve (.call h given)).Leads AllowsQuiet w

theorem exists_lastFailure (offered : f ∈ v.functions) (failed : (v.store.call f args).2 = .error fault)
    (leads : (v.serve (.call f args)).Leads AllowsFailing w) : ∃ u h given, LastFailure v u w h given := by
  have first : v.AllowsFailing (.call f args) := by
    refine ⟨offered, ?_⟩
    rintro _ _ ⟨⟩ succeeded
    rw [failed] at succeeded
    contradiction
  induction leads with
  | refl => exact ⟨v, f, args, .refl, offered, ⟨fault, failed⟩, .refl⟩
  | @serve w leads r allowed ih =>
    cases called : r.isCall with
    | false =>
      obtain ⟨u, h, given, last⟩ := ih
      exact ⟨u, h, given, last.before, last.offered, last.failed, last.since.serve r ⟨allowed.1, called⟩⟩
    | true =>
      obtain ⟨h, given, rfl⟩ := Request.isCall_iff.mp called
      refine ⟨w, h, given, leads.ahead first, allowed.1, ?_, .refl⟩
      cases ended : (w.store.call h given).2 with
      | error fault => exact ⟨fault, rfl⟩
      | ok => exact absurd ended (allowed.2 h given rfl)

theorem LastFailure.results (last : LastFailure v u w h given) (reached : v.Reachable) :
    w.store.results = u.store.leftBy h given := by
  have reached := last.before.reachable (fun _ _ allowed => allowed.1) reached
  obtain ⟨m, type, offers⟩ := reached.offers h last.offered
  obtain ⟨fault, failed⟩ := last.failed
  exact last.since.results.trans (Store.results_of_failed offers failed)

/-- What can be asked for after a failed call and before a call that succeeds: what the last of the failed calls has left.
That is nothing, unless its function has returned a number in front of a value that fits into no slot. -/
theorem left_results_iff (reached : v.Reachable) (offered : f ∈ v.functions)
    (failed : (v.store.call f args).2 = .error fault) (leads : (v.serve (.call f args)).Leads AllowsFailing w) :
    ∃ u h given, LastFailure v u w h given ∧ ∀ (g : Function) (n : Nat) (slots : List Slot), 0 < n →
      (w.store.getResults g n = .ok slots ↔
        ∃ values, u.store.returned? h given = some values ∧ slots = leadingSlots values ∧ n = g.results.length ∧
          n = (h.results.takeWhile (· ≠ .unknown)).length) := by
  obtain ⟨u, h, given, last⟩ := exists_lastFailure offered failed leads
  refine ⟨u, h, given, last, ?_⟩
  intro g n slots some
  rw [Store.getResults_eq_ok_iff, last.results reached, Store.leftBy]
  have reached := last.before.reachable (fun _ _ allowed => allowed.1) reached
  obtain ⟨m, type, offers⟩ := reached.offers h last.offered
  cases returned : u.store.returned? h given with
  | none =>
    simp only [List.length_nil, reduceCtorEq, false_and, exists_false, iff_false]
    rintro ⟨_, none, _⟩
    omega
  | some values =>
    have types := Store.returned?_typed offers returned
    have count := length_leadingSlots values
    rw [types] at count
    simp only [count, Option.some.injEq]
    constructor
    · rintro ⟨asked, left, rfl⟩
      exact ⟨values, rfl, rfl, asked, left.symm⟩
    · rintro ⟨_, rfl, rfl, asked, left⟩
      exact ⟨asked, left.symm, rfl⟩

end Service

namespace Mixed

/-- Exports `f`, which returns 7 and a null reference, and `g`, which returns 1. -/
def binary : Wasm.Bytes :=
  [0x00, 0x61, 0x73, 0x6d, 0x01, 0x00, 0x00, 0x00,
    0x01, 0x0a, 0x02, 0x60, 0x00, 0x02, 0x7f, 0x70, 0x60, 0x00, 0x01, 0x7f,
    0x03, 0x03, 0x02, 0x00, 0x01,
    0x07, 0x09, 0x02, 0x01, 0x66, 0x00, 0x00, 0x01, 0x67, 0x00, 0x01,
    0x0a, 0x0d, 0x02, 0x06, 0x00, 0x41, 0x07, 0xd0, 0x70, 0x0b, 0x04, 0x00, 0x41, 0x01, 0x0b]

def requests : List (Request Nat) :=
  [.load Sample.service.store.environment binary, .findFunction "f", .findFunction "g"]

def service : Service Nat := requests.foldl Service.serve Sample.service

def pair : Function := ⟨0, 0, [], [.i32, .unknown]⟩

def single : Function := ⟨0, 1, [], [.i32]⟩

theorem reachable : service.Reachable := by
  have loaded := Sample.reachable_service.serve (.load Sample.service.store.environment binary) trivial
  exact (loaded.serve (.findFunction "f") trivial).serve (.findFunction "g") trivial

theorem offered : pair ∈ service.functions ∧ single ∈ service.functions := by decide +kernel

theorem left : (service.store.call pair []).1.results = [7] := by decide +kernel

theorem failed : (service.store.call pair []).2 = .error .signatureMismatch := by
  obtain ⟨m, type, offers⟩ := reachable.offers pair offered.1
  have given : pair.values [] = .ok [] := rfl
  rcases Store.call_outcome offers given with ⟨_, _, _, carried, _⟩ | ⟨_, _, _, _, called⟩ | ⟨_, _, _, called⟩
  · exact absurd (by decide) carried
  · rw [called]
  · have left := left
    rw [called] at left
    contradiction

theorem exposed : (service.serve (.call pair [])).store.getResults single 1 = .ok [7] :=
  Store.getResults_eq_ok_iff.mpr ⟨rfl, congrArg List.length left, left.symm⟩

end Mixed

/-- The call has failed, and its number can be asked for as a result of another function. -/
theorem number_of_failed_call_exposed :
    Mixed.service.Reachable ∧ Mixed.pair ∈ Mixed.service.functions ∧ Mixed.single ∈ Mixed.service.functions ∧
      (Mixed.service.store.call Mixed.pair []).2 = .error .signatureMismatch ∧
      (Mixed.service.serve (.call Mixed.pair [])).store.getResults Mixed.single 1 = .ok [7] :=
  ⟨Mixed.reachable, Mixed.offered.1, Mixed.offered.2, Mixed.failed, Mixed.exposed⟩

theorem left_results_iff_mixed :
    ∃ u h given values, Service.LastFailure Mixed.service u (Mixed.service.serve (.call Mixed.pair [])) h given ∧
      u.store.returned? h given = some values ∧ leadingSlots values = [7] ∧
      (h.results.takeWhile (· ≠ .unknown)).length = 1 := by
  obtain ⟨u, h, given, last, exposed⟩ :=
    Service.left_results_iff Mixed.reachable Mixed.offered.1 Mixed.failed .refl
  obtain ⟨values, returned, slots, _, count⟩ := (exposed Mixed.single 1 [7] Nat.zero_lt_one).mp Mixed.exposed
  exact ⟨u, h, given, values, last, returned, slots.symm, count.symm⟩

end WasmBinding
