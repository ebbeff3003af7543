import WasmBinding.Host.Basic
import WasmBinding.Proofs.Store.SilentLoad
import WasmBinding.Proofs.Wasm.Constants
import WasmBinding.Proofs.Wasm.Endings

/-! Environments of modules. A host and its store each look whether a module comes from their environment, one at the place
where it lies and one at its number; these agree, so that the host refuses all that the store would. -/

namespace WasmBinding

open Wasm (HostCall)

/-- The environments that a process has made, each in a place of its own, and the number of the next. -/
structure Environments where
  made : List Environment := []
  next : Nat := 1

namespace Environments

variable {all : Environments} {a b : Environment} {i j : Nat}

def make (all : Environments) (settings : Settings) : Environments :=
  ⟨all.made ++ [⟨all.next, settings⟩], all.next + 1⟩

/-- An environment that cannot be made takes a number all the same. -/
def skip (all : Environments) : Environments := { all with next := all.next + 1 }

inductive Reachable : Environments → Prop
  | empty : Reachable {}
  | make {all : Environments} (reached : Reachable all) (settings : Settings) : Reachable (all.make settings)
  | skip {all : Environments} (reached : Reachable all) : Reachable all.skip

/-- Later environments have greater numbers. -/
theorem Reachable.numbered (reached : all.Reachable) :
    all.made.Pairwise (fun a b => a.id < b.id) ∧ ∀ e ∈ all.made, e.id < all.next := by
  induction reached with
  | empty => exact ⟨.nil, by simp⟩
  | @make all reached settings ih =>
    obtain ⟨rising, below⟩ := ih
    constructor
    · rw [Environments.make, List.pairwise_append]
      refine ⟨rising, List.pairwise_singleton .., fun a among b new => ?_⟩
      cases List.mem_singleton.mp new
      exact below a among
    · intro e among
      rcases List.mem_append.mp among with old | new
      · exact Nat.lt_succ_of_lt (below e old)
      · cases List.mem_singleton.mp new
        exact Nat.lt_succ_self _
  | skip reached ih => exact ⟨ih.1, fun e among => Nat.lt_succ_of_lt (ih.2 e among)⟩

/-- The number tells an environment as well as its place does. -/
theorem Reachable.same_iff (reached : all.Reachable) (first : all.made[i]? = some a) (second : all.made[j]? = some b) :
    a.same b = true ↔ i = j := by
  have rising {i j : Nat} {a b : Environment} (first : all.made[i]? = some a) (second : all.made[j]? = some b)
      (before : i < j) : a.id < b.id := by
    obtain ⟨inside, rfl⟩ := List.getElem?_eq_some_iff.mp first
    obtain ⟨inside', rfl⟩ := List.getElem?_eq_some_iff.mp second
    exact List.pairwise_iff_getElem.mp reached.numbered.1 i j inside inside' before
  rw [Environment.same, beq_iff_eq]
  constructor
  · intro same
    rcases Nat.lt_trichotomy i j with before | here | after
    · have := rising first second before
      omega
    · exact here
    · have := rising second first after
      omega
  · rintro rfl
    rw [Option.some.inj (first.symm.trans second)]

end Environments

/-- When populating an instance fails in words, a call of an import has failed in them. -/
theorem Wasm.State.populate_failed {σ : Type} {host : HostCall σ} {s t : State σ}
    (ended : s.populate host budget eager = (t, .error (.abort (.host message)))) :
    ∃ call ∈ s.startCalls host budget eager,
      (host call.index call.args call.state.memories call.state.user).results = .error message := by
  revert ended
  unfold populate startCalls
  split
  · intro ended
    cases ended
  · cases s.putSegments with
    | mk u written =>
      cases written with
      | error cause =>
        intro ended
        cases ended
      | ok done =>
        dsimp only
        cases u.inst.module.start with
        | none =>
          intro ended
          cases ended
        | some func =>
          dsimp only
          cases called : u.call host budget func [] with
          | mk after result =>
            intro ended
            cases result with
            | ok values => cases ended
            | error cause =>
              cases ended
              exact call_failed called

/-- What a store says of a module, apart from the environment that it comes from. -/
def Fault.Domestic (fault : Fault) : Prop := fault ≠ .foreignEnvironment

namespace Store

variable {σ : Type} {s t : Store σ} {m : Wasm.Module} {got : Supplies} {fault : Fault}

theorem growToPending_domestic {memory : Wasm.LinearMemory} {pending : Option Nat}
    (failed : growToPending memory pending = .error fault) :
    fault.Domestic := by
  unfold growToPending growTo at failed
  repeat' split at failed
  all_goals
    cases failed
    try exact Fault.noConfusion

theorem supply_domestic (failed : s.supply m got i = (t, .error fault)) : fault.Domestic := by
  unfold supply at failed
  split at failed
  · cases failed
  · split at failed
    · cases failed
    · cases failed
      exact Fault.noConfusion
  · split at failed
    · cases failed
    · split at failed
      · rename_i grown
        cases failed
        exact growToPending_domestic grown
      · cases failed
  · cases failed
    exact Fault.noConfusion

theorem supplyAll_domestic {wanted : List Wasm.Import} (failed : s.supplyAll m got wanted = (t, .error fault)) :
    fault.Domestic := by
  induction wanted generalizing s got with
  | nil => cases failed
  | cons i rest ih =>
    simp only [supplyAll] at failed
    split at failed
    · exact ih failed
    · rename_i refused
      cases failed
      exact supply_domestic refused

theorem share_domestic (failed : s.share inst = (t, .error fault)) : fault.Domestic := by
  unfold share at failed
  split at failed
  · split at failed
    · cases failed
      exact Fault.noConfusion
    · split at failed
      · cases failed
        exact Fault.noConfusion
      · split at failed
        · rename_i grown
          cases failed
          exact growToPending_domestic grown
        · cases failed
  · cases failed

/-- The words in which the start function of a module can fail are those for an import that is not linked. -/
theorem populate_domestic {budget : Wasm.Budget} {eager : Bool}
    (unlinked : ∀ stub ∈ got.stubs, ∀ slot, s.imports[stub.slot]? = some slot → slot.target = none)
    (failed : (s.fresh m got).populate (s.startHost m got) budget eager = (state, .error obstacle)) :
    (Fault.ofObstacle obstacle).Domestic := by
  cases obstacle with
  | refused reason => exact Fault.noConfusion
  | abort cause =>
    cases cause with
    | trap cause => exact Fault.noConfusion
    | host message =>
      obtain ⟨call, _, words⟩ := Wasm.State.populate_failed failed
      rw [startHost, dispatch_unlinked unlinked] at words
      cases words
      have cause : Fault.ofObstacle (.abort (.host Fault.importMissing.message)) = .importMissing := by decide
      rw [cause]
      exact Fault.noConfusion

theorem instantiate_domestic (failed : s.instantiate m = (t, .error fault)) : fault.Domestic := by
  unfold instantiate at failed
  split at failed
  · rename_i refused
    cases failed
    exact supplyAll_domestic refused
  · rename_i u got supplied
    by_cases accepted : m.accepts got.memories u.memories = true
    · rw [instantiateWith_eq accepted] at failed
      cases populated : (u.fresh m got).populate (u.startHost m got) u.budget u.eager with
      | mk state result =>
        rw [populated] at failed
        cases result with
        | error obstacle =>
          cases failed
          exact populate_domestic (supplyAll_supplied supplied).unlinked populated
        | ok done =>
          simp only [conclude] at failed
          split at failed
          · rename_i refused
            cases failed
            exact share_domestic refused
          · cases failed
    · rw [instantiateWith_refused accepted] at failed
      cases failed
      exact Fault.noConfusion

/-- A module of the store's own environment is never taken for one of another. -/
theorem load_domestic (same : p.environment.same s.environment = true) (failed : s.load p = (t, .error fault)) :
    fault.Domestic := by
  unfold load at failed
  rw [same] at failed
  simp only [Bool.not_true, Bool.false_eq_true, if_false] at failed
  split at failed
  · cases failed
    exact Fault.noConfusion
  · split at failed
    · rename_i refused
      cases failed
      exact instantiate_domestic refused
    · cases failed

end Store

theorem Error.ofFault_eq_foreign_iff {fault : Fault} :
    ofFault fault = .engine .foreignEnvironment ↔ fault = .foreignEnvironment := by
  cases fault <;> simp [ofFault]

theorem Error.ofFault_ne_mismatched (fault : Fault) : ofFault fault ≠ .mismatchedEnvironments := by
  cases fault <;> exact Error.noConfusion

theorem ParsedModule.parse_domestic {bytes : Wasm.Bytes} {fault : Fault} (refused : parse e bytes = .error fault) :
    fault.Domestic := by
  unfold parse at refused
  cases header : sections bytes with
  | error early =>
    rw [header] at refused
    cases refused
    unfold sections at header
    repeat' split at header
    all_goals
      cases header
      try exact Fault.noConfusion
  | ok rest =>
    rw [header] at refused
    simp only [Bind.bind, Except.bind] at refused
    split at refused
    · cases refused
    · cases refused
      unfold Fault.ofRejection
      split <;> exact Fault.noConfusion

theorem ParsedModule.parse_eq {bytes : Wasm.Bytes} (parsed : parse e bytes = .ok p) :
    p.environment = e ∧ p.bytes = bytes ∧ parse p.environment p.bytes = .ok p := by
  have origin : p.environment = e ∧ p.bytes = bytes := by
    simp only [parse, bind_eq_ok] at parsed
    obtain ⟨rest, _, made⟩ := parsed
    split at made
    · cases made
      exact ⟨rfl, rfl⟩
    · contradiction
  refine ⟨origin.1, origin.2, ?_⟩
  rw [origin.1, origin.2]
  exact parsed

namespace Host

variable {σ : Type} {h : Host σ} {p : ParsedModule}

theorem load_of_other (other : p.environment.same h.environment = false) :
    h.load p = (h, .error .mismatchedEnvironments) := by
  rw [load, other]
  rfl

/-- Exactly the modules of other environments are refused as such, and by the host. -/
theorem load_eq_mismatched_iff : (h.load p).2 = .error .mismatchedEnvironments ↔ p.environment.same h.environment = false := by
  cases same : p.environment.same h.environment with
  | false => simp [load_of_other same]
  | true =>
    rw [load, same]
    cases h.store.load p with
    | mk store result =>
      cases result with
      | ok index => simp
      | error fault => simp [Error.ofFault_ne_mismatched fault]

theorem load_ne_foreign (h : Host σ) (p : ParsedModule) : (h.load p).2 ≠ .error (.engine .foreignEnvironment) := by
  intro failed
  cases same : p.environment.same h.environment with
  | false =>
    rw [load_of_other same] at failed
    cases failed
  | true =>
    rw [load, same] at failed
    cases loaded : h.store.load p with
    | mk store result =>
      rw [loaded] at failed
      cases result with
      | ok index => cases failed
      | error fault =>
        exact Store.load_domestic same loaded (Error.ofFault_eq_foreign_iff.mp (Except.error.inj failed))

/-- What a host says of the environments of modules. It tells them by their places, and the store by their numbers, but the
store never has to. -/
structure Guards (h : Host σ) : Prop where
  other : ∀ (all : Environments) (i j : Nat) (p : ParsedModule), all.Reachable → all.made[i]? = some p.environment →
    all.made[j]? = some h.environment → i ≠ j → h.load p = (h, .error .mismatchedEnvironments)
  own : ∀ (all : Environments) (i : Nat) (p : ParsedModule), all.Reachable → all.made[i]? = some p.environment →
    all.made[i]? = some h.environment →
      (h.store.load p).2 ≠ .error .foreignEnvironment ∧ (h.load p).2 ≠ .error .mismatchedEnvironments
  unheard : ∀ p : ParsedModule, (h.load p).2 ≠ .error (.engine .foreignEnvironment)
  parsed : ∀ bytes : Wasm.Bytes, (h.parseAndLoad bytes).2 ≠ .error (.engine .foreignEnvironment) ∧
    (h.parseAndLoad bytes).2 ≠ .error .mismatchedEnvironments

theorem guards (h : Host σ) : h.Guards where
  other all i j p reached first second ne := by
    refine load_of_other (Bool.eq_false_iff.mpr fun same => ?_)
    exact ne ((reached.same_iff first second).mp same)
  own all i p reached first second := by
    have same := (reached.same_iff first second).mpr rfl
    constructor
    · intro failed
      exact Store.load_domestic (t := (h.store.load p).1) same (Prod.ext rfl failed) rfl
    · rw [ne_eq, load_eq_mismatched_iff, same]
      simp
  unheard := h.load_ne_foreign
  parsed bytes := by
    unfold parseAndLoad
    split
    · rename_i p parsed
      refine ⟨h.load_ne_foreign p, ?_⟩
      rw [ne_eq, load_eq_mismatched_iff, (ParsedModule.parse_eq parsed).1, Environment.same, beq_self_eq_true]
      simp
    · rename_i fault refused
      constructor
      · intro told
        exact ParsedModule.parse_domestic refused (Error.ofFault_eq_foreign_iff.mp (Except.error.inj told))
      · intro told
        exact Error.ofFault_ne_mismatched fault (Except.error.inj told)

end Host

end WasmBinding
