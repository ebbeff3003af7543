import WasmBinding.Proofs.Host.MemoryGrowth
import WasmBinding.Proofs.Store.Isolation
import WasmBinding.Proofs.Store.Places

/-! Modules of one host. No two of them have a global or a table in common, and a call of a function of one module, whatever
host functions it runs and however it ends, leaves every other module its globals, its tables and its memories, except for
the memory that all of them share. -/

namespace WasmBinding

/-- The function that an operation calls. -/
def Operation.called? {σ : Type} : Operation σ → Option FunctionRef
  | .call f _ | .callFor f _ _ => some f
  | _ => none

namespace Host

variable {σ : Type} {h : Host σ}

theorem call_store (h : Host σ) (f : FunctionRef) (args : List Scalar) :
    (h.call f args).1 = h ∨ ∃ t result, h.store.call f.function (args.map Scalar.toSlot) = (t, result) ∧
      (h.call f args).1 = { h with store := t } := by
  unfold call
  split
  · exact .inl rfl
  · exact .inr ⟨_, _, rfl, rfl⟩

/-- What a call of one module leaves another is all that can be read of its globals. -/
structure Spares (h after : Host σ) (k : Nat) (m : LoadedModule) : Prop where
  store : Store.Spares h.store after.store k m
  lookup : ∀ name type, after.findGlobal ⟨h.id, k⟩ name type = h.findGlobal ⟨h.id, k⟩ name type
  value : ∀ (type : ScalarType) (g : GlobalRef type), g.cell.module = k → after.value g = h.value g

theorem spares_of_store {t : Store (Linked σ)} (found : h.store.modules[k]? = some m)
    (spares : Store.Spares h.store t k m) : Spares h { h with store := t } k m where
  store := spares
  lookup name type := by simp only [findGlobal, own, spares.findGlobal found name]
  value type g own := by
    subst own
    simp only [value, Host.own, spares.getGlobal found]

theorem call_spares (apart : h.store.Apart) (f : FunctionRef) (args : List Scalar)
    (found : h.store.modules[k]? = some m) (other : k ≠ f.function.module) : Spares h (h.call f args).1 k m := by
  rcases h.call_store f args with same | ⟨t, result, called, same⟩
  · rw [same]
    exact spares_of_store found ⟨found, fun _ _ _ => rfl⟩
  · rw [same]
    exact spares_of_store found (Store.call_spares apart called found other)

end Host

namespace Session

variable {σ : Type} {s : Session σ}

theorem Reachable.apart (reached : s.Reachable) : s.host.store.Sharing ∧ s.host.store.Apart := by
  induction reached with
  | new created steps =>
    rw [Host.new_ok created]
    exact ⟨⟨by simp [Host.bounded], by simp [Host.bounded]⟩, Store.apart_of_empty rfl⟩
  | @perform before _ op _ ih => exact (used_perform before op).apart ih.1 ih.2

theorem Reachable.pooled (reached : s.Reachable) : ∃ p, s.host.store.Pooled p := by
  induction reached with
  | new created steps =>
    rw [Host.new_ok created]
    exact ⟨{}, .new rfl⟩
  | @perform before _ op _ ih =>
    obtain ⟨p, pooled⟩ := ih
    exact pooled.used (used_perform before op)

/-- The host after an operation that calls a function is the one that it was, or the one after the call. -/
theorem host_of_called {op : Operation σ} (s : Session σ) (calls : op.called? = some f) :
    (s.perform op).host = s.host ∨ ∃ args, (s.perform op).host = (s.host.call f args).1 := by
  cases op with
  | call g args =>
    cases calls
    exact .inr ⟨args, rfl⟩
  | callFor g type args =>
    cases calls
    rw [perform, s.host.callFor_host f type args]
    split
    · exact .inr ⟨args, rfl⟩
    · exact .inl rfl
  | load | parseAndLoad | link | findFunction | findModuleFunction | findGlobal | setValue | write | resize | setUser =>
    cases calls

end Session

/-- Modules of one store, or of one host, have no global and no table in common. If these lay in pools, in new places for
every module that is loaded, then each module would have in its places what its instance holds, and a call would change only
what lies in those of its own module. -/
theorem globals_and_tables_apart {σ : Type} :
    (∀ v : Service σ, v.Reachable → (∃ p, v.store.Pooled p) ∧ ∀ p, v.store.Pooled p → p.Stands v.store ∧
      ∀ f args, ∃ q, (v.serve (.call f args)).store.Pooled q ∧ p.Spares q f.module) ∧
    ∀ s : Session σ, s.Reachable → (∃ p, s.host.store.Pooled p) ∧ ∀ p, s.host.store.Pooled p → p.Stands s.host.store ∧
      ∀ op f, op.called? = some f → ∃ q, (s.perform op).host.store.Pooled q ∧ p.Spares q f.function.module := by
  constructor
  · intro v reached
    refine ⟨reached.pooled, ?_⟩
    intro p pooled
    refine ⟨pooled.stands, ?_⟩
    intro f args
    exact pooled.call_spares rfl
  · intro s reached
    refine ⟨reached.pooled, ?_⟩
    intro p pooled
    refine ⟨pooled.stands, ?_⟩
    intro op f calls
    rcases s.host_of_called calls with same | ⟨args, same⟩
    · rw [same]
      exact ⟨p, pooled, .refl p _⟩
    · rw [same]
      rcases s.host.call_store f args with idle | ⟨t, result, called, after⟩
      · rw [idle]
        exact ⟨p, pooled, .refl p _⟩
      · rw [after]
        exact pooled.call_spares called

/-- Modules of one store, or of one host, share nothing but the memory. A call of a function of one of them, whether it
answers or fails and whatever functions of the embedder it runs, leaves all links as they are, and leaves every other module
its globals, its tables and the memories that are not the shared one. -/
theorem calls_share_only_memory {σ : Type} :
    (∀ (v : Service σ) (f : Function) (args : List Slot), v.Reachable →
      (v.serve (.call f args)).store.imports = v.store.imports ∧
      ∀ (k : Nat) (m : LoadedModule), v.store.modules[k]? = some m → k ≠ f.module →
        Store.Spares v.store (v.serve (.call f args)).store k m) ∧
    ∀ (s : Session σ) (op : Operation σ) (f : FunctionRef), s.Reachable → op.called? = some f →
      (s.perform op).host.store.imports = s.host.store.imports ∧
      ∀ (k : Nat) (m : LoadedModule), s.host.store.modules[k]? = some m → k ≠ f.function.module →
        Host.Spares s.host (s.perform op).host k m := by
  constructor
  · intro v f args reached
    cases called : v.store.call f args with
    | mk t result =>
      have continues : Store.Continues v.store t := .call called
      simp only [Service.serve, called]
      refine ⟨continues.imports, ?_⟩
      intro k m found other
      exact Store.call_spares reached.apart.2 called found other
  · intro s op f reached calls
    rcases s.host_of_called calls with same | ⟨args, same⟩
    · rw [same]
      refine ⟨rfl, ?_⟩
      intro k m found _
      exact Host.spares_of_store found ⟨found, fun _ _ _ => rfl⟩
    · rw [same]
      refine ⟨(Host.Uses.call s.host f args).store.imports, ?_⟩
      intro k m found other
      exact Host.call_spares reached.apart.2 f args found other

namespace Counter

/-- Imports the global `e.g`, a 32-bit integer, and exports `r`, which adds one to it. -/
def binary : Wasm.Bytes :=
  [0x00, 0x61, 0x73, 0x6d, 0x01, 0x00, 0x00, 0x00,
    0x01, 0x04, 0x01, 0x60, 0x00, 0x00,
    0x02, 0x08, 0x01, 0x01, 0x65, 0x01, 0x67, 0x03, 0x7f, 0x01,
    0x03, 0x02, 0x01, 0x00,
    0x07, 0x05, 0x01, 0x01, 0x72, 0x00, 0x00,
    0x0a, 0x0b, 0x01, 0x09, 0x00, 0x23, 0x00, 0x41, 0x01, 0x6a, 0x24, 0x00, 0x0b]

def session : Session Nat :=
  ((Sample.start.perform (.parseAndLoad binary)).perform (.parseAndLoad binary)).perform (.findModuleFunction ⟨0, 0⟩ "r")

theorem reachable : session.Reachable :=
  ((Sample.reachable_start.perform (.parseAndLoad binary) trivial).perform (.parseAndLoad binary) trivial).perform
    (.findModuleFunction ⟨0, 0⟩ "r") trivial

def handle : FunctionRef := ⟨0, ⟨0, 0, [], []⟩⟩

theorem loaded : 1 < session.host.store.modules.length := by decide +kernel

/-- The global of the other module, read as an integer. -/
def other : GlobalRef .i32 := ⟨0, ⟨1, 0, .i32, true⟩⟩

theorem zero : session.host.value other = .ok 0 := by rfl

/-- The call adds to the global of its own module. -/
theorem counted : (session.perform (.call handle [])).host.store.modules[0]?.map (·.inst.globals) = some #[.i32 1] := by
  decide +kernel

end Counter

theorem calls_share_only_memory_counter :
    (Counter.session.perform (.call Counter.handle [])).host.store.modules[0]?.map (·.inst.globals) = some #[.i32 1] ∧
      (Counter.session.perform (.call Counter.handle [])).host.value Counter.other = .ok 0 := by
  obtain ⟨_, spares⟩ := calls_share_only_memory.2 Counter.session (.call Counter.handle []) _ Counter.reachable rfl
  have found := spares 1 _ (List.getElem?_eq_getElem Counter.loaded) (by decide)
  exact ⟨Counter.counted, (found.value .i32 Counter.other rfl).trans Counter.zero⟩

end WasmBinding
