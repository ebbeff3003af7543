import WasmBinding.Proofs.Host.Session

/-! Ownership of handles. A process numbers its hosts, and a handle names the host that gave it out. Any other host refuses
it before it does anything, but for one slip: a call for a result looks at the type of the result first. -/

namespace WasmBinding

/-- A use of a handle by a host, which may be another than the one that gave it out. -/
inductive HandleUse (σ : Type) where
  | moduleName (m : ModuleRef)
  | findFunction (m : ModuleRef) (name : String)
  | findGlobal (m : ModuleRef) (name : String) (type : ScalarType)
  | link (m : ModuleRef) (ns name : String) (f : HostFunction σ)
  | call (f : FunctionRef) (args : List Scalar)
  | callFor (f : FunctionRef) (type : ScalarType) (args : List Scalar)
  | value {type : ScalarType} (g : GlobalRef type)
  | setValue {type : ScalarType} (g : GlobalRef type) (v : type.Carrier)

namespace HandleUse

variable {σ : Type}

/-- The number of the host that gave the handle out. -/
def owner : HandleUse σ → Nat
  | .moduleName m | .findFunction m _ | .findGlobal m _ _ | .link m _ _ _ => m.host
  | .call f _ | .callFor f _ _ => f.host
  | .value g | .setValue g _ => g.host

/-- A call for a result of another type than the function has. -/
def mistyped : HandleUse σ → Bool
  | .callFor f type _ => f.function.results != [type.tag]
  | _ => false

/-- What is done with the session; the other uses only read. -/
def operation? : HandleUse σ → Option (Operation σ)
  | .moduleName _ | .value _ => none
  | .findFunction m name => some (.findModuleFunction m name)
  | .findGlobal m name type => some (.findGlobal m name type)
  | .link m ns name f => some (.link m ns name f)
  | .call f args => some (.call f args)
  | .callFor f type args => some (.callFor f type args)
  | .setValue g v => some (.setValue g v)

end HandleUse

def Error.of? {α : Type} : Except Error α → Option Error
  | .ok _ => none
  | .error e => some e

namespace Host

variable {σ : Type} {h : Host σ}

/-- The error that a use of a handle is answered with, if any. -/
def failure? (h : Host σ) : HandleUse σ → Option Error
  | .moduleName m => Error.of? (h.moduleName m)
  | .findFunction m name => Error.of? (h.findModuleFunction m name)
  | .findGlobal m name type => Error.of? (h.findGlobal m name type)
  | .link m ns name f => Error.of? (h.link m ns name f)
  | .call f args => Error.of? (h.call f args).2
  | .callFor f type args => Error.of? (h.callFor f type args).2
  | .value g => Error.of? (h.value g)
  | .setValue g v => Error.of? (h.setValue g v)

theorem own_of_ne (foreign : owner ≠ h.id) : h.own owner = .error .foreignHandle := if_neg foreign

theorem call_of_foreign (foreign : f.host ≠ h.id) (args : List Scalar) :
    h.call f args = (h, .error .foreignHandle) := by
  have refused : h.checkCall f args = .error .foreignHandle := by
    rw [checkCall, own_of_ne foreign]
    rfl
  rw [call, refused]

theorem callFor_of_foreign (foreign : f.host ≠ h.id) (type : ScalarType) (args : List Scalar) :
    h.callFor f type args =
      (h, .error (if f.function.results != [type.tag] then .invalidSignature else .foreignHandle)) := by
  by_cases single : f.function.results = [type.tag]
  · simp [callFor, single, call_of_foreign foreign]
  · simp [callFor, single]

theorem failure?_of_foreign {u : HandleUse σ} (foreign : u.owner ≠ h.id) :
    h.failure? u = some (if u.mistyped then .invalidSignature else .foreignHandle) := by
  cases u
  all_goals simp only [HandleUse.owner] at foreign
  case call f args =>
    rw [failure?, call_of_foreign foreign]
    rfl
  case callFor f type args =>
    rw [failure?, callFor_of_foreign foreign]
    rfl
  case moduleName | findFunction | findGlobal | link | value | setValue =>
    simp only [failure?, moduleName, findModuleFunction, findGlobal, link, value, setValue, own_of_ne foreign]
    rfl

theorem host_of_mem_modules {m : ModuleRef} (loaded : m ∈ h.modules) : m.host = h.id := by
  obtain ⟨index, _, rfl⟩ := List.mem_map.mp loaded
  rfl

end Host

namespace Session

variable {σ : Type} {s t : Session σ} {u : HandleUse σ}

theorem perform_of_foreign (foreign : u.owner ≠ s.host.id) (made : u.operation? = some op) : s.perform op = s := by
  cases u
  all_goals
    simp only [HandleUse.owner] at foreign
    cases made
  case call f args => rw [perform, Host.call_of_foreign foreign]
  case callFor f type args => rw [perform, Host.callFor_of_foreign foreign]
  case findFunction | findGlobal | link | setValue =>
    simp only [perform, Host.findModuleFunction, Host.findGlobal, Host.link, Host.setValue, Host.own_of_ne foreign]
    rfl

theorem mem_globals_perform {op : Operation σ} (h : g ∈ (s.perform op).globals) :
    g ∈ s.globals ∨ ∃ m name, s.host.findGlobal m name g.1 = .ok (some g.2) := by
  cases op with
  | findGlobal m name type =>
    simp only [perform] at h
    split at h
    · rename_i found
      rcases List.mem_cons.mp h with rfl | old
      · exact .inr ⟨m, name, found⟩
      · exact .inl old
    · exact .inl h
  | load | parseAndLoad | link | findFunction | findModuleFunction | call | callFor | setValue | write | resize
  | setUser =>
    refine .inl ?_
    simp only [perform, noteFunction] at h
    repeat' split at h
    all_goals exact h

theorem Reachable.host_of_global (reached : s.Reachable) : ∀ g ∈ s.globals, g.2.host = s.host.id := by
  induction reached with
  | new created steps => simp
  | @perform before reached op allowed ih =>
    intro g among
    rw [(effect_perform before op).id]
    rcases mem_globals_perform among with old | ⟨m, name, found⟩
    · exact ih g old
    · exact (Host.findGlobal_ok.mp found).2.1

/-- Whether the handle was given out in the session. -/
def Holds (s : Session σ) : HandleUse σ → Prop
  | .moduleName m | .findFunction m _ | .findGlobal m _ _ | .link m _ _ _ => m ∈ s.host.modules
  | .call f _ | .callFor f _ _ => f ∈ s.functions
  | @HandleUse.value _ type g | @HandleUse.setValue _ type g _ => ⟨type, g⟩ ∈ s.globals

theorem Reachable.owner_eq (reached : s.Reachable) (held : s.Holds u) : u.owner = s.host.id := by
  cases u with
  | moduleName | findFunction | findGlobal | link => exact Host.host_of_mem_modules held
  | call f args | callFor f _ args => exact (reached.issued f held).1
  | value g | setValue g => exact reached.host_of_global _ held

end Session

/-- The sessions of the hosts that have been made, and the number of the next. -/
structure Process (σ : Type) where
  sessions : List (Session σ) := []
  next : Nat := 1

namespace Process

variable {σ : Type} {p : Process σ} {s t : Session σ} {i j k : Nat}

def add (p : Process σ) (s : Session σ) : Process σ := ⟨p.sessions ++ [s], p.next + 1⟩

def perform (p : Process σ) (k : Nat) (op : Operation σ) : Process σ :=
  match p.sessions[k]? with
  | some s => { p with sessions := p.sessions.set k (s.perform op) }
  | none => p

/-- Every handle is one that some session has given out. -/
def Allows (p : Process σ) : Operation σ → Prop
  | .call f _ | .callFor f _ _ => ∃ s ∈ p.sessions, f ∈ s.functions
  | @Operation.setValue _ type g _ => ∃ s ∈ p.sessions, ⟨type, g⟩ ∈ s.globals
  | _ => True

inductive Reachable : Process σ → Prop
  | empty : Reachable {}
  | add {p : Process σ} {made : Host σ} (reached : Reachable p)
      (created : Host.new p.next e stackSize user = .ok made) (steps : Nat) :
      Reachable (p.add { host := made.bounded steps })
  | perform {p : Process σ} (reached : Reachable p) (k : Nat) (op : Operation σ) (allowed : p.Allows op) :
      Reachable (p.perform k op)

theorem getElem?_add (found : (p.add s).sessions[k]? = some t) :
    p.sessions[k]? = some t ∨ k = p.sessions.length ∧ t = s := by
  rcases Nat.lt_or_ge k p.sessions.length with old | new
  · rw [add, List.getElem?_append_left old] at found
    exact .inl found
  · rw [add, List.getElem?_append_right new] at found
    obtain ⟨last, rfl⟩ := List.getElem?_eq_some_iff.mp found
    have last : k = p.sessions.length := by
      simp only [List.length_singleton] at last
      omega
    subst last
    exact .inr ⟨rfl, by simp⟩

theorem getElem?_perform (found : (p.perform k op).sessions[i]? = some t) :
    p.sessions[i]? = some t ∨ ∃ s, p.sessions[i]? = some s ∧ i = k ∧ t = s.perform op := by
  unfold perform at found
  split at found
  · rename_i s here
    rw [List.getElem?_set] at found
    split at found
    · rename_i same
      subst same
      have inside := (List.getElem?_eq_some_iff.mp here).1
      rw [if_pos inside] at found
      cases found
      exact .inr ⟨s, here, rfl, rfl⟩
    · exact .inl found
  · exact .inl found

/-- The hosts are numbered in the order in which they were made. -/
theorem Reachable.numbered (reached : p.Reachable) :
    p.next = p.sessions.length + 1 ∧
      ∀ (k : Nat) (s : Session σ), p.sessions[k]? = some s → s.host.id = k + 1 := by
  induction reached with
  | empty => simp
  | @add _ _ _ p made _ created steps ih =>
    obtain ⟨next, numbers⟩ := ih
    refine ⟨by simp [Process.add, next], ?_⟩
    intro k s found
    rcases getElem?_add found with old | ⟨rfl, rfl⟩
    · exact numbers k s old
    · rw [Host.new_ok created, ← next]
      rfl
  | @perform p _ k op _ ih =>
    obtain ⟨next, numbers⟩ := ih
    constructor
    · unfold Process.perform
      split
      · rw [List.length_set]
        exact next
      · exact next
    · intro i t found
      rcases getElem?_perform found with old | ⟨s, old, _, rfl⟩
      · exact numbers i t old
      · rw [(Session.effect_perform s op).id]
        exact numbers i s old

theorem Reachable.same_of_id (reached : p.Reachable) (first : p.sessions[i]? = some s) (second : p.sessions[j]? = some t)
    (same : s.host.id = t.host.id) : i = j := by
  have number := reached.numbered.2 i s first
  have number' := reached.numbered.2 j t second
  omega

/-- A handle that names a host was given out by it, whoever has it. -/
theorem Reachable.allows (reached : p.Reachable) (each : ∀ s ∈ p.sessions, s.Reachable)
    (found : p.sessions[k]? = some t) (allowed : p.Allows op) : t.Allows op := by
  have here {s : Session σ} (among : s ∈ p.sessions) (same : s.host.id = t.host.id) : s = t := by
    obtain ⟨i, first⟩ := List.mem_iff_getElem?.mp among
    cases reached.same_of_id first found same
    exact Option.some.inj (first.symm.trans found)
  cases op with
  | call f args | callFor f _ args =>
    obtain ⟨s, among, given⟩ := allowed
    intro named
    have owner := ((each s among).issued f given).1
    exact here among (owner.symm.trans named) ▸ given
  | setValue g v =>
    obtain ⟨s, among, given⟩ := allowed
    intro named
    have owner := (each s among).host_of_global _ given
    exact here among (owner.symm.trans named) ▸ given
  | load | parseAndLoad | link | findFunction | findModuleFunction | findGlobal | write | resize | setUser => trivial

/-- What holds of sessions holds of those that share a process. -/
theorem Reachable.session (reached : p.Reachable) : ∀ s ∈ p.sessions, s.Reachable := by
  induction reached with
  | empty => simp
  | add _ created steps ih =>
    intro s among
    rcases List.mem_append.mp among with old | new
    · exact ih s old
    · cases List.mem_singleton.mp new
      exact .new created steps
  | @perform p reached k op allowed ih =>
    intro t among
    obtain ⟨i, found⟩ := List.mem_iff_getElem?.mp among
    rcases getElem?_perform found with old | ⟨s, old, _, rfl⟩
    · exact ih t (List.mem_of_getElem? old)
    · exact (ih s (List.mem_of_getElem? old)).perform op (reached.allows ih old allowed)

/-- The process after a host has used a handle. -/
def use (p : Process σ) (k : Nat) (u : HandleUse σ) : Process σ :=
  match u.operation? with
  | some op => p.perform k op
  | none => p

theorem use_of_foreign (found : p.sessions[k]? = some t) (foreign : u.owner ≠ t.host.id) : p.use k u = p := by
  unfold use
  split
  · rename_i op made
    obtain ⟨inside, rfl⟩ := List.getElem?_eq_some_iff.mp found
    rw [perform, found]
    simp only [Session.perform_of_foreign foreign made, List.set_getElem_self]
  · rfl

/-- A handle of one host is refused by every other, in words that say so, and nothing changes. Only a call for a result of a
type that the function does not have is refused for that instead. -/
theorem foreign_handle_refused {u : HandleUse σ} (reached : p.Reachable) (first : p.sessions[i]? = some s)
    (second : p.sessions[j]? = some t) (apart : i ≠ j) (held : s.Holds u) :
    p.use j u = p ∧
    t.host.failure? u = some (if u.mistyped then .invalidSignature else .foreignHandle) ∧
    Error.foreignHandle.message = "object used with the wrong runtime" := by
  have foreign : u.owner ≠ t.host.id := by
    intro same
    have owner := (reached.session s (List.mem_of_getElem? first)).owner_eq held
    exact apart (reached.same_of_id first second (owner.symm.trans same))
  exact ⟨use_of_foreign second foreign, Host.failure?_of_foreign foreign, rfl⟩

end Process

namespace Pair

/-- Exports `r`, which answers 5. -/
def binary : Wasm.Bytes :=
  [0x00, 0x61, 0x73, 0x6d, 0x01, 0x00, 0x00, 0x00,
    0x01, 0x05, 0x01, 0x60, 0x00, 0x01, 0x7f,
    0x03, 0x02, 0x01, 0x00,
    0x07, 0x05, 0x01, 0x01, 0x72, 0x00, 0x00,
    0x0a, 0x06, 0x01, 0x04, 0x00, 0x41, 0x05, 0x0b]

def fresh (number : Nat) : Session Nat := { Sample.start with host := { Sample.start.host with id := number } }

theorem created (number : Nat) : Host.new number Sample.environment 1024 0 = .ok (fresh number).host := rfl

/-- The first of the hosts has the module and has given out `r`. -/
def process : Process Nat :=
  (((Process.add {} (fresh 1)).add (fresh 2)).perform 0 (.parseAndLoad binary)).perform 0 (.findFunction "r")

def handle : FunctionRef := ⟨1, ⟨0, 0, [], [.i32]⟩⟩

theorem reachable : process.Reachable := by
  have first := Process.Reachable.empty.add (created 1) (fresh 1).host.store.steps
  have second := first.add (created 2) (fresh 2).host.store.steps
  exact (second.perform 0 (.parseAndLoad binary) trivial).perform 0 (.findFunction "r") trivial

theorem sessions : process.sessions[0]? =
    some (((fresh 1).perform (.parseAndLoad binary)).perform (.findFunction "r")) ∧
    process.sessions[1]? = some (fresh 2) := ⟨rfl, rfl⟩

theorem held : handle ∈ (((fresh 1).perform (.parseAndLoad binary)).perform (.findFunction "r")).functions := by
  decide +kernel

end Pair

/-- A call for a result of another type is refused for the type, though the handle is that of another host. -/
theorem foreign_call_not_recognized :
    Pair.process.Reachable ∧ ∃ s t, Pair.process.sessions[0]? = some s ∧ Pair.process.sessions[1]? = some t ∧
      s.Holds (.callFor Pair.handle .i64 []) ∧
      t.host.failure? (.callFor Pair.handle .i64 []) = some .invalidSignature ∧
      Error.invalidSignature ≠ .foreignHandle :=
  ⟨Pair.reachable, _, _, Pair.sessions.1, Pair.sessions.2, Pair.held, rfl, by decide⟩

theorem foreign_handle_refused_pair :
    Pair.process.use 1 (.call Pair.handle []) = Pair.process ∧
      (Pair.fresh 2).host.failure? (.call Pair.handle []) = some .foreignHandle := by
  have refused := Process.foreign_handle_refused Pair.reachable Pair.sessions.1 Pair.sessions.2 Nat.zero_ne_one
    (u := .call Pair.handle []) Pair.held
  exact ⟨refused.1, refused.2.1⟩

end WasmBinding
