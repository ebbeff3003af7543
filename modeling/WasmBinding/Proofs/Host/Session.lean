import WasmBinding.Host.Basic
import WasmBinding.Proofs.Store.Slots

/-! Sessions: a host, and what has been done with it since it was made. Whatever an embedder can do is one of a few
operations, and each of them uses the store, extends it by a module, or links one slot. -/

namespace WasmBinding

open Wasm (Bytes)

inductive Operation (σ : Type) where
  /-- Parses a binary in an environment, which may be another, and loads it. -/
  | load (e : Environment) (bytes : Bytes)
  | parseAndLoad (bytes : Bytes)
  | link (m : ModuleRef) (ns name : String) (f : HostFunction σ)
  | findFunction (name : String)
  | findModuleFunction (m : ModuleRef) (name : String)
  | findGlobal (m : ModuleRef) (name : String) (type : ScalarType)
  | call (f : FunctionRef) (args : List Scalar)
  | callFor (f : FunctionRef) (type : ScalarType) (args : List Scalar)
  | setValue {type : ScalarType} (g : GlobalRef type) (v : type.Carrier)
  /-- Writes to the memory, whose size a view cannot change. -/
  | write (change : (m : Memory) → { after : Memory // after.size = m.size })
  | resize (pages : Nat)
  /-- Changes the state that the linked functions have in common with the embedder. -/
  | setUser (user : σ)

/-- Whether an operation loads a module if all goes well. -/
def Operation.isLoad {σ : Type} : Operation σ → Bool
  | .load _ _ | .parseAndLoad _ => true
  | _ => false

/-- A host whose calls may take another number of steps. What holds for every number holds up to every step of a call
that never ends. -/
def Host.bounded {σ : Type} (h : Host σ) (steps : Nat) : Host σ := { h with store := { h.store with steps := steps } }

/-- A host with its history: the handles it has given out and the links that were made, latest first. -/
structure Session (σ : Type) where
  host : Host σ
  functions : List FunctionRef := []
  globals : List (Sigma GlobalRef) := []
  links : List (ImportName × HostFunction σ) := []

namespace Session

variable {σ : Type} {s t : Session σ}

/-- The function that was last linked to an import with success. -/
def latest (s : Session σ) (name : ImportName) : Option (HostFunction σ) := s.links.lookup name

/-- Handles are given out by lookups. One that names this host was given out by it. -/
def Allows (s : Session σ) : Operation σ → Prop
  | .call f _ | .callFor f _ _ => f.host = s.host.id → f ∈ s.functions
  | @Operation.setValue _ type g _ => g.host = s.host.id → ⟨type, g⟩ ∈ s.globals
  | _ => True

def noteFunction (s : Session σ) : Except Error FunctionRef → Session σ
  | .ok f => { s with functions := f :: s.functions }
  | .error _ => s

def perform (s : Session σ) : Operation σ → Session σ
  | .load e bytes =>
    match ParsedModule.parse e bytes with
    | .ok p => { s with host := (s.host.load p).1 }
    | .error _ => s
  | .parseAndLoad bytes => { s with host := (s.host.parseAndLoad bytes).1 }
  | .link m ns name f =>
    match s.host.link m ns name f with
    | .ok host => { s with host := host, links := (⟨m.index, ns, name⟩, f) :: s.links }
    | .error _ => s
  | .findFunction name => s.noteFunction (s.host.findFunction name)
  | .findModuleFunction m name => s.noteFunction (s.host.findModuleFunction m name)
  | .findGlobal m name type =>
    match s.host.findGlobal m name type with
    | .ok (some g) => { s with globals := ⟨type, g⟩ :: s.globals }
    | _ => s
  | .call f args => { s with host := (s.host.call f args).1 }
  | .callFor f type args => { s with host := (s.host.callFor f type args).1 }
  | .setValue g v =>
    match s.host.setValue g v with
    | .ok host => { s with host := host }
    | .error _ => s
  | .write change =>
    match s.host.memory with
    | .ok m => { s with host := s.host.setMemory (change m).val }
    | .error _ => s
  | .resize pages =>
    match s.host.resize pages with
    | .ok host => { s with host := host }
    | .error _ => s
  | .setUser user => { s with host := s.host.setUser user }

inductive Reachable : Session σ → Prop
  | new {number : Nat} {made : Host σ} (created : Host.new number e stackSize user = .ok made) (steps : Nat) :
    Reachable { host := made.bounded steps }
  | perform {before : Session σ} (reached : Reachable before) (op : Operation σ) (allowed : before.Allows op) :
    Reachable (before.perform op)

end Session

theorem orError_eq_ok {α : Type} {r : Except Fault α} {a : α} : orError r = .ok a ↔ r = .ok a := by
  cases r <;> simp [orError]

namespace Host

variable {σ : Type} {h after : Host σ}

theorem new_ok {size : Nat} {state : σ} (created : Host.new number e size state = .ok h) :
    h = { id := number
          store := { environment := e, stackSize := size, userData := 0, host := { user := state } } } := by
  unfold Host.new Store.new orError at created
  split at created
  · rename_i made
    split at made
    · contradiction
    · cases made
      cases created
      rfl
  · contradiction

theorem load_ok (loaded : h.load p = (after, .ok m)) :
    m.host = h.id ∧ h.store.load p = (after.store, .ok m.index) ∧
    after = { h with store := after.store, binaries := h.binaries ++ [p.bytes] } := by
  unfold load at loaded
  split at loaded
  · cases loaded
  · split at loaded
    · rename_i stored
      cases loaded
      exact ⟨rfl, stored, rfl⟩
    · cases loaded

/-- A load that fails leaves the host as it was, but for the contents of the shared memory if the module imports it. -/
theorem load_error (failed : h.load p = (after, .error e)) :
    after = { h with store := { h.store with memories := after.store.memories } } ∧
    after.store.memories.size = h.store.memories.size ∧
    (∀ place, h.store.memory ≠ some place → after.store.memories[place]? = h.store.memories[place]?) ∧
    (p.module.importedMemories = [] ∨ h.store.memory = none → after = h) := by
  unfold load at failed
  split at failed
  · cases failed
    exact ⟨rfl, rfl, fun _ _ => rfl, fun _ => rfl⟩
  · split at failed
    · cases failed
    · rename_i stored
      cases failed
      obtain ⟨same, size, others, unshared⟩ := Store.load_error stored
      exact ⟨by rw [same], size, others, fun alone => by rw [unshared alone]⟩

theorem own_eq_ok {owner : Nat} : h.own owner = .ok u ↔ owner = h.id := by
  simp [own]

theorem setValue_ok {type : ScalarType} {g : GlobalRef type} {v : type.Carrier} (set : h.setValue g v = .ok after) :
    g.host = h.id ∧ ∃ store, h.store.setGlobal g.cell type.tag (type.toSlot v) = .ok store ∧
      after = { h with store := store } := by
  simp only [Host.setValue, bind_eq_ok, orError_eq_ok, own_eq_ok] at set
  obtain ⟨_, owned, _, _, store, written, made⟩ := set
  cases made
  exact ⟨owned, store, written, rfl⟩

theorem resize_ok (resized : h.resize pages = .ok after) :
    ∃ store, h.store.resize pages = .ok store ∧ after = { h with store := store } := by
  simp only [Host.resize, bind_eq_ok, orError_eq_ok] at resized
  obtain ⟨store, resized, made⟩ := resized
  cases made
  exact ⟨store, resized, rfl⟩

/-- A call for a result does what a call does, or nothing if the function has another result. -/
theorem callFor_host (h : Host σ) (f : FunctionRef) (type : ScalarType) (args : List Scalar) :
    (h.callFor f type args).1 = if f.function.results = [type.tag] then (h.call f args).1 else h := by
  by_cases single : f.function.results = [type.tag]
  · rw [callFor, if_neg (not_not_intro single), if_pos single]
    cases h.call f args with
    | mk after outcome =>
      cases outcome with
      | error e => rfl
      | ok done =>
        dsimp only
        repeat' split
        all_goals rfl
  · rw [callFor, if_pos single, if_neg single]

/-- Every linked import is answered through the registry. -/
def Trampolined (h : Host σ) : Prop :=
  ∀ slot ∈ h.store.imports, ∀ target, slot.target = some target → target.function = callLinked

@[simp] theorem registry_callLinked (call : RawCall) (host : Linked σ) :
    (callLinked call host).host.registry = host.registry := by
  unfold callLinked
  split <;> rfl

/-- A host that has been used but neither extended nor linked. -/
structure Uses (h after : Host σ) : Prop where
  id : after.id = h.id
  binaries : after.binaries = h.binaries
  store : Store.Continues h.store after.store
  registry : h.Trampolined → after.registry = h.registry

namespace Uses

theorem refl (h : Host σ) : Uses h h := ⟨rfl, rfl, .refl _, fun _ => rfl⟩

/-- What neither runs code nor changes the registry. -/
theorem ofStore (store : Store.Continues h.store s) (registry : s.host.registry = h.registry) :
    Uses h { h with store := s } :=
  ⟨rfl, rfl, store, fun _ => registry⟩

theorem call (h : Host σ) (f : FunctionRef) (args : List Scalar) : Uses h (h.call f args).1 := by
  unfold Host.call
  split
  · exact .refl h
  · cases called : h.store.call f.function (args.map Scalar.toSlot) with
    | mk store outcome =>
      refine ⟨rfl, rfl, .call called, fun trampolined => ?_⟩
      have keeps : ∀ slot ∈ h.store.imports, ∀ target, slot.target = some target → ∀ call (host : Linked σ),
          host.registry = h.registry → (target.function call host).host.registry = h.registry := by
        intro slot among target linked call host same
        rw [trampolined slot among target linked, registry_callLinked, same]
      exact Store.call_host keeps called rfl

theorem callFor (h : Host σ) (f : FunctionRef) (type : ScalarType) (args : List Scalar) :
    Uses h (h.callFor f type args).1 := by
  rw [callFor_host]
  split
  · exact call h f args
  · exact .refl h

theorem setValue {type : ScalarType} {g : GlobalRef type} {v : type.Carrier} (set : h.setValue g v = .ok after) :
    Uses h after := by
  obtain ⟨_, store, written, rfl⟩ := setValue_ok set
  refine ofStore (.setGlobal written) ?_
  rw [Store.host_setGlobal written]
  rfl

theorem setMemory (h : Host σ) (m : Memory) : Uses h (h.setMemory m) :=
  ofStore (.setMemory _ m) rfl

theorem resize (resized : h.resize pages = .ok after) : Uses h after := by
  obtain ⟨store, grown, rfl⟩ := resize_ok resized
  refine ofStore (.resize grown) ?_
  rw [Store.host_resize grown]
  rfl

theorem setUser (h : Host σ) (state : σ) : Uses h (h.setUser state) :=
  ofStore (.setHost _ _) rfl

theorem load (failed : h.load p = (after, .error e)) : Uses h after := by
  obtain ⟨same, size, _⟩ := load_error failed
  rw [same]
  exact ofStore ⟨rfl, rfl, rfl, rfl, rfl, size, rfl⟩ rfl

end Uses

theorem registry_of_gained (gained : Store.Gained h.store after.store w m) : after.registry = h.registry := by
  rw [registry, gained.rest]
  rfl

theorem link_ok (linked : h.link m ns name f = .ok after) :
    ∃ slot, h.store.findImport m.index ns name f.signature = .ok slot ∧
      after = { h with store := { h.store.setTarget slot
          ⟨Registry.contextOfKey (h.registry.keyFor ⟨m.index, ns, name⟩), callLinked⟩ with
        host := { h.store.host with registry := h.registry.set ⟨m.index, ns, name⟩ f } } } := by
  simp only [Host.link, bind_eq_ok, orError_eq_ok] at linked
  obtain ⟨_, _, slot, found, made⟩ := linked
  cases made
  exact ⟨slot, found, rfl⟩

theorem functionRef_ok {found : Option Function} (given : h.functionRef found = .ok f) :
    f.host = h.id ∧ found = some f.function := by
  unfold functionRef at given
  split at given <;> cases given
  exact ⟨rfl, rfl⟩

theorem findModuleFunction_ok {m : ModuleRef} {name : String} :
    h.findModuleFunction m name = .ok f ↔
      m.host = h.id ∧ f.host = h.id ∧ h.store.findModuleFunction m.index name = .ok (some f.function) := by
  simp only [findModuleFunction, bind_eq_ok, orError_eq_ok, own_eq_ok]
  constructor
  · rintro ⟨_, owned, found, looked, given⟩
    obtain ⟨host, rfl⟩ := functionRef_ok given
    exact ⟨owned, host, looked⟩
  · rintro ⟨owned, host, looked⟩
    obtain ⟨_, function⟩ := f
    cases host
    exact ⟨(), owned, some function, looked, rfl⟩

theorem findGlobal_ok {m : ModuleRef} {name : String} {g : GlobalRef type} :
    h.findGlobal m name type = .ok (some g) ↔
      m.host = h.id ∧ g.host = h.id ∧ h.store.findGlobal m.index name = .ok (some g.cell) := by
  simp only [findGlobal, bind_eq_ok, orError_eq_ok, own_eq_ok]
  constructor
  · rintro ⟨_, owned, found, looked, given⟩
    obtain ⟨cell, rfl, rfl⟩ := Option.map_eq_some_iff.mp (Except.ok.inj given)
    exact ⟨owned, rfl, looked⟩
  · rintro ⟨owned, host, looked⟩
    obtain ⟨_, cell⟩ := g
    cases host
    exact ⟨(), owned, some cell, looked, rfl⟩

end Host

namespace Session

variable {σ : Type} {s t : Session σ}

inductive Effect (s t : Session σ) : Prop
  | used (host : Host.Uses s.host t.host) (links : t.links = s.links)
  | loaded {p : ParsedModule} {m : LoadedModule} (gained : Store.Gained s.host.store t.host.store p.module m)
      (host : t.host = { s.host with store := t.host.store, binaries := s.host.binaries ++ [p.bytes] })
      (links : t.links = s.links) (parsed : ∃ e bytes, ParsedModule.parse e bytes = .ok p)
  | linked {m : ModuleRef} {ns name : String} {f : HostFunction σ} (linked : s.host.link m ns name f = .ok t.host)
      (links : t.links = (⟨m.index, ns, name⟩, f) :: s.links)

theorem Effect.load (s : Session σ) {e : Environment} {bytes : Bytes} (parsed : ParsedModule.parse e bytes = .ok p) :
    Effect s { s with host := (s.host.load p).1 } := by
  cases loaded : s.host.load p with
  | mk after answer =>
    cases answer with
    | error e => exact .used (.load loaded) rfl
    | ok m =>
      obtain ⟨_, stored, host⟩ := Host.load_ok loaded
      obtain ⟨_, new, gained⟩ := Store.load_ok stored
      exact .loaded gained host rfl ⟨e, bytes, parsed⟩

/-- What does not load uses the host or links a function. -/
theorem effect_of_not_load (s : Session σ) {op : Operation σ} (other : op.isLoad = false) :
    (Host.Uses s.host (s.perform op).host ∧ (s.perform op).links = s.links) ∨
    ∃ m ns name f, s.host.link m ns name f = .ok (s.perform op).host ∧
      (s.perform op).links = (⟨m.index, ns, name⟩, f) :: s.links := by
  have noted (found : Except Error FunctionRef) :
      Host.Uses s.host (s.noteFunction found).host ∧ (s.noteFunction found).links = s.links := by
    cases found <;> exact ⟨.refl _, rfl⟩
  cases op with
  | load e bytes => cases other
  | parseAndLoad bytes => cases other
  | link m ns name f =>
    simp only [perform]
    split
    · rename_i linked
      exact .inr ⟨m, ns, name, f, linked, rfl⟩
    · exact .inl ⟨.refl _, rfl⟩
  | findFunction name => exact .inl (noted _)
  | findModuleFunction m name => exact .inl (noted _)
  | findGlobal m name type =>
    simp only [perform]
    split <;> exact .inl ⟨.refl _, rfl⟩
  | call f args => exact .inl ⟨.call _ f args, rfl⟩
  | callFor f type args => exact .inl ⟨.callFor _ f type args, rfl⟩
  | setValue g v =>
    simp only [perform]
    split
    · rename_i set
      exact .inl ⟨.setValue set, rfl⟩
    · exact .inl ⟨.refl _, rfl⟩
  | write change =>
    simp only [perform]
    split
    · exact .inl ⟨.setMemory _ _, rfl⟩
    · exact .inl ⟨.refl _, rfl⟩
  | resize pages =>
    simp only [perform]
    split
    · rename_i resized
      exact .inl ⟨.resize resized, rfl⟩
    · exact .inl ⟨.refl _, rfl⟩
  | setUser user => exact .inl ⟨.setUser _ user, rfl⟩

theorem effect_perform (s : Session σ) (op : Operation σ) : Effect s (s.perform op) := by
  cases loads : op.isLoad with
  | false =>
    rcases effect_of_not_load s loads with ⟨host, links⟩ | ⟨m, ns, name, f, linked, links⟩
    · exact .used host links
    · exact .linked linked links
  | true =>
    cases op with
    | load e bytes =>
      simp only [perform]
      split
      · rename_i parsed
        exact .load s parsed
      · exact .used (.refl _) rfl
    | parseAndLoad bytes =>
      simp only [perform, Host.parseAndLoad]
      split
      · rename_i parsed
        exact .load s parsed
      · exact .used (.refl _) rfl
    | _ => cases loads

theorem Effect.id (h : Effect s t) : t.host.id = s.host.id := by
  cases h with
  | used host links => exact host.id
  | loaded gained host links => rw [host]
  | linked linked links =>
    obtain ⟨_, _, host⟩ := Host.link_ok linked
    rw [host]

/-- No operation takes a module away, or gives it other code. -/
theorem Effect.keeps (h : Effect s t) : Store.Keeps s.host.store t.host.store := by
  cases h with
  | used host links => exact host.store.keeps
  | loaded gained host links => exact gained.keeps
  | linked linked links =>
    obtain ⟨_, _, host⟩ := Host.link_ok linked
    rw [host]
    exact fun k m found => ⟨m, found, rfl⟩

/-- The function behind a handle is one of a loaded module. -/
def Issued (s : Session σ) (f : FunctionRef) : Prop :=
  f.host = s.host.id ∧ ∃ m type, s.host.store.Offers f.function m type

theorem Issued.effect (issued : s.Issued f) (h : Effect s t) : t.Issued f := by
  obtain ⟨host, m, type, offers⟩ := issued
  obtain ⟨after, offers⟩ := h.keeps.offers offers
  exact ⟨host.trans h.id.symm, after, type, offers⟩

/-- A handle that a lookup gives out. -/
def Found (s : Session σ) (f : FunctionRef) : Prop := f.host = s.host.id ∧ s.host.store.Resolves f.function

theorem Found.issued (found : s.Found f) : s.Issued f := ⟨found.1, found.2.offers⟩

theorem found_of_findFunction (h : s.host.findFunction name = .ok f) : s.Found f := by
  simp only [Host.findFunction, bind_eq_ok, orError_eq_ok] at h
  obtain ⟨found, looked, given⟩ := h
  obtain ⟨host, rfl⟩ := Host.functionRef_ok given
  exact ⟨host, Store.resolves_of_findFunction looked⟩

theorem found_of_findModuleFunction (h : s.host.findModuleFunction m name = .ok f) : s.Found f := by
  obtain ⟨_, host, looked⟩ := Host.findModuleFunction_ok.mp h
  exact ⟨host, Store.resolves_of_findModuleFunction looked⟩

theorem mem_functions_perform {op : Operation σ} (h : f ∈ (s.perform op).functions) : f ∈ s.functions ∨ s.Found f := by
  have noted {found : Except Error FunctionRef} (looked : ∀ f, found = .ok f → s.Found f)
      (h : f ∈ (s.noteFunction found).functions) : f ∈ s.functions ∨ s.Found f := by
    cases found with
    | error e => exact .inl h
    | ok new =>
      rcases List.mem_cons.mp h with rfl | old
      · exact .inr (looked f rfl)
      · exact .inl old
  cases op with
  | findFunction name => exact noted (fun f => found_of_findFunction) h
  | findModuleFunction m name => exact noted (fun f => found_of_findModuleFunction) h
  | load | parseAndLoad | link | findGlobal | call | callFor | setValue | write | resize | setUser =>
    refine .inl ?_
    simp only [perform] at h
    repeat' split at h
    all_goals exact h

/-- Every handle that was given out is good for as long as the host lasts. -/
theorem Reachable.issued (reached : s.Reachable) : ∀ f ∈ s.functions, s.Issued f := by
  induction reached with
  | new created steps => simp
  | @perform before reached op allowed ih =>
    intro f among
    have effect := effect_perform before op
    rcases mem_functions_perform among with old | new
    · exact (ih f old).effect effect
    · exact new.issued.effect effect

end Session

namespace Sample

def environment : Environment := ⟨0, {}⟩

def start : Session Nat :=
  { host :=
      { id := 0, store := { environment := environment, stackSize := 1024, userData := 0, host := { user := 0 } } } }

theorem reachable_start : start.Reachable := by
  have created : Host.new 0 environment 1024 0 = .ok start.host := rfl
  exact .new created _

end Sample
end WasmBinding
