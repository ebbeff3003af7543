import WasmBinding.Proofs.Host.Environments
import WasmBinding.Proofs.Host.Resolution

/-! What a host lists. Its handles, binaries and names are those of the loads that succeeded, in their order, whatever else
was done or failed in between. -/

namespace WasmBinding

/-- A load that succeeded. -/
structure Load where
  handle : ModuleRef
  source : ParsedModule

def Load.ofAnswer (source : ParsedModule) : Except Error ModuleRef → List Load
  | .ok handle => [⟨handle, source⟩]
  | .error _ => []

namespace Session

variable {σ : Type} {s t : Session σ} {history : List Load}

/-- What an operation loads with success. -/
def loads (s : Session σ) : Operation σ → List Load
  | .load e bytes =>
    match ParsedModule.parse e bytes with
    | .ok p => Load.ofAnswer p (s.host.load p).2
    | .error _ => []
  | .parseAndLoad bytes =>
    match ParsedModule.parse s.host.environment bytes with
    | .ok p => Load.ofAnswer p (s.host.parseAndLoad bytes).2
    | .error _ => []
  | _ => []

/-- A session that can be reached, with every load that succeeded on the way, in order. -/
inductive Loaded : Session σ → List Load → Prop
  | new {number : Nat} {made : Host σ} (created : Host.new number e stackSize user = .ok made) (steps : Nat) :
    Loaded { host := made.bounded steps } []
  | perform {before : Session σ} (loaded : Loaded before earlier) (op : Operation σ) (allowed : before.Allows op) :
    Loaded (before.perform op) (earlier ++ before.loads op)

theorem Reachable.loaded (reached : s.Reachable) : ∃ history, s.Loaded history := by
  induction reached with
  | new created steps => exact ⟨[], .new created steps⟩
  | perform _ op allowed ih =>
    obtain ⟨history, loaded⟩ := ih
    exact ⟨_, loaded.perform op allowed⟩

theorem Loaded.leads (loaded : s.Loaded history) (leads : s.Leads t) : ∃ more, t.Loaded (history ++ more) := by
  induction leads with
  | refl => exact ⟨[], by rwa [List.append_nil]⟩
  | @perform t leads op allowed ih =>
    obtain ⟨more, loaded⟩ := ih
    refine ⟨more ++ t.loads op, ?_⟩
    rw [← List.append_assoc]
    exact loaded.perform op allowed

end Session

namespace Host

variable {σ : Type} {h after : Host σ} {l : Load}

/-- A host to which nothing has been added. -/
structure Rests (h after : Host σ) : Prop where
  id : after.id = h.id
  environment : after.environment = h.environment
  binaries : after.binaries = h.binaries
  loaded : after.store.loaded = h.store.loaded

/-- A host to which one module has been added. -/
structure Takes (h : Host σ) (l : Load) (after : Host σ) : Prop where
  id : after.id = h.id
  environment : after.environment = h.environment
  handle : l.handle = ⟨h.id, h.store.loaded.length⟩
  binaries : after.binaries = h.binaries ++ [l.source.bytes]
  loaded : after.store.loaded = h.store.loaded ++ [l.source.module]
  parsed : ParsedModule.parse l.source.environment l.source.bytes = .ok l.source
  same : l.source.environment.same h.environment = true

theorem Uses.rests (uses : Uses h after) : Rests h after where
  id := uses.id
  environment := uses.store.environment
  binaries := uses.binaries
  loaded := uses.store.loaded

theorem rests_of_link (linked : h.link m ns name f = .ok after) : Rests h after := by
  obtain ⟨slot, _, rfl⟩ := link_ok linked
  constructor <;> rfl

/-- A load adds a module if it answers with a handle, and else adds nothing. -/
theorem load_cases (h : Host σ) {p : ParsedModule} (parsed : ParsedModule.parse p.environment p.bytes = .ok p) :
    (Load.ofAnswer p (h.load p).2 = [] ∧ Rests h (h.load p).1) ∨
    ∃ l, Load.ofAnswer p (h.load p).2 = [l] ∧ Takes h l (h.load p).1 := by
  cases answered : h.load p with
  | mk after answer =>
    cases answer with
    | error e => exact .inl ⟨rfl, (Uses.load answered).rests⟩
    | ok m =>
      refine .inr ⟨⟨m, p⟩, rfl, ?_⟩
      obtain ⟨host, stored, same⟩ := load_ok answered
      obtain ⟨index, new, gained⟩ := Store.load_ok stored
      have domestic : p.environment.same h.environment = true := by
        rw [← Bool.not_eq_false, ← load_eq_mismatched_iff, answered]
        nofun
      constructor
      case id => rw [same]
      case environment =>
        rw [environment, gained.rest]
        rfl
      case handle =>
        rw [Store.length_loaded, ← host, ← index]
      case binaries => rw [same]
      case loaded => exact gained.loaded
      case parsed => exact parsed
      case same => exact domestic

end Host

/-- What a host lists after a history of loads. -/
structure Host.Lists {σ : Type} (h : Host σ) (history : List Load) : Prop where
  handles : h.modules = history.map (·.handle)
  distinct : (history.map (·.handle)).Nodup
  binaries : h.binaries = history.map (·.source.bytes)
  count : h.describe = "Runtime \x7b id: " ++ toString h.id ++ ", stack_size: " ++ toString h.stackSize ++ ", modules: " ++
    toString history.length ++ ", linked_functions: " ++ toString h.registry.size ++ " \x7d"
  parsed : ∀ l ∈ history, ParsedModule.parse l.source.environment l.source.bytes = .ok l.source ∧
    l.source.environment.same h.environment = true
  named : ∀ l ∈ history, h.moduleName l.handle = .ok l.source.name
  found : ∀ name, h.findModule name = (history.find? (·.source.name == some name)).map (·.handle)

namespace Host

variable {σ : Type} {h after : Host σ} {l : Load} {history : List Load}

/-- A host holds the modules of its history, and gave each of them the number that it has there. -/
structure Holds (h : Host σ) (history : List Load) : Prop where
  handles : history.map (·.handle) = (List.range history.length).map (⟨h.id, ·⟩)
  binaries : h.binaries = history.map (·.source.bytes)
  loaded : h.store.loaded = history.map (·.source.module)
  parsed : ∀ l ∈ history, ParsedModule.parse l.source.environment l.source.bytes = .ok l.source ∧
    l.source.environment.same h.environment = true

theorem Holds.rests (holds : Holds h history) (rests : Rests h after) : Holds after history where
  handles := by
    rw [rests.id]
    exact holds.handles
  binaries := rests.binaries.trans holds.binaries
  loaded := rests.loaded.trans holds.loaded
  parsed := by
    rw [rests.environment]
    exact holds.parsed

theorem Holds.takes (holds : Holds h history) (takes : Takes h l after) : Holds after (history ++ [l]) where
  handles := by
    have count : h.store.loaded.length = history.length := by rw [holds.loaded, List.length_map]
    rw [List.map_append, holds.handles, List.length_append, List.length_singleton, List.range_succ, List.map_append,
      takes.id, List.map_singleton, List.map_singleton, takes.handle, count]
  binaries := by rw [takes.binaries, holds.binaries, List.map_append, List.map_singleton]
  loaded := by rw [takes.loaded, holds.loaded, List.map_append, List.map_singleton]
  parsed := by
    rw [takes.environment]
    intro l' among
    rcases List.mem_append.mp among with old | new
    · exact holds.parsed l' old
    · cases List.mem_singleton.mp new
      exact ⟨takes.parsed, takes.same⟩

theorem Holds.handle_eq (holds : Holds h history) (found : history[k]? = some l) : l.handle = ⟨h.id, k⟩ := by
  have inside := (List.getElem?_eq_some_iff.mp found).1
  have same := congrArg (·[k]?) holds.handles
  simp only [List.getElem?_map, found, Option.map_some, List.getElem?_range inside] at same
  exact Option.some.inj same

theorem Holds.name_eq (holds : Holds h history) (k : Nat) : h.store.moduleName k = history[k]?.bind (·.source.name) := by
  have same := congrArg (·[k]?.bind (·.name)) holds.loaded
  simp only [Store.loaded, List.getElem?_map, Option.bind_map] at same
  exact same

/-- What is listed is what is held. -/
theorem Holds.lists (holds : Holds h history) : h.Lists history where
  handles := by
    rw [holds.handles, modules, ← Store.length_loaded, holds.loaded, List.length_map]
  distinct := by
    rw [holds.handles]
    refine List.Pairwise.map _ (fun a b ne same => ne (ModuleRef.mk.inj same).2) List.nodup_range
  binaries := holds.binaries
  count := by
    have length : h.binaries.length = history.length := by rw [holds.binaries, List.length_map]
    rw [← length]
    rfl
  parsed := holds.parsed
  named := by
    intro l among
    obtain ⟨k, found⟩ := List.mem_iff_getElem?.mp among
    rw [holds.handle_eq found, moduleName, own, if_pos rfl]
    have name := holds.name_eq k
    rw [found] at name
    exact congrArg Except.ok name
  found := by
    intro name
    have stored : h.store.findModule name = history.findIdx? (·.source.name == some name) := by
      have same := congrArg (List.findIdx? (·.name == some name)) holds.loaded
      rw [Store.loaded, List.findIdx?_map, List.findIdx?_map] at same
      exact same
    rw [findModule, stored, List.find?_eq_bind_findIdx?_getElem?]
    cases first : history.findIdx? (·.source.name == some name) with
    | none => rfl
    | some k =>
      obtain ⟨inside, _⟩ := List.findIdx?_eq_some_iff_getElem.mp first
      have found := List.getElem?_eq_getElem inside
      simp only [Option.bind_some, found, Option.map_some, holds.handle_eq found]

end Host

namespace Session

variable {σ : Type} {s t : Session σ} {history : List Load}

theorem loads_cases (s : Session σ) (op : Operation σ) :
    (s.loads op = [] ∧ s.host.Rests (s.perform op).host) ∨
    ∃ l, s.loads op = [l] ∧ s.host.Takes l (s.perform op).host := by
  cases kind : op.isLoad with
  | false =>
    have nothing : s.loads op = [] := by
      cases op <;> first | rfl | cases kind
    refine .inl ⟨nothing, ?_⟩
    rcases effect_of_not_load s kind with ⟨uses, _⟩ | ⟨m, ns, name, f, linked, _⟩
    · exact uses.rests
    · exact Host.rests_of_link linked
  | true =>
    cases op with
    | load e bytes =>
      simp only [perform, loads]
      cases parsed : ParsedModule.parse e bytes with
      | error fault => exact .inl ⟨rfl, (Host.Uses.refl _).rests⟩
      | ok p => exact s.host.load_cases (ParsedModule.parse_eq parsed).2.2
    | parseAndLoad bytes =>
      simp only [perform, loads, Host.parseAndLoad]
      cases parsed : ParsedModule.parse s.host.environment bytes with
      | error fault => exact .inl ⟨rfl, (Host.Uses.refl _).rests⟩
      | ok p => exact s.host.load_cases (ParsedModule.parse_eq parsed).2.2
    | _ => cases kind

theorem Loaded.holds (loaded : s.Loaded history) : s.host.Holds history := by
  induction loaded with
  | new created steps =>
    rw [Host.new_ok created]
    constructor <;> first | rfl | simp
  | @perform earlier before loaded op allowed ih =>
    rcases loads_cases before op with ⟨nothing, rests⟩ | ⟨l, one, takes⟩
    · rw [nothing, List.append_nil]
      exact ih.rests rests
    · rw [one]
      exact ih.takes takes

/-- Whatever is done with a host, and whatever fails, it lists exactly the modules of the loads that succeeded: their handles,
their binaries and their number, in the order of the loads. A name stands for the first of them that has it, a handle keeps its
name, and both stay so. A module of another environment is refused as such, and the store's own objection to it is never
heard. -/
theorem modules_in_step (reached : s.Reachable) :
    s.host.Guards ∧ (∃ history, s.Loaded history) ∧
    ∀ history, s.Loaded history → s.host.Lists history ∧
      ∀ t, s.Leads t →
        (∃ more, t.Loaded (history ++ more) ∧ t.host.Lists (history ++ more)) ∧
        (∀ l ∈ history, t.host.moduleName l.handle = .ok l.source.name) ∧
        ∀ name m, s.host.findModule name = some m → t.host.findModule name = some m := by
  refine ⟨s.host.guards, reached.loaded, ?_⟩
  intro history loaded
  have lists := loaded.holds.lists
  refine ⟨lists, fun t leads => ?_⟩
  obtain ⟨more, later⟩ := loaded.leads leads
  have lists' := later.holds.lists
  refine ⟨⟨more, later, lists'⟩, fun l among => lists'.named l (List.mem_append_left _ among), ?_⟩
  intro name m found
  rw [lists.found, Option.map_eq_some_iff] at found
  obtain ⟨l, first, rfl⟩ := found
  rw [lists'.found, List.find?_append, first]
  rfl

end Session

namespace Namesakes

/-- An empty module that calls itself `m`. -/
def binary : Wasm.Bytes :=
  [0x00, 0x61, 0x73, 0x6d, 0x01, 0x00, 0x00, 0x00,
    0x00, 0x09, 0x04, 0x6e, 0x61, 0x6d, 0x65, 0x00, 0x02, 0x01, 0x6d]

/-- Loads the module, fails to load that of another environment, and loads it again. -/
def session : Session Nat :=
  ((Sample.start.perform (.parseAndLoad binary)).perform (.load ⟨1, {}⟩ binary)).perform (.parseAndLoad binary)

theorem reachable : session.Reachable :=
  ((Sample.reachable_start.perform (.parseAndLoad binary) trivial).perform (.load ⟨1, {}⟩ binary) trivial).perform
    (.parseAndLoad binary) trivial

end Namesakes

theorem modules_in_step_namesakes :
    Namesakes.session.host.modules = [⟨0, 0⟩, ⟨0, 1⟩] ∧
      Namesakes.session.host.binaries = [Namesakes.binary, Namesakes.binary] ∧
        ∀ t, Namesakes.session.Leads t → t.host.findModule "m" = some ⟨0, 0⟩ := by
  obtain ⟨_, ⟨history, loaded⟩, stays⟩ := Session.modules_in_step Namesakes.reachable
  have found : Namesakes.session.host.findModule "m" = some ⟨0, 0⟩ := by decide +kernel
  refine ⟨by decide +kernel, by decide +kernel, fun t leads => ?_⟩
  exact ((stays history loaded).2 t leads).2.2 "m" _ found

end WasmBinding
