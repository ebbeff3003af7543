import WasmBinding.Proofs.Host.Ownership
import WasmBinding.Proofs.Host.Resolution
import WasmBinding.Proofs.Store.Cells

/-! Globals of a host over time. Every operation stores some values in cells: a load what the new globals begin with, a call
what its code writes, and setting a global the value that is set. A handle goes on denoting one cell and reads what was
stored there last, whoever stored it and through whichever handle. Its type is checked before anything else. -/

namespace WasmBinding

open Wasm (GlobalType Value)

namespace Host

variable {σ : Type} {h after : Host σ}

/-- What a load stores, if it succeeds. -/
def loadStores (h : Host σ) (p : ParsedModule) : List (Cell × Value) :=
  match h.load p with
  | (_, .ok _) => h.store.loadStores p.module
  | (_, .error _) => []

def callStores (h : Host σ) (f : FunctionRef) (args : List Scalar) : List (Cell × Value) :=
  match h.checkCall f args with
  | .ok () => h.store.callStores f.function (args.map Scalar.toSlot)
  | .error _ => []

theorem stored_load (typed : h.store.Typed) (parsed : ∃ e bytes, ParsedModule.parse e bytes = .ok p) :
    Store.Stored h.store (h.load p).1.store (h.loadStores p) := by
  unfold loadStores
  cases loaded : h.load p with
  | mk after answer =>
    cases answer with
    | error e =>
      obtain ⟨same, _⟩ := load_error loaded
      rw [same]
      exact .of_modules typed rfl
    | ok m =>
      obtain ⟨_, stored, _⟩ := load_ok loaded
      exact .load typed parsed stored

theorem stored_call (typed : h.store.Typed) (parsed : h.store.Parsed) (f : FunctionRef) (args : List Scalar) :
    Store.Stored h.store (h.call f args).1.store (h.callStores f args) := by
  unfold call callStores
  cases checked : h.checkCall f args with
  | error e => exact .of_modules typed rfl
  | ok done => exact .call typed parsed rfl

section Access

variable {type : ScalarType} {g : GlobalRef type}

theorem stored_setValue (typed : h.store.Typed) (denotes : h.store.Denotes g.cell d) {v : type.Carrier}
    (set : h.setValue g v = .ok after) : Store.Stored h.store after.store [(g.cell.toCell, type.toValue v)] := by
  obtain ⟨_, t, written, rfl⟩ := setValue_ok set
  obtain ⟨w, read, stored⟩ := Store.Stored.setGlobal typed denotes written
  cases (ScalarType.ofSlot?_toSlot type v).symm.trans read
  exact stored

theorem value_of_mistyped (owned : g.host = h.id) (other : g.cell.type ≠ type.tag) :
    h.value g = .error .invalidSignature := by
  rw [value, own, if_pos owned, checkType, if_neg other]
  rfl

theorem setValue_of_mistyped (owned : g.host = h.id) (other : g.cell.type ≠ type.tag) (v : type.Carrier) :
    h.setValue g v = .error .invalidSignature := by
  rw [setValue, own, if_pos owned, checkType, if_neg other]
  rfl

theorem value_of_typed (owned : g.host = h.id) (typed : g.cell.type = type.tag) {x : type.Carrier}
    (holds : h.store.cell? g.cell.toCell = some (type.toValue x)) : h.value g = .ok x := by
  rw [value, own, if_pos owned, checkType, if_pos typed, Store.getGlobal_of_cell holds]
  exact congrArg Except.ok (ScalarType.ofSlot_toSlot type x)

theorem setValue_of_immutable (owned : g.host = h.id) (typed : g.cell.type = type.tag) (fixed : g.cell.mutable = false)
    (v : type.Carrier) : h.setValue g v = .error (.engine .immutableGlobal) := by
  rw [setValue, own, if_pos owned, checkType, if_pos typed, Store.setGlobal_of_immutable fixed]
  rfl

theorem setValue_of_mutable (owned : g.host = h.id) (typed : g.cell.type = type.tag) (mutable : g.cell.mutable = true)
    (v : type.Carrier) : ∃ after, h.setValue g v = .ok after := by
  have read : (Value.ofSlot? (type.toSlot v) g.cell.type).isSome = true := by
    rw [typed, ScalarType.ofSlot?_toSlot]
    rfl
  obtain ⟨t, written⟩ := Store.setGlobal_of_mutable mutable read
  refine ⟨{ h with store := t }, ?_⟩
  rw [setValue, own, if_pos owned, checkType, if_pos typed, ← typed, written]
  rfl

end Access

end Host

namespace Session

variable {σ : Type} {s t : Session σ}

/-- What an operation stores in globals, in order. -/
def stores (s : Session σ) : Operation σ → List (Cell × Value)
  | .load e bytes =>
    match ParsedModule.parse e bytes with
    | .ok p => s.host.loadStores p
    | .error _ => []
  | .parseAndLoad bytes =>
    match ParsedModule.parse s.host.environment bytes with
    | .ok p => s.host.loadStores p
    | .error _ => []
  | .call f args => s.host.callStores f args
  | .callFor f type args => if f.function.results = [type.tag] then s.host.callStores f args else []
  | @Operation.setValue _ type g v =>
    match s.host.setValue g v with
    | .ok _ => [(g.cell.toCell, type.toValue v)]
    | .error _ => []
  | .link _ _ _ _ | .findFunction _ | .findModuleFunction _ _ | .findGlobal _ _ _ | .write _ | .resize _ | .setUser _ => []

/-- A session that can be reached, with everything that was stored in globals on the way, latest first. -/
inductive Logged : Session σ → List (Cell × Value) → Prop
  | new {number : Nat} {made : Host σ} (created : Host.new number e stackSize user = .ok made) (steps : Nat) :
    Logged { host := made.bounded steps } []
  | perform {before : Session σ} (logged : Logged before log) (op : Operation σ) (allowed : before.Allows op) :
    Logged (before.perform op) ((before.stores op).reverse ++ log)

theorem Reachable.logged (reached : s.Reachable) : ∃ log, s.Logged log := by
  induction reached with
  | new created steps => exact ⟨[], .new created steps⟩
  | perform _ op allowed ih =>
    obtain ⟨log, logged⟩ := ih
    exact ⟨_, logged.perform op allowed⟩

theorem Logged.reachable (logged : s.Logged log) : s.Reachable := by
  induction logged with
  | new created steps => exact .new created steps
  | perform _ op allowed ih => exact ih.perform op allowed

/-- The cells of a session hold what was declared, and its handles denote some of them. -/
structure Celled (s : Session σ) : Prop where
  typed : s.host.store.Typed
  denotes : ∀ g ∈ s.globals, g.2.host = s.host.id ∧ ∃ d, s.host.store.Denotes g.2.cell d

theorem stored_perform (celled : s.Celled) (parsed : s.host.store.Parsed) {op : Operation σ} (allowed : s.Allows op) :
    Store.Stored s.host.store (s.perform op).host.store (s.stores op) := by
  have nothing {t : Session σ} (same : t.host.store.modules = s.host.store.modules) :
      Store.Stored s.host.store t.host.store [] := .of_modules celled.typed same
  cases op with
  | load e bytes =>
    simp only [perform, stores]
    cases made : ParsedModule.parse e bytes with
    | error fault => exact nothing rfl
    | ok p => exact Host.stored_load celled.typed ⟨e, bytes, made⟩
  | parseAndLoad bytes =>
    simp only [perform, Host.parseAndLoad, stores]
    cases made : ParsedModule.parse s.host.environment bytes with
    | error fault => exact nothing rfl
    | ok p => exact Host.stored_load celled.typed ⟨_, bytes, made⟩
  | call f args => exact Host.stored_call celled.typed parsed f args
  | callFor f type args =>
    simp only [perform, Host.callFor_host, stores]
    split
    · exact Host.stored_call celled.typed parsed f args
    · exact nothing rfl
  | @setValue type g v =>
    simp only [perform, stores]
    cases set : s.host.setValue g v with
    | error e => exact nothing rfl
    | ok after =>
      obtain ⟨_, d, denotes⟩ := celled.denotes _ (allowed (Host.setValue_ok set).1)
      exact Host.stored_setValue celled.typed denotes set
  | link m ns name f =>
    simp only [perform]
    cases linked : s.host.link m ns name f with
    | error e => exact nothing rfl
    | ok after =>
      obtain ⟨_, _, rfl⟩ := Host.link_ok linked
      exact nothing rfl
  | resize pages =>
    simp only [perform]
    cases resized : s.host.resize pages with
    | error e => exact nothing rfl
    | ok after =>
      obtain ⟨t, grown, rfl⟩ := Host.resize_ok resized
      rcases Store.resize_cases grown with rfl | ⟨_, rfl⟩ | ⟨_, _, _, _, _, _, rfl⟩
      all_goals exact nothing rfl
  | findFunction | findModuleFunction =>
    simp only [perform, noteFunction]
    split
    all_goals exact nothing rfl
  | findGlobal | write =>
    simp only [perform]
    split
    all_goals exact nothing rfl
  | setUser user => exact nothing rfl

theorem Reachable.celled (reached : s.Reachable) : s.Celled := by
  induction reached with
  | new created steps =>
    rw [Host.new_ok created]
    exact ⟨fun c => rfl, by simp⟩
  | @perform before reached op allowed ih =>
    have effect := effect_perform before op
    refine ⟨(stored_perform ih reached.parsed allowed).typed, ?_⟩
    intro g among
    rw [effect.id]
    rcases mem_globals_perform among with old | ⟨m, name, found⟩
    · obtain ⟨host, d, denotes⟩ := ih.denotes g old
      exact ⟨host, d, denotes.keeps effect.keeps⟩
    · obtain ⟨_, host, found⟩ := Host.findGlobal_ok.mp found
      obtain ⟨_, d, _, _, _, denotes⟩ := Store.findGlobal_some found
      exact ⟨host, d, denotes.keeps effect.keeps⟩

theorem Reachable.stored (reached : s.Reachable) {op : Operation σ} (allowed : s.Allows op) :
    Store.Stored s.host.store (s.perform op).host.store (s.stores op) :=
  stored_perform reached.celled reached.parsed allowed

/-- Cells hold what was stored last. -/
theorem Logged.cells (logged : s.Logged log) (c : Cell) : s.host.store.cell? c = log.lookup c := by
  induction logged with
  | new created steps =>
    rw [Host.new_ok created]
    rfl
  | perform logged op allowed ih => rw [(logged.reachable.stored allowed).cells, ih, List.lookup_append]

theorem globals_perform (s : Session σ) (op : Operation σ) : s.globals ⊆ (s.perform op).globals := by
  intro g among
  cases op with
  | findGlobal m name type =>
    simp only [perform]
    split
    · exact List.mem_cons_of_mem _ among
    · exact among
  | load | parseAndLoad | link | findFunction | findModuleFunction | call | callFor | setValue | write | resize
  | setUser =>
    simp only [perform, noteFunction]
    repeat' split
    all_goals exact among

namespace Leads

theorem keeps (leads : s.Leads t) : Store.Keeps s.host.store t.host.store := by
  induction leads with
  | refl => exact .refl _
  | perform _ op _ ih => exact ih.trans (effect_perform _ op).keeps

theorem globals (leads : s.Leads t) : s.globals ⊆ t.globals := by
  induction leads with
  | refl => exact List.Subset.refl _
  | perform _ op _ ih => exact List.Subset.trans ih (globals_perform _ op)

theorem id (leads : s.Leads t) : t.host.id = s.host.id := by
  induction leads with
  | refl => rfl
  | perform _ op _ ih => exact (effect_perform _ op).id.trans ih

/-- A name goes on standing for one cell, whichever type it is looked up with. -/
theorem findGlobal {g : GlobalRef type} (leads : s.Leads t) (found : s.host.findGlobal m name type = .ok (some g))
    (other : ScalarType) : t.host.findGlobal m name other = .ok (some ⟨g.host, g.cell⟩) := by
  obtain ⟨owned, host, looked⟩ := Host.findGlobal_ok.mp found
  rw [← leads.id] at owned host
  exact Host.findGlobal_ok.mpr ⟨owned, host, leads.keeps.findGlobal looked⟩

theorem declared (leads : s.Leads t) (declared : s.host.store.declared? c = some d) :
    t.host.store.declared? c = some d := leads.keeps.declared declared

/-- An immutable cell is never stored into again. -/
theorem cell?_of_immutable (leads : s.Leads t) (reached : s.Reachable) (declared : s.host.store.declared? c = some d)
    (fixed : d.mutable = false) : t.host.store.cell? c = s.host.store.cell? c := by
  induction leads with
  | refl => rfl
  | perform leads op allowed ih =>
    have stored := (leads.reachable reached).stored allowed
    exact (stored.keeps (leads.declared declared) fixed).trans ih

end Leads

/-- What a handle does at a time when some values have been stored, latest first. Only one of the type of its cell reads and
writes; it reads what was stored last, and writing through it changes no other cell. -/
structure Accesses (s : Session σ) (log : List (Cell × Value)) {type : ScalarType} (g : GlobalRef type)
    (d : GlobalType) : Prop where
  denotes : s.host.store.Denotes g.cell d
  reads : d.type = type.valType → ∃ x, s.host.value g = .ok x ∧ log.lookup g.cell.toCell = some (type.toValue x)
  writes : d.type = type.valType → d.mutable = true → ∀ v, ∃ after, s.host.setValue g v = .ok after ∧
    after.store.cell? g.cell.toCell = some (type.toValue v) ∧
    ∀ c, c ≠ g.cell.toCell → after.store.cell? c = s.host.store.cell? c
  immutable : d.type = type.valType → d.mutable = false → ∀ v,
    s.host.setValue g v = .error (.engine .immutableGlobal) ∧ (Error.engine .immutableGlobal).isTrap = false ∧
    s.perform (.setValue g v) = s
  mistyped : d.type ≠ type.valType → s.host.value g = .error .invalidSignature ∧ ∀ v,
    s.host.setValue g v = .error .invalidSignature ∧ s.perform (.setValue g v) = s

theorem perform_setValue_of_error {type : ScalarType} {g : GlobalRef type} {v : type.Carrier}
    (refused : s.host.setValue g v = .error e) : s.perform (.setValue g v) = s := by
  rw [perform, refused]

theorem Logged.accesses (logged : s.Logged log) {type : ScalarType} {g : GlobalRef type} (given : ⟨type, g⟩ ∈ s.globals) :
    ∃ d, s.Accesses log g d := by
  obtain ⟨typed, handles⟩ := logged.reachable.celled
  obtain ⟨owned, d, denotes⟩ := handles _ given
  have owned : g.host = s.host.id := owned
  have denotes : s.host.store.Denotes g.cell d := denotes
  have tag : d.type = type.valType ↔ g.cell.type = type.tag := by
    rw [ScalarType.eq_valType_iff, denotes.type]
  refine ⟨d, ?_⟩
  constructor
  case denotes => exact denotes
  case reads =>
    intro same
    have holds := typed g.cell.toCell
    rw [denotes.declared, Option.map_some, Option.map_eq_some_iff] at holds
    obtain ⟨v, holds, ofType⟩ := holds
    obtain ⟨x, rfl⟩ := ScalarType.exists_toValue (ofType ▸ ScalarType.eq_valType_iff.mp same)
    exact ⟨x, Host.value_of_typed owned (tag.mp same) holds, (logged.cells _).symm.trans holds⟩
  case writes =>
    intro same mutable v
    obtain ⟨after, set⟩ := Host.setValue_of_mutable owned (tag.mp same) (denotes.mutable.trans mutable) v
    have stored := Host.stored_setValue typed denotes set
    refine ⟨after, set, ?_, ?_⟩
    · rw [stored.cells, List.reverse_singleton, List.lookup_cons_self, Option.some_or]
    · intro c other
      rw [stored.cells, List.reverse_singleton, List.lookup_cons, beq_false_of_ne other, List.lookup_nil, Option.none_or]
  case immutable =>
    intro same fixed v
    have refused := Host.setValue_of_immutable owned (tag.mp same) (denotes.mutable.trans fixed) v
    exact ⟨refused, rfl, perform_setValue_of_error refused⟩
  case mistyped =>
    intro other
    have mistyped : g.cell.type ≠ type.tag := fun same => other (tag.mpr same)
    refine ⟨Host.value_of_mistyped owned mistyped, ?_⟩
    intro v
    have refused := Host.setValue_of_mistyped owned mistyped v
    exact ⟨refused, perform_setValue_of_error refused⟩

/-- Whatever is read was stored last. -/
theorem Logged.latest (logged : s.Logged log) {type : ScalarType} {g : GlobalRef type} {x : type.Carrier}
    (given : ⟨type, g⟩ ∈ s.globals) (value : s.host.value g = .ok x) :
    log.lookup g.cell.toCell = some (type.toValue x) := by
  obtain ⟨d, accesses⟩ := logged.accesses given
  by_cases typed : d.type = type.valType
  · obtain ⟨_, read, stored⟩ := accesses.reads typed
    cases value.symm.trans read
    exact stored
  · have refused := (accesses.mistyped typed).1
    rw [value] at refused
    contradiction

/-- Two handles that read one cell read the same bits, whichever of the types with these bits they have. -/
theorem Reachable.same_bits (reached : s.Reachable) {type other : ScalarType} {g : GlobalRef type} {g' : GlobalRef other}
    {x : type.Carrier} {y : other.Carrier} (given : ⟨type, g⟩ ∈ s.globals) (given' : ⟨other, g'⟩ ∈ s.globals)
    (same : g'.cell.toCell = g.cell.toCell) (value : s.host.value g = .ok x) (value' : s.host.value g' = .ok y) :
    other.toSlot y = type.toSlot x := by
  obtain ⟨log, logged⟩ := reached.logged
  have one := logged.latest given value
  rw [← same, logged.latest given' value', Option.some.injEq] at one
  have slots := congrArg Value.toSlot? one
  rwa [ScalarType.toSlot?_toValue, ScalarType.toSlot?_toValue, Option.some.injEq] at slots

end Session

/-- Globals are typed cells. In every run, whatever is loaded, linked, called and set, all that is stored in cells can be
listed. A cell begins with its initialiser, or zero for an imported global, and whatever the start function of its module
writes; from then on a handle that a lookup gave out reads what was stored last, by code or by the embedder through any
handle. Setting changes one cell; a handle of another type than the cell, or one that sets an immutable cell, fails and
changes nothing. A name stands for one cell of its module for good, and an immutable cell keeps what it held when its module
was loaded. -/
theorem globals_are_typed_cells {σ : Type} {s : Session σ} (reached : s.Reachable) :
    (∃ log, s.Logged log) ∧
    (∀ (e : Environment) (bytes : Wasm.Bytes) (p : ParsedModule) (after : Host σ) (m : ModuleRef),
      ParsedModule.parse e bytes = .ok p → s.host.load p = (after, .ok m) → ∀ index, after.store.cell? ⟨m.index, index⟩ =
        ((s.host.store.startWrites p.module).reverse.lookup index).or p.module.firstValues[index]?.join) ∧
    (∀ log, s.Logged log → ∀ (type : ScalarType) (g : GlobalRef type), ⟨type, g⟩ ∈ s.globals →
      ∃ d, s.Accesses log g d) ∧
    (∀ (type other : ScalarType) (g : GlobalRef type) (g' : GlobalRef other) (x : type.Carrier) (y : other.Carrier),
      ⟨type, g⟩ ∈ s.globals → ⟨other, g'⟩ ∈ s.globals → g'.cell.toCell = g.cell.toCell →
      s.host.value g = .ok x → s.host.value g' = .ok y → other.toSlot y = type.toSlot x) ∧
    (∀ (m : ModuleRef) (name : String) (type : ScalarType) (g : GlobalRef type),
      s.host.findGlobal m name type = .ok (some g) →
      (∃ w, s.host.store.modules[m.index]? = some w ∧ g.cell.toCell.module = m.index ∧
        w.globalIndex? name = some g.cell.toCell.index) ∧
      ∀ t, s.Leads t → ∀ other, t.host.findGlobal m name other = .ok (some ⟨g.host, g.cell⟩)) ∧
    ∀ t, s.Leads t →
      s.globals ⊆ t.globals ∧
      ∀ (c : Cell) (d : GlobalType), s.host.store.declared? c = some d → t.host.store.declared? c = some d ∧
        (d.mutable = false → t.host.store.cell? c = s.host.store.cell? c) := by
  refine ⟨reached.logged, ?_, ?_, ?_, ?_, ?_⟩
  · intro e bytes p after m parsed loaded index
    exact Store.cell?_of_load reached.celled.typed ⟨e, bytes, parsed⟩ (Host.load_ok loaded).2.1 index
  · intro log logged type g given
    exact logged.accesses given
  · intro type other g g' x y given given' same value value'
    exact reached.same_bits given given' same value value'
  · intro m name type g found
    obtain ⟨w, _, loaded, named, module, _⟩ := Store.findGlobal_some (Host.findGlobal_ok.mp found).2.2
    refine ⟨⟨w, loaded, module, named⟩, ?_⟩
    intro t leads other
    exact leads.findGlobal found other
  · intro t leads
    refine ⟨leads.globals, ?_⟩
    intro c d declared
    refine ⟨leads.declared declared, ?_⟩
    intro fixed
    exact leads.cell?_of_immutable reached declared fixed

namespace Tally

/-- Imports the global `e.g`, a 32-bit integer, and exports the constant `c`, a 64-bit -5, and `r`, which adds one to the
imported global. -/
def binary : Wasm.Bytes :=
  [0x00, 0x61, 0x73, 0x6d, 0x01, 0x00, 0x00, 0x00,
    0x01, 0x04, 0x01, 0x60, 0x00, 0x00,
    0x02, 0x08, 0x01, 0x01, 0x65, 0x01, 0x67, 0x03, 0x7f, 0x01,
    0x03, 0x02, 0x01, 0x00,
    0x06, 0x06, 0x01, 0x7e, 0x00, 0x42, 0x7b, 0x0b,
    0x07, 0x09, 0x02, 0x01, 0x63, 0x03, 0x01, 0x01, 0x72, 0x00, 0x00,
    0x0a, 0x0b, 0x01, 0x09, 0x00, 0x23, 0x00, 0x41, 0x01, 0x6a, 0x24, 0x00, 0x0b]

def signed : GlobalRef .i32 := ⟨0, ⟨0, 0, .i32, true⟩⟩

def unsigned : GlobalRef .u32 := ⟨0, ⟨0, 0, .i32, true⟩⟩

def constant : GlobalRef .i64 := ⟨0, ⟨0, 1, .i64, false⟩⟩

def function : FunctionRef := ⟨0, ⟨0, 0, [], []⟩⟩

def loaded : Session Nat := Sample.start.perform (.parseAndLoad binary)

def found : Session Nat :=
  (((loaded.perform (.findGlobal ⟨0, 0⟩ "g" .i32)).perform (.findGlobal ⟨0, 0⟩ "g" .u32)).perform
    (.findGlobal ⟨0, 0⟩ "c" .i64)).perform (.findModuleFunction ⟨0, 0⟩ "r")

def set : Session Nat := found.perform (.setValue signed (-2))

/-- The embedder has stored -2, and a call has added one to it. -/
def session : Session Nat := set.perform (.call function [])

theorem globals : found.globals = [⟨.i64, constant⟩, ⟨.u32, unsigned⟩, ⟨.i32, signed⟩] := by decide +kernel

theorem issued : function ∈ set.functions := by decide +kernel

theorem stored_by_load : Sample.start.stores (.parseAndLoad binary) = [(⟨0, 0⟩, .i32 0), (⟨0, 1⟩, .i64 (-5))] := by
  decide +kernel

theorem stored_by_call : set.stores (.call function []) = [(⟨0, 0⟩, .i32 0xffffffff)] := by decide +kernel

theorem stored_by_set : found.stores (.setValue signed (-2)) = [(⟨0, 0⟩, .i32 0xfffffffe)] := by decide +kernel

/-- All that has been stored: the values that the globals begin with, the one that is set, and the one that code stores. -/
def log : List (Cell × Value) :=
  [(⟨0, 0⟩, .i32 0xffffffff), (⟨0, 0⟩, .i32 0xfffffffe), (⟨0, 1⟩, .i64 (-5)), (⟨0, 0⟩, .i32 0)]

theorem logged : session.Logged log := by
  have created : Host.new 0 Sample.environment 1024 0 = .ok Sample.start.host := rfl
  have begun : Sample.start.Logged [] := .new created _
  have first : loaded.Logged _ := begun.perform (.parseAndLoad binary) trivial
  rw [stored_by_load] at first
  -- Lookups store nothing.
  have looked : found.Logged [(⟨0, 1⟩, .i64 (-5)), (⟨0, 0⟩, .i32 0)] :=
    (((first.perform (.findGlobal ⟨0, 0⟩ "g" .i32) trivial).perform (.findGlobal ⟨0, 0⟩ "g" .u32) trivial).perform
      (.findGlobal ⟨0, 0⟩ "c" .i64) trivial).perform (.findModuleFunction ⟨0, 0⟩ "r") trivial
  have written := looked.perform (.setValue signed (-2)) fun _ => by simp [globals]
  rw [stored_by_set] at written
  have ran : session.Logged _ := written.perform (.call function []) fun _ => issued
  rwa [← set, stored_by_call] at ran

theorem given : ⟨.u32, unsigned⟩ ∈ session.globals ∧ ⟨.i64, constant⟩ ∈ session.globals := by decide +kernel

theorem declared : session.host.store.declared? ⟨0, 0⟩ = some ⟨.i32, true⟩ ∧
    session.host.store.declared? ⟨0, 1⟩ = some ⟨.i64, false⟩ := by decide +kernel

end Tally

theorem globals_are_typed_cells_tally :
    Tally.session.host.value Tally.unsigned = .ok 0xffffffff ∧ Tally.session.host.value Tally.constant = .ok (-5) ∧
      Tally.session.host.setValue Tally.constant 1 = .error (.engine .immutableGlobal) := by
  obtain ⟨_, _, accesses, _⟩ := globals_are_typed_cells Tally.logged.reachable
  obtain ⟨d, unsigned⟩ := accesses _ Tally.logged _ _ Tally.given.1
  cases Tally.declared.1.symm.trans unsigned.denotes.declared
  obtain ⟨x, read, latest⟩ := unsigned.reads rfl
  obtain ⟨d, constant⟩ := accesses _ Tally.logged _ _ Tally.given.2
  cases Tally.declared.2.symm.trans constant.denotes.declared
  obtain ⟨y, read', latest'⟩ := constant.reads rfl
  have x_eq : x = 0xffffffff := ScalarType.toValue_inj (Option.some.inj latest).symm
  have y_eq : y = -5 := ScalarType.toValue_inj (Option.some.inj latest').symm
  exact ⟨x_eq ▸ read, y_eq ▸ read', (constant.immutable rfl rfl 1).1⟩

end WasmBinding
