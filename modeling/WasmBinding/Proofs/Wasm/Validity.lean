import WasmBinding.ParsedModule
import WasmBinding.Proofs.Wasm.Constants
import WasmBinding.Proofs.Wasm.GlobalWrites

/-! What decoding ensures. The functions of a decoded module have types, those that it exports are there, and no two
exports have one name. Its globals begin with values of their types, and its code sets none that is immutable. -/

namespace WasmBinding

namespace Wasm

namespace Reader

variable {α β : Type}

/-- Whatever a reader answers has a property. -/
def Yields (r : Reader α) (P : α → Prop) : Prop :=
  ∀ bytes a rest, r bytes = .ok (a, rest) → P a

namespace Yields

variable {P : α → Prop} {Q : β → Prop} {r : Reader α} {next : α → Reader β}

theorem pure (holds : P a) : Yields (Pure.pure a) P := by
  intro bytes b rest read
  cases read
  exact holds

theorem bind (first : Yields r P) (then_ : ∀ a, P a → Yields (next a) Q) : Yields (r >>= next) Q := by
  intro bytes b rest read
  cases started : r bytes with
  | error e =>
    simp only [Bind.bind, StateT.bind, started, Except.bind] at read
    contradiction
  | ok both =>
    obtain ⟨a, left⟩ := both
    simp only [Bind.bind, StateT.bind, started, Except.bind] at read
    exact then_ a (first bytes a left started) left b rest read

theorem throw (e : Rejection) : Yields (α := α) (MonadExcept.throw e) P := by
  intro bytes a rest read
  cases read

theorem throw_bind (e : Rejection) : Yields (MonadExcept.throw e >>= next) Q := by
  intro bytes b rest read
  cases read

theorem pure_bind (then_ : Yields (next a) Q) : Yields (Pure.pure a >>= next) Q := then_

theorem bind_any (then_ : ∀ a, Yields (next a) Q) : Yields (r >>= next) Q :=
  bind (P := fun _ => True) (fun _ _ _ _ => trivial) fun a _ => then_ a

theorem ite {c : Prop} [Decidable c] {other : Reader α} (yes : c → Yields r P) (no : ¬ c → Yields other P) :
    Yields (if c then r else other) P := by
  split
  · exact yes ‹_›
  · exact no ‹_›

theorem lift {e : Except Rejection α} (holds : ∀ a, e = .ok a → P a) : Yields (liftM e) P := by
  intro bytes a rest read
  cases e with
  | error e => cases read
  | ok b =>
    cases read
    exact holds _ rfl

theorem require {holds : Bool} {reason : String} :
    Yields (liftM (Typing.require holds reason)) fun _ => holds = true := by
  refine .lift fun a given => ?_
  unfold Typing.require at given
  split at given
  · assumption
  · contradiction

end Yields

theorem whole_ok {r : Reader α} {bytes : Bytes} (h : whole r bytes = .ok a) : ∃ rest, r bytes = .ok (a, rest) := by
  unfold whole at h
  cases read : r bytes with
  | error e =>
    rw [read] at h
    contradiction
  | ok both =>
    obtain ⟨b, rest⟩ := both
    simp only [read, Bind.bind, Except.bind] at h
    split at h
    · cases h
      exact ⟨rest, rfl⟩
    · contradiction

end Reader

structure Module.Checked (m : Module) : Prop where
  functions : ∀ type ∈ m.allFuncs, type < m.types.size
  exports : ∀ e ∈ m.exports, e.kind = .func → e.index < m.allFuncs.length
  names : ∀ e ∈ m.exports, m.export? e.name = some e
  globals : ∀ g ∈ m.globals, g.Sound m.importedGlobals

theorem Module.mem_allFuncs {m : Module} :
    type ∈ m.allFuncs ↔ (∃ i ∈ m.imports, i.kind = .func type) ∨ type ∈ m.functions := by
  simp only [allFuncs, importedFuncs, List.mem_append, List.mem_filterMap]
  refine or_congr (exists_congr fun i => and_congr_right fun _ => ?_) .rfl
  cases i.kind <;> simp

namespace Module.Checked

variable {m n : Module}

theorem empty : Checked {} := ⟨by simp [allFuncs, importedFuncs], by simp, by simp, by simp⟩

theorem same (checked : m.Checked) (types : n.types = m.types) (imports : n.imports = m.imports)
    (functions : n.functions = m.functions) (exports : n.exports = m.exports) (globals : n.globals = m.globals) :
    n.Checked := by
  have all : n.allFuncs = m.allFuncs := by rw [allFuncs, allFuncs, importedFuncs, importedFuncs, imports, functions]
  constructor
  case functions =>
    rw [all, types]
    exact checked.functions
  case exports =>
    rw [all, exports]
    exact checked.exports
  case names =>
    simp only [export?, exports]
    exact checked.names
  case globals =>
    rw [globals, importedGlobals, imports]
    exact checked.globals

theorem addType (checked : m.Checked) (type : FuncType) : Checked { m with types := m.types.push type } where
  functions t among := by
    rw [Array.size_push]
    exact Nat.lt_succ_of_lt (checked.functions t among)
  exports := checked.exports
  names := checked.names
  globals := checked.globals

theorem addFunction (checked : m.Checked) (known : type < m.types.size) :
    Checked { m with functions := m.functions ++ [type] } where
  functions t among := by
    rcases mem_allFuncs.mp among with imported | own
    · exact checked.functions t (mem_allFuncs.mpr (.inl imported))
    · rcases List.mem_append.mp own with old | new
      · exact checked.functions t (mem_allFuncs.mpr (.inr old))
      · cases List.mem_singleton.mp new
        exact known
  exports e among func := by
    have old := checked.exports e among func
    rw [allFuncs, ← List.append_assoc, List.length_append]
    exact Nat.lt_add_right _ old
  names := checked.names
  globals := checked.globals

theorem addImport (checked : m.Checked) (i : Import) (known : ∀ type, i.kind = .func type → type < m.types.size) :
    Checked { m with imports := m.imports ++ [i] } where
  functions t among := by
    rcases mem_allFuncs.mp among with ⟨j, imported, kind⟩ | own
    · rcases List.mem_append.mp imported with old | new
      · exact checked.functions t (mem_allFuncs.mpr (.inl ⟨j, old, kind⟩))
      · cases List.mem_singleton.mp new
        exact known t kind
    · exact checked.functions t (mem_allFuncs.mpr (.inr own))
  exports e among func := by
    have old := checked.exports e among func
    simp only [allFuncs, importedFuncs, List.filterMap_append, List.length_append] at old ⊢
    omega
  names := checked.names
  globals g among := by
    rw [importedGlobals, List.filterMap_append]
    exact (checked.globals g among).append _

theorem addGlobal (checked : m.Checked) {g : Global} (sound : g.Sound m.importedGlobals) :
    Checked { m with globals := m.globals ++ [g] } where
  functions := checked.functions
  exports := checked.exports
  names := checked.names
  globals other among := by
    rcases List.mem_append.mp among with old | new
    · exact checked.globals other old
    · cases List.mem_singleton.mp new
      exact sound

theorem addExport (checked : m.Checked) (e : Export) (there : e.kind = .func → e.index < m.allFuncs.length)
    (new : m.export? e.name = none) : Checked { m with exports := m.exports ++ [e] } where
  functions := checked.functions
  exports other among func := by
    rcases List.mem_append.mp among with old | last
    · exact checked.exports other old func
    · cases List.mem_singleton.mp last
      exact there func
  names other among := by
    have first : m.exports.find? (·.name == e.name) = none := new
    rw [export?, List.find?_append]
    rcases List.mem_append.mp among with old | last
    · have found : m.exports.find? (·.name == other.name) = some other := checked.names other old
      rw [found, Option.some_or]
    · cases List.mem_singleton.mp last
      rw [first, Option.none_or, List.find?_singleton, beq_self_eq_true, if_pos rfl]
  globals := checked.globals

theorem funcType? (checked : m.Checked) (among : e ∈ m.exports) (func : e.kind = .func) :
    ∃ type, m.funcType? e.index = some type := by
  have there := checked.exports e among func
  have known := checked.functions _ (List.getElem_mem there)
  refine ⟨m.types[m.allFuncs[e.index]], ?_⟩
  simp only [Module.funcType?, List.getElem?_eq_getElem there, Option.bind_eq_bind, Option.bind_some,
    Array.getElem?_eq_getElem known]

end Module.Checked

/-- An instruction that sets no global but a mutable one. -/
def Instr.SetsMutable (globals : List GlobalType) (i : Instr) : Prop :=
  ∀ index, i = .storage (.globalSet index) → ∃ g, globals[index]? = some g ∧ g.mutable = true

theorem setsMutable_of_instr {ctx : Typing.Context} (typed : ctx.instr before i = .ok after) :
    i.SetsMutable ctx.module.allGlobals := by
  rintro index rfl
  cases before with
  | nil => cases typed
  | cons b outer =>
    simp only [Typing.Context.instr, Typing.Context.storageType, bind_eq_ok] at typed
    obtain ⟨_, ⟨g, found, _, mutable, _⟩, _⟩ := typed
    exact ⟨g, Typing.find_ok found, Typing.require_ok mutable⟩

theorem setsMutable_of_instrs {ctx : Typing.Context} {code : List Instr}
    (typed : code.foldlM (fun state i => ctx.instr state i) before = .ok after) :
    ∀ i ∈ code, i.SetsMutable ctx.module.allGlobals := by
  induction code generalizing before with
  | nil => simp
  | cons i rest ih =>
    simp only [List.foldlM_cons, bind_eq_ok] at typed
    obtain ⟨mid, first, later⟩ := typed
    exact List.forall_mem_cons.mpr ⟨setsMutable_of_instr first, ih later⟩

namespace Binary

open Reader

variable {d : Draft}

def Draft.Checked (d : Draft) : Prop := d.module.Checked

theorem typeItem_checked (checked : d.Checked) (f : Features) : (typeItem f d).Yields Draft.Checked := by
  unfold typeItem
  refine .bind_any fun tag => .ite (fun _ => .bind_any fun count => ?_) fun _ => .throw_bind _
  refine .ite (fun _ => .throw_bind _) fun _ => .bind_any fun params => .bind_any fun count => ?_
  refine .ite (fun _ => .throw_bind _) fun _ => .bind_any fun results => .bind_any fun _ => .bind_any fun _ => ?_
  exact .pure (checked.addType _)

theorem importItem_checked (checked : d.Checked) (f : Features) : (importItem f d).Yields Draft.Checked := by
  unfold importItem
  refine .bind_any fun ns => .bind_any fun field => .bind_any fun kind => ?_
  split
  · refine .bind_any fun type => .bind .require fun _ known => .pure (checked.addImport _ fun t kind => ?_)
    cases kind
    exact of_decide_eq_true known
  · exact .bind_any fun l => .bind_any fun _ => .pure (checked.addImport _ fun t kind => by cases kind)
  · exact .bind_any fun l => .pure (checked.addImport _ fun t kind => by cases kind)
  · exact .bind_any fun type => .bind_any fun _ => .pure (checked.addImport _ fun t kind => by cases kind)
  · exact .throw_bind _

theorem functionItem_checked (checked : d.Checked) : (functionItem d).Yields Draft.Checked := by
  unfold functionItem
  exact .bind_any fun type => .bind .require fun _ known => .pure (checked.addFunction (of_decide_eq_true known))

theorem tableItem_checked (checked : d.Checked) (f : Features) : (tableItem f d).Yields Draft.Checked := by
  unfold tableItem
  exact .bind_any fun l => .bind_any fun _ => .pure (.same checked rfl rfl rfl rfl rfl)

theorem memoryItem_checked (checked : d.Checked) : (memoryItem d).Yields Draft.Checked := by
  unfold memoryItem
  exact .bind_any fun l => .bind_any fun _ => .pure (.same checked rfl rfl rfl rfl rfl)

theorem globalItem_checked (checked : d.Checked) (f : Features) : (globalItem f d).Yields Draft.Checked := by
  unfold globalItem
  refine .bind_any fun type => .bind_any fun init => .bind_any fun _ => ?_
  refine .bind (P := fun _ => (⟨type, init⟩ : Global).Sound d.module.importedGlobals) (.lift fun _ typed => ?_) ?_
  · exact Typing.Context.sound_of_constExpr (g := ⟨type, init⟩) typed
  · intro _ sound
    exact .pure (.addGlobal checked sound)

theorem exportItem_checked (checked : d.Checked) : (exportItem d).Yields Draft.Checked := by
  unfold exportItem
  dsimp only
  refine .bind_any fun field => .bind_any fun kind => ?_
  split
  case h_5 => exact .throw_bind _
  all_goals
    refine .pure_bind (.bind_any fun index => .bind .require fun _ there => ?_)
    refine .ite (fun _ => .throw_bind _) fun new => ?_
    have new : d.module.export? field = none := by simpa using new
    refine .pure (checked.addExport _ (fun func => ?_) new)
  · exact of_decide_eq_true there
  all_goals cases func

theorem startItem_checked (checked : d.Checked) : (startItem d).Yields Draft.Checked := by
  unfold startItem
  exact .bind_any fun func => .bind_any fun type => .bind_any fun _ => .pure (.same checked rfl rfl rfl rfl rfl)

theorem elementItem_checked (checked : d.Checked) (f : Features) : (elementItem f d).Yields Draft.Checked := by
  unfold elementItem
  dsimp only [malformed]
  -- What is read on the way does not matter: every path ends in a refusal or in a draft with one more segment.
  repeat' first
    | with_reducible exact .throw_bind _
    | with_reducible refine .bind_any fun _ => ?_
    | with_reducible refine .ite (fun _ => ?_) fun _ => ?_
    | exact .pure (.same checked rfl rfl rfl rfl rfl)
    | split

theorem dataItem_checked (checked : d.Checked) (f : Features) : (dataItem f d).Yields Draft.Checked := by
  unfold dataItem
  refine .bind_any fun flags => ?_
  split
  · exact .bind_any fun offset => .pure_bind (.bind_any fun bytes => .bind_any fun _ => .bind_any fun _ =>
      .pure (.same checked rfl rfl rfl rfl rfl))
  · exact .pure_bind (.bind_any fun bytes => .bind_any fun _ => .pure (.same checked rfl rfl rfl rfl rfl))
  · exact .bind_any fun memory => .bind_any fun offset => .pure_bind (.bind_any fun bytes => .bind_any fun _ =>
      .bind_any fun _ => .pure (.same checked rfl rfl rfl rfl rfl))
  · exact .throw_bind _

theorem each_checked {item : Draft → Reader Draft} (keeps : ∀ d, d.Checked → (item d).Yields Draft.Checked) (count : Nat)
    (checked : d.Checked) : (each item count d).Yields Draft.Checked := by
  induction count generalizing d with
  | zero => exact .pure checked
  | succ count ih => exact .bind (keeps d checked) fun d checked => ih checked

theorem items_checked {item : Draft → Reader Draft} (keeps : ∀ d, d.Checked → (item d).Yields Draft.Checked)
    (checked : d.Checked) : (items item d).Yields Draft.Checked :=
  .bind_any fun count => each_checked keeps count checked

theorem sectionContent_checked (checked : d.Checked) (f : Features) (id : Nat) :
    (sectionContent f id d).Yields Draft.Checked := by
  unfold sectionContent
  split
  · exact items_checked (fun _ checked => typeItem_checked checked f) checked
  · exact items_checked (fun _ checked => importItem_checked checked f) checked
  · exact items_checked (fun _ checked => functionItem_checked checked) checked
  · exact items_checked (fun _ checked => tableItem_checked checked f) checked
  · exact items_checked (fun _ checked => memoryItem_checked checked) checked
  · exact items_checked (fun _ checked => globalItem_checked checked f) checked
  · exact items_checked (fun _ checked => exportItem_checked checked) checked
  · exact startItem_checked checked
  · exact items_checked (fun _ checked => elementItem_checked checked f) checked
  · exact .bind_any fun count => .pure checked
  · exact .bind_any fun count => .bind_any fun _ => each_checked (fun _ checked => dataItem_checked checked f) count checked
  · exact .throw _

theorem customSection_checked (checked : d.Checked) (h : customSection content d = .ok d') : d'.Checked := by
  unfold customSection at h
  cases titled : name content with
  | error e =>
    rw [titled] at h
    contradiction
  | ok both =>
    simp only [titled, Bind.bind, Except.bind] at h
    split at h
    · cases h
      exact .same checked rfl rfl rfl rfl rfl
    · cases h
      exact checked

theorem sectionItem_checked (checked : d.Checked) (f : Features) : (sectionItem f d).Yields Draft.Checked := by
  unfold sectionItem
  refine .bind_any fun id => .ite (fun _ => .throw_bind _) fun _ => .bind_any fun size => ?_
  refine .ite (fun _ => .bind_any fun content => .lift fun d' read => customSection_checked checked read) fun _ => ?_
  split
  · exact .bind_any fun _ => .throw _
  · rename_i position _
    have checked : Draft.Checked { d with position := position } := checked
    refine .bind_any fun _ => .ite (fun _ => ?_) fun _ => .bind_any fun content => .lift fun d' read => ?_
    · exact .bind_any fun count => .bind_any fun _ => .bind_any fun bodies => .pure checked
    · obtain ⟨rest, read⟩ := whole_ok read
      exact sectionContent_checked checked f _ content d' rest read

theorem sections_checked (checked : d.Checked) (f : Features) (fuel : Nat) : (sections f fuel d).Yields Draft.Checked := by
  induction fuel generalizing d with
  | zero => exact .pure checked
  | succ fuel ih =>
    exact .bind_any fun ended => .ite (fun _ => .pure checked) fun _ =>
      .bind (sectionItem_checked checked f) fun d checked => ih checked

theorem body_setsMutable {ctx : Typing.Context} (h : body ctx type bytes = .ok b) :
    ∀ i ∈ b.code, i.SetsMutable ctx.module.allGlobals := by
  simp only [body, bind_eq_ok] at h
  obtain ⟨_, _, _, typed, made⟩ := h
  have all := setsMutable_of_instrs typed
  repeat' split at made
  all_goals cases made
  exact all

theorem bodies_setsMutable {ctx : Typing.Context} {types : List Nat} {contents : List Bytes}
    (h : bodies ctx types contents = .ok bs) : ∀ b ∈ bs, ∀ i ∈ b.code, i.SetsMutable ctx.module.allGlobals := by
  induction types generalizing contents bs with
  | nil =>
    cases h
    simp
  | cons type types ih =>
    cases contents with
    | nil =>
      cases h
      simp
    | cons bytes rest =>
      simp only [bodies, bind_eq_ok] at h
      obtain ⟨_, _, b, first, others, later, made⟩ := h
      cases made
      exact List.forall_mem_cons.mpr ⟨body_setsMutable first, ih later⟩

theorem module_ok (h : Binary.module f bytes = .ok m) :
    ∃ (d : Draft) (ctx : Typing.Context) (bs : List Body), d.Checked ∧ ctx.module = d.module ∧
      (∀ b ∈ bs, ∀ i ∈ b.code, i.SetsMutable ctx.module.allGlobals) ∧ m = { d.module with bodies := bs } := by
  simp only [Binary.module, bind_eq_ok] at h
  obtain ⟨⟨d, rest⟩, read, _, _, _, _, bs, decoded, made⟩ := h
  cases made
  have start : Draft.Checked {} := Module.Checked.empty
  exact ⟨d, _, bs, sections_checked start f _ bytes d rest read, rfl, bodies_setsMutable decoded, rfl⟩

theorem module_checked (h : Binary.module f bytes = .ok m) : m.Checked := by
  obtain ⟨d, _, bs, checked, _, _, rfl⟩ := module_ok h
  exact .same checked rfl rfl rfl rfl rfl

/-- No code of a decoded module sets a global that is immutable. -/
theorem module_setsMutable (h : Binary.module f bytes = .ok m) : m.Within (Instr.SetsMutable m.allGlobals) := by
  obtain ⟨d, _, bs, _, same, all, rfl⟩ := module_ok h
  rw [same] at all
  exact all

end Binary
end Wasm

theorem ParsedModule.parse_ok {bytes : Wasm.Bytes} (h : ParsedModule.parse e bytes = .ok p) :
    ∃ rest, Wasm.Binary.module e.features rest = .ok p.module := by
  simp only [parse, bind_eq_ok] at h
  obtain ⟨rest, _, made⟩ := h
  split at made
  · rename_i decoded
    cases made
    exact ⟨rest, decoded⟩
  · contradiction

theorem ParsedModule.parse_checked {bytes : Wasm.Bytes} (h : ParsedModule.parse e bytes = .ok p) : p.module.Checked := by
  obtain ⟨rest, decoded⟩ := parse_ok h
  exact Wasm.Binary.module_checked decoded

theorem ParsedModule.parse_setsMutable {bytes : Wasm.Bytes} (h : ParsedModule.parse e bytes = .ok p) :
    p.module.Within (Wasm.Instr.SetsMutable p.module.allGlobals) := by
  obtain ⟨rest, decoded⟩ := parse_ok h
  exact Wasm.Binary.module_setsMutable decoded

end WasmBinding
