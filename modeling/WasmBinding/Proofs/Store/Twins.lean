import WasmBinding.Proofs.Store.LeftResults
import WasmBinding.Proofs.Store.RawCalls
import WasmBinding.Proofs.Store.SilentLoad

/-! Stores that are used alike. What an embedder hands in counts for the value that it holds: two stores that are asked for the
same, but for what slots hold beside their values, are the same but for what stands behind their links. -/

namespace WasmBinding

open Wasm (Value)

namespace ImportSlot

variable {σ : Type}

/-- A slot without its target, and whether there is one. -/
def outline (slot : ImportSlot σ) : ImportSlot σ × Bool := (slot.cleared, slot.target.isSome)

theorem outline_modify (slots : List (ImportSlot σ)) (place : Nat) (target : Target σ) :
    (slots.modify place fun slot => { slot with target := some target }).map outline =
      (slots.map outline).modify place fun (slot, _) => (slot, true) := by
  apply List.ext_getElem?
  intro n
  simp only [List.getElem?_map, List.getElem?_modify]
  cases slots[n]? with
  | none => rfl
  | some slot => by_cases here : place = n <;> simp [here, outline, cleared]

/-- What a raw function answers that touches nothing. -/
def untouched (e : Exchange) : e.After := ⟨e, .refl e⟩

/-- A target that is known by the place of its slot. -/
def mark (place : Nat) : Target σ := ⟨place, fun call host => ⟨untouched call.exchange, host, none⟩⟩

/-- The slots with these outlines, and marks for targets. -/
def marked (outlines : List (ImportSlot σ × Bool)) : List (ImportSlot σ) :=
  outlines.mapIdx fun place (slot, linked) => { slot with target := if linked then some (mark place) else none }

/-- What stands at the place that a target is the mark of. -/
def unmark (slots : List (ImportSlot σ)) (target : Target σ) : Target σ :=
  (slots[target.context]?.bind ImportSlot.target).getD target

theorem relink_marked (slots : List (ImportSlot σ)) :
    (marked (slots.map outline)).map (·.relink (unmark slots)) = slots := by
  apply List.ext_getElem?
  intro n
  simp only [marked, List.getElem?_map, List.getElem?_mapIdx]
  cases found : slots[n]? with
  | none => rfl
  | some slot =>
    obtain ⟨module, ns, name, params, results, target⟩ := slot
    cases target with
    | none => rfl
    | some target => simp [outline, cleared, relink, unmark, mark, found]

@[simp] theorem outline_relink (g : Target σ → Target σ) (slot : ImportSlot σ) : (slot.relink g).outline = slot.outline := by
  simp [outline, relink, cleared]

end ImportSlot

namespace Store

variable {σ : Type} {s t : Store σ} {f : Function} {a b : List Slot}

/-- Two stores that differ in nothing but what stands behind their links. -/
inductive Alike (s : Store σ) : Store σ → Prop
  | behind (slots : List (ImportSlot σ)) (same : slots.map ImportSlot.outline = s.imports.map ImportSlot.outline) :
    Alike s { s with imports := slots }

/-- Two attempts to use a store that come to the same. -/
inductive AlikeResult : Except Fault (Store σ) → Except Fault (Store σ) → Prop
  | ok {s t : Store σ} (alike : s.Alike t) : AlikeResult (.ok s) (.ok t)
  | error (fault : Fault) : AlikeResult (.error fault) (.error fault)

theorem alike_relink (s : Store σ) (g h : Target σ → Target σ) : (s.relink g).Alike (s.relink h) := by
  refine .behind (s := s.relink g) (s.imports.map (·.relink h)) ?_
  simp only [relink, List.map_map]
  exact List.map_congr_left fun slot _ => (slot.outline_relink h).trans (slot.outline_relink g).symm

namespace Alike

theorem refl (s : Store σ) : s.Alike s := .behind s.imports rfl

theorem outlines (alike : s.Alike t) : t.imports.map ImportSlot.outline = s.imports.map ImportSlot.outline := by
  cases alike with
  | behind slots same => exact same

theorem modules (alike : s.Alike t) : t.modules = s.modules := by
  cases alike
  rfl

theorem contents (alike : s.Alike t) : t.results = s.results ∧ t.memories = s.memories ∧ t.host = s.host := by
  cases alike
  exact ⟨rfl, rfl, rfl⟩

theorem memory? (alike : s.Alike t) : t.memory? = s.memory? := by
  cases alike
  rfl

/-- What is done to a store with no regard to its links. -/
theorem use (alike : s.Alike t) (change : Store σ → Store σ)
    (blind : ∀ (u : Store σ) slots, change { u with imports := slots } = { change u with imports := slots }) :
    (change s).Alike (change t) := by
  cases alike with
  | behind slots outlines =>
    have same : change s = { change s with imports := s.imports } := blind s s.imports
    have kept : (change s).imports = s.imports := by rw [same]
    have changed := blind s slots
    rw [← kept] at outlines
    exact changed ▸ .behind slots outlines

theorem finished (alike : s.Alike t) (f : Function) (state : Wasm.State σ) (results : List Slot) :
    (s.finished f state results).Alike (t.finished f state results) :=
  alike.use (fun u => u.finished f state results) fun _ _ => rfl

theorem cleared (alike : s.Alike t) : ({ s with results := [] } : Store σ).Alike { t with results := [] } :=
  alike.use (fun u => { u with results := [] }) fun _ _ => rfl

/-- The same is linked in both. -/
theorem targetAt (alike : s.Alike t) (slot : Nat) : (t.targetAt slot).isSome = (s.targetAt slot).isSome := by
  have outlined (slots : List (ImportSlot σ)) : (slots[slot]?.bind ImportSlot.target).isSome =
      (slots.map ImportSlot.outline)[slot]?.any (·.2) := by
    rw [List.getElem?_map]
    cases slots[slot]? <;> rfl
  rw [Store.targetAt, Store.targetAt, outlined, outlined, alike.outlines]

theorem linked (alike : s.Alike t) (k : Nat) : t.linked k = s.linked k := by
  have outlined (slots : List (ImportSlot σ)) : (slots.all fun slot => slot.module != k || slot.target.isSome) =
      (slots.map ImportSlot.outline).all fun (slot, linked) => slot.module != k || linked := by
    rw [List.all_map]
    rfl
  rw [Store.linked, Store.linked, outlined, outlined, alike.outlines]

theorem resolve (alike : s.Alike t) (k : Nat) (m : LoadedModule) (e : Wasm.Export) : t.resolve k m e = s.resolve k m e := by
  unfold Store.resolve
  rw [alike.linked]

theorem findFunction (alike : s.Alike t) (name : String) : t.findFunction name = s.findFunction name := by
  have resolve := alike.resolve
  cases alike
  simp only [Store.findFunction, resolve]

theorem findModuleFunction (alike : s.Alike t) (k : Nat) (name : String) :
    t.findModuleFunction k name = s.findModuleFunction k name := by
  have resolve := alike.resolve
  cases alike
  simp only [Store.findModuleFunction, resolve]

theorem findGlobal (alike : s.Alike t) (k : Nat) (name : String) : t.findGlobal k name = s.findGlobal k name := by
  rw [Store.findGlobal, Store.findGlobal, alike.modules]

theorem findImport (alike : s.Alike t) (k : Nat) (ns name signature : String) :
    t.findImport k ns name signature = s.findImport k ns name signature := by
  have named (slots : List (ImportSlot σ)) : (slots.findIdx? fun slot => slot.isFor k ns name) =
      (slots.map ImportSlot.outline).findIdx? fun outline => outline.1.isFor k ns name := by
    rw [List.findIdx?_map]
    rfl
  have typed (slots : List (ImportSlot σ)) (index : Nat) (described : Signature) :
      (slots[index]?.any fun slot => slot.hasSignature described) =
        (slots.map ImportSlot.outline)[index]?.any fun outline => outline.1.hasSignature described := by
    rw [List.getElem?_map]
    cases slots[index]? <;> rfl
  simp only [Store.findImport, named, typed, alike.outlines]

theorem setTarget (alike : s.Alike t) (slot : Nat) (a b : Target σ) : (s.setTarget slot a).Alike (t.setTarget slot b) := by
  cases alike with
  | behind slots same =>
    refine .behind (s := s.setTarget slot a) _ ?_
    simp only [Store.setTarget, ImportSlot.outline_modify, same]

theorem link (alike : s.Alike t) (k : Nat) (ns name signature : String) (a b : Target σ) :
    AlikeResult (s.link k ns name signature a) (t.link k ns name signature b) := by
  have found := alike.findImport k ns name signature
  unfold Store.link
  rw [found]
  cases s.findImport k ns name signature with
  | error fault => exact .error fault
  | ok slot => exact .ok (alike.setTarget slot a b)

/-- Nothing that is linked has a part in a load. -/
theorem load (alike : s.Alike t) (p : ParsedModule) : (t.load p).2 = (s.load p).2 ∧ (s.load p).1.Alike (t.load p).1 := by
  cases alike with
  | behind slots same =>
    have first := load_relink (ImportSlot.unmark s.imports)
      { s with imports := ImportSlot.marked (s.imports.map ImportSlot.outline) } p
    have second := load_relink (ImportSlot.unmark slots)
      { s with imports := ImportSlot.marked (slots.map ImportSlot.outline) } p
    simp only [relink, ImportSlot.relink_marked] at first second
    rw [same] at second
    rw [first, second]
    exact ⟨rfl, alike_relink _ _ _⟩

theorem setGlobal (alike : s.Alike t) (g : GlobalCell) (tag : ValueTag) {x y : Slot} (same : tag.SameBits x y) :
    AlikeResult (s.setGlobal g tag x) (t.setGlobal g tag y) := by
  cases alike with
  | behind slots outlines =>
    unfold Store.setGlobal
    rw [Value.ofSlot?_congr same]
    split
    · exact .error _
    · split
      · exact .error _
      · split
        · exact .error _
        · exact .ok (.behind (s := { s with modules := s.modules.modify g.module _ }) slots outlines)

theorem resize (alike : s.Alike t) (pages : Nat) : AlikeResult (s.resize pages) (t.resize pages) := by
  cases alike with
  | behind slots outlines =>
    unfold Store.resize
    dsimp only
    split
    · split
      · exact .error _
      · exact .ok (.behind (s := { s with pending := some pages }) slots outlines)
    · split
      · exact .ok (.behind slots outlines)
      · rename_i _ place _ _ m _
        cases growTo m pages with
        | error fault => exact .error fault
        | ok grown =>
          exact .ok (.behind (s := { s with memories := s.memories.setIfInBounds place grown }) slots outlines)

theorem setMemory (alike : s.Alike t) (bytes : Memory) : (s.setMemory bytes).Alike (t.setMemory bytes) :=
  alike.use (fun u => u.setMemory bytes) fun _ _ => rfl

theorem setHost (alike : s.Alike t) (host : σ) : ({ s with host := host } : Store σ).Alike { t with host := host } :=
  alike.use (fun u => { u with host := host }) fun _ _ => rfl

/-- What stands behind the link makes no difference to code if it gives the same reply. -/
theorem answer (alike : s.Alike t) (replies : s.RepliesAlike t f a) {call : Wasm.ImportCall σ}
    (found : s.modules[f.module]? = some m) (made : call ∈ s.importCalls f a) : t.answer m f call = s.answer m f call := by
  have linked := alike.targetAt
  have userData : t.userData = s.userData := by
    cases alike
    rfl
  have seen : t.seenMemory m.inst f.index = s.seenMemory m.inst f.index := by
    cases alike
    rfl
  rw [answer_eq, answer_eq, userData, seen]
  cases bound : m.stubs[call.index]? with
  | none => rfl
  | some stub =>
    have linked := linked stub.slot
    rw [Option.bind_some, Option.bind_some]
    cases first : s.targetAt stub.slot with
    | none =>
      rw [first, Option.isSome_none] at linked
      have none := Option.isNone_iff_eq_none.mp (Option.isSome_eq_false_iff.mp linked)
      rw [none]
    | some target =>
      rw [first] at linked
      obtain ⟨other, second⟩ := Option.isSome_iff_exists.mp linked
      rw [second]
      dsimp only
      cases carried : exchange? stub.results (s.seenMemory m.inst f.index) call.args call.state.memories with
      | none => rfl
      | some e =>
        have same := replies _ _ _ _ (.call found made bound carried) target other first second
        rw [userData] at same
        exact same.finish _ _

/-- Code goes the same way, and calls the same functions with the same operands. -/
theorem outcome (alike : s.Alike t) (replies : s.RepliesAlike t f a) (found : s.modules[f.module]? = some m)
    (given : f.values a = .ok values) :
    t.outcome f m values = s.outcome f m values ∧
      (t.stateOf m).importCalls (t.hostCall m f.index) t.budget f.index values =
        (s.stateOf m).importCalls (s.hostCall m f.index) s.budget f.index values := by
  have answers : Wasm.AnswersAlike (s.hostCall m f.index) (t.hostCall m f.index)
      ((s.stateOf m).importCalls (s.hostCall m f.index) s.budget f.index values) := by
    intro call made
    refine alike.answer replies found ?_
    simp only [importCalls, found, given]
    exact made
  have ran := Wasm.State.call_congr s.budget f.index values answers
  cases alike
  exact ran

end Alike

theorem call_of_module {m : LoadedModule} (found : s.modules[f.module]? = some m) (given : f.values a = .ok values) :
    s.call f a =
      match s.outcome f m values with
      | (state, .ok results) => (s.finished f state (leadingSlots results),
          if (leadingSlots results).length = results.length then .ok () else .error .signatureMismatch)
      | (state, .error cause) => (s.finished f state [], .error (.ofAbort cause)) := by
  cases ended : s.outcome f m values with
  | mk state answer =>
    have ran := run_of_outcome (s := { s with results := [] }) found ended
    cases answer with
    | error cause =>
      simp only [call, given, ran]
      rfl
    | ok results =>
      have ran : ({ s with results := [] } : Store σ).run f values = (_, .ok results) := ran
      simp only [call, given, ran]
      split <;> rfl

/-- What one call from outside does in each of two stores. -/
structure CallsAlike (s t : Store σ) (f : Function) (a b : List Slot) : Prop where
  /-- Code makes the same calls, from the same states. -/
  importCalls : t.importCalls f b = s.importCalls f a
  returned : t.returned? f b = s.returned? f a
  answer : (t.call f b).2 = (s.call f a).2
  after : (s.call f a).1.Alike (t.call f b).1

theorem callsAlike (alike : s.Alike t) (found : s.modules[f.module]? = some m) (same : ValueTag.SameValues f.params a b)
    (replies : s.RepliesAlike t f a) : s.CallsAlike t f a b := by
  have found' : t.modules[f.module]? = some m := alike.modules ▸ found
  have values : f.values b = f.values a := by
    unfold Function.values
    rw [Value.mapM_ofSlot?_congr same, same.length]
  cases given : f.values a with
  | error fault =>
    rw [given] at values
    constructor
    case importCalls => simp only [importCalls, found, found', values, given]
    case returned => simp only [returned?, found, found', values, given]
    case answer => simp only [call, values, given]
    case after =>
      simp only [call, values, given]
      exact alike.cleared
  | ok operands =>
    rw [given] at values
    obtain ⟨outcome, calls⟩ := alike.outcome replies found given
    constructor
    case importCalls => simp only [importCalls, found, found', values, given, calls]
    case returned => simp only [returned?, found, found', values, given, outcome]
    case answer =>
      rw [call_of_module found given, call_of_module found' values, outcome]
      split <;> rfl
    case after =>
      rw [call_of_module found given, call_of_module found' values, outcome]
      split <;> exact alike.finished f _ _

end Store

namespace Service

variable {σ : Type} {v w : Service σ} {r r' : Request σ}

/-- Two services that have given out the same handles, and differ in nothing but what stands behind the links. -/
structure Alike (v w : Service σ) : Prop where
  store : v.store.Alike w.store
  functions : w.functions = v.functions
  globals : w.globals = v.globals
  slots : w.slots = v.slots

/-- Two requests that say the same to two services: slots hold the same values, and raw functions leave the same values. -/
inductive SaysAlike (v w : Service σ) : Request σ → Request σ → Prop
  | call (f : Function) {a b : List Slot} (given : ValueTag.SameValues f.params a b)
    (replies : v.store.RepliesAlike w.store f a) : SaysAlike v w (.call f a) (.call f b)
  | setGlobal (g : GlobalCell) {tag : ValueTag} {x y : Slot} (given : tag.SameBits x y) :
    SaysAlike v w (.setGlobal g tag x) (.setGlobal g tag y)
  | setTarget (slot : Nat) (a b : Target σ) : SaysAlike v w (.setTarget slot a) (.setTarget slot b)
  | link (module : Nat) (ns name signature : String) (a b : Target σ) :
    SaysAlike v w (.link module ns name signature a) (.link module ns name signature b)
  | same (r : Request σ) (quiet : r.isCall = false) : SaysAlike v w r r

/-- Two services that have been asked alike all along. -/
inductive Twins : Service σ → Service σ → Prop
  | new {made : Store σ} (created : Store.new e stackSize userData host = .ok made) (steps : Nat) :
    Twins { store := { made with steps := steps } } { store := { made with steps := steps } }
  | serve {v w : Service σ} {r r' : Request σ} (twins : Twins v w) (allowed : v.Allows r) (asked : SaysAlike v w r r') :
    Twins (v.serve r) (w.serve r')

namespace Alike

theorem refl (v : Service σ) : v.Alike v := ⟨.refl _, rfl, rfl, rfl⟩

theorem withStore (alike : v.Alike w) {s t : Store σ} (store : s.Alike t) :
    Alike { v with store := s } { w with store := t } :=
  ⟨store, alike.functions, alike.globals, alike.slots⟩

theorem noteStore (alike : v.Alike w) {x y : Except Fault (Store σ)} (same : Store.AlikeResult x y) :
    (v.noteStore x).Alike (w.noteStore y) := by
  cases same with
  | ok store => exact alike.withStore store
  | error => exact alike

theorem noteFunction (alike : v.Alike w) {x y : Except Fault (Option Function)} (same : y = x) :
    (v.noteFunction x).Alike (w.noteFunction y) := by
  subst same
  unfold Service.noteFunction
  split
  · exact ⟨alike.store, congrArg (_ :: ·) alike.functions, alike.globals, alike.slots⟩
  · exact alike

/-- What is asked alike does the same. -/
theorem serve (alike : v.Alike w) (reached : v.Reachable) (allowed : v.Allows r) (asked : SaysAlike v w r r') :
    (v.serve r).Alike (w.serve r') := by
  cases asked with
  | call f given replies =>
    obtain ⟨m, type, offers⟩ := reached.offers f allowed
    exact alike.withStore (Store.callsAlike alike.store offers.module given replies).after
  | setGlobal g given => exact alike.noteStore (alike.store.setGlobal g _ given)
  | setTarget slot a b => exact alike.withStore (alike.store.setTarget slot a b)
  | link module ns name signature a b => exact alike.noteStore (alike.store.link module ns name signature a b)
  | same r quiet =>
    cases r with
    | call => contradiction
    | load e bytes =>
      simp only [Service.serve]
      split
      · exact alike.withStore (alike.store.load _).2
      · exact alike
    | findFunction name => exact alike.noteFunction (alike.store.findFunction name)
    | findModuleFunction module name => exact alike.noteFunction (alike.store.findModuleFunction module name)
    | findGlobal module name =>
      simp only [Service.serve, alike.store.findGlobal]
      split
      · exact ⟨alike.store, alike.functions, congrArg (_ :: ·) alike.globals, alike.slots⟩
      · exact alike
    | findImport module ns name signature =>
      simp only [Service.serve, alike.store.findImport]
      split
      · exact ⟨alike.store, alike.functions, alike.globals, congrArg (_ :: ·) alike.slots⟩
      · exact alike
    | setTarget slot target => exact alike.withStore (alike.store.setTarget slot target target)
    | link module ns name signature target =>
      exact alike.noteStore (alike.store.link module ns name signature target target)
    | setGlobal g tag slot => exact alike.noteStore (alike.store.setGlobal g tag rfl)
    | resize pages => exact alike.noteStore (alike.store.resize pages)
    | write change =>
      simp only [Service.serve, alike.store.memory?]
      split
      · exact alike.withStore (alike.store.setMemory _)
      · exact alike
    | setHost host => exact alike.withStore (alike.store.setHost host)

end Alike

theorem Twins.reachable (twins : Twins v w) : v.Reachable := by
  induction twins with
  | new created steps => exact .new created steps
  | serve _ allowed _ ih => exact ih.serve _ allowed

theorem Twins.alike (twins : Twins v w) : v.Alike w := by
  induction twins with
  | new created steps => exact .refl _
  | serve twins allowed asked ih => exact ih.serve twins.reachable allowed asked

end Service
end WasmBinding
