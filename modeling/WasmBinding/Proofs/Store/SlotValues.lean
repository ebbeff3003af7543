import WasmBinding.Proofs.Store.Cells
import WasmBinding.Proofs.Store.Lookup
import WasmBinding.Proofs.Store.Twins

/-! Slots at the boundary. Whatever slot is handed out holds a value and nothing else, and of a slot that is handed in only
the value matters. -/

namespace WasmBinding

open Wasm (ImportCall Value)

/-- The slot of a value of a type, and of nothing else. -/
structure SlotOf (v : Value) (tag : ValueTag) (slot : Slot) : Prop where
  type : v.type.tag = tag
  carried : v.toSlot? = some slot
  canonical : tag.Canonical slot

theorem carried_leadingSlots (values : List Value) : (leadingSlots values).map some <+: values.map Value.toSlot? := by
  induction values with
  | nil => exact List.prefix_refl _
  | cons v rest ih =>
    cases carried : v.toSlot? with
    | none => simp only [leadingSlots, carried, List.map_nil, List.nil_prefix]
    | some slot =>
      simp only [leadingSlots, carried, List.map_cons]
      exact List.cons_prefix_cons.mpr ⟨rfl, ih⟩

namespace Store

variable {σ : Type} {s : Store σ} {f : Function} {args : List Slot}

/-- A call leaves what its function has returned, as far as slots can hold it. -/
theorem results_of_call {m : LoadedModule} (found : s.modules[f.module]? = some m) (args : List Slot) :
    (s.call f args).1.results = s.leftBy f args := by
  unfold leftBy returned?
  rw [found]
  cases given : f.values args with
  | error fault => simp only [call, given]
  | ok values =>
    rw [call_of_module found given]
    cases ended : s.outcome f m values with
    | mk state answer => cases answer <;> simp only [ended, Except.toOption] <;> rfl

/-- A call succeeds exactly if its function returns and has numbers for results. -/
theorem call_eq_ok_iff {m : LoadedModule} (offers : s.Offers f m type) :
    (s.call f args).2 = .ok () ↔ .unknown ∉ f.results ∧ ∃ values, s.returned? f args = some values := by
  unfold returned?
  rw [offers.module]
  cases given : f.values args with
  | error fault => simp [call, given]
  | ok values =>
    rcases call_outcome offers given with
      ⟨state, results, ended, known, called⟩ | ⟨state, results, ended, unknown, called⟩ | ⟨state, cause, ended, called⟩
    · simp [called, ended, known, Except.toOption]
    · simp [called, unknown]
    · simp [called, ended, Except.toOption]

end Store

namespace Service

variable {σ : Type} {u v w : Service σ} {f : Function} {r r' : Request σ}

theorem Reachable.wired (reached : v.Reachable) : v.store.Wired := by
  induction reached with
  | new created steps =>
    rw [Store.new_ok created]
    exact Store.wired_of_no_modules rfl rfl
  | @serve before _ r _ ih =>
    rcases (use_serve before r).cases with continues | ⟨_, _, _, gained⟩ | ⟨slot, target, same⟩
    · exact ih.continues continues
    · exact ih.gained gained
    · exact same ▸ ih.setTarget slot target

/-- All cells hold values of their types, and the globals that were given out are cells. -/
structure Celled (v : Service σ) : Prop where
  typed : v.store.Typed
  denotes : ∀ g ∈ v.globals, ∃ d, v.store.Denotes g d

theorem mem_globals_serve (among : g ∈ (v.serve r).globals) :
    g ∈ v.globals ∨ ∃ k name, v.store.findGlobal k name = .ok (some g) := by
  cases r with
  | findGlobal k name =>
    simp only [serve] at among
    split at among
    · rename_i found
      rcases List.mem_cons.mp among with rfl | old
      · exact .inr ⟨k, name, found⟩
      · exact .inl old
    · exact .inl among
  | load | findFunction | findModuleFunction | findImport | setTarget | link | call | setGlobal | write | resize | setHost =>
    refine .inl ?_
    simp only [serve, noteFunction, noteStore] at among
    repeat' split at among
    all_goals exact among

theorem typed_serve (celled : v.Celled) (parsed : v.store.Parsed) (allowed : v.Allows r) : (v.serve r).store.Typed := by
  have quiet {t : Store σ} (same : t.modules = v.store.modules) : t.Typed :=
    (Store.Stored.of_modules celled.typed same).typed
  have noted {result : Except Fault (Store σ)} (typed : ∀ t, result = .ok t → t.Typed) : (v.noteStore result).store.Typed := by
    cases result with
    | error fault => exact celled.typed
    | ok t => exact typed t rfl
  cases r with
  | load e bytes =>
    simp only [serve]
    split
    · rename_i p parsed
      dsimp only
      cases loaded : v.store.load p with
      | mk t result =>
        cases result with
        | error fault => exact quiet (by rw [(Store.load_error loaded).1])
        | ok number => exact (Store.Stored.load celled.typed ⟨e, bytes, parsed⟩ loaded).typed
    · exact celled.typed
  | call f args => exact (Store.Stored.call celled.typed parsed rfl).typed
  | setGlobal g tag slot =>
    obtain ⟨d, denotes⟩ := celled.denotes g allowed
    refine noted fun t set => ?_
    obtain ⟨_, _, stored⟩ := Store.Stored.setGlobal celled.typed denotes set
    exact stored.typed
  | setTarget slot target => exact quiet rfl
  | link module ns name signature target =>
    refine noted fun t linked => ?_
    obtain ⟨slot, _, rfl⟩ := Store.link_ok linked
    exact quiet rfl
  | resize pages =>
    refine noted fun t resized => ?_
    rcases Store.resize_cases resized with rfl | ⟨_, rfl⟩ | ⟨_, _, _, _, _, _, rfl⟩
    all_goals exact quiet rfl
  | findFunction | findModuleFunction =>
    rw [serve, store_noteFunction]
    exact celled.typed
  | findGlobal | findImport | write | setHost =>
    simp only [serve]
    repeat' split
    all_goals exact quiet rfl

theorem Reachable.celled (reached : v.Reachable) : v.Celled := by
  induction reached with
  | new created steps =>
    rw [Store.new_ok created]
    exact ⟨fun c => rfl, by simp⟩
  | @serve before reached r allowed ih =>
    refine ⟨typed_serve ih reached.parsed allowed, fun g among => ?_⟩
    have keeps := (use_serve before r).keeps
    rcases mem_globals_serve among with old | ⟨k, name, found⟩
    · obtain ⟨d, denotes⟩ := ih.denotes g old
      exact ⟨d, denotes.keeps keeps⟩
    · obtain ⟨_, d, _, _, _, denotes⟩ := Store.findGlobal_some found
      exact ⟨d, denotes.keeps keeps⟩

/-- The latest call that has returned values to a service. -/
structure LastReturn (u : Service σ) (f : Function) (args : List Slot) (values : List Value) (v : Service σ) : Prop where
  reached : u.Reachable
  offered : f ∈ u.functions
  returned : u.store.returned? f args = some values
  since : (u.serve (.call f args)).Leads AllowsQuiet v

/-- What there is to be asked for stems from the latest call. -/
theorem Reachable.results (reached : v.Reachable) :
    v.store.results = [] ∨
      ∃ u f args values, LastReturn u f args values v ∧ v.store.results = leadingSlots values := by
  induction reached with
  | new created steps =>
    rw [Store.new_ok created]
    exact .inl rfl
  | @serve before reached r allowed ih =>
    cases called : r.isCall with
    | false =>
      have use := use_serve before r
      rw [called] at use
      rw [use.results]
      rcases ih with none | ⟨u, f, args, values, last, left⟩
      · exact .inl none
      · exact .inr ⟨u, f, args, values, { last with since := last.since.serve r ⟨allowed, called⟩ }, left⟩
    | true =>
      obtain ⟨f, args, rfl⟩ := Request.isCall_iff.mp called
      obtain ⟨m, type, offers⟩ := reached.offers f allowed
      have left : (before.serve (.call f args)).store.results = _ := Store.results_of_call offers.module args
      rw [left, Store.leftBy]
      cases returned : before.store.returned? f args with
      | none => exact .inl rfl
      | some values => exact .inr ⟨before, f, args, values, ⟨reached, allowed, returned, .refl⟩, rfl⟩

theorem LastReturn.types (last : LastReturn u f args values v) : values.map (·.type.tag) = f.results := by
  obtain ⟨m, type, offers⟩ := last.reached.offers f last.offered
  exact Store.returned?_typed offers last.returned

/-- All slots that a service hands out. -/
structure HandsOut (v : Service σ) : Prop where
  /-- Results are asked for by the handle of any function; they are those of the one that was called last. -/
  results : ∀ (g : Function) (n : Nat) (slots : List Slot), v.store.getResults g n = .ok slots →
    ∀ (i : Nat) (slot : Slot), slots[i]? = some slot → ∃ u f args values value tag,
      LastReturn u f args values v ∧ values[i]? = some value ∧ f.results[i]? = some tag ∧ SlotOf value tag slot
  operands : ∀ f ∈ v.functions, ∀ (args : List Slot) (place : Nat) (results : List ValueTag) (e : Exchange) (host : σ),
    v.store.Asks f args place results e host →
      ∃ slot given, v.store.imports[place]? = some slot ∧ results = slot.results ∧ Store.Offered slot e given
  /-- Raw functions are called in no other way than the one just described. -/
  answers : ∀ f ∈ v.functions, ∀ (args : List Slot) (m : LoadedModule) (call : ImportCall σ),
    v.store.modules[f.module]? = some m → call ∈ v.store.importCalls f args →
      (∃ message, v.store.answer m f call = ⟨call.state.memories, call.state.user, .error message⟩) ∨
      ∃ place results e target, v.store.Asks f args place results e call.state.user ∧
        v.store.targetAt place = some target ∧ v.store.answer m f call =
          (target.reply v.store.userData e call.state.user).finish results (v.store.seenMemory m.inst f.index)
            call.state.memories
  loads : ∀ p, v.store.startTargets p = []
  globals : ∀ g ∈ v.globals, ∀ slot, v.store.getGlobal g = .ok slot →
    ∃ value, v.store.cell? g.toCell = some value ∧ SlotOf value g.type slot

/-- What becomes of calls: one slot for each result, in order, until the next call. -/
structure Returns (v : Service σ) (f : Function) (args : List Slot) : Prop where
  succeeds : (v.store.call f args).2 = .ok () ↔ .unknown ∉ f.results ∧ ∃ values, v.store.returned? f args = some values
  slots : (v.store.call f args).2 = .ok () → ∃ values slots, v.store.returned? f args = some values ∧
    values.map (·.type.tag) = f.results ∧ slots.map some = values.map Value.toSlot? ∧
      ∀ w, (v.serve (.call f args)).Leads AllowsQuiet w → w.store.getResults f f.results.length = .ok slots

theorem Reachable.handsOut (reached : v.Reachable) : v.HandsOut where
  results g n slots asked i slot here := by
    obtain ⟨_, _, rfl⟩ := Store.getResults_eq_ok_iff.mp asked
    rcases reached.results with none | ⟨u, f, args, values, last, left⟩
    · rw [none] at here
      contradiction
    · rw [left] at here
      obtain ⟨value, there, carried, canonical⟩ := Value.exists_of_carried (carried_leadingSlots values) here
      refine ⟨u, f, args, values, value, value.type.tag, last, there, ?_, rfl, carried, canonical⟩
      rw [← last.types, List.getElem?_map, there]
      rfl
  operands f offered args place results e host asks := by
    obtain ⟨m, type, offers⟩ := reached.offers f offered
    exact asks.offered reached.wired offers
  answers f _ args m call found made := Store.answer_cases found made
  loads p := v.store.startTargets_eq_nil p
  globals g offered slot read := by
    obtain ⟨d, denotes⟩ := reached.celled.denotes g offered
    obtain ⟨value, holds, carried⟩ : ∃ value, v.store.cell? g.toCell = some value ∧ value.toSlot? = some slot := by
      unfold Store.getGlobal at read
      split at read
      · rename_i held
        cases read
        exact Option.bind_eq_some_iff.mp held
      · contradiction
    have typed := reached.celled.typed g.toCell
    rw [holds, denotes.declared] at typed
    have type : value.type.tag = g.type := denotes.type ▸ congrArg Wasm.ValType.tag (Option.some.inj typed)
    exact ⟨value, holds, type, carried, type ▸ Value.canonical_of_toSlot? carried⟩

theorem Reachable.returns (reached : v.Reachable) (offered : f ∈ v.functions) (args : List Slot) : v.Returns f args := by
  obtain ⟨m, type, offers⟩ := reached.offers f offered
  have succeeds : (v.store.call f args).2 = .ok () ↔ _ := Store.call_eq_ok_iff offers
  refine ⟨succeeds, fun succeeded => ?_⟩
  obtain ⟨known, values, returned⟩ := succeeds.mp succeeded
  have types := Store.returned?_typed offers returned
  have all : (leadingSlots values).length = values.length := (length_leadingSlots_iff values).mpr (types ▸ known)
  have count : values.length = f.results.length := by rw [← types, List.length_map]
  refine ⟨values, leadingSlots values, returned, types, ?_, fun w leads => ?_⟩
  · exact (carried_leadingSlots values).eq_of_length (by rw [List.length_map, List.length_map, all])
  · have left : (v.serve (.call f args)).store.results = leadingSlots values := by
      have left : (v.serve (.call f args)).store.results = _ := Store.results_of_call offers.module args
      rw [left, Store.leftBy, returned]
    have kept := leads.results.trans left
    exact Store.getResults_eq_ok_iff.mpr ⟨rfl, by rw [kept, all, count], kept.symm⟩

theorem SaysAlike.refl (v : Service σ) (r : Request σ) : SaysAlike v v r r := by
  cases r with
  | call f args =>
    refine .call f (.refl _ _) fun slot results e host _ a b first second => ?_
    cases first.symm.trans second
    exact .refl _ _
  | load | findFunction | findModuleFunction | findGlobal | findImport | setTarget | link | setGlobal | write | resize
  | setHost => exact .same _ rfl

theorem Reachable.twins (reached : v.Reachable) : v.Twins v := by
  induction reached with
  | new created steps => exact .new created steps
  | serve _ r allowed ih => exact ih.serve allowed (.refl _ r)

/-- What is allowed goes by the handles that were given out. -/
theorem Alike.allows (alike : v.Alike w) (allowed : v.Allows r) : w.Allows r := by
  cases r with
  | call f args => exact (congrArg (f ∈ ·) alike.functions).mpr allowed
  | setGlobal g tag slot => exact (congrArg (g ∈ ·) alike.globals).mpr allowed
  | setTarget slot target => exact (congrArg (slot ∈ ·) alike.slots).mpr allowed
  | load | findFunction | findModuleFunction | findGlobal | findImport | link | write | resize | setHost => trivial

theorem SaysAlike.allowed (asked : SaysAlike v w r r') (allowed : v.Allows r) : v.Allows r' := by
  cases asked with
  | call | setGlobal | setTarget | same => exact allowed
  | link => trivial

theorem Twins.reachable_right (twins : Twins v w) : w.Reachable := by
  induction twins with
  | new created steps => exact .new created steps
  | serve twins allowed asked ih => exact ih.serve _ (twins.alike.allows (asked.allowed allowed))

/-- Two services that cannot be told apart, now or by what they are asked next. -/
structure Matches (v w : Service σ) : Prop extends v.Alike w where
  reachable : w.Reachable
  results : ∀ f n, w.store.getResults f n = v.store.getResults f n
  read : ∀ g, w.store.getGlobal g = v.store.getGlobal g
  cells : ∀ c, w.store.cell? c = v.store.cell? c
  memories : w.store.memories = v.store.memories
  memory : w.store.memory? = v.store.memory?
  host : w.store.host = v.store.host
  calls : ∀ f ∈ v.functions, ∀ a b, ValueTag.SameValues f.params a b → v.store.RepliesAlike w.store f a →
    v.store.CallsAlike w.store f a b
  sets : ∀ g tag x y, tag.SameBits x y → Store.AlikeResult (v.store.setGlobal g tag x) (w.store.setGlobal g tag y)

theorem Twins.matches (twins : Twins v w) : v.Matches w := by
  have alike := twins.alike.store
  obtain ⟨results, memories, host⟩ := alike.contents
  refine ⟨twins.alike, twins.reachable_right, fun f n => ?_, fun g => ?_, fun c => ?_, memories, alike.memory?, host, ?_, ?_⟩
  · rw [Store.getResults, Store.getResults, results]
  · rw [Store.getGlobal, Store.getGlobal, alike.modules]
  · rw [Store.cell?, Store.cell?, alike.modules]
  · intro f offered a b given replies
    obtain ⟨m, type, offers⟩ := twins.reachable.offers f offered
    exact Store.callsAlike alike offers.module given replies
  · intro g tag x y same
    exact alike.setGlobal g tag same

/-- Every slot that is handed out is that of a value and holds nothing else, and of the slots that are handed in only the values
matter: services that are asked alike do the same. -/
theorem slots_carry_values (reached : v.Reachable) :
    v.HandsOut ∧ (∀ f ∈ v.functions, ∀ args, v.Returns f args) ∧ v.Twins v ∧ ∀ w, v.Twins w → v.Matches w :=
  ⟨reached.handsOut, fun _ offered args => reached.returns offered args, reached.twins, fun _ twins => twins.matches⟩

end Service

namespace Echo

/-- Imports `e.f` and exports `r`, which passes a number to it, stores what it gets in the global `g` and returns that. -/
def binary : Wasm.Bytes :=
  [0x00, 0x61, 0x73, 0x6d, 0x01, 0x00, 0x00, 0x00,
    0x01, 0x06, 0x01, 0x60, 0x01, 0x7f, 0x01, 0x7f,
    0x02, 0x07, 0x01, 0x01, 0x65, 0x01, 0x66, 0x00, 0x00,
    0x03, 0x02, 0x01, 0x00,
    0x06, 0x06, 0x01, 0x7f, 0x01, 0x41, 0x00, 0x0b,
    0x07, 0x09, 0x02, 0x01, 0x72, 0x00, 0x01, 0x01, 0x67, 0x03, 0x00,
    0x0a, 0x0c, 0x01, 0x0a, 0x00, 0x20, 0x00, 0x10, 0x00, 0x24, 0x00, 0x23, 0x00, 0x0b]

/-- Leaves a slot as its result. -/
def target (slot : Slot) : Target Nat :=
  ⟨0, fun call host => ⟨⟨call.exchange.setSlot 0 slot, call.exchange.sameShape_setSlot 0 slot⟩, host, none⟩⟩

def service (slot : Slot) : Service Nat :=
  [.load Sample.service.store.environment binary, .link 0 "e" "f" "i(i)" (target slot), .findFunction "r"].foldl
    Service.serve Sample.service

def function : Function := ⟨0, 1, [.i32], [.i32]⟩

def called (slot arg : Slot) : Service Nat := (service slot).serve (.call function [arg])

theorem offered (slot : Slot) : function ∈ (service slot).functions := List.mem_singleton_self function

theorem imports (slot : Slot) :
    (service slot).store.imports = [⟨0, "e", "f", [.i32], [.i32], some (target slot)⟩] := by rfl

theorem left : (called 5 7).store.results = [5] := by decide +kernel

theorem twins_service (a b : Slot) : (service a).Twins (service b) := by
  have loaded := Sample.reachable_service.twins.serve (r := .load Sample.service.store.environment binary) trivial
    (.same _ rfl)
  have linked := loaded.serve (r := .link 0 "e" "f" "i(i)" (target a)) trivial (.link 0 "e" "f" "i(i)" _ (target b))
  exact linked.serve (r := .findFunction "r") trivial (.same _ rfl)

/-- The slots that the targets leave hold the same number. -/
theorem repliesAlike {a b : Slot} (same : ValueTag.i32.SameBits a b) (args : List Slot) :
    (service a).store.RepliesAlike (service b).store function args := by
  intro place results e host asks first second linked linked'
  have reached := (twins_service a a).reachable
  obtain ⟨slot, given, placed, rfl, offer⟩ := reached.handsOut.operands function (offered a) args _ _ _ _ asks
  rw [imports] at placed
  rw [Store.targetAt, imports] at linked linked'
  cases place with
  | succ => contradiction
  | zero =>
    cases placed
    cases linked
    cases linked'
    refine ⟨rfl, rfl, rfl, ?_⟩
    have stack : e.stack = 0 :: given := offer.stack
    show ValueTag.SameValues [.i32] (e.stack.set 0 a) (e.stack.set 0 b)
    rw [stack]
    exact .first same rfl

theorem twins_called (slot : ValueTag.i32.SameBits a b) (arg : ValueTag.i32.SameBits x y) :
    (called a x).Twins (called b y) :=
  (twins_service a b).serve (offered a) (.call function (.first arg rfl) (repliesAlike slot [x]))

end Echo

/-- What the slots of the argument and of the result of the import hold beside their numbers is lost on the way. -/
theorem slots_carry_values_echo :
    (Echo.called 5 7).Reachable ∧ (Echo.called 0x1000000005 0x100000007).store.getResults Echo.function 1 = .ok [5] ∧
      (∃ u f args values value tag, Service.LastReturn u f args values (Echo.called 5 7) ∧ values[0]? = some value ∧
        f.results[0]? = some tag ∧ SlotOf value tag 5) := by
  have twins : (Echo.called 5 7).Twins (Echo.called 0x1000000005 0x100000007) := Echo.twins_called (by rfl) (by rfl)
  have left : (Echo.called 5 7).store.getResults Echo.function 1 = .ok [5] :=
    Store.getResults_eq_ok_iff.mpr ⟨rfl, congrArg List.length Echo.left, Echo.left.symm⟩
  obtain ⟨hands, _, _, alike⟩ := Service.slots_carry_values twins.reachable
  exact ⟨twins.reachable, ((alike _ twins).results _ _).trans left, hands.results _ _ _ left 0 5 rfl⟩

end WasmBinding
