import WasmBinding.Wasm.Instantiate
import WasmBinding.Wasm.Typing.Code

/-! Constant expressions. One that has been checked leaves exactly one value, and that is of the type it was checked for; it
depends on the imported globals alone. So every global begins with the value of its initialiser. -/

namespace WasmBinding

theorem bind_eq_ok {ε α β : Type} {r : Except ε α} {next : α → Except ε β} {b : β} :
    (r >>= next) = .ok b ↔ ∃ a, r = .ok a ∧ next a = .ok b := by
  cases r with
  | error e => simp [bind, Except.bind]
  | ok a => simp [bind, Except.bind]

theorem ok_of_toOption {ε α : Type} {r : Except ε α} {a : α} (h : r.toOption = some a) : r = .ok a := by
  cases r with
  | error e => contradiction
  | ok b =>
    cases h
    rfl

namespace Wasm

open Typing

namespace Typing

theorem require_ok {holds : Bool} (h : require holds reason = .ok u) : holds = true := by
  unfold require at h
  split at h
  · assumption
  · contradiction

theorem find_ok {α : Type} {entry : Option α} {a : α} (h : find entry reason = .ok a) : entry = some a := by
  unfold find at h
  split at h
  · cases h
    rfl
  · contradiction

theorem forIn_ok {α ε : Type} {check : α → Except ε Unit} {items : List α}
    (h : (forIn items PUnit.unit fun a _ => do
      check a
      pure (ForInStep.yield PUnit.unit)) = .ok u) : ∀ a ∈ items, check a = .ok () := by
  induction items with
  | nil => simp
  | cons a rest ih =>
    simp only [List.forIn_cons, bind_eq_ok] at h
    obtain ⟨_, ⟨_, first, made⟩, later⟩ := h
    cases made
    exact List.forall_mem_cons.mpr ⟨first, ih later⟩

namespace OpenBlock

/-- The block of a constant expression that has computed some values, innermost first. -/
def computed (type : FuncType) (stack : List Value) : OpenBlock := ⟨.plain, type, stack.map fun v => some v.type, false⟩

variable {type : FuncType} {stack : List Value} {b : OpenBlock}

theorem popOne_computed (h : (computed type stack).popOne t = .ok b) :
    ∃ v rest, stack = v :: rest ∧ v.type = t ∧ b = computed type rest := by
  cases stack with
  | nil => simp [popOne, popAny, computed, bind, Except.bind] at h
  | cons v rest =>
    simp only [popOne, popAny, computed, List.map_cons, bind, Except.bind] at h
    split at h
    · cases h
      exact ⟨v, rest, rfl, by assumption, rfl⟩
    · cases h

theorem pop_singleton (b : OpenBlock) (t : ValType) : b.pop [t] = b.popOne t := by
  simp [pop]

theorem pop_pair (b : OpenBlock) (t u : ValType) : b.pop [t, u] = b.popOne u >>= (popOne · t) := by
  simp [pop]

theorem finish_computed (h : (computed ⟨[], [t]⟩ stack).finish = .ok u) : ∃ v, stack = [v] ∧ v.type = t := by
  simp only [finish, computed, pop_singleton, bind_eq_ok] at h
  obtain ⟨b, popped, ended⟩ := h
  obtain ⟨v, rest, rfl, typed, rfl⟩ := popOne_computed popped
  cases rest with
  | nil => exact ⟨v, rfl, typed⟩
  | cons other rest => simp [computed] at ended

theorem push_computed (type : FuncType) (stack : List Value) (v : Value) :
    (computed type stack).push [v.type] = computed type (v :: stack) := rfl

end OpenBlock

namespace Context

open OpenBlock

variable {ctx : Context} {type : FuncType} {stack : List Value} {state : Typing.State} {b : OpenBlock}

theorem instr_operand {i : OperandInstr} (plain : i ≠ .drop) (unselective : i ≠ .select none)
    (h : ctx.instr [b] (.operand i) = .ok state) :
    ∃ type popped, ctx.operandType i = .ok type ∧ b.pop type.params = .ok popped ∧ state = [popped.push type.results] := by
  simp only [instr, bind_eq_ok] at h
  obtain ⟨after, typed, made⟩ := h
  cases made
  have applied : ctx.operand i b = (ctx.operandType i >>= fun type => apply type b) := by
    cases i with
    | drop => contradiction
    | select t =>
      cases t with
      | none => contradiction
      | some t => rfl
    | const | localGet | localSet | localTee | refIsNull | refFunc | numeric => rfl
  simp only [applied, apply, bind_eq_ok] at typed
  obtain ⟨type, known, popped, taken, made⟩ := typed
  cases made
  exact ⟨type, popped, known, taken, rfl⟩

theorem instr_const {v : Value} (h : ctx.instr [computed type stack] (.operand (.const v)) = .ok state) :
    state = [computed type (v :: stack)] := by
  obtain ⟨_, popped, known, taken, rfl⟩ := instr_operand (by simp) (by simp) h
  simp only [operandType, bind_eq_ok] at known
  obtain ⟨_, _, made⟩ := known
  cases made
  cases taken
  rfl

theorem instr_refFunc (h : ctx.instr [computed type stack] (.operand (.refFunc index)) = .ok state) :
    state = [computed type (.funcref (some index) :: stack)] := by
  obtain ⟨_, popped, known, taken, rfl⟩ := instr_operand (by simp) (by simp) h
  simp only [operandType, bind_eq_ok] at known
  obtain ⟨_, _, _, _, _, _, made⟩ := known
  cases made
  cases taken
  rfl

theorem instr_intBinary (h : ctx.instr [computed type stack] (.operand (.numeric (.intBinary w op))) = .ok state) :
    ∃ x y rest, stack = y :: x :: rest ∧ x.type = w.int ∧ y.type = w.int ∧
      ∀ v : Value, v.type = w.int → state = [computed type (v :: rest)] := by
  obtain ⟨_, popped, known, taken, rfl⟩ := instr_operand (by simp) (by simp) h
  cases known
  simp only [NumericOp.params, pop_pair, bind_eq_ok] at taken
  obtain ⟨once, first, second⟩ := taken
  obtain ⟨y, below, rfl, typeY, rfl⟩ := popOne_computed first
  obtain ⟨x, rest, rfl, typeX, rfl⟩ := popOne_computed second
  refine ⟨x, y, rest, rfl, typeX, typeY, ?_⟩
  intro v typeV
  rw [← push_computed, typeV]
  rfl

theorem instr_globalGet (h : ctx.instr [computed type stack] (.storage (.globalGet index)) = .ok state) :
    ∃ g, ctx.module.allGlobals[index]? = some g ∧ ∀ v : Value, v.type = g.type → state = [computed type (v :: stack)] := by
  simp only [instr, storageType, apply, bind_eq_ok] at h
  obtain ⟨_, ⟨g, found, made⟩, _, ⟨popped, taken, pushed⟩, ended⟩ := h
  cases made
  cases taken
  cases pushed
  cases ended
  refine ⟨g, find_ok found, ?_⟩
  intro v typed
  rw [← push_computed, typed]

/-- Sums, differences and products of integers of one width are there, and are integers of that width. -/
theorem eval_intBinary {op : IntBinary} {x y : Value} (total : (op = .add || op = .sub || op = .mul) = true)
    (typeX : x.type = w.int) (typeY : y.type = w.int) :
    ∃ v, NumericOp.eval (.intBinary w op) [x, y] = .ok v ∧ v.type = w.int := by
  cases w with
  | w32 =>
    cases x <;> cases typeX
    cases y <;> cases typeY
    cases op <;> first | contradiction | exact ⟨_, rfl, rfl⟩
  | w64 =>
    cases x <;> cases typeX
    cases y <;> cases typeY
    cases op <;> first | contradiction | exact ⟨_, rfl, rfl⟩

/-- What an instruction of a constant expression computes, whatever comes behind the imported globals. -/
theorem constInstr_computes {i : Instr} {values : List Value} (allowed : ctx.constInstr i = .ok u)
    (typed : ctx.instr [computed type stack] i = .ok state)
    (imported : values.map Value.type = ctx.module.importedGlobals.map (·.type)) :
    ∃ after, state = [computed type after] ∧ ∀ more rest,
      ConstExpr.evalOn (values ++ more).toArray (i :: rest) stack = ConstExpr.evalOn (values ++ more).toArray rest after := by
  unfold constInstr at allowed
  split at allowed
  · exact ⟨_, instr_const typed, fun _ _ => rfl⟩
  · exact ⟨_, instr_refFunc typed, fun _ _ => rfl⟩
  · obtain ⟨x, y, below, rfl, typeX, typeY, made⟩ := instr_intBinary typed
    obtain ⟨v, computed, typeV⟩ := eval_intBinary (require_ok allowed) typeX typeY
    refine ⟨v :: below, made v typeV, ?_⟩
    intro more rest
    simp only [ConstExpr.evalOn, computed]
  · rename_i index
    simp only [bind_eq_ok] at allowed
    obtain ⟨g, known, _⟩ := allowed
    have known := find_ok known
    obtain ⟨g', found, made⟩ := instr_globalGet typed
    have inside := (List.getElem?_eq_some_iff.mp known).1
    rw [Module.allGlobals, List.getElem?_append_left inside, known] at found
    cases found
    have length : values.length = ctx.module.importedGlobals.length := by
      simpa using congrArg List.length imported
    obtain ⟨v, there⟩ : ∃ v, values[index]? = some v := ⟨_, List.getElem?_eq_getElem (by omega)⟩
    have typeV : v.type = g.type := by
      have types := congrArg (·[index]?) imported
      simpa only [List.getElem?_map, there, known, Option.map_some, Option.some.injEq] using types
    refine ⟨v :: stack, made v typeV, ?_⟩
    intro more rest
    have here : (values ++ more).toArray[index]? = some v := by
      rw [List.getElem?_toArray, List.getElem?_append_left (by omega), there]
    simp only [ConstExpr.evalOn, here]
  · contradiction

/-- A sequence of such instructions computes values of the types that it was checked for. -/
theorem constInstrs_compute {e : ConstExpr} {values : List Value} (allowed : ∀ i ∈ e, ctx.constInstr i = .ok ())
    (typed : e.foldlM (fun state i => ctx.instr state i) [computed type stack] = .ok state)
    (imported : values.map Value.type = ctx.module.importedGlobals.map (·.type)) :
    ∃ after, state = [computed type after] ∧
      ∀ more, ConstExpr.evalOn (values ++ more).toArray e stack = some after := by
  induction e generalizing stack with
  | nil =>
    cases typed
    exact ⟨stack, rfl, fun _ => by simp [ConstExpr.evalOn]⟩
  | cons i rest ih =>
    simp only [List.foldlM_cons, bind_eq_ok] at typed
    obtain ⟨_, first, later⟩ := typed
    obtain ⟨mid, rfl, step⟩ := constInstr_computes (allowed i List.mem_cons_self) first imported
    obtain ⟨after, same, done⟩ := ih (fun j among => allowed j (List.mem_cons_of_mem i among)) later
    exact ⟨after, same, fun more => (step more rest).trans (done more)⟩

theorem constExpr_ok {e : ConstExpr} (h : ctx.constExpr t e = .ok u) :
    (∀ i ∈ e, ctx.constInstr i = .ok ()) ∧ ctx.body [t] (e ++ [.done]) = .ok [] := by
  simp only [constExpr, bind_eq_ok] at h
  obtain ⟨_, all, state, checked, ended⟩ := h
  refine ⟨forIn_ok all, ?_⟩
  split at ended
  · exact checked
  · contradiction

end Context

end Typing

/-- An initialiser that has a value of the type of its global, which depends on the imported globals alone. -/
def Global.Sound (imported : List GlobalType) (g : Global) : Prop :=
  ∀ values : List Value, values.map Value.type = imported.map (·.type) →
    ∃ v, v.type = g.type.type ∧ ∀ more, g.init.eval? (values ++ more).toArray = some v

/-- More imported globals do not matter. -/
theorem Global.Sound.append {g : Global} (sound : g.Sound imported) (more : List GlobalType) :
    g.Sound (imported ++ more) := by
  intro values types
  obtain ⟨first, rest, rfl, same, _⟩ := List.map_eq_append_iff.mp (types.trans List.map_append)
  obtain ⟨v, typed, evaluates⟩ := sound first same
  exact ⟨v, typed, fun behind => by rw [List.append_assoc]; exact evaluates _⟩

theorem Typing.Context.sound_of_constExpr {ctx : Typing.Context} {g : Global}
    (h : ctx.constExpr g.type.type g.init = .ok u) : g.Sound ctx.module.importedGlobals := by
  obtain ⟨allowed, checked⟩ := constExpr_ok h
  intro values imported
  simp only [body, List.foldlM_append, bind_eq_ok] at checked
  obtain ⟨state, typed, ended⟩ := checked
  have start : OpenBlock.start .plain ⟨[], [g.type.type]⟩ = .computed ⟨[], [g.type.type]⟩ [] := rfl
  rw [start] at typed
  obtain ⟨after, rfl, computes⟩ := constInstrs_compute allowed typed imported
  simp only [List.foldlM_cons, List.foldlM_nil, instr, bind_eq_ok] at ended
  obtain ⟨_, ⟨_, finished, _⟩, _⟩ := ended
  obtain ⟨v, rfl, same⟩ := OpenBlock.finish_computed finished
  exact ⟨v, same, fun more => by simp only [ConstExpr.eval?, computes more]⟩

namespace Module

/-- The values that globals begin with: zero for an imported one, and for another what its initialiser says when all
imported ones are zero. -/
def firstValues (m : Module) : List (Option Value) :=
  let zeros := m.importedGlobals.map (·.type.zero)
  zeros.map some ++ m.globals.map fun g => g.init.eval? zeros.toArray

theorem initialGlobals_eq {m : Module} (sound : ∀ g ∈ m.globals, g.Sound m.importedGlobals) :
    (m.initialGlobals (m.importedGlobals.map (·.type.zero))).toList.map some = m.firstValues := by
  have typed : (m.importedGlobals.map (·.type.zero)).map Value.type = m.importedGlobals.map (·.type) := by
    simp
  have folds (gs : List Global) (sound : ∀ g ∈ gs, g.Sound m.importedGlobals) (done : List Value) :
      (gs.foldl (fun values g => values.push ((g.init.eval? values).getD g.type.type.zero))
        (m.importedGlobals.map (·.type.zero) ++ done).toArray).toList.map some =
      ((m.importedGlobals.map (·.type.zero)) ++ done).map some ++
        gs.map fun g => g.init.eval? (m.importedGlobals.map (·.type.zero)).toArray := by
    induction gs generalizing done with
    | nil => simp
    | cons g rest ih =>
      obtain ⟨v, _, evaluates⟩ := sound g List.mem_cons_self _ typed
      have alone := evaluates []
      rw [List.append_nil] at alone
      have pushed : (m.importedGlobals.map (·.type.zero) ++ done).toArray.push v =
          (m.importedGlobals.map (·.type.zero) ++ (done ++ [v])).toArray := by simp
      rw [List.foldl_cons, evaluates done, Option.getD_some, pushed,
        ih fun g among => sound g (List.mem_cons_of_mem _ among)]
      simp [alone]
  have all := folds m.globals sound []
  rw [List.append_nil] at all
  exact all

/-- Every global begins with a value of its type. -/
theorem initialGlobals_types {m : Module} (sound : ∀ g ∈ m.globals, g.Sound m.importedGlobals) :
    (m.initialGlobals (m.importedGlobals.map (·.type.zero))).toList.map Value.type = m.allGlobals.map (·.type) := by
  have values := congrArg (List.map (Option.map Value.type)) (initialGlobals_eq sound)
  have own : (m.globals.map fun g => (g.init.eval? (m.importedGlobals.map (·.type.zero)).toArray).map Value.type) =
      m.globals.map fun g => some g.type.type := by
    apply List.map_congr_left
    intro g among
    obtain ⟨v, typed, evaluates⟩ := sound g among (m.importedGlobals.map (·.type.zero)) (by simp)
    have alone := evaluates []
    rw [List.append_nil] at alone
    rw [alone, Option.map_some, typed]
  apply (List.map_inj_right fun _ _ => Option.some.inj).mp
  simpa [firstValues, allGlobals, Function.comp_def, own] using values

theorem getElem?_initialGlobals {m : Module} (sound : ∀ g ∈ m.globals, g.Sound m.importedGlobals) (index : Nat) :
    (m.initialGlobals (m.importedGlobals.map (·.type.zero)))[index]? = m.firstValues[index]?.join := by
  rw [← initialGlobals_eq sound, List.getElem?_map, Array.getElem?_toList]
  cases (m.initialGlobals (m.importedGlobals.map (·.type.zero)))[index]? with
  | none => rfl
  | some v => rfl

/-- What loading stores in each global first. -/
def firstWrites (m : Module) : List (Nat × Value) :=
  m.firstValues.zipIdx.filterMap fun w => w.1.map (w.2, ·)

theorem lookup_zipIdx (values : List (Option Value)) (first index : Nat) :
    ((values.zipIdx first).filterMap fun w => w.1.map (w.2, ·)).reverse.lookup index =
      if first ≤ index then values[index - first]?.join else none := by
  induction values generalizing first with
  | nil => simp
  | cons v rest ih =>
    have head : ([v.map (first, ·)].filterMap fun w => w).reverse.lookup index =
        if index = first then v else none := by
      cases v with
      | none => simp
      | some v =>
        by_cases here : index = first
        · simp [here]
        · simp [here, List.lookup_cons, beq_false_of_ne here]
    have split : ((v :: rest).zipIdx first).filterMap (fun w => w.1.map (w.2, ·)) =
        [v.map (first, ·)].filterMap (fun w => w) ++ (rest.zipIdx (first + 1)).filterMap fun w => w.1.map (w.2, ·) := by
      cases v <;> rfl
    rw [split, List.reverse_append, List.lookup_append, ih, head]
    rcases Nat.lt_trichotomy index first with before | rfl | behind
    · rw [if_neg (by omega), if_neg (by omega), if_neg (by omega), Option.none_or]
    · rw [if_neg (by omega), if_pos rfl, if_pos (Nat.le_refl index), Nat.sub_self]
      cases v <;> rfl
    · obtain ⟨more, rfl⟩ := Nat.exists_eq_add_of_lt behind
      have next : first + more + 1 - first = more + 1 := by omega
      have here : first + more + 1 - (first + 1) = more := by omega
      rw [if_pos (by omega), if_neg (by omega), if_pos (by omega), next, here, List.getElem?_cons_succ, Option.or_none]

theorem lookup_firstWrites (m : Module) (index : Nat) : m.firstWrites.reverse.lookup index = m.firstValues[index]?.join :=
  lookup_zipIdx m.firstValues 0 index

end Module
end Wasm
end WasmBinding
