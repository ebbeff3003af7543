import WasmBinding.Text.Basic
import WasmBinding.Wasm.Binary.Module

/-! What rejections say. One for any reason but the end of the input is in words that do not speak of it, unless it quotes a
name that does; and no check of types gives other ones. -/

namespace WasmBinding

namespace Text

/-- A text without a certain character stands in another, if at all, on one side of where the character stands there. -/
theorem prefix_of_not_mem {w a b : List Char} (without : mark ∉ w) (starts : w <+: a ++ mark :: b) : w <+: a := by
  induction a generalizing w with
  | nil =>
    cases w with
    | nil => exact List.prefix_rfl
    | cons c w =>
      obtain ⟨rfl, _⟩ := List.cons_prefix_cons.mp starts
      exact absurd List.mem_cons_self without
  | cons x a ih =>
    cases w with
    | nil => exact List.nil_prefix
    | cons c w =>
      obtain ⟨rfl, here⟩ := List.cons_prefix_cons.mp starts
      exact List.cons_prefix_cons.mpr ⟨rfl, ih (mt (List.mem_cons_of_mem _) without) here⟩

theorem infix_append_cons_iff {w a b : List Char} (without : mark ∉ w) :
    w <:+: a ++ mark :: b ↔ w <:+: a ∨ w <:+: b := by
  constructor
  · intro stands
    induction a with
    | nil =>
      rcases List.infix_cons_iff.mp stands with starts | later
      · exact .inl (prefix_of_not_mem (a := []) without starts).isInfix
      · exact .inr later
    | cons x a ih =>
      rcases List.infix_cons_iff.mp stands with starts | later
      · exact .inl (prefix_of_not_mem (a := x :: a) without starts).isInfix
      · exact (ih later).imp_left (List.infix_cons ·)
  · rintro (before | after)
    · exact before.trans (List.prefix_append _ _).isInfix
    · exact after.trans ((List.suffix_cons mark b).trans (List.suffix_append a _)).isInfix

end Text

namespace Wasm

namespace Rejection

/-- The words that tell of the end of the input. -/
def endWords : List Char := ['u', 'n', 'e', 'x', 'p', 'e', 'c', 't', 'e', 'd', ' ', 'e', 'n', 'd']

theorem toList_endWords : "unexpected end".toList = endWords := by decide

/-- A rejection that tells of the end of the input only if it has come, or in a name. -/
def Candid : Rejection → Prop
  | endOfInput | duplicateExport _ => True
  | malformed reason | invalid reason => Text.occursIn endWords reason.toList = false

section

variable {chars : List Char}

-- Reasons are compared as lists of characters, which is what a checker can read off the text.
theorem candid_malformed (fixed : Text.occursIn endWords chars = false) : (malformed (String.ofList chars)).Candid := by
  rw [Candid, String.toList_ofList]
  exact fixed

theorem candid_invalid (fixed : Text.occursIn endWords chars = false) : (invalid (String.ofList chars)).Candid := by
  rw [Candid, String.toList_ofList]
  exact fixed

end

theorem occursIn_duplicateExport (name : String) :
    Text.occursIn endWords (duplicateExport name).message.toList ↔ endWords <:+: name.toList := by
  have opening : "duplicate export name `".toList = "duplicate export name ".toList ++ ['`'] := by decide
  have closing : "` already defined".toList = '`' :: " already defined".toList := by decide
  have words : (duplicateExport name).message = "duplicate export name `" ++ name ++ "` already defined" := rfl
  have before : ¬ endWords <:+: "duplicate export name ".toList := by
    rw [← Text.occursIn_iff]
    decide
  have after : ¬ endWords <:+: " already defined".toList := by
    rw [← Text.occursIn_iff]
    decide
  have without : '`' ∉ endWords := by decide
  rw [Text.occursIn_iff, words, String.toList_append, String.toList_append, opening, closing, List.append_assoc,
    List.append_assoc, List.singleton_append, Text.infix_append_cons_iff without, Text.infix_append_cons_iff without,
    or_iff_right before, or_iff_left after]

/-- When a rejection tells of the end of the input. -/
theorem Candid.occursIn_iff {r : Rejection} (candid : r.Candid) :
    Text.occursIn endWords r.message.toList ↔
      r = endOfInput ∨ ∃ name, r = duplicateExport name ∧ endWords <:+: name.toList := by
  cases r with
  | endOfInput => exact iff_of_true (by decide) (.inl rfl)
  | duplicateExport name => simp [occursIn_duplicateExport]
  | malformed reason | invalid reason => exact iff_of_false (Bool.eq_false_iff.mp candid) (by simp)

end Rejection

/-- All that a computation can be refused for is told candidly. -/
def Candid {α : Type} (x : Except Rejection α) : Prop := ∀ r, x = .error r → r.Candid

namespace Candid

variable {α β : Type} {chars : List Char}

theorem pure (a : α) : Candid (Pure.pure a) := by
  intro r failed
  cases failed

theorem bind {x : Except Rejection α} {next : α → Except Rejection β} (first : Candid x) (then_ : ∀ a, Candid (next a)) :
    Candid (x >>= next) := by
  intro r failed
  cases x with
  | error e =>
    cases failed
    exact first r rfl
  | ok a => exact then_ a r failed

theorem map {x : Except Rejection α} (first : Candid x) (f : α → β) : Candid (x.map f) := by
  intro r failed
  cases x with
  | error e =>
    cases failed
    exact first r rfl
  | ok a => cases failed

theorem ite {c : Prop} [Decidable c] {x y : Except Rejection α} (yes : Candid x) (no : Candid y) :
    Candid (if c then x else y) := by
  split
  · exact yes
  · exact no

theorem throw {r : Rejection} (candid : r.Candid) : Candid (α := α) (MonadExcept.throw r) := by
  intro r' failed
  cases failed
  exact candid

theorem malformed (fixed : Text.occursIn Rejection.endWords chars = false) :
    Candid (α := α) (MonadExcept.throw (Rejection.malformed (String.ofList chars))) :=
  throw (Rejection.candid_malformed fixed)

theorem invalid (fixed : Text.occursIn Rejection.endWords chars = false) :
    Candid (α := α) (MonadExcept.throw (Rejection.invalid (String.ofList chars))) :=
  throw (Rejection.candid_invalid fixed)

theorem require {holds : Bool} (fixed : Text.occursIn Rejection.endWords chars = false) :
    Candid (Typing.require holds (String.ofList chars)) :=
  .ite (.pure ()) (.invalid fixed)

theorem find {entry : Option α} (fixed : Text.occursIn Rejection.endWords chars = false) :
    Candid (Typing.find entry (String.ofList chars)) := by
  cases entry with
  | none => exact .invalid fixed
  | some a => exact .pure a

theorem foldlM {step : β → α → Except Rejection β} (each : ∀ b a, Candid (step b a)) (l : List α) (b : β) :
    Candid (l.foldlM step b) := by
  induction l generalizing b with
  | nil => exact .pure b
  | cons a rest ih => exact .bind (each b a) fun b => ih b

theorem forIn {step : α → β → Except Rejection (ForInStep β)} (each : ∀ a b, Candid (step a b)) (l : List α) (b : β) :
    Candid (ForIn.forIn l b step) := by
  induction l generalizing b with
  | nil => exact .pure b
  | cons a rest ih =>
    rw [List.forIn_cons]
    refine .bind (each a b) fun next => ?_
    cases next with
    | done b => exact .pure b
    | yield b => exact ih b

end Candid

namespace Typing

open Candid

theorem popAny_candid (b : OpenBlock) : Candid b.popAny := by
  unfold OpenBlock.popAny
  split
  · exact .pure _
  · exact .ite (.pure _) (.invalid rfl)

theorem popOne_candid (b : OpenBlock) (t : ValType) : Candid (b.popOne t) := by
  unfold OpenBlock.popOne
  refine .bind (popAny_candid b) fun popped => ?_
  split
  · exact .pure _
  · exact .ite (.pure _) (.invalid rfl)

theorem pop_candid (b : OpenBlock) (types : List ValType) : Candid (b.pop types) := .foldlM popOne_candid _ _

theorem finish_candid (b : OpenBlock) : Candid b.finish :=
  .bind (pop_candid b _) fun _ => .ite (.pure _) (.invalid rfl)

namespace Context

variable (ctx : Context)

theorem valType_candid (t : ValType) : Candid (ctx.valType t) := .require rfl

theorem memory_candid (index : Nat) : Candid (ctx.memory index) := .require rfl

theorem table_candid (index : Nat) : Candid (ctx.table index) := .require rfl

theorem segment_candid (index : Nat) : Candid (ctx.segment index) := .require rfl

theorem dataSegment_candid (index : Nat) : Candid (ctx.dataSegment index) := .bind (.find rfl) fun _ => .require rfl

theorem bulkMemory_candid : Candid ctx.bulkMemory := .require rfl

theorem referenceTypes_candid : Candid ctx.referenceTypes := .require rfl

theorem blockType_candid (t : BlockType) : Candid (ctx.blockType t) := by
  unfold blockType
  cases t with
  | empty => exact .find rfl
  | result t => exact .bind (ctx.valType_candid t) fun _ => .find rfl
  | function index => exact .bind (.require rfl) fun _ => .find rfl

theorem memArg_candid (access : Access) (arg : MemArg) : Candid (ctx.memArg access arg) :=
  .bind (ctx.memory_candid _) fun _ => .bind (.require rfl) fun _ => .require rfl

theorem operandType_candid (i : OperandInstr) : Candid (ctx.operandType i) := by
  cases i with
  | const v => exact .bind (ctx.valType_candid _) fun _ => .pure _
  | localGet index | localSet index | localTee index => exact .bind (.find rfl) fun _ => .pure _
  | refIsNull => exact .bind ctx.referenceTypes_candid fun _ => .pure _
  | refFunc index =>
    exact .bind ctx.referenceTypes_candid fun _ => .bind (.require rfl) fun _ => .bind (.require rfl) fun _ => .pure _
  | numeric op => exact .pure _
  | drop => exact .invalid rfl
  | select t =>
    cases t with
    | none => exact .invalid rfl
    | some t => exact .bind ctx.referenceTypes_candid fun _ => .pure _

theorem storageType_candid (i : StorageInstr) : Candid (ctx.storageType i) := by
  cases i with
  | globalGet index => exact .bind (.find rfl) fun _ => .pure _
  | globalSet index => exact .bind (.find rfl) fun _ => .bind (.require rfl) fun _ => .pure _
  | tableGet t | tableSet t | tableSize t | tableGrow t =>
    exact .bind ctx.referenceTypes_candid fun _ => .bind (ctx.table_candid t) fun _ => .pure _
  | tableFill t => exact .bind ctx.bulkMemory_candid fun _ => .bind (ctx.table_candid t) fun _ => .pure _
  | tableCopy target source =>
    exact .bind ctx.bulkMemory_candid fun _ => .bind (ctx.table_candid target) fun _ =>
      .bind (ctx.table_candid source) fun _ => .pure _
  | tableInit segment table =>
    exact .bind ctx.bulkMemory_candid fun _ => .bind (ctx.table_candid table) fun _ =>
      .bind (ctx.segment_candid segment) fun _ => .pure _
  | elemDrop segment => exact .bind ctx.bulkMemory_candid fun _ => .bind (ctx.segment_candid segment) fun _ => .pure _
  | load access arg | store access arg => exact .bind (ctx.memArg_candid access arg) fun _ => .pure _
  | memorySize m | memoryGrow m => exact .bind (ctx.memory_candid m) fun _ => .pure _
  | memoryFill m => exact .bind ctx.bulkMemory_candid fun _ => .bind (ctx.memory_candid m) fun _ => .pure _
  | memoryCopy target source =>
    exact .bind ctx.bulkMemory_candid fun _ => .bind (ctx.memory_candid target) fun _ =>
      .bind (ctx.memory_candid source) fun _ => .pure _
  | memoryInit segment m =>
    exact .bind ctx.bulkMemory_candid fun _ => .bind (ctx.memory_candid m) fun _ =>
      .bind (ctx.dataSegment_candid segment) fun _ => .pure _
  | dataDrop segment =>
    exact .bind ctx.bulkMemory_candid fun _ => .bind (ctx.dataSegment_candid segment) fun _ => .pure _

theorem apply_candid (type : FuncType) (b : OpenBlock) : Candid (apply type b) :=
  .bind (pop_candid b _) fun _ => .pure _

theorem operand_candid (i : OperandInstr) (b : OpenBlock) : Candid (ctx.operand i b) := by
  unfold operand
  split
  · exact .bind (popAny_candid b) fun _ => .pure _
  · refine .bind (popOne_candid b _) fun b => .bind (popAny_candid b) fun first => ?_
    refine .bind (popAny_candid first.2) fun second => .bind (.require rfl) fun _ => .bind (.require rfl) fun _ => ?_
    split
    · exact .bind (.require rfl) fun _ => .pure _
    all_goals exact .pure _
  · exact .bind (ctx.operandType_candid i) fun type => apply_candid type b

theorem labelTypes_candid (state : State) (label : Nat) : Candid (labelTypes state label) := .map (.find rfl) _

theorem enter_candid (kind : BlockKind) (type : FuncType) (b : OpenBlock) (outer : State) :
    Candid (enter kind type b outer) :=
  .bind (pop_candid b _) fun _ => .pure _

theorem instr_candid (state : State) (i : Instr) : Candid (ctx.instr state i) := by
  unfold instr
  split
  · exact .malformed rfl
  · rename_i b outer
    split
    · exact .pure _
    · exact .pure _
    · exact .bind (ctx.blockType_candid _) fun type => enter_candid _ type b outer
    · exact .bind (ctx.blockType_candid _) fun type => enter_candid _ type b outer
    · exact .bind (ctx.blockType_candid _) fun type => .bind (popOne_candid b _) fun b => enter_candid _ type b outer
    · exact .bind (.require rfl) fun _ => .bind (finish_candid b) fun _ => .pure _
    · refine .bind (finish_candid b) fun _ => ?_
      dsimp only
      refine .ite (.bind (.require rfl) fun _ => ?_) ?_
      all_goals split <;> exact .pure _
    · exact .bind (labelTypes_candid _ _) fun types => .bind (pop_candid b types) fun _ => .pure _
    · exact .bind (labelTypes_candid _ _) fun types => .bind (popOne_candid b _) fun b =>
        .bind (apply_candid _ b) fun _ => .pure _
    · refine .bind (popOne_candid b _) fun b => .bind (labelTypes_candid _ _) fun types => ?_
      refine .bind (.forIn (fun label _ => ?_) _ _) fun _ => .bind (pop_candid b types) fun _ => .pure _
      refine .bind (labelTypes_candid _ label) fun others => .bind (.require rfl) fun _ => ?_
      exact .bind (pop_candid b others) fun _ => .pure _
    · exact .bind (pop_candid b _) fun _ => .pure _
    · exact .bind (.find rfl) fun type => .bind (apply_candid type b) fun _ => .pure _
    · exact .bind (ctx.table_candid _) fun _ => .bind (.find rfl) fun type => .bind (popOne_candid b _) fun b =>
        .bind (apply_candid type b) fun _ => .pure _
    · exact .bind (ctx.operand_candid _ b) fun _ => .pure _
    · exact .bind (ctx.storageType_candid _) fun type => .bind (apply_candid type b) fun _ => .pure _

theorem body_candid (results : List ValType) (code : List Instr) : Candid (ctx.body results code) :=
  .foldlM ctx.instr_candid _ _

theorem constInstr_candid (i : Instr) : Candid (ctx.constInstr i) := by
  unfold constInstr
  split
  · exact .pure ()
  · exact .pure ()
  · exact .require rfl
  · exact .bind (.find rfl) fun _ => .require rfl
  · exact .invalid rfl

theorem constExpr_candid (t : ValType) (e : ConstExpr) : Candid (ctx.constExpr t e) := by
  unfold constExpr
  refine .bind (.forIn (fun i _ => ?_) _ _) fun _ => ?_
  · exact .bind (ctx.constInstr_candid i) fun _ => .pure _
  · refine .bind (ctx.body_candid _ _) fun state => ?_
    split
    · exact .pure _
    · exact .invalid rfl

end Context
end Typing

end Wasm
end WasmBinding
