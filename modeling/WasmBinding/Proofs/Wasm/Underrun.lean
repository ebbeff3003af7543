import WasmBinding.Host.Basic
import WasmBinding.Proofs.Wasm.Rejections

/-! When a binary is reported as incomplete. That it ends too early is one reason; the other is that it exports the name
twice that the report of a twofold export quotes, and that the name speaks of an end. -/

namespace WasmBinding

namespace Wasm

namespace Reader

variable {α β : Type} {chars : List Char}

/-- All that a reader can refuse is refused candidly. -/
def Candid (r : Reader α) : Prop := ∀ bytes, Wasm.Candid (r bytes)

namespace Candid

variable {r : Reader α} {next : α → Reader β}

theorem pure (a : α) : Candid (Pure.pure a) := fun _ => .pure _

theorem bind (first : Candid r) (then_ : ∀ a, Candid (next a)) : Candid (r >>= next) := fun bytes =>
  .bind (first bytes) fun (a, rest) => then_ a rest

theorem ite {c : Prop} [Decidable c] {other : Reader α} (yes : Candid r) (no : Candid other) :
    Candid (if c then r else other) := by
  split
  · exact yes
  · exact no

theorem lift {x : Except Rejection α} (candid : Wasm.Candid x) : Candid (liftM x) := fun _ =>
  .bind candid fun _ => .pure _

theorem malformed (fixed : Text.occursIn Rejection.endWords chars = false) :
    Candid (α := α) (malformed (String.ofList chars)) := fun _ =>
  .malformed fixed

theorem malformed_bind {next : α → Reader β} (fixed : Text.occursIn Rejection.endWords chars = false) :
    Candid (Reader.malformed (String.ofList chars) >>= next) := fun _ =>
  .malformed fixed

theorem require {holds : Bool} (fixed : Text.occursIn Rejection.endWords chars = false) :
    Candid (liftM (Typing.require holds (String.ofList chars))) :=
  .lift (.require fixed)

theorem forIn {step : β → α → Reader (ForInStep α)} (each : ∀ b a, Candid (step b a)) (l : List β) (a : α) :
    Candid (ForIn.forIn l a step) := by
  induction l generalizing a with
  | nil => exact .pure a
  | cons b rest ih =>
    rw [List.forIn_cons]
    refine .bind (each b a) fun next => ?_
    cases next with
    | done a => exact .pure a
    | yield a => exact ih a

theorem ended : Wasm.Candid (α := α) (.error .endOfInput) := .throw trivial

theorem byte : byte.Candid := by
  intro bytes
  cases bytes with
  | nil => exact ended
  | cons b rest => exact .pure _

theorem peek : peek.Candid := by
  intro bytes
  cases bytes with
  | nil => exact ended
  | cons b rest => exact .pure _

theorem take (count : Nat) : (take count).Candid := fun _ => .ite (.pure _) ended

theorem atEnd : atEnd.Candid := fun _ => .pure _

theorem unsigned (last more : Nat) : (unsigned last more).Candid := by
  induction more with
  | zero => exact .bind .byte fun _ => .ite (.pure _) (.malformed rfl)
  | succ more ih => exact .bind .byte fun _ => .ite (.pure _) (.bind ih fun _ => .pure _)

theorem signed (last more : Nat) : (signed last more).Candid := by
  induction more with
  | zero => exact .bind .byte fun _ => .ite (.pure _) (.ite (.pure _) (.malformed rfl))
  | succ more ih => exact .bind .byte fun _ => .ite (.pure _) (.ite (.pure _) (.bind ih fun _ => .pure _))

theorem u32 : u32.Candid := unsigned _ _

theorem repeated {item : Reader α} (candid : item.Candid) (count : Nat) : (repeated item count).Candid := by
  induction count with
  | zero => exact .pure _
  | succ count ih => exact .bind candid fun _ => .bind ih fun _ => .pure _

theorem vector {item : Reader α} (candid : item.Candid) : (vector item).Candid :=
  .bind .u32 fun count => repeated candid count

theorem sized : sized.Candid := .bind .u32 fun count => take count

theorem name : name.Candid := by
  unfold Reader.name
  refine .bind .u32 fun length => .ite (.bind (.malformed rfl) fun _ => ?_) ?_
  all_goals
    refine .bind (take length) fun bytes => ?_
    split
    · exact .pure _
    · exact .malformed rfl

theorem whole {item : Reader α} (candid : item.Candid) (bytes : Bytes) : Wasm.Candid (whole item bytes) :=
  .bind (candid bytes) fun _ => .ite (.pure _) (.malformed rfl)

end Candid
end Reader

namespace Binary

variable (f : Features)

theorem valType_candid : valType.Candid := by
  refine .bind .byte fun b => ?_
  split
  case h_7 => exact .malformed rfl
  all_goals exact .pure _

theorem refType_candid : refType.Candid := by
  refine .bind .byte fun b => ?_
  split
  · exact .pure _
  · exact .malformed rfl

theorem blockType_candid : blockType.Candid := by
  refine .bind .peek fun b => .ite ?_ (.ite ?_ ?_)
  · exact .bind .byte fun _ => .pure _
  · exact .bind valType_candid fun _ => .pure _
  · exact .bind (.signed _ _) fun _ => .ite (.malformed rfl) (.pure _)

theorem memArg_candid : memArg.Candid := by
  refine .bind .u32 fun flags => ?_
  dsimp only
  refine .ite (.bind .u32 fun memory => .bind (.pure _) fun place => ?_) (.bind (.pure _) fun place => ?_)
  all_goals exact .ite (.malformed_bind rfl) (.bind (.unsigned _ _) fun _ => .pure _)

theorem tableIndex_candid : (tableIndex f).Candid :=
  .ite .u32 (.bind .byte fun _ => .ite (.pure _) (.malformed rfl))

theorem fixedBits_candid (width count : Nat) : (fixedBits width count).Candid := .bind (.take count) fun _ => .pure _

theorem prefixedInstr_candid : prefixedInstr.Candid := by
  refine .bind .u32 fun code => ?_
  split
  · exact .pure _
  · split
    case h_11 => exact .malformed rfl
    case h_1 | h_3 | h_5 | h_7 => exact .bind .u32 fun _ => .bind .u32 fun _ => .pure _
    all_goals exact .bind .u32 fun _ => .pure _

theorem vectorInstr_candid : vectorInstr.Candid := by
  refine .bind .u32 fun code => ?_
  split
  · exact .bind (fixedBits_candid _ _) fun _ => .pure _
  · exact .malformed rfl

theorem selectType_candid : selectType.Candid := by
  refine .bind (.vector valType_candid) fun types => ?_
  split
  · exact .pure _
  · exact .malformed rfl

theorem instr_candid : (instr f).Candid := by
  unfold instr
  refine .bind .byte fun b => ?_
  dsimp only
  split
  case h_1 | h_2 | h_6 | h_7 | h_11 | h_14 | h_15 | h_31 => exact .pure _
  case h_3 | h_4 | h_5 => exact .bind blockType_candid fun _ => .pure _
  case h_10 => exact .bind (.vector .u32) fun labels => .bind .u32 fun _ => .pure _
  case h_13 => exact .bind .u32 fun type => .bind (tableIndex_candid f) fun _ => .pure _
  case h_16 => exact .bind selectType_candid fun _ => .pure _
  case h_26 | h_27 => exact .bind (.signed _ _) fun _ => .pure _
  case h_28 | h_29 => exact .bind (fixedBits_candid _ _) fun _ => .pure _
  case h_30 => exact .bind refType_candid fun _ => .pure _
  case h_33 => exact prefixedInstr_candid
  case h_34 => exact vectorInstr_candid
  case h_35 =>
    refine .ite ?_ (.ite ?_ (.ite ?_ (.malformed rfl)))
    · split
      · exact .bind memArg_candid fun _ => .pure _
      · exact .malformed rfl
    · split
      · exact .bind memArg_candid fun _ => .pure _
      · exact .malformed rfl
    · split
      · exact .pure _
      · exact .malformed rfl
  all_goals exact .bind .u32 fun _ => .pure _

theorem instrs_candid (fuel : Nat) (bytes : Bytes) (stopped : (instrs f fuel bytes).2 = some r) : r.Candid := by
  induction fuel generalizing bytes with
  | zero =>
    cases bytes with
    | nil => cases stopped
    | cons b rest =>
      cases stopped
      trivial
  | succ fuel ih =>
    cases bytes with
    | nil => cases stopped
    | cons b rest =>
      simp only [instrs] at stopped
      split at stopped
      · rename_i failed
        cases stopped
        exact instr_candid f _ _ failed
      · exact ih _ stopped

theorem constExpr_candid (fuel : Nat) : (constExpr f fuel).Candid := by
  induction fuel with
  | zero => exact fun _ => .throw trivial
  | succ fuel ih =>
    refine .bind (instr_candid f) fun i => ?_
    split
    · exact .pure _
    · exact .bind ih fun _ => .pure _

theorem const_candid : (const f).Candid := fun bytes => constExpr_candid f _ bytes

theorem limits_candid : limits.Candid := by
  refine .bind .byte fun b => ?_
  split
  · exact .bind .u32 fun _ => .pure _
  · exact .bind .u32 fun min => .bind .u32 fun _ => .pure _
  · exact .malformed rfl

theorem checkLimits_candid (l : Limits) (bound : Nat) : Wasm.Candid (checkLimits l bound) :=
  .bind (.require rfl) fun _ => .require rfl

theorem tableLimits_candid : tableLimits.Candid :=
  .bind refType_candid fun _ => .bind limits_candid fun l => .bind (.lift (checkLimits_candid l _)) fun _ => .pure _

theorem memoryLimits_candid : memoryLimits.Candid :=
  .bind limits_candid fun l => .bind (.lift (checkLimits_candid l _)) fun _ => .bind (.require rfl) fun _ => .pure _

theorem globalType_candid : globalType.Candid := by
  refine .bind valType_candid fun type => .bind .byte fun b => ?_
  split
  · exact .pure _
  · exact .pure _
  · exact .malformed rfl

variable (d : Draft)

theorem typeItem_candid : (typeItem f d).Candid := by
  unfold typeItem
  refine .bind .byte fun tag => .ite (.bind .u32 fun count => ?_) (.malformed_bind rfl)
  refine .ite (.malformed_bind rfl) (.bind (.repeated valType_candid count) fun params => .bind .u32 fun count => ?_)
  refine .ite (.malformed_bind rfl) (.bind (.repeated valType_candid count) fun results => .bind (.require rfl) fun _ => ?_)
  refine .bind (.forIn (fun t _ => ?_) _ _) fun _ => .pure _
  exact .bind (.lift (Typing.Context.valType_candid _ t)) fun _ => .pure _

theorem importItem_candid : (importItem f d).Candid := by
  unfold importItem
  refine .bind .name fun ns => .bind .name fun field => .bind .byte fun kind => ?_
  split
  · exact .bind .u32 fun type => .bind (.require rfl) fun _ => .pure _
  · exact .bind tableLimits_candid fun l => .bind (.require rfl) fun _ => .pure _
  · exact .bind memoryLimits_candid fun l => .pure _
  · exact .bind globalType_candid fun type => .bind (.lift (Typing.Context.valType_candid _ _)) fun _ => .pure _
  · exact .malformed_bind rfl

theorem functionItem_candid : (functionItem d).Candid := .bind .u32 fun _ => .bind (.require rfl) fun _ => .pure _

theorem tableItem_candid : (tableItem f d).Candid :=
  .bind tableLimits_candid fun _ => .bind (.require rfl) fun _ => .pure _

theorem memoryItem_candid : (memoryItem d).Candid :=
  .bind memoryLimits_candid fun _ => .bind (.require rfl) fun _ => .pure _

theorem globalItem_candid : (globalItem f d).Candid :=
  .bind globalType_candid fun _ => .bind (const_candid f) fun _ =>
    .bind (.lift (Typing.Context.valType_candid _ _)) fun _ =>
      .bind (.lift (Typing.Context.constExpr_candid _ _ _)) fun _ => .pure _

theorem exportItem_candid : (exportItem d).Candid := by
  unfold exportItem
  dsimp only
  refine .bind .name fun field => .bind .byte fun kind => ?_
  split
  case h_5 => exact .malformed_bind rfl
  all_goals
    refine .bind (.pure _) fun place => .bind .u32 fun index => .bind (.require rfl) fun _ => ?_
    exact .ite (.bind (fun _ => .throw trivial) fun _ => .pure _) (.pure _)

theorem startItem_candid : (startItem d).Candid :=
  .bind .u32 fun _ => .bind (.lift (.find rfl)) fun _ => .bind (.require rfl) fun _ => .pure _

theorem elementItem_candid : (elementItem f d).Candid := by
  unfold elementItem
  refine .bind .u32 fun flags => ?_
  dsimp only
  -- There are many ways through the flags, and the same few readers on each.
  refine .ite (.malformed_bind rfl) ?_
  repeat' first
    | with_reducible exact .pure _
    | with_reducible exact .u32
    | with_reducible exact .byte
    | with_reducible exact const_candid f
    | with_reducible exact refType_candid
    | with_reducible exact .vector (const_candid f)
    | with_reducible exact .vector .u32
    | with_reducible exact .lift (Typing.Context.table_candid _ _)
    | with_reducible exact .lift (Typing.Context.constExpr_candid _ _ _)
    | with_reducible refine .malformed_bind ?_
    | with_reducible refine .require ?_
    | with_reducible refine .ite ?_ ?_
    | with_reducible refine .forIn (fun _ _ => ?_) _ _
    | with_reducible refine .bind ?_ fun _ => ?_
    | split
  all_goals rfl

theorem dataCountItem_candid : (dataCountItem d).Candid := .bind .u32 fun _ => .pure _

theorem dataItem_candid : (dataItem f d).Candid := by
  unfold dataItem
  refine .bind .u32 fun flags => ?_
  dsimp only
  split
  case h_4 => exact .malformed_bind rfl
  case' h_1 => refine .bind (const_candid f) fun offset => .bind (.pure _) fun mode => .bind .sized fun bytes => ?_
  case' h_2 => refine .bind (.pure _) fun mode => .bind .sized fun bytes => ?_
  case' h_3 =>
    refine .bind .u32 fun memory => .bind (const_candid f) fun offset => .bind (.pure _) fun mode => ?_
    refine .bind .sized fun bytes => ?_
  all_goals
    split
    · refine .bind (.lift (Typing.Context.memory_candid _ _)) fun _ => ?_
      exact .bind (.lift (Typing.Context.constExpr_candid _ _ _)) fun _ => .pure _
    · exact .bind (.require rfl) fun _ => .pure _

theorem within_candid {item : Reader α} (candid : item.Candid) (room : Nat) : (within item room).Candid := by
  intro bytes
  unfold within
  split
  · rename_i failed
    intro r ended
    cases ended
    exact candid bytes _ failed
  · exact .ite (.pure _) (.throw trivial)

theorem codeBodies_candid (count room : Nat) : (codeBodies count room).Candid := by
  induction count generalizing room with
  | zero =>
    unfold codeBodies
    split
    · exact .pure _
    · exact .malformed rfl
    · contradiction
  | succ count ih => exact .bind (within_candid .sized room) fun _ => .bind (ih _) fun _ => .pure _

theorem codeSection_candid (room : Nat) : (codeSection room d).Candid :=
  .bind (within_candid .u32 room) fun _ => .bind (.require rfl) fun _ => .bind (codeBodies_candid _ _) fun _ => .pure _

section

variable {item : Draft → Reader Draft}

theorem each_candid (candid : ∀ d, (item d).Candid) (count : Nat) : (each item count d).Candid := by
  induction count generalizing d with
  | zero => exact .pure d
  | succ count ih => exact .bind (candid d) ih

theorem items_candid (candid : ∀ d, (item d).Candid) : (items item d).Candid :=
  .bind .u32 fun count => each_candid d candid count

end

theorem sectionContent_candid (id : Nat) : (sectionContent f id d).Candid := by
  unfold sectionContent
  split
  · exact items_candid d (typeItem_candid f)
  · exact items_candid d (importItem_candid f)
  · exact items_candid d functionItem_candid
  · exact items_candid d (tableItem_candid f)
  · exact items_candid d memoryItem_candid
  · exact items_candid d (globalItem_candid f)
  · exact items_candid d exportItem_candid
  · exact startItem_candid d
  · exact items_candid d (elementItem_candid f)
  · exact dataCountItem_candid d
  · exact .bind .u32 fun count => .bind (.require rfl) fun _ => each_candid d (dataItem_candid f) count
  · exact .malformed rfl

theorem customSection_candid (content : Bytes) : Wasm.Candid (customSection content d) :=
  .bind (Reader.Candid.name content) fun _ => .ite (.pure _) (.pure _)

theorem sectionItem_candid : (sectionItem f d).Candid := by
  unfold sectionItem
  refine .bind .byte fun id => .ite (.malformed_bind rfl) (.bind .u32 fun size => .ite ?_ ?_)
  · exact .bind (.take size) fun content => .lift (customSection_candid d content)
  · split
    · exact .bind (.take size) fun _ => .malformed rfl
    · refine .bind (.require rfl) fun _ => .ite (codeSection_candid _ size) (.bind (.take size) fun content => ?_)
      exact .lift (Reader.Candid.whole (sectionContent_candid f _ _) content)

theorem sections_candid (fuel : Nat) : (sections f fuel d).Candid := by
  induction fuel generalizing d with
  | zero => exact .pure d
  | succ fuel ih => exact .bind .atEnd fun _ => .ite (.pure d) (.bind (sectionItem_candid f d) ih)

theorem locals_candid (ctx : Typing.Context) (params groups : Nat) : (locals ctx params groups).Candid := by
  induction groups generalizing params with
  | zero => exact .pure _
  | succ groups ih =>
    refine .bind (.bind .u32 fun _ => .bind valType_candid fun _ => .pure _) fun (count, type) => ?_
    exact .bind (.lift (ctx.valType_candid type)) fun _ => .bind (.require rfl) fun _ => .bind (ih _) fun _ => .pure _

theorem body_candid (ctx : Typing.Context) (type : FuncType) (bytes : Bytes) : Wasm.Candid (body ctx type bytes) := by
  have groups : Reader.Candid (do locals ctx type.params.length (← Reader.u32)) := .bind .u32 (locals_candid ctx _)
  refine .bind (groups bytes) fun (declared, rest) => ?_
  dsimp only
  refine .bind (Typing.Context.body_candid _ _ _) fun state => ?_
  split
  · rename_i stopped
    exact .throw (instrs_candid _ _ _ stopped)
  · exact .ite (.pure _) (.bind (.malformed rfl) fun _ => .pure _)

theorem bodies_candid (ctx : Typing.Context) (types : List Nat) (contents : List Bytes) :
    Wasm.Candid (bodies ctx types contents) := by
  induction types generalizing contents with
  | nil => exact .pure _
  | cons type types ih =>
    cases contents with
    | nil => exact .pure _
    | cons bytes rest =>
      exact .bind (.find rfl) fun type => .bind (body_candid ctx type bytes) fun _ => .bind (ih rest) fun _ => .pure _

/-- Whatever a module is refused for is told candidly. -/
theorem module_candid (bytes : Bytes) : Wasm.Candid (module f bytes) :=
  .bind (sections_candid f _ _ bytes) fun _ => .bind (.require rfl) fun _ => .bind (.require rfl) fun _ =>
    .bind (bodies_candid _ _ _) fun _ => .pure _

end Binary
end Wasm

theorem Fault.ofRejection_eq_underrun_iff {r : Wasm.Rejection} (candid : r.Candid) :
    ofRejection r = underrun ↔
      r = .endOfInput ∨ ∃ name, r = .duplicateExport name ∧ "unexpected end".toList <:+: name.toList := by
  rw [ofRejection, Wasm.Rejection.toList_endWords, ← candid.occursIn_iff]
  split
  · exact iff_of_true rfl ‹_›
  · exact iff_of_false (by simp) ‹_›

theorem Error.ofFault_eq_underrun_iff {fault : Fault} : ofFault fault = underrun ↔ fault = .underrun := by
  cases fault <;> simp [ofFault]

namespace ParsedModule

open Wasm (Bytes)

/-- A header is in order, or too short, or of other words. -/
theorem sections_cases (bytes : Bytes) :
    bytes.length < 8 ∧ sections bytes = .error .underrun ∨
      8 ≤ bytes.length ∧ ¬ (bytes.take 4 = magic ∧ (bytes.drop 4).take 4 = version) ∧
        (∃ fault, sections bytes = .error fault ∧ fault ≠ .underrun) ∨
      8 ≤ bytes.length ∧ (bytes.take 4 = magic ∧ (bytes.drop 4).take 4 = version) ∧
        sections bytes = .ok (bytes.drop 8) := by
  by_cases short : bytes.length < 8
  · exact .inl ⟨short, if_pos short⟩
  have long := Nat.le_of_not_lt short
  rw [sections, if_neg short]
  by_cases first : bytes.take 4 = magic
  case neg =>
    refine .inr (.inl ⟨long, fun both => first both.1, .malformed, if_pos first, ?_⟩)
    simp
  by_cases second : (bytes.drop 4).take 4 = version
  case neg =>
    refine .inr (.inl ⟨long, fun both => second both.2, .incompatibleVersion, ?_, ?_⟩)
    · rw [if_neg (not_not_intro first), if_pos second]
    · simp
  refine .inr (.inr ⟨long, ⟨first, second⟩, ?_⟩)
  rw [if_neg (not_not_intro first), if_neg (not_not_intro second)]

/-- Exactly when a binary is reported as incomplete: it is shorter than a header, or behind a good header it ends too early, or it
exports a name twice that has the words of the report in it. -/
theorem underrun_iff (e : Environment) (bytes : Bytes) :
    orError (parse e bytes) = .error .underrun ↔
      bytes.length < 8 ∨
        8 ≤ bytes.length ∧ (bytes.take 4 = magic ∧ (bytes.drop 4).take 4 = version) ∧
          (Wasm.Binary.module e.features (bytes.drop 8) = .error .endOfInput ∨
            ∃ name, Wasm.Binary.module e.features (bytes.drop 8) = .error (.duplicateExport name) ∧
              "unexpected end".toList <:+: name.toList) := by
  rcases sections_cases bytes with ⟨short, taken⟩ | ⟨long, other, fault, taken, ne⟩ | ⟨long, header, taken⟩
  · rw [parse, taken]
    exact iff_of_true rfl (.inl short)
  · rw [parse, taken]
    refine iff_of_false (fun reported => ?_) ?_
    · exact ne (Error.ofFault_eq_underrun_iff.mp (Except.error.inj reported))
    · rintro (short | ⟨_, header, _⟩)
      · omega
      · exact other header
  · rw [or_iff_right (by omega), and_iff_right long, and_iff_right header]
    cases decoded : Wasm.Binary.module e.features (bytes.drop 8) with
    | ok m =>
      have parsed : parse e bytes = .ok ⟨e, bytes, m⟩ := by
        simp only [parse, taken, Bind.bind, Except.bind, decoded]
        rfl
      simp [parsed, orError]
    | error r =>
      have refused : parse e bytes = .error (.ofRejection r) := by
        simp only [parse, taken, Bind.bind, Except.bind, decoded]
        rfl
      have candid := Wasm.Binary.module_candid e.features (bytes.drop 8) r decoded
      simp [refused, orError, Error.ofFault_eq_underrun_iff, Fault.ofRejection_eq_underrun_iff candid]

end ParsedModule

namespace Twofold

/-- Exports its memory twice, under the name `unexpected end` and under one that differs from it at most in its last letter. -/
def binary (last : UInt8) : Wasm.Bytes :=
  [0x00, 0x61, 0x73, 0x6d, 0x01, 0x00, 0x00, 0x00,
    0x05, 0x03, 0x01, 0x00, 0x01,
    0x07, 0x23, 0x02,
    0x0e, 0x75, 0x6e, 0x65, 0x78, 0x70, 0x65, 0x63, 0x74, 0x65, 0x64, 0x20, 0x65, 0x6e, 0x64, 0x02, 0x00,
    0x0e, 0x75, 0x6e, 0x65, 0x78, 0x70, 0x65, 0x63, 0x74, 0x65, 0x64, 0x20, 0x65, 0x6e, last, 0x02, 0x00]

def environment : Environment := ⟨0, {}⟩

end Twofold

/-- A binary that is all there, as its twin shows, is reported as incomplete. -/
theorem complete_binary_underrun :
    Wasm.Binary.module Twofold.environment.features ((Twofold.binary 0x64).drop 8) =
        .error (.duplicateExport "unexpected end") ∧
      (ParsedModule.parse Twofold.environment (Twofold.binary 0x65)).isOk ∧
        orError (ParsedModule.parse Twofold.environment (Twofold.binary 0x64)) = .error .underrun := by
  refine ⟨rfl, ?_, rfl⟩
  decide +kernel

end WasmBinding
