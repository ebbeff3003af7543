import WasmBinding.Host.Function
import WasmBinding.Proofs.Signature
import WasmBinding.Store.Basic

/-! The language of written signatures. A text is read exactly if, but for blanks, it is the character of a result and, between
parentheses, one character for each parameter. Of the texts for one type a single one has no blanks, and it is the one that
functions of the type are linked with. -/

namespace WasmBinding

namespace Text

/-- What is left of a text without its blanks. -/
def unblanked (text : String) : List Char := text.toList.filter fun c => !isBlank c

def Tight (text : String) : Prop := ∀ c ∈ text.toList, !isBlank c

theorem unblanked_of_tight (tight : Tight text) : unblanked text = text.toList := List.filter_eq_self.mpr tight

theorem unblanked_insert (before after : String) (blank : ∀ c ∈ blanks.toList, isBlank c) :
    unblanked (before ++ blanks ++ after) = unblanked (before ++ after) := by
  have nothing : blanks.toList.filter (fun c => !isBlank c) = [] :=
    List.filter_eq_nil_iff.mpr fun c among => by simp [blank c among]
  simp only [unblanked, String.toList_append, List.filter_append, nothing, List.append_nil]

end Text

namespace ValueTag

/-- The types that have a character. -/
def Numeric (t : ValueTag) : Prop := t = .i32 ∨ t = .i64 ∨ t = .f32 ∨ t = .f64

theorem numeric_iff {t : ValueTag} : t.Numeric ↔ ∃ type : ScalarType, type.tag = t := by
  constructor
  · rintro (rfl | rfl | rfl | rfl)
    · exact ⟨.i32, rfl⟩
    · exact ⟨.i64, rfl⟩
    · exact ⟨.f32, rfl⟩
    · exact ⟨.f64, rfl⟩
  · rintro ⟨type, rfl⟩
    cases type <;> simp [ScalarType.tag, Numeric]

theorem exists_types {tags : List ValueTag} (numeric : ∀ t ∈ tags, t.Numeric) :
    ∃ types : List ScalarType, types.map ScalarType.tag = tags := by
  induction tags with
  | nil => exact ⟨[], rfl⟩
  | cons t rest ih =>
    obtain ⟨head, others⟩ := List.forall_mem_cons.mp numeric
    obtain ⟨type, rfl⟩ := numeric_iff.mp head
    obtain ⟨types, rfl⟩ := ih others
    exact ⟨type :: types, rfl⟩

theorem exists_code_iff {c : Char} : (∃ t : ValueTag, t.code? = some c) ↔ c ∈ ['i', 'I', 'f', 'F'] := by
  constructor
  · rintro ⟨t, code⟩
    cases t <;> cases code <;> simp
  · intro among
    simp only [List.mem_cons, List.not_mem_nil, or_false] at among
    rcases among with rfl | rfl | rfl | rfl
    · exact ⟨.i32, rfl⟩
    · exact ⟨.i64, rfl⟩
    · exact ⟨.f32, rfl⟩
    · exact ⟨.f64, rfl⟩

end ValueTag

namespace Signature

variable {sig : Signature}

/-- The character of a result, or of its absence. -/
def resultCode? : Option ValueTag → Option Char
  | none => some 'v'
  | some t => t.code?

/-- The form of a type without blanks. -/
def Spells (sig : Signature) (w : List Char) : Prop :=
  ∃ result params, w = result :: '(' :: params ++ [')'] ∧ resultCode? sig.result = some result ∧
    sig.params.map ValueTag.code? = params.map some

/-- Whether only types that have a character occur. -/
structure Numeric (sig : Signature) : Prop where
  result : ∀ t, sig.result = some t → t.Numeric
  params : ∀ t ∈ sig.params, t.Numeric

theorem exists_resultCode_iff {c : Char} : (∃ r, resultCode? r = some c) ↔ c ∈ ['v', 'i', 'I', 'f', 'F'] := by
  rw [List.mem_cons, ← ValueTag.exists_code_iff]
  constructor
  · rintro ⟨_ | t, code⟩
    · exact .inl (Option.some.inj code).symm
    · exact .inr ⟨t, code⟩
  · rintro (rfl | ⟨t, code⟩)
    · exact ⟨none, rfl⟩
    · exact ⟨some t, code⟩

theorem resultOfCode?_eq_some_iff : resultOfCode? c = some r ↔ resultCode? r = some c := by
  by_cases void : c = 'v'
  · subst void
    cases r with
    | none => simp [resultOfCode?, resultCode?]
    | some t => cases t <;> simp [resultOfCode?, resultCode?, ValueTag.code?]
  · rw [resultOfCode?.eq_2 c void, Option.map_eq_some_iff]
    cases r with
    | none => simp [resultCode?, Ne.symm void]
    | some t => simp [resultCode?, ValueTag.ofCode?_eq_some_iff]

/-- The closing parenthesis is no parameter, so that it ends them wherever it comes. -/
theorem paramsOfCodes?_eq_some_iff :
    paramsOfCodes? w = some types ↔ ∃ params, w = params ++ [')'] ∧ types.map ValueTag.code? = params.map some := by
  induction w using paramsOfCodes?.induct generalizing types with
  | case1 => simp [paramsOfCodes?]
  | case2 =>
    simp only [paramsOfCodes?, Option.some.injEq]
    constructor
    · rintro rfl
      exact ⟨[], rfl, rfl⟩
    · rintro ⟨params, split, codes⟩
      cases params with
      | nil => simpa [eq_comm] using codes
      | cons c rest => simp at split
  | case3 c rest more ih =>
    rw [paramsOfCodes?.eq_3 c rest more]
    simp only [Option.bind_eq_bind, Option.pure_def, Option.bind_eq_some_iff, ValueTag.ofCode?_eq_some_iff, ih,
      Option.some.injEq]
    constructor
    · rintro ⟨t, code, others, ⟨params, rfl, codes⟩, rfl⟩
      exact ⟨c :: params, rfl, by simp [code, codes]⟩
    · rintro ⟨params, split, codes⟩
      cases params with
      | nil =>
        obtain ⟨rfl, rfl⟩ := List.cons.inj split
        exact absurd rfl (more rfl)
      | cons d params =>
        obtain ⟨rfl, rfl⟩ := List.cons.inj split
        obtain ⟨t, others, rfl, code, codes⟩ := List.map_eq_cons_iff.mp codes
        exact ⟨t, code, others, ⟨params, rfl, codes⟩, rfl⟩

theorem ofCodes?_eq_some_iff : ofCodes? w = some sig ↔ sig.Spells w := by
  unfold ofCodes?
  split
  · rename_i result rest
    simp only [Option.bind_eq_bind, Option.pure_def, Option.bind_eq_some_iff, resultOfCode?_eq_some_iff,
      paramsOfCodes?_eq_some_iff, Option.some.injEq]
    constructor
    · rintro ⟨r, code, types, ⟨params, rfl, codes⟩, rfl⟩
      exact ⟨result, params, rfl, code, codes⟩
    · rintro ⟨c, params, split, code, codes⟩
      simp only [List.cons_append, List.cons.injEq, true_and] at split
      obtain ⟨rfl, split⟩ := split
      exact ⟨sig.result, code, sig.params, ⟨params, split, codes⟩, rfl⟩
  · rename_i other
    simp only [reduceCtorEq, false_iff]
    rintro ⟨c, params, rfl, _⟩
    exact other c _ rfl

theorem parse?_eq_some_iff {text : String} : parse? text = some sig ↔ sig.Spells (Text.unblanked text) :=
  ofCodes?_eq_some_iff

/-- What can be read is spelled with the characters of types. -/
theorem exists_spells_iff {w : List Char} :
    (∃ sig : Signature, sig.Spells w) ↔ ∃ result ∈ ['v', 'i', 'I', 'f', 'F'], ∃ params : List Char,
      (∀ c ∈ params, c ∈ ['i', 'I', 'f', 'F']) ∧ w = result :: '(' :: params ++ [')'] := by
  constructor
  · rintro ⟨sig, result, params, rfl, code, codes⟩
    refine ⟨result, exists_resultCode_iff.mp ⟨_, code⟩, params, fun c among => ?_, rfl⟩
    have among : some c ∈ sig.params.map ValueTag.code? := codes ▸ List.mem_map_of_mem among
    obtain ⟨t, _, code⟩ := List.mem_map.mp among
    exact ValueTag.exists_code_iff.mp ⟨t, code⟩
  · rintro ⟨result, known, params, each, rfl⟩
    obtain ⟨r, code⟩ := exists_resultCode_iff.mpr known
    have types : ∃ types : List ValueTag, types.map ValueTag.code? = params.map some := by
      induction params with
      | nil => exact ⟨[], rfl⟩
      | cons c rest ih =>
        obtain ⟨types, codes⟩ := ih (fun c among => each c (List.mem_cons_of_mem _ among))
        obtain ⟨t, code⟩ := ValueTag.exists_code_iff.mpr (each c List.mem_cons_self)
        exact ⟨t :: types, by simp [code, codes]⟩
    obtain ⟨types, codes⟩ := types
    exact ⟨⟨r, types⟩, result, params, rfl, code, codes⟩

/-- The one tight text for the types of host values is the one that is written for them. -/
theorem tight_parse?_iff {text : String} (r : ResultType) (params : List ScalarType) :
    Text.Tight text ∧ parse? text = some ⟨r.map ScalarType.tag, params.map ScalarType.tag⟩ ↔
      text = write r.code (params.map ScalarType.code) := by
  constructor
  · rintro ⟨tight, read⟩
    obtain ⟨c, codes, split, code, each⟩ := parse?_eq_some_iff.mp read
    have result : r.code = c := by
      cases r with
      | none => exact Option.some.inj code
      | some t => exact Option.some.inj (t.tag_code?.symm.trans code)
    have same : params.map ScalarType.code = codes := by
      have written : (params.map ScalarType.tag).map ValueTag.code? = (params.map ScalarType.code).map some := by
        simp [ScalarType.tag_code?]
      exact (List.map_inj_right fun _ _ => Option.some.inj).mp (written.symm.trans each)
    rw [Text.unblanked_of_tight tight, ← result, ← same] at split
    rw [write, ← split, String.ofList_toList]
  · rintro rfl
    exact ⟨visible_write r params, parse?_write r params⟩

end Signature

/-- The types of a function as an import has to have them. -/
def HostFunction.types {σ : Type} (f : HostFunction σ) : Signature :=
  ⟨f.result.map ScalarType.tag, f.params.map ScalarType.tag⟩

theorem Signature.numeric_iff {σ : Type} {sig : Signature} : sig.Numeric ↔ ∃ f : HostFunction σ, f.types = sig := by
  constructor
  · rintro ⟨result, params⟩
    obtain ⟨r, ts⟩ := sig
    obtain ⟨own, rfl⟩ : ∃ own : ResultType, own.map ScalarType.tag = r := by
      cases r with
      | none => exact ⟨none, rfl⟩
      | some t =>
        obtain ⟨type, rfl⟩ := ValueTag.numeric_iff.mp (result t rfl)
        exact ⟨some type, rfl⟩
    obtain ⟨types, rfl⟩ := ValueTag.exists_types params
    exact ⟨⟨types, own, .plain fun _ host => (host, none)⟩, rfl⟩
  · rintro ⟨f, rfl⟩
    constructor
    · intro t some
      obtain ⟨type, _, rfl⟩ := Option.map_eq_some_iff.mp some
      exact ValueTag.numeric_iff.mpr ⟨type, rfl⟩
    · intro t among
      obtain ⟨type, _, rfl⟩ := List.mem_map.mp among
      exact ValueTag.numeric_iff.mpr ⟨type, rfl⟩

/-- The search for an import looks at the text if there is such an import. -/
theorem Store.findImport_eq_malformedSignature_iff {σ : Type} {s : Store σ} (there : ∃ slot ∈ s.imports, slot.isFor k ns name)
    (text : String) : s.findImport k ns name text = .error .malformedSignature ↔ Signature.parse? text = none := by
  obtain ⟨place, first⟩ := Option.isSome_iff_exists.mp (List.findIdx?_isSome.trans (List.any_eq_true.mpr there))
  simp only [findImport, first]
  split
  · simp [*]
  · split <;> simp [*]

namespace Signature

variable {σ : Type}

/-- What becomes of a text that is meant as a signature. -/
structure ReadBy (s : Store σ) (text : String) : Prop where
  /-- It is read if its form, but for blanks, is that of some types. -/
  accepted : (∃ sig, parse? text = some sig) ↔ ∃ result ∈ ['v', 'i', 'I', 'f', 'F'], ∃ params : List Char,
    (∀ c ∈ params, c ∈ ['i', 'I', 'f', 'F']) ∧ Text.unblanked text = result :: '(' :: params ++ [')']
  types : ∀ sig, parse? text = some sig ↔ sig.Spells (Text.unblanked text)
  /-- Otherwise the import that it should describe is refused for it. -/
  refused : ∀ k ns name, (∃ slot ∈ s.imports, slot.isFor k ns name) →
    (s.findImport k ns name text = .error .malformedSignature ↔ parse? text = none)

/-- Signatures are read by their grammar. Blanks make no difference, wherever they stand, and without them there is one text
for each type, the one that functions of the type give as their signature. -/
theorem reads_by_grammar (s : Store σ) (text : String) :
    ReadBy s text ∧ Fault.malformedSignature.message = "malformed function signature" ∧
    (∀ before blanks after : String, (∀ c ∈ blanks.toList, Text.isBlank c) →
      parse? (before ++ blanks ++ after) = parse? (before ++ after)) ∧
    (∀ f : HostFunction σ, Text.Tight text ∧ parse? text = some f.types ↔ text = f.signature) ∧
    ∀ sig : Signature, sig.Numeric ↔ ∃ f : HostFunction σ, f.types = sig := by
  refine ⟨⟨?_, fun sig => parse?_eq_some_iff, ?_⟩, rfl, ?_, ?_, fun sig => numeric_iff⟩
  · simp only [parse?_eq_some_iff]
    exact exists_spells_iff
  · intro k ns name there
    exact Store.findImport_eq_malformedSignature_iff there text
  · intro before blanks after blank
    exact congrArg ofCodes? (Text.unblanked_insert before after blank)
  · intro f
    exact tight_parse?_iff f.result f.params

/-- A wide blank among the parameters is read over. -/
theorem reads_by_grammar_blank : parse? "i(I\u2003f)" = some ⟨some .i32, [.i64, .f32]⟩ := by
  let s : Store Nat := { environment := ⟨0, {}⟩, stackSize := 1, userData := 0, host := 0 }
  let f : HostFunction Nat := ⟨[.i64, .f32], some .i32, .plain fun _ host => (host, none)⟩
  obtain ⟨_, _, blanks, tight, _⟩ := reads_by_grammar s "i(If)"
  have read := ((tight f).mpr rfl).2
  have wide : ∀ c ∈ "\u2003".toList, Text.isBlank c := by
    have chars : "\u2003".toList = ['\u2003'] := rfl
    rw [chars]
    intro c among
    cases List.mem_singleton.mp among
    rfl
  exact (blanks "i(I" "\u2003" "f)" wide).trans read

end Signature
end WasmBinding
