import WasmBinding.Proofs.Host.Resolution

/-! The types that a link demands. A function can be linked to an import exactly if it has the type of the first import of
that name; the way over the written signature loses nothing, and a refused link leaves everything as it was. -/

namespace WasmBinding

open Wasm (FuncType)

namespace Wasm.Module

/-- Whether a function is imported under a namespace and a name. -/
def ImportsFunc (w : Module) (ns name : String) : Prop :=
  ∃ i ∈ w.imports, i.ns = ns ∧ i.name = name ∧ ∃ type, i.kind = .func type

/-- The type of the first function that is imported under a namespace and a name. -/
def importType? (w : Module) (ns name : String) : Option FuncType :=
  ((funcImports w.imports).find? fun (i, _) => i.ns == ns && i.name == name).bind fun (_, type) => w.types[type]?

variable {w : Module} {ns name : String}

theorem find?_funcImports_eq_none_iff :
    ((funcImports w.imports).find? fun (i, _) => i.ns == ns && i.name == name) = none ↔ ¬ w.ImportsFunc ns name := by
  rw [List.find?_eq_none]
  constructor
  · rintro others ⟨i, among, rfl, rfl, type, kind⟩
    have other := others (i, type) (mem_funcImports.mpr ⟨among, kind⟩)
    simp at other
  · rintro absent ⟨i, type⟩ among same
    obtain ⟨among, kind⟩ := mem_funcImports.mp among
    simp only [Bool.and_eq_true, beq_iff_eq] at same
    exact absent ⟨i, among, same.1, same.2, type, kind⟩

end Wasm.Module

namespace ImportSlot

variable {σ τ : Type}

/-- The written signature of a function describes the types of a slot exactly if the function has them. -/
theorem hasSignature_iff {slot : ImportSlot σ} {f : HostFunction τ} :
    slot.hasSignature ⟨f.result.map ScalarType.tag, f.params.map ScalarType.tag⟩ = true ↔ slot.Fits f := by
  rw [hasSignature, Bool.and_eq_true, beq_iff_eq, beq_iff_eq]
  constructor
  · rintro ⟨params, results⟩
    exact ⟨params.symm, results.symm⟩
  · intro fits
    exact ⟨fits.params.symm, fits.results.symm⟩

/-- A slot that was made for a type fits the functions of that type. -/
theorem fits_iff {slot : ImportSlot σ} {f : HostFunction τ} (made : slot.cleared = .unlinked k i type) :
    slot.Fits f ↔ type.params = f.params.map ScalarType.valType ∧ type.results = f.result.toList.map ScalarType.valType := by
  have params : slot.params = type.params.map (·.tag) := congrArg ImportSlot.params made
  have results : slot.results = type.results.map (·.tag) := congrArg ImportSlot.results made
  have result : (f.result.map ScalarType.tag).toList = f.result.toList.map ScalarType.tag := by cases f.result <;> rfl
  rw [ScalarType.map_valType_iff, ScalarType.map_valType_iff, ← params, ← results, ← result]
  constructor
  · intro fits
    exact ⟨fits.params, fits.results⟩
  · rintro ⟨params, results⟩
    exact ⟨params, results⟩

end ImportSlot

namespace Store

variable {σ τ : Type} {s : Store σ} {f : HostFunction τ} {m : LoadedModule}

/-- The first slot of an import is the one that was made for the first import of that name. -/
theorem Wired.find?_isFor (wired : s.Wired) (found : s.modules[k]? = some m) (ns name : String) :
    (s.imports.find? (·.isFor k ns name)).map ImportSlot.cleared =
      ((funcImports m.inst.module.imports).find? fun (i, _) => i.ns == ns && i.name == name).map fun (i, type) =>
        .unlinked k i (m.inst.module.types[type]?.getD ⟨[], []⟩) := by
  have own : s.imports.find? (·.isFor k ns name) = (s.imports.filter (·.module == k)).find? (·.isFor k ns name) := by
    rw [List.find?_filter]
    congr 1
    funext slot
    rw [Bool.eq_iff_iff]
    simp [ImportSlot.isFor, and_assoc]
  calc (s.imports.find? (·.isFor k ns name)).map ImportSlot.cleared
    _ = ((s.imports.filter (·.module == k)).map ImportSlot.cleared).find? (·.isFor k ns name) := by
      rw [own, List.find?_map]
      rfl
    _ = _ := by
      rw [wired.own found, slotsFor, List.find?_map]
      congr 2
      funext i
      simp [ImportSlot.isFor, ImportSlot.unlinked]

/-- All that the search for an import can come to for a written signature, which is never malformed. -/
theorem findImport_cases (s : Store σ) (k : Nat) (ns name : String) (f : HostFunction τ) :
    (s.imports.find? (·.isFor k ns name) = none ∧ s.findImport k ns name f.signature = .error .lookupFailed) ∨
    ∃ slot, s.imports.find? (·.isFor k ns name) = some slot ∧
      ((slot.Fits f ∧ ∃ place, s.findImport k ns name f.signature = .ok place) ∨
        ¬ slot.Fits f ∧ s.findImport k ns name f.signature = .error .signatureMismatch) := by
  rw [List.find?_eq_bind_findIdx?_getElem?]
  cases first : s.imports.findIdx? (·.isFor k ns name) with
  | none => exact .inl ⟨rfl, by simp only [findImport, first]⟩
  | some place =>
    right
    obtain ⟨inside, _⟩ := List.findIdx?_eq_some_iff_getElem.mp first
    have here : s.imports[place]? = some s.imports[place] := List.getElem?_eq_getElem inside
    refine ⟨s.imports[place], here, ?_⟩
    simp only [findImport, first, HostFunction.signature, Signature.parse?_write, here, Option.any_some]
    by_cases fits : s.imports[place].Fits f
    · rw [if_pos (ImportSlot.hasSignature_iff.mpr fits)]
      exact .inl ⟨fits, place, rfl⟩
    · rw [if_neg fun same => fits (ImportSlot.hasSignature_iff.mp same)]
      exact .inr ⟨fits, rfl⟩

end Store

namespace Host

variable {σ : Type} {h : Host σ} {f : HostFunction σ}

theorem link_of_missing (missing : h.store.findImport k ns name f.signature = .error fault) :
    h.link ⟨h.id, k⟩ ns name f = .error (.ofFault fault) := by
  simp only [link, own, if_pos, missing, orError]
  rfl

theorem link_of_found (found : h.store.findImport k ns name f.signature = .ok place) :
    ∃ after, h.link ⟨h.id, k⟩ ns name f = .ok after := by
  simp only [link, own, if_pos, found, orError]
  exact ⟨_, rfl⟩

end Host

/-- Whether a function has a type: one parameter for each, and the result if there is one. -/
def HostFunction.HasType {σ : Type} (f : HostFunction σ) (t : FuncType) : Prop :=
  t.params = f.params.map ScalarType.valType ∧ t.results = f.result.toList.map ScalarType.valType

/-- No function has a type with several results, or one in which there is a vector or a reference. -/
theorem HostFunction.HasType.scalar {σ : Type} {f : HostFunction σ} (has : f.HasType t) :
    t.results.length ≤ 1 ∧ ∀ type ∈ t.params ++ t.results, type ≠ .v128 ∧ type ≠ .funcref := by
  obtain ⟨params, results⟩ := has
  constructor
  · rw [results]
    cases f.result <;> simp
  · intro type among
    rw [params, results, ← List.map_append] at among
    obtain ⟨scalar, _, rfl⟩ := List.mem_map.mp among
    cases scalar <;> exact ⟨by decide, by decide⟩

namespace Session

variable {σ : Type} {s : Session σ} {m : LoadedModule}

/-- All that a link to a loaded module can come to. -/
theorem Reachable.link_cases (reached : s.Reachable) (found : s.host.store.modules[k]? = some m) (ns name : String)
    (f : HostFunction σ) :
    (¬ m.inst.module.ImportsFunc ns name ∧ s.host.link ⟨s.host.id, k⟩ ns name f = .error .lookupFailed) ∨
    ∃ t, m.inst.module.ImportsFunc ns name ∧ m.inst.module.importType? ns name = some t ∧
      ((f.HasType t ∧ ∃ after, s.host.link ⟨s.host.id, k⟩ ns name f = .ok after) ∨
        ¬ f.HasType t ∧ s.host.link ⟨s.host.id, k⟩ ns name f = .error .invalidSignature) := by
  have first := reached.coherent.wired.find?_isFor found ns name
  rcases s.host.store.findImport_cases k ns name f with ⟨none, missing⟩ | ⟨slot, some, rest⟩
  · left
    rw [none, Option.map_none, eq_comm, Option.map_eq_none_iff] at first
    exact ⟨Wasm.Module.find?_funcImports_eq_none_iff.mp first, Host.link_of_missing missing⟩
  · right
    rw [some, Option.map_some, eq_comm, Option.map_eq_some_iff] at first
    obtain ⟨⟨i, type⟩, among, made⟩ := first
    obtain ⟨imported, kind⟩ := mem_funcImports.mp (List.mem_of_find?_eq_some among)
    -- The types of imports are among those of the module, for it has been checked.
    have checked := reached.parsed.checked _ (Store.mem_loaded found)
    have known := checked.functions type (Wasm.Module.mem_allFuncs.mpr (.inl ⟨i, imported, kind⟩))
    have declared : m.inst.module.types[type]? = Option.some m.inst.module.types[type] := Array.getElem?_eq_getElem known
    have named := List.find?_some among
    simp only [Bool.and_eq_true, beq_iff_eq] at named
    refine ⟨m.inst.module.types[type], ⟨i, imported, named.1, named.2, type, kind⟩, ?_, ?_⟩
    · rw [Wasm.Module.importType?, among]
      exact declared
    · simp only [declared, Option.getD_some] at made
      have fits : slot.Fits f ↔ f.HasType m.inst.module.types[type] := ImportSlot.fits_iff made.symm
      rcases rest with ⟨fit, place, searched⟩ | ⟨misfit, searched⟩
      · exact .inl ⟨fits.mp fit, Host.link_of_found searched⟩
      · exact .inr ⟨fun has => misfit (fits.mpr has), Host.link_of_missing searched⟩

/-- A function can be linked to an import exactly if it has the type of the first import of that name. Otherwise the link is
refused, for the name if there is no such import and for the type if there is one, but never for the way the type is
written; and a link that is refused changes nothing. -/
theorem link_iff_type (reached : s.Reachable) (found : s.host.store.modules[k]? = some m) (ns name : String)
    (f : HostFunction σ) :
    (s.host.link ⟨s.host.id, k⟩ ns name f = .error .lookupFailed ↔ ¬ m.inst.module.ImportsFunc ns name) ∧
    (m.inst.module.ImportsFunc ns name → ∃ t, m.inst.module.importType? ns name = some t ∧
      ((∃ after, s.host.link ⟨s.host.id, k⟩ ns name f = .ok after) ↔ f.HasType t) ∧
      (s.host.link ⟨s.host.id, k⟩ ns name f = .error .invalidSignature ↔ ¬ f.HasType t) ∧
      (f.HasType t → t.results.length ≤ 1 ∧ ∀ type ∈ t.params ++ t.results, type ≠ .v128 ∧ type ≠ .funcref)) ∧
    s.host.link ⟨s.host.id, k⟩ ns name f ≠ .error (.engine .malformedSignature) ∧
    ∀ e, s.host.link ⟨s.host.id, k⟩ ns name f = .error e →
      s.perform (.link ⟨s.host.id, k⟩ ns name f) = s := by
  refine ⟨?_, ?_, ?_, ?_⟩
  · rcases reached.link_cases found ns name f with ⟨absent, linked⟩ | ⟨t, imports, _, ⟨_, after, linked⟩ | ⟨_, linked⟩⟩
    · simp [linked, absent]
    · simp [linked, imports]
    · simp [linked, imports]
  · intro imports
    rcases reached.link_cases found ns name f with ⟨absent, _⟩ | ⟨t, _, first, ⟨has, after, linked⟩ | ⟨other, linked⟩⟩
    · exact absurd imports absent
    · exact ⟨t, first, by simp [linked, has], by simp [linked, has], HostFunction.HasType.scalar⟩
    · exact ⟨t, first, by simp [linked, other], by simp [linked, other], HostFunction.HasType.scalar⟩
  · rcases reached.link_cases found ns name f with ⟨_, linked⟩ | ⟨_, _, _, ⟨_, _, linked⟩ | ⟨_, linked⟩⟩
    all_goals simp [linked]
  · intro e failed
    rw [perform, failed]

end Session

namespace Relay

/-- Answers its argument, which is a number of another width than the import takes. -/
def wide : HostFunction Nat where
  params := [.i64]
  result := some .i64
  body := .plain fun (v, _) count => (count, some v)

theorem loaded : 0 < session.host.store.modules.length := by decide +kernel

def module : LoadedModule := session.host.store.modules.get ⟨0, loaded⟩

theorem found : session.host.store.modules[0]? = some module := List.getElem?_eq_getElem loaded

theorem imports : module.inst.module.imports = [⟨"e", "f", .func 0⟩] := by decide +kernel

theorem importType : module.inst.module.importType? "e" "f" = some ⟨[.i32], [.i32]⟩ := by decide +kernel

end Relay

theorem link_iff_type_relay :
    (∃ after, Relay.session.host.link ⟨0, 0⟩ "e" "f" (Relay.counting 3) = .ok after) ∧
    Relay.session.host.link ⟨0, 0⟩ "e" "f" Relay.wide = .error .invalidSignature ∧
    Relay.session.host.link ⟨0, 0⟩ "e" "g" (Relay.counting 3) = .error .lookupFailed ∧
    Relay.session.perform (.link ⟨0, 0⟩ "e" "g" (Relay.counting 3)) = Relay.session := by
  have imported : Relay.module.inst.module.ImportsFunc "e" "f" :=
    ⟨_, Relay.imports ▸ List.mem_singleton_self _, rfl, rfl, 0, rfl⟩
  have absent : ¬ Relay.module.inst.module.ImportsFunc "e" "g" := by
    rintro ⟨i, among, _, other, _⟩
    rw [Relay.imports, List.mem_singleton] at among
    subst among
    simp at other
  obtain ⟨_, fitting, _⟩ := Session.link_iff_type Relay.reachable Relay.found "e" "f" (Relay.counting 3)
  obtain ⟨_, misfitting, _⟩ := Session.link_iff_type Relay.reachable Relay.found "e" "f" Relay.wide
  obtain ⟨missing, _, _, unchanged⟩ := Session.link_iff_type Relay.reachable Relay.found "e" "g" (Relay.counting 3)
  obtain ⟨t, first, fits, _⟩ := fitting imported
  obtain ⟨u, first', _, misfits, _⟩ := misfitting imported
  cases Relay.importType.symm.trans first
  cases Relay.importType.symm.trans first'
  exact ⟨fits.mpr ⟨rfl, rfl⟩, misfits.mpr fun has => absurd has.1 (by decide), missing.mpr absent,
    unchanged _ (missing.mpr absent)⟩

end WasmBinding
