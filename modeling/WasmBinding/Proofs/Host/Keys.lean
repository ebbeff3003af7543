import Mathlib.Data.Finset.Card
import Mathlib.Data.Set.Function
import WasmBinding.Proofs.Host.Resolution
import WasmBinding.Proofs.Host.Rollback

/-! The keys of linked functions. The registry is what the links that succeeded make of it: the imports that were ever linked
are numbered from zero on, and there are as many of them as slots with targets, whose contexts lead back to their own keys. -/

namespace WasmBinding

namespace Registry

variable {σ : Type} {r : Registry σ} {links : List (ImportName × HostFunction σ)}

theorem isSome_key?_iff : (r.key? i).isSome = true ↔ i ∈ r.names := by
  rw [key?_eq, List.findIdx?_isSome, List.any_beq', List.contains_iff_mem]

theorem keyFor_of_key? (known : r.key? i = some key) : r.keyFor i = key := by
  rw [keyFor, known, Option.getD_some]

theorem exists_get? (inside : key < r.size) : ∃ f, r.get? key = some f := by
  have here : r.entries[key]? = some r.entries[key] := List.getElem?_eq_getElem inside
  exact ⟨_, by rw [get?, here, Option.map_some]⟩

/-- A relink gives out no key. -/
theorem key?_set_known (known : (r.key? i).isSome = true) (f : HostFunction σ) : (r.set i f).key? = r.key? := by
  funext j
  rw [key?_eq, key?_eq, names_set, if_pos known]

theorem size_set (r : Registry σ) (i : ImportName) (f : HostFunction σ) :
    (r.set i f).size = if (r.key? i).isSome then r.size else r.size + 1 := by
  rw [← length_names, names_set]
  split
  · exact length_names r
  · rw [List.length_append, length_names, List.length_singleton]

theorem keyFor_unknown (unknown : r.key? i = none) : r.keyFor i = r.size := by
  rw [keyFor, unknown, Option.getD_none]

theorem mem_names_set {j : ImportName} : j ∈ (r.set i f).names ↔ j = i ∨ j ∈ r.names := by
  rw [names_set]
  split
  · rename_i known
    constructor
    · exact .inr
    · rintro (rfl | among)
      · exact isSome_key?_iff.mp known
      · exact among
  · rw [List.mem_append, List.mem_singleton, or_comm]

theorem nodup_names_set (nodup : r.names.Nodup) : (r.set i f).names.Nodup := by
  rw [names_set]
  split
  · exact nodup
  · rename_i unknown
    rw [isSome_key?_iff] at unknown
    exact List.nodup_append.mpr ⟨nodup, List.nodup_singleton i, fun j among k new same =>
      unknown (List.mem_singleton.mp new ▸ same ▸ among)⟩

/-- The key of an import is where its name stands, if no name stands twice. -/
theorem key?_of_name (nodup : r.names.Nodup) (named : r.names[key]? = some i) : r.key? i = some key := by
  obtain ⟨inside, rfl⟩ := List.getElem?_eq_some_iff.mp named
  rw [key?_eq, List.findIdx?_eq_some_iff_getElem]
  refine ⟨inside, beq_self_eq_true _, fun earlier before same => ?_⟩
  exact List.pairwise_iff_getElem.mp nodup earlier key (before.trans inside) inside before (beq_iff_eq.mp same)

/-- Keys number the imports that have one, without gaps. -/
theorem bijOn_keyFor (nodup : r.names.Nodup) : Set.BijOn r.keyFor {i | i ∈ r.names} (Set.Iio r.size) := by
  have known {i : ImportName} (among : i ∈ r.names) : ∃ key, r.key? i = some key :=
    Option.isSome_iff_exists.mp (isSome_key?_iff.mpr among)
  refine ⟨?_, ?_, ?_⟩
  · intro i among
    obtain ⟨key, found⟩ := known among
    rw [keyFor_of_key? found]
    exact key_lt found
  · intro i among j among' same
    obtain ⟨key, found⟩ := known among
    obtain ⟨key', found'⟩ := known among'
    rw [keyFor_of_key? found, keyFor_of_key? found'] at same
    cases same
    exact Option.some.inj ((name_of_key? found).symm.trans (name_of_key? found'))
  · intro key inside
    rw [Set.mem_Iio, ← length_names] at inside
    have here := List.getElem?_eq_getElem inside
    exact ⟨_, List.mem_of_getElem? here, keyFor_of_key? (key?_of_name nodup here)⟩

/-- The registry that some links make, of which the latest comes first. -/
def ofLinks : List (ImportName × HostFunction σ) → Registry σ
  | [] => {}
  | (i, f) :: earlier => (ofLinks earlier).set i f

theorem mem_names_ofLinks : i ∈ (ofLinks links).names ↔ i ∈ links.map (·.1) := by
  induction links with
  | nil => exact Iff.rfl
  | cons link earlier ih => rw [ofLinks, mem_names_set, ih, List.map_cons, List.mem_cons]

theorem nodup_names_ofLinks (links : List (ImportName × HostFunction σ)) : (ofLinks links).names.Nodup := by
  induction links with
  | nil => exact List.nodup_nil
  | cons link earlier ih => exact nodup_names_set ih

end Registry

/-- The registry as two tables: the keys that were given to imports, the latest first, and what stands behind each key, which
may be nothing yet. -/
structure KeyTables (σ : Type) where
  keys : List (ImportName × Nat) := []
  functions : List (Option (HostFunction σ)) := []

namespace KeyTables

variable {σ : Type}

/-- The key of an import. One that has none gets the next, with nothing behind it. -/
def allocate (t : KeyTables σ) (i : ImportName) : KeyTables σ × Nat :=
  match t.keys.lookup i with
  | some key => (t, key)
  | none => (⟨(i, t.functions.length) :: t.keys, t.functions ++ [none]⟩, t.functions.length)

/-- Puts a function behind a key, in place of what was there. A key that was not given out is ignored. -/
def put (t : KeyTables σ) (key : Nat) (f : HostFunction σ) : KeyTables σ :=
  { t with functions := t.functions.set key (some f) }

/-- A link takes the key of its import and puts its function there. -/
def link (t : KeyTables σ) (i : ImportName) (f : HostFunction σ) : KeyTables σ :=
  let (t, key) := t.allocate i
  t.put key f

/-- The tables that some links make, of which the latest comes first. -/
def ofLinks : List (ImportName × HostFunction σ) → KeyTables σ
  | [] => {}
  | (i, f) :: earlier => (ofLinks earlier).link i f

end KeyTables

/-- A registry says what two tables say: the keys of all imports, and the functions behind them, of which none is missing. -/
structure Registry.Stands {σ : Type} (r : Registry σ) (t : KeyTables σ) : Prop where
  keys : ∀ i, t.keys.lookup i = r.key? i
  functions : t.functions = r.entries.map fun e => some e.2

namespace Registry

variable {σ : Type} {r : Registry σ} {t : KeyTables σ}

theorem Stands.length (stands : r.Stands t) : t.functions.length = r.size := by
  rw [stands.functions, List.length_map, size]

theorem Stands.link (stands : r.Stands t) (i : ImportName) (f : HostFunction σ) : (r.set i f).Stands (t.link i f) := by
  cases known : r.key? i with
  | some key =>
    -- The import has its key already, and only the function behind it is another.
    have linked : t.link i f = t.put key f := by
      rw [KeyTables.link, KeyTables.allocate, stands.keys, known]
    rw [linked]
    constructor
    · intro j
      rw [key?_set_known (Option.isSome_of_eq_some known)]
      exact stands.keys j
    · rw [KeyTables.put, stands.functions, set, known, List.map_set]
  | none =>
    have linked : t.link i f = ⟨(i, r.size) :: t.keys, t.functions ++ [some f]⟩ := by
      rw [KeyTables.link, KeyTables.allocate, stands.keys, known, ← stands.length]
      simp [KeyTables.put]
    rw [linked]
    constructor
    · intro j
      rw [List.lookup_cons]
      by_cases same : j = i
      · rw [same, beq_self_eq_true, key?_set_self, keyFor_unknown known]
      · rw [beq_false_of_ne same, key?_set_ne same]
        exact stands.keys j
    · rw [stands.functions, set, known, List.map_append]
      rfl

theorem stands_ofLinks (links : List (ImportName × HostFunction σ)) : (ofLinks links).Stands (.ofLinks links) := by
  induction links with
  | nil => exact ⟨fun _ => rfl, rfl⟩
  | cons link earlier ih => exact ih.link link.1 link.2

end Registry

/-- The slots that have targets. -/
def Store.linkedSlots {σ : Type} (s : Store σ) : List (ImportSlot σ) := s.imports.filter (·.target.isSome)

/-- A slot that has a target, with its place in the table. -/
structure Store.LinkedAt {σ : Type} (s : Store σ) (place : Nat) (slot : ImportSlot σ) (target : Target σ) : Prop where
  found : s.imports[place]? = some slot
  linked : slot.target = some target

namespace Session

variable {σ : Type} {s t : Session σ}

/-- The imports that were ever linked with success. -/
def linkedNames (s : Session σ) : Finset ImportName := (s.links.map (·.1)).toFinset

theorem mem_linkedNames : i ∈ s.linkedNames ↔ ∃ f, (i, f) ∈ s.links := by
  rw [linkedNames, List.mem_toFinset, List.mem_map]
  constructor
  · rintro ⟨⟨_, f⟩, among, rfl⟩
    exact ⟨f, among⟩
  · rintro ⟨f, among⟩
    exact ⟨_, among, rfl⟩

/-- A list of the imports that were linked, each of them once, is as long as there are such imports. -/
theorem length_eq_card {names : List ImportName} (nodup : names.Nodup) (same : ∀ i, i ∈ names ↔ i ∈ s.linkedNames) :
    names.length = s.linkedNames.card := by
  have whole : names.toFinset = s.linkedNames := by
    apply Finset.ext
    intro i
    rw [List.mem_toFinset, same]
  rw [← whole, List.toFinset_card_of_nodup nodup]

/-- Only a link that succeeds changes the registry. -/
theorem Coherent.registry_effect (coherent : s.Coherent) (effect : Effect s t) :
    (t.host.registry = s.host.registry ∧ t.links = s.links) ∨
    ∃ i f, t.host.registry = s.host.registry.set i f ∧ t.links = (i, f) :: s.links := by
  cases effect with
  | used host links => exact .inl ⟨host.registry coherent.trampolined, links⟩
  | loaded gained host links => exact .inl ⟨Host.registry_of_gained gained, links⟩
  | linked linked links =>
    obtain ⟨_, _, host⟩ := Host.link_ok linked
    refine .inr ⟨_, _, ?_, links⟩
    rw [host]
    rfl

theorem Reachable.registry_eq (reached : s.Reachable) : s.host.registry = .ofLinks s.links := by
  induction reached with
  | new created steps =>
    rw [Host.new_ok created]
    rfl
  | @perform before reached op allowed ih =>
    rcases reached.coherent.registry_effect (effect_perform before op) with ⟨same, links⟩ | ⟨i, f, set, links⟩
    · rw [same, links, ih]
    · rw [set, links, ih, Registry.ofLinks]

theorem Reachable.mem_names (reached : s.Reachable) : i ∈ s.host.registry.names ↔ i ∈ s.linkedNames := by
  rw [reached.registry_eq, Registry.mem_names_ofLinks, linkedNames, List.mem_toFinset]

theorem Reachable.nodup_names (reached : s.Reachable) : s.host.registry.names.Nodup := by
  rw [reached.registry_eq]
  exact Registry.nodup_names_ofLinks s.links

/-- A key is for good. -/
theorem Leads.key? (leads : s.Leads t) (reached : s.Reachable) (known : s.host.registry.key? i = some key) :
    t.host.registry.key? i = some key := by
  induction leads with
  | refl => exact known
  | @perform t leads op allowed ih =>
    have coherent := (leads.reachable reached).coherent
    rcases coherent.registry_effect (effect_perform t op) with ⟨same, _⟩ | ⟨j, f, set, _⟩
    · rw [same]
      exact ih
    · rw [set]
      exact Registry.key?_set_of_some ih j f

section Slots

variable {slot slot' : ImportSlot (Linked σ)} {target target' : Target (Linked σ)}

/-- The context of a slot stands for the key of its own import. -/
theorem Coherent.context (coherent : s.Coherent) (here : s.host.store.LinkedAt place slot target) :
    ∃ key, s.host.registry.key? slot.importName = some key ∧ target.context = Registry.contextOfKey key := by
  obtain ⟨key, _, known, _, _, rfl⟩ := (coherent.backed place slot target here.found here.linked).backed
  exact ⟨key, known, rfl⟩

/-- Of all slots of an import only the first can have a target. -/
theorem Coherent.place_eq (coherent : s.Coherent) (here : s.host.store.LinkedAt place slot target)
    (there : s.host.store.LinkedAt place' slot' target') (same : slot.importName = slot'.importName) :
    place = place' := by
  have first := (coherent.backed place slot target here.found here.linked).first
  have first' := (coherent.backed place' slot' target' there.found there.linked).first
  rw [same, first'] at first
  exact (Option.some.inj first).symm

theorem Coherent.place_eq_of_context (coherent : s.Coherent) (here : s.host.store.LinkedAt place slot target)
    (there : s.host.store.LinkedAt place' slot' target') (same : target.context = target'.context) : place = place' := by
  obtain ⟨key, known, context⟩ := coherent.context here
  obtain ⟨key', known', context'⟩ := coherent.context there
  rw [context, context'] at same
  cases Nat.succ.inj same
  have named := (Registry.name_of_key? known).symm.trans (Registry.name_of_key? known')
  exact coherent.place_eq here there (Option.some.inj named)

end Slots

theorem Coherent.nodup_linkedSlots (coherent : s.Coherent) :
    (s.host.store.linkedSlots.map ImportSlot.importName).Nodup := by
  rw [List.Nodup, List.pairwise_map, Store.linkedSlots, List.pairwise_filter, List.pairwise_iff_getElem]
  intro place place' inside inside' before linked linked' same
  obtain ⟨target, linked⟩ := Option.isSome_iff_exists.mp linked
  obtain ⟨target', linked'⟩ := Option.isSome_iff_exists.mp linked'
  have here : s.host.store.LinkedAt place _ target := ⟨List.getElem?_eq_getElem inside, linked⟩
  have there : s.host.store.LinkedAt place' _ target' := ⟨List.getElem?_eq_getElem inside', linked'⟩
  exact Nat.ne_of_lt before (coherent.place_eq here there same)

/-- The slots with targets are those of the imports that were linked. -/
theorem Reachable.mem_linkedSlots (reached : s.Reachable) :
    i ∈ s.host.store.linkedSlots.map ImportSlot.importName ↔ i ∈ s.linkedNames := by
  simp only [List.mem_map, Store.linkedSlots, List.mem_filter]
  constructor
  · rintro ⟨slot, ⟨among, linked⟩, rfl⟩
    obtain ⟨place, found⟩ := List.mem_iff_getElem?.mp among
    obtain ⟨target, linked⟩ := Option.isSome_iff_exists.mp linked
    obtain ⟨key, known, _⟩ := reached.coherent.context ⟨found, linked⟩
    exact reached.mem_names.mp (List.mem_of_getElem? (Registry.name_of_key? known))
  · intro linked
    obtain ⟨f, link⟩ := mem_linkedNames.mp linked
    obtain ⟨place, slot, first, found, answered⟩ := reached.answers i f link
    obtain ⟨inside, named, _⟩ := List.findIdx?_eq_some_iff_getElem.mp first
    cases (List.getElem?_eq_getElem inside).symm.trans found
    exact ⟨_, ⟨List.mem_of_getElem? found, answered⟩, beq_iff_eq.mp named⟩

/-- How the keys of a host and its links go together. -/
structure Keyed (s : Session σ) : Prop where
  known : ∀ i, (s.host.registry.key? i).isSome = true ↔ i ∈ s.linkedNames
  /-- The imports that were linked are numbered from zero on. -/
  numbering : Set.BijOn s.host.registry.keyFor s.linkedNames (Set.Iio s.host.registry.size)
  /-- Behind each key is the function that was linked to its import last. -/
  functions : ∀ key < s.host.registry.size, ∃ i f, s.host.registry.key? i = some key ∧
    s.host.registry.get? key = some f ∧ s.latest i = some f
  /-- The registry is what comes of links that first take a key and then put their function there. -/
  tables : s.host.registry.Stands (.ofLinks s.links)
  size : s.host.registry.size = s.linkedNames.card
  slots : s.host.store.linkedSlots.length = s.linkedNames.card
  described : s.host.describe = "Runtime \x7b id: " ++ toString s.host.id ++ ", stack_size: " ++
    toString s.host.stackSize ++ ", modules: " ++ toString s.host.binaries.length ++ ", linked_functions: " ++
    toString s.linkedNames.card ++ " \x7d"
  contexts : ∀ place slot target, s.host.store.LinkedAt place slot target → target.context ≠ 0 ∧
    ∃ key, Registry.keyOfContext? target.context = some key ∧ s.host.registry.key? slot.importName = some key
  apart : ∀ place slot target place' slot' target', s.host.store.LinkedAt place slot target →
    s.host.store.LinkedAt place' slot' target' → place ≠ place' → target.context ≠ target'.context

theorem Reachable.keyed (reached : s.Reachable) : s.Keyed := by
  have coherent := reached.coherent
  have nodup := reached.nodup_names
  have size : s.host.registry.size = s.linkedNames.card := by
    rw [← Registry.length_names]
    exact length_eq_card nodup fun _ => reached.mem_names
  constructor
  case known =>
    intro i
    rw [Registry.isSome_key?_iff, reached.mem_names]
  case numbering =>
    have names : {i | i ∈ s.host.registry.names} = (s.linkedNames : Set ImportName) := by
      apply Set.ext
      intro i
      exact reached.mem_names
    rw [← names]
    exact Registry.bijOn_keyFor nodup
  case functions =>
    intro key inside
    rw [← Registry.length_names] at inside
    have here := List.getElem?_eq_getElem inside
    have known := Registry.key?_of_name nodup here
    obtain ⟨f, got⟩ := Registry.exists_get? (Registry.key_lt known)
    refine ⟨_, f, known, got, ?_⟩
    rw [← coherent.latest, Registry.find?, known, Option.bind_some, got]
  case tables =>
    rw [reached.registry_eq]
    exact Registry.stands_ofLinks s.links
  case size => exact size
  case slots =>
    rw [← length_eq_card coherent.nodup_linkedSlots fun _ => reached.mem_linkedSlots, List.length_map]
  case described =>
    rw [← size]
    rfl
  case contexts =>
    intro place slot target here
    obtain ⟨key, known, context⟩ := coherent.context here
    rw [context]
    exact ⟨Nat.succ_ne_zero key, key, rfl, known⟩
  case apart =>
    intro place slot target place' slot' target' here there differ same
    exact differ (coherent.place_eq_of_context here there same)

/-- The keys of linked functions. The imports that were ever linked with success are numbered by their keys without gaps, and
each key has a function. The number of keys, which is also the one that the host says, is that of these imports and that of
the slots with targets; every such slot has a context of its own, which is not zero and stands for the key of its import. A
relink gives out no key, and a key once given out stays with its import. -/
theorem keys_number_links (reached : s.Reachable) :
    s.Keyed ∧
    (∀ m ns name f after, s.host.link m ns name f = .ok after → ⟨m.index, ns, name⟩ ∈ s.linkedNames →
      after.registry.key? = s.host.registry.key? ∧ after.registry.size = s.host.registry.size) ∧
    ∀ t, s.Leads t → t.Keyed ∧
      ∀ i key, s.host.registry.key? i = some key → t.host.registry.key? i = some key := by
  refine ⟨reached.keyed, ?_, ?_⟩
  · intro m ns name f after linked again
    obtain ⟨_, _, rfl⟩ := Host.link_ok linked
    have known := (reached.keyed.known _).mpr again
    exact ⟨Registry.key?_set_known known f, (Registry.size_set _ _ f).trans (if_pos known)⟩
  · intro t leads
    exact ⟨(leads.reachable reached).keyed, fun i key => leads.key? reached⟩

end Session

namespace Swapped

/-- Between the loads of the two modules another fails that had its slot already. The second module is linked first. -/
def operations : List (Operation Nat) :=
  [.parseAndLoad Relay.binary, .parseAndLoad Relay.unsupported, .parseAndLoad Relay.binary,
    .link ⟨0, 1⟩ "e" "f" (Relay.counting 1), .link ⟨0, 0⟩ "e" "f" (Relay.counting 2)]

def session : Session Nat := operations.foldl Session.perform Sample.start

theorem reachable : session.Reachable := by
  have loaded := Sample.reachable_start.perform (.parseAndLoad Relay.binary) trivial
  have failed := loaded.perform (.parseAndLoad Relay.unsupported) trivial
  have second := failed.perform (.parseAndLoad Relay.binary) trivial
  have linked := second.perform (.link ⟨0, 1⟩ "e" "f" (Relay.counting 1)) trivial
  exact linked.perform (.link ⟨0, 0⟩ "e" "f" (Relay.counting 2)) trivial

theorem names : session.linkedNames = {⟨0, "e", "f"⟩, ⟨1, "e", "f"⟩} := by decide +kernel

theorem keys : session.host.registry.names = [⟨1, "e", "f"⟩, ⟨0, "e", "f"⟩] := by decide +kernel

theorem relinked : ∃ after, session.host.link ⟨0, 1⟩ "e" "f" (Relay.counting 3) = .ok after := by
  have succeeds : (session.host.link ⟨0, 1⟩ "e" "f" (Relay.counting 3)).isOk = true := by decide +kernel
  cases answered : session.host.link ⟨0, 1⟩ "e" "f" (Relay.counting 3) with
  | error e =>
    rw [answered] at succeeds
    cases succeeds
  | ok after => exact ⟨after, rfl⟩

end Swapped

/-- The keys follow the links and not the slots. They are kept by a relink and by whatever comes after it. -/
theorem keys_number_links_swapped :
    Swapped.session.host.registry.size = 2 ∧ Swapped.session.host.store.linkedSlots.length = 2 ∧
    (∀ target, Swapped.session.host.store.imports[0]?.bind (·.target) = some target →
      Registry.keyOfContext? target.context = some 1) ∧
    (∃ after, Swapped.session.host.link ⟨0, 1⟩ "e" "f" (Relay.counting 3) = .ok after ∧ after.registry.size = 2 ∧
      after.registry.key? ⟨1, "e", "f"⟩ = some 0) ∧
    ∀ t, Swapped.session.Leads t → t.host.registry.key? ⟨1, "e", "f"⟩ = some 0 := by
  obtain ⟨keyed, relinks, stays⟩ := Session.keys_number_links Swapped.reachable
  have second : Swapped.session.host.registry.key? ⟨1, "e", "f"⟩ = some 0 := by
    rw [Registry.key?_eq, Swapped.keys]
    decide
  have first : Swapped.session.host.registry.key? ⟨0, "e", "f"⟩ = some 1 := by
    rw [Registry.key?_eq, Swapped.keys]
    decide
  have count : Swapped.session.linkedNames.card = 2 := by
    rw [Swapped.names]
    decide
  refine ⟨keyed.size.trans count, keyed.slots.trans count, ?_, ?_, fun t leads => (stays t leads).2 _ _ second⟩
  · intro target linked
    obtain ⟨slot, found, linked⟩ := Option.bind_eq_some_iff.mp linked
    have own : Swapped.session.host.store.imports[0]?.map ImportSlot.importName = some ⟨0, "e", "f"⟩ := by decide +kernel
    rw [found, Option.map_some] at own
    obtain ⟨_, key, context, known⟩ := keyed.contexts 0 slot target ⟨found, linked⟩
    rw [Option.some.inj own, first] at known
    rw [context, ← known]
  · have again : (⟨1, "e", "f"⟩ : ImportName) ∈ Swapped.session.linkedNames := by
      rw [Swapped.names]
      decide
    obtain ⟨after, relinked⟩ := Swapped.relinked
    obtain ⟨keys, size⟩ := relinks _ _ _ _ after relinked again
    exact ⟨after, relinked, size.trans (keyed.size.trans count), (congrFun keys _).trans second⟩

end WasmBinding
