import WasmBinding.Proofs.Host.MemoryGrowth
import WasmBinding.Proofs.Store.DeferredSize

/-! Sizes asked for in advance, over time. A size can be asked for as long as there is no memory, never one smaller than that
asked for before, and is forgotten once there is one. Hosts load and resize as their stores do. -/

namespace WasmBinding

namespace Store

variable {σ : Type} {s t u : Store σ}

theorem resize_ok_iff (unshared : s.memory = none) :
    s.resize pages = .ok t ↔ (∀ least, s.pending = some least → least ≤ pages) ∧ t = s.reserve pages := by
  by_cases allowed : ∀ least, s.pending = some least → least ≤ pages
  · rw [resize_reserve unshared allowed]
    exact ⟨fun made => ⟨allowed, (Except.ok.inj made).symm⟩, fun ⟨_, made⟩ => made ▸ rfl⟩
  · obtain ⟨least, asked⟩ := Classical.not_forall.mp allowed
    obtain ⟨asked, smaller⟩ := Classical.not_imp.mp asked
    rw [resize_shrinks unshared asked (Nat.lt_of_not_le smaller)]
    simp [allowed]

/-- No size is kept for a memory that is there. -/
def Pledged (s : Store σ) : Prop := s.pending ≠ none → s.memory = none

/-- A store that comes of another asks for at least as much, unless it has a memory. -/
structure Awaits (s t : Store σ) : Prop where
  pledged : s.Pledged → t.Pledged
  unshared : t.memory = none → s.memory = none
  rises : t.memory = none → ∀ least, s.pending = some least → ∃ more, t.pending = some more ∧ least ≤ more

namespace Awaits

theorem of_same (memory : t.memory = s.memory) (pending : t.pending = s.pending) : Awaits s t where
  pledged pledged := by
    rw [Pledged, memory, pending]
    exact pledged
  unshared none := memory ▸ none
  rises _ least asked := ⟨least, pending.trans asked, Nat.le_refl least⟩

theorem refl (s : Store σ) : Awaits s s := .of_same rfl rfl

theorem trans (first : Awaits s t) (second : Awaits t u) : Awaits s u where
  pledged pledged := second.pledged (first.pledged pledged)
  unshared none := first.unshared (second.unshared none)
  rises none least asked := by
    obtain ⟨mid, asked, less⟩ := first.rises (second.unshared none) least asked
    obtain ⟨more, asked, less'⟩ := second.rises none mid asked
    exact ⟨more, asked, Nat.le_trans less less'⟩

/-- A load keeps the size that was asked for until there is a memory. -/
theorem load (h : s.load p = (t, result)) : Awaits s t := by
  cases result with
  | error fault =>
    rw [(load_error h).1]
    exact .of_same rfl rfl
  | ok number =>
    obtain ⟨_, _, gained⟩ := load_ok h
    obtain ⟨after, m, instantiated, rfl⟩ := load_enrolls h
    obtain ⟨_, loading, _⟩ := instantiate_loading gained.free instantiated
    have asked : after.pending = s.pending := by rw [loading.rest]
    have unshared (absent : after.memory = none) : s.memory = none := by
      cases had : s.memory with
      | none => rfl
      | some place => exact (loading.memory place had).symm.trans absent
    constructor
    · intro _ kept
      cases shared : after.memory with
      | none => exact shared
      | some place => exact absurd (by simp [enroll, shared]) kept
    · exact unshared
    · intro absent least before
      have absent : after.memory = none := absent
      exact ⟨least, by simp [enroll, absent, asked, before], Nat.le_refl least⟩

theorem resize (h : s.resize pages = .ok t) : Awaits s t := by
  cases shared : s.memory with
  | none =>
    obtain ⟨allowed, rfl⟩ := (resize_ok_iff shared).mp h
    exact ⟨fun _ _ => shared, fun _ => shared, fun _ least asked => ⟨pages, rfl, allowed least asked⟩⟩
  | some place =>
    rcases resize_cases h with rfl | ⟨none, _⟩ | ⟨_, _, _, _, _, _, rfl⟩
    · exact .refl _
    · rw [shared] at none
      contradiction
    · exact .of_same rfl rfl

theorem call (h : s.call f args = (t, result)) : Awaits s t := by
  rcases call_cases h with ⟨_, rfl, _⟩ | ⟨_, _, _, _, ran, _, rfl⟩
  · exact .of_same rfl rfl
  · rcases run_cases ran with ⟨rfl, _⟩ | ⟨_, _, rfl⟩
    · exact .of_same rfl rfl
    · exact .of_same rfl rfl

/-- As long as there is no memory, nobody asks with success for less than before. -/
theorem sizes_rise (awaits : Awaits t u) (unshared : u.memory = none) (first : s.resize a = .ok t)
    (second : u.resize b = .ok v) : a ≤ b := by
  have before := (Awaits.resize first).unshared (awaits.unshared unshared)
  obtain ⟨_, rfl⟩ := (resize_ok_iff before).mp first
  obtain ⟨more, asked, less⟩ := awaits.rises unshared a rfl
  obtain ⟨allowed, _⟩ := (resize_ok_iff unshared).mp second
  exact Nat.le_trans less (allowed more asked)

end Awaits

theorem Use.awaits (use : s.Use calls t) : s.Awaits t := by
  cases use with
  | idle => exact .refl s
  | load _ loaded => exact .load loaded
  | call called => exact .call called
  | setGlobal set =>
    obtain ⟨_, _, _, _, rfl⟩ := setGlobal_ok set
    exact .of_same rfl rfl
  | resize resized => exact .resize resized
  | setTarget | setMemory | setHost => exact .of_same rfl rfl

theorem Used.awaits (used : s.Used t) : s.Awaits t := by
  induction used with
  | refl => exact .refl s
  | use _ next ih => exact ih.trans next.awaits

end Store

namespace Service

variable {σ : Type} {v w : Service σ}

theorem Leads.awaits {may : Service σ → Request σ → Prop} (leads : v.Leads may w) : v.store.Awaits w.store := by
  induction leads with
  | refl => exact .refl _
  | serve _ r _ ih => exact ih.trans (use_serve _ r).awaits

theorem Reachable.pledged (reached : v.Reachable) : v.store.Pledged := by
  induction reached with
  | new created steps =>
    rw [Store.new_ok created]
    exact fun _ => rfl
  | @serve before _ r _ ih => exact (use_serve before r).awaits.pledged ih

end Service

namespace Session

variable {σ : Type} {s t : Session σ}

theorem Leads.awaits (leads : s.Leads t) : s.host.store.Awaits t.host.store := by
  induction leads with
  | refl => exact .refl _
  | perform _ op _ ih => exact ih.trans (used_perform _ op).awaits

theorem Reachable.pledged (reached : s.Reachable) : s.host.store.Pledged := by
  induction reached with
  | new created steps =>
    rw [Host.new_ok created]
    exact fun _ => rfl
  | @perform before _ op _ ih => exact (used_perform before op).awaits.pledged ih

end Session

namespace Host

variable {σ : Type} {h : Host σ}

/-- The host when its store has loaded a module. -/
def enroll (h : Host σ) (p : ParsedModule) (loaded : Store (Linked σ) × Nat) : Host σ × ModuleRef :=
  ({ h with store := loaded.1, binaries := h.binaries ++ [p.bytes] }, ⟨h.id, loaded.2⟩)

theorem settled_load (h : Host σ) (p : ParsedModule) :
    settled (h.load p) =
      if !p.environment.same h.environment then .error .mismatchedEnvironments
      else (orError (settled (h.store.load p))).map (h.enroll p) := by
  unfold load
  split
  · rfl
  · cases h.store.load p with
    | mk store result => cases result <;> rfl

theorem loadThenResize_eq (own : p.environment.same h.environment = true) (pages : Nat) :
    loadThenResize resize load h p pages =
      (orError (loadThenResize Store.resize Store.load h.store p pages)).map (h.enroll p) := by
  rw [loadThenResize, settled_load, loadThenResize, own]
  cases settled (h.store.load p) with
  | error fault => rfl
  | ok both =>
    obtain ⟨t, number⟩ := both
    change (resize _ pages >>= _) = _
    simp only [resize, Bind.bind, Except.bind]
    cases t.resize pages <;> rfl

theorem resizeThenLoad_eq (own : p.environment.same h.environment = true) (pages : Nat) :
    resizeThenLoad resize load h pages p =
      (orError (resizeThenLoad Store.resize Store.load h.store pages p)).map (h.enroll p) := by
  cases resized : h.store.resize pages with
  | error fault => simp [resizeThenLoad, resize, resized, orError, Bind.bind, Except.bind, Except.map]
  | ok t =>
    have resized' : h.resize pages = .ok { h with store := t } := by
      rw [resize, resized]
      rfl
    have same : p.environment.same { h with store := t }.environment = true := by
      rw [environment, (Store.Continues.resize resized).environment]
      exact own
    rw [resizeThenLoad_of_ok resized', resizeThenLoad_of_ok resized, settled_load, same]
    rfl

theorem agreesOnSize (h : Host σ) : AgreesOnSize resize load h (h.store.memory = none ∧ h.store.pending = none) where
  defining unasked p pages imports defines := by
    by_cases own : p.environment.same h.environment = true
    · rw [loadThenResize_eq own, resizeThenLoad_eq own, h.store.agreesOnSize.defining unasked p pages imports defines]
    · -- A module of another environment is refused whether a size was asked for or not.
      have resized : h.resize pages = .ok { h with store := h.store.reserve pages } := by
        rw [resize, Store.resize_reserve unasked.1 (by simp [unasked.2])]
        rfl
      rw [resizeThenLoad_of_ok resized, loadThenResize, settled_load, settled_load]
      simp only [Bool.not_eq_true] at own
      have own' : p.environment.same { h with store := h.store.reserve pages }.environment = false := own
      rw [own, own']
      rfl
  importing p pages r imports undefined idle done := by
    by_cases own : p.environment.same h.environment = true
    · rw [loadThenResize_eq own] at done
      rw [resizeThenLoad_eq own]
      cases stored : loadThenResize Store.resize Store.load h.store p pages with
      | error fault =>
        rw [stored] at done
        cases done
      | ok both =>
        rw [h.store.agreesOnSize.importing p pages both imports undefined idle stored, ← stored]
        exact done
    · obtain ⟨after, m⟩ := r
      obtain ⟨mid, loaded, _⟩ := loadThenResize_eq_ok.mp done
      have loaded := settled_eq_ok.mpr loaded
      rw [settled_load] at loaded
      simp only [Bool.not_eq_true] at own
      rw [own] at loaded
      cases loaded

theorem resize_reserve (unshared : h.store.memory = none)
    (least : ∀ earlier, h.store.pending = some earlier → earlier ≤ pages) :
    h.resize pages = .ok { h with store := h.store.reserve pages } := by
  rw [resize, Store.resize_reserve unshared least]
  rfl

theorem resize_shrinks (unshared : h.store.memory = none) (asked : h.store.pending = some earlier)
    (smaller : pages < earlier) : h.resize pages = .error (.ofFault (.shrink earlier pages)) := by
  rw [resize, Store.resize_shrinks unshared asked smaller]
  rfl

end Host

/-- How sizes can be asked for while there is no memory: any but one smaller than that asked for before. -/
structure Asks {ε τ : Type} (resize : Nat → Except ε τ) (asked : Option Nat) (reserved : Nat → τ) : Prop where
  accepts : ∀ pages, (∀ least, asked = some least → least ≤ pages) → resize pages = .ok (reserved pages)
  refuses : ∀ pages least, asked = some least → pages < least → ∃ e, resize pages = .error e

/-- In every run of a store, and of a host, it makes no difference whether a size is asked for before a module is loaded or
the memory is resized afterwards. Sizes are asked for only while there is no memory, they never get smaller, and asking for
a smaller one changes nothing. -/
theorem deferred_resize_agrees {σ : Type} :
    (∀ v : Service σ, v.Reachable →
      AgreesOnSize Store.resize Store.load v.store (v.store.memory = none ∧ v.store.pending = none) ∧
      (v.store.pending ≠ none → v.store.memory = none) ∧
      (v.store.memory = none → Asks v.store.resize v.store.pending fun pages => v.store.reserve pages) ∧
      (∀ pages fault, v.store.resize pages = .error fault → v.serve (.resize pages) = v) ∧
      ∀ w a b t u, v.store.resize a = .ok t → (v.serve (.resize a)).Leads Service.Allows w → w.store.memory = none →
        w.store.resize b = .ok u → a ≤ b) ∧
    ∀ s : Session σ, s.Reachable →
      AgreesOnSize Host.resize Host.load s.host (s.host.store.memory = none ∧ s.host.store.pending = none) ∧
      (s.host.store.pending ≠ none → s.host.store.memory = none) ∧
      (s.host.store.memory = none →
        Asks s.host.resize s.host.store.pending fun pages => { s.host with store := s.host.store.reserve pages }) ∧
      (∀ pages e, s.host.resize pages = .error e → s.perform (.resize pages) = s) ∧
      ∀ t a b h h', s.host.resize a = .ok h → (s.perform (.resize a)).Leads t → t.host.store.memory = none →
        t.host.resize b = .ok h' → a ≤ b := by
  constructor
  · intro v reached
    refine ⟨v.store.agreesOnSize, reached.pledged, fun unshared => ⟨?_, ?_⟩, fun pages fault failed => ?_, ?_⟩
    · exact fun pages least => Store.resize_reserve unshared least
    · exact fun pages least asked smaller => ⟨_, Store.resize_shrinks unshared asked smaller⟩
    · rw [Service.serve, failed, Service.noteStore]
    · intro w a b t u first leads unshared second
      rw [Service.serve, first, Service.noteStore] at leads
      exact leads.awaits.sizes_rise unshared first second
  · intro s reached
    refine ⟨s.host.agreesOnSize, reached.pledged, fun unshared => ⟨?_, ?_⟩, fun pages e failed => ?_, ?_⟩
    · exact fun pages least => Host.resize_reserve unshared least
    · exact fun pages least asked smaller => ⟨_, Host.resize_shrinks unshared asked smaller⟩
    · rw [Session.perform, failed]
    · intro t a b h h' first leads unshared second
      simp only [Session.perform, first] at leads
      obtain ⟨_, stored, rfl⟩ := Host.resize_ok first
      obtain ⟨_, stored', _⟩ := Host.resize_ok second
      exact leads.awaits.sizes_rise unshared stored stored'

/-- Imports a memory of one page and at most three, and writes a byte into it. -/
def Pump.borrower : Wasm.Bytes :=
  [0x00, 0x61, 0x73, 0x6d, 0x01, 0x00, 0x00, 0x00,
    0x02, 0x09, 0x01, 0x01, 0x65, 0x01, 0x6d, 0x02, 0x01, 0x01, 0x03,
    0x0b, 0x07, 0x01, 0x00, 0x41, 0x00, 0x0b, 0x01, 0x07]

def Pump.sizes (e : Except Fault (Store Nat × Nat)) : Option (Option Nat) :=
  e.toOption.map fun r => r.1.memory?.map Memory.size

theorem Pump.sized :
    (ParsedModule.parse Sample.environment Pump.binary).toOption.map (fun p =>
      (p.module.importedMemories.length, p.module.definesMemory,
        [1, 2, 3, 4].map fun pages => sizes (loadThenResize Store.resize Store.load Sample.service.store p pages))) =
      some (0, true, [some (some 65536), some (some 131072), some (some 196608), none]) := by decide +kernel

theorem Pump.borrower_sized :
    (ParsedModule.parse Sample.environment Pump.borrower).toOption.map (fun p =>
      (p.module.importedMemories.length, p.module.definesMemory, p.module.start,
        sizes (loadThenResize Store.resize Store.load Sample.service.store p 2))) =
      some (1, false, none, some (some 131072)) := by decide +kernel

theorem deferred_resize_agrees_pump :
    (∃ p, ParsedModule.parse Sample.environment Pump.binary = .ok p ∧
      (∀ pages, resizeThenLoad Store.resize Store.load Sample.service.store pages p =
        loadThenResize Store.resize Store.load Sample.service.store p pages) ∧
      Pump.sizes (resizeThenLoad Store.resize Store.load Sample.service.store 3 p) = some (some 196608) ∧
      Pump.sizes (resizeThenLoad Store.resize Store.load Sample.service.store 4 p) = none ∧
      ∀ pages, resizeThenLoad Host.resize Host.load Sample.start.host pages p =
        loadThenResize Host.resize Host.load Sample.start.host p pages) ∧
    (∃ p r, ParsedModule.parse Sample.environment Pump.borrower = .ok p ∧
      resizeThenLoad Store.resize Store.load Sample.service.store 2 p = .ok r ∧
      r.1.memory?.map Memory.size = some 131072) ∧
    ∃ fault, (Sample.service.serve (.resize 3)).store.resize 2 = .error fault ∧
      (Sample.service.serve (.resize 3)).serve (.resize 2) = Sample.service.serve (.resize 3) := by
  obtain ⟨agrees, _, _, _, _⟩ := deferred_resize_agrees.1 Sample.service Sample.reachable_service
  obtain ⟨agrees', _, _, _, _⟩ := deferred_resize_agrees.2 Sample.start Sample.reachable_start
  have reached := Sample.reachable_service.serve (.resize 3) trivial
  obtain ⟨_, _, asks, unchanged, _⟩ := deferred_resize_agrees.1 _ reached
  refine ⟨?_, ?_, ?_⟩
  · obtain ⟨p, parsed, facts⟩ := Option.map_eq_some_iff.mp Pump.sized
    simp only [Prod.mk.injEq, List.length_eq_zero_iff, List.map_cons, List.map_nil, List.cons.injEq] at facts
    obtain ⟨imports, defines, _, _, three, four, _⟩ := facts
    have same := fun pages => agrees.defining ⟨rfl, rfl⟩ p pages imports defines
    refine ⟨p, ok_of_toOption parsed, same, ?_, ?_, fun pages => agrees'.defining ⟨rfl, rfl⟩ p pages imports defines⟩
    · rw [same, three]
    · rw [same, four]
  · obtain ⟨p, parsed, facts⟩ := Option.map_eq_some_iff.mp Pump.borrower_sized
    simp only [Prod.mk.injEq, Pump.sizes, Option.map_eq_some_iff] at facts
    obtain ⟨count, undefined, idle, r, stored, size⟩ := facts
    have imports : p.module.importedMemories ≠ [] := List.ne_nil_of_length_eq_add_one count
    have stored := ok_of_toOption stored
    have deferred := agrees.importing p 2 r imports undefined idle stored
    exact ⟨p, r, ok_of_toOption parsed, deferred, Option.map_eq_some_iff.mpr size⟩
  · obtain ⟨fault, refused⟩ := (asks rfl).refuses 2 3 rfl (by decide)
    exact ⟨fault, refused, unchanged 2 fault refused⟩

end WasmBinding
