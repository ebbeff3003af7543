import WasmBinding.Proofs.Store.Growth

/-! Stores in service. Whatever an embedder can ask of a store is one of a few requests, and each of them makes one use of
the store: it runs code, loads a module, gives a slot a target, or changes what is stored. -/

namespace WasmBinding

open Wasm (Bytes)

namespace Store

variable {σ : Type}

/-- One use of a store, which is a call or not. -/
inductive Use (s : Store σ) : (calls : Bool) → Store σ → Prop
  | idle (calls : Bool) : Use s calls s
  | load {p : ParsedModule} {t : Store σ} {result : Except Fault Nat}
      (parsed : ∃ e bytes, ParsedModule.parse e bytes = .ok p) (loaded : s.load p = (t, result)) : Use s false t
  | setTarget (slot : Nat) (target : Target σ) : Use s false (s.setTarget slot target)
  | call {t : Store σ} (called : s.call f args = (t, result)) : Use s true t
  | setGlobal {t : Store σ} (set : s.setGlobal g tag slot = .ok t) : Use s false t
  /-- The contents of the memory can be changed, but not its size. -/
  | setMemory (found : s.memory? = some m) (after : Memory) (size : after.size = m.size) : Use s false (s.setMemory after)
  | resize {t : Store σ} (resized : s.resize pages = .ok t) : Use s false t
  | setHost (host : σ) : Use s false { s with host := host }

/-- A store that comes of another by any uses. -/
inductive Used (s : Store σ) : Store σ → Prop
  | refl : Used s s
  | use {t u : Store σ} (used : Used s t) (next : t.Use calls u) : Used s u

variable {s t u : Store σ}

theorem Continues.load (failed : s.load p = (t, .error fault)) : Continues s t := by
  obtain ⟨same, size, _⟩ := load_error failed
  rw [same]
  exact ⟨rfl, rfl, rfl, rfl, rfl, size, rfl⟩

namespace Use

theorem advances (use : s.Use calls t) : s.Advances t := by
  cases use with
  | idle => exact .refl s
  | load _ loaded => exact .load loaded
  | call called => exact .call called
  | setGlobal set => exact .setGlobal set
  | setMemory found _ size => exact .setMemory found size
  | resize resized => exact .resize resized
  | setTarget | setHost => exact ⟨fun _ shared => shared, .refl _⟩

/-- A use leaves what is loaded and linked, or adds a module that was parsed, or gives one slot another target. -/
theorem cases (use : s.Use calls t) :
    Continues s t ∨ (∃ (p : ParsedModule) (m : LoadedModule),
        (∃ e bytes, ParsedModule.parse e bytes = .ok p) ∧ Gained s t p.module m) ∨
      ∃ slot target, t = s.setTarget slot target := by
  cases use with
  | idle => exact .inl (.refl s)
  | @load p _ result parsed loaded =>
    cases result with
    | error fault => exact .inl (.load loaded)
    | ok number =>
      obtain ⟨_, m, gained⟩ := load_ok loaded
      exact .inr (.inl ⟨p, m, parsed, gained⟩)
  | setTarget slot target => exact .inr (.inr ⟨slot, target, rfl⟩)
  | call called => exact .inl (.call called)
  | setGlobal set => exact .inl (.setGlobal set)
  | setMemory _ after _ => exact .inl (.setMemory s after)
  | resize resized => exact .inl (.resize resized)
  | setHost host => exact .inl (.setHost s host)

/-- No use takes a module away, or gives it other code. -/
theorem keeps (use : s.Use calls t) : s.Keeps t := by
  rcases use.cases with continues | ⟨_, _, _, gained⟩ | ⟨slot, target, rfl⟩
  · exact continues.keeps
  · exact gained.keeps
  · exact fun k m found => ⟨m, found, rfl⟩

theorem parsed (use : s.Use calls t) (parsed : s.Parsed) : t.Parsed := by
  rcases use.cases with continues | ⟨_, _, new, gained⟩ | ⟨slot, target, rfl⟩
  · exact parsed.continues continues
  · exact parsed.gained gained new
  · exact parsed

/-- What the latest call left for the caller stays until the next call. -/
theorem results (use : s.Use false t) : t.results = s.results := by
  cases use with
  | idle | setTarget | setHost | setMemory => rfl
  | @load p _ result _ loaded =>
    cases result with
    | error fault => rw [(load_error loaded).1]
    | ok number =>
      obtain ⟨_, _, gained⟩ := load_ok loaded
      rw [gained.rest]
  | setGlobal set =>
    obtain ⟨v, _, _, _, rfl⟩ := setGlobal_ok set
    rfl
  | resize resized =>
    rcases resize_cases resized with rfl | ⟨_, rfl⟩ | ⟨_, _, _, _, _, _, rfl⟩
    all_goals rfl

end Use

theorem Use.used (use : s.Use calls t) : s.Used t := .use .refl use

theorem Used.advances (used : s.Used t) : s.Advances t := by
  induction used with
  | refl => exact .refl s
  | use _ next ih => exact ih.trans next.advances

theorem new_ok {size : Nat} {number : Nat} {state : σ} (created : Store.new e size number state = .ok s) :
    s = { environment := e, stackSize := size, userData := number, host := state } := by
  unfold new at created
  split at created
  · contradiction
  · cases created
    rfl

theorem link_ok (linked : s.link module ns name signature target = .ok t) :
    ∃ slot, s.findImport module ns name signature = .ok slot ∧ t = s.setTarget slot target := by
  unfold link at linked
  cases found : s.findImport module ns name signature with
  | error fault =>
    rw [found] at linked
    cases linked
  | ok slot =>
    rw [found] at linked
    cases linked
    exact ⟨slot, rfl, rfl⟩

end Store

inductive Request (σ : Type) where
  /-- Parses a binary in an environment, which may be another, and loads it. -/
  | load (e : Environment) (bytes : Bytes)
  | findFunction (name : String)
  | findModuleFunction (module : Nat) (name : String)
  | findGlobal (module : Nat) (name : String)
  | findImport (module : Nat) (ns name signature : String)
  | setTarget (slot : Nat) (target : Target σ)
  | link (module : Nat) (ns name signature : String) (target : Target σ)
  | call (f : Function) (args : List Slot)
  | setGlobal (g : GlobalCell) (tag : ValueTag) (slot : Slot)
  | write (change : (m : Memory) → { after : Memory // after.size = m.size })
  | resize (pages : Nat)
  /-- Changes the state that the raw functions have in common with the embedder. -/
  | setHost (host : σ)

def Request.isCall {σ : Type} : Request σ → Bool
  | .call _ _ => true
  | _ => false

theorem Request.isCall_iff {σ : Type} {r : Request σ} : r.isCall = true ↔ ∃ f args, r = .call f args := by
  cases r <;> simp [isCall]

/-- A store with the handles that it has given out. -/
structure Service (σ : Type) where
  store : Store σ
  functions : List Function := []
  globals : List GlobalCell := []
  /-- The slots of imports that were found. -/
  slots : List Nat := []

namespace Service

variable {σ : Type} {u v w : Service σ}

/-- Handles are given out by lookups. -/
def Allows (v : Service σ) : Request σ → Prop
  | .setTarget slot _ => slot ∈ v.slots
  | .call f _ => f ∈ v.functions
  | .setGlobal g _ _ => g ∈ v.globals
  | _ => True

def noteFunction (v : Service σ) : Except Fault (Option Function) → Service σ
  | .ok (some f) => { v with functions := f :: v.functions }
  | _ => v

/-- A request that fails leaves the store as it was. -/
def noteStore (v : Service σ) : Except Fault (Store σ) → Service σ
  | .ok store => { v with store := store }
  | .error _ => v

def serve (v : Service σ) : Request σ → Service σ
  | .load e bytes =>
    match ParsedModule.parse e bytes with
    | .ok p => { v with store := (v.store.load p).1 }
    | .error _ => v
  | .findFunction name => v.noteFunction (v.store.findFunction name)
  | .findModuleFunction module name => v.noteFunction (v.store.findModuleFunction module name)
  | .findGlobal module name =>
    match v.store.findGlobal module name with
    | .ok (some g) => { v with globals := g :: v.globals }
    | _ => v
  | .findImport module ns name signature =>
    match v.store.findImport module ns name signature with
    | .ok slot => { v with slots := slot :: v.slots }
    | .error _ => v
  | .setTarget slot target => { v with store := v.store.setTarget slot target }
  | .link module ns name signature target => v.noteStore (v.store.link module ns name signature target)
  | .call f args => { v with store := (v.store.call f args).1 }
  | .setGlobal g tag slot => v.noteStore (v.store.setGlobal g tag slot)
  | .write change =>
    match v.store.memory? with
    | some m => { v with store := v.store.setMemory (change m).val }
    | none => v
  | .resize pages => v.noteStore (v.store.resize pages)
  | .setHost host => { v with store := { v.store with host := host } }

inductive Reachable : Service σ → Prop
  | new {made : Store σ} (created : Store.new e stackSize userData host = .ok made) (steps : Nat) :
    Reachable { store := { made with steps := steps } }
  | serve {before : Service σ} (reached : Reachable before) (r : Request σ) (allowed : before.Allows r) :
    Reachable (before.serve r)

/-- What comes of a service by requests of some kind. -/
inductive Leads (may : Service σ → Request σ → Prop) (v : Service σ) : Service σ → Prop
  | refl : Leads may v v
  | serve {w : Service σ} (leads : Leads may v w) (r : Request σ) (allowed : may w r) : Leads may v (w.serve r)

theorem Leads.ahead {may : Service σ → Request σ → Prop} (first : may v r) (leads : (v.serve r).Leads may w) :
    v.Leads may w := by
  induction leads with
  | refl => exact .serve .refl r first
  | serve _ r allowed ih => exact ih.serve r allowed

theorem Leads.reachable {may : Service σ → Request σ → Prop} (leads : v.Leads may w)
    (allowed : ∀ u r, may u r → u.Allows r) (reached : v.Reachable) : w.Reachable := by
  induction leads with
  | refl => exact reached
  | serve leads r may ih => exact ih.serve r (allowed _ r may)

theorem use_noteStore (v : Service σ) {result : Except Fault (Store σ)}
    (use : ∀ store, result = .ok store → v.store.Use calls store) : v.store.Use calls (v.noteStore result).store := by
  cases result with
  | error fault => exact .idle calls
  | ok store => exact use store rfl

@[simp] theorem store_noteFunction (v : Service σ) (found : Except Fault (Option Function)) :
    (v.noteFunction found).store = v.store := by
  unfold noteFunction
  split <;> rfl

theorem use_serve (v : Service σ) (r : Request σ) : v.store.Use r.isCall (v.serve r).store := by
  cases r with
  | load e bytes =>
    simp only [serve]
    split
    · rename_i parsed
      exact .load ⟨e, bytes, parsed⟩ rfl
    · exact .idle _
  | findFunction name =>
    rw [serve, store_noteFunction]
    exact .idle _
  | findModuleFunction module name =>
    rw [serve, store_noteFunction]
    exact .idle _
  | findGlobal module name =>
    simp only [serve]
    split <;> exact .idle _
  | findImport module ns name signature =>
    simp only [serve]
    split <;> exact .idle _
  | setTarget slot target => exact .setTarget slot target
  | link module ns name signature target =>
    refine use_noteStore v fun store linked => ?_
    obtain ⟨slot, _, rfl⟩ := Store.link_ok linked
    exact .setTarget slot target
  | call f args => exact .call rfl
  | setGlobal g tag slot => exact use_noteStore v fun store set => .setGlobal set
  | write change =>
    simp only [serve]
    split
    · rename_i m found
      exact .setMemory found _ (change m).property
    · exact .idle _
  | resize pages => exact use_noteStore v fun store resized => .resize resized
  | setHost host => exact .setHost host

theorem Leads.advances {may : Service σ → Request σ → Prop} (leads : v.Leads may w) : v.store.Advances w.store := by
  induction leads with
  | refl => exact .refl _
  | serve _ r _ ih => exact ih.trans (use_serve _ r).advances

theorem Reachable.whole (reached : v.Reachable) :
    ∀ (place : Nat) (m : Wasm.LinearMemory), v.store.memories[place]? = some m → m.Whole := by
  induction reached with
  | new created steps =>
    rw [Store.new_ok created]
    simp
  | @serve before _ r _ ih => exact (use_serve before r).advances.pool.whole ih

theorem mem_functions_serve {r : Request σ} (h : f ∈ (v.serve r).functions) :
    f ∈ v.functions ∨ v.store.Resolves f := by
  have noted {found : Except Fault (Option Function)} (looked : ∀ f, found = .ok (some f) → v.store.Resolves f)
      (h : f ∈ (v.noteFunction found).functions) : f ∈ v.functions ∨ v.store.Resolves f := by
    unfold noteFunction at h
    split at h
    · rcases List.mem_cons.mp h with rfl | old
      · exact .inr (looked f rfl)
      · exact .inl old
    · exact .inl h
  cases r with
  | findFunction name => exact noted (fun f => Store.resolves_of_findFunction) h
  | findModuleFunction module name => exact noted (fun f => Store.resolves_of_findModuleFunction) h
  | load | findGlobal | findImport | setTarget | link | call | setGlobal | write | resize | setHost =>
    refine .inl ?_
    simp only [serve, noteStore] at h
    repeat' split at h
    all_goals exact h

/-- The functions that were given out are functions of loaded modules. -/
theorem Reachable.offers (reached : v.Reachable) : ∀ f ∈ v.functions, ∃ m type, v.store.Offers f m type := by
  induction reached with
  | new created steps => simp
  | @serve before reached r allowed ih =>
    intro f among
    have keeps := (use_serve before r).keeps
    have offered : ∃ m type, before.store.Offers f m type := by
      rcases mem_functions_serve among with old | new
      · exact ih f old
      · exact new.offers
    obtain ⟨m, type, offers⟩ := offered
    obtain ⟨after, offers⟩ := keeps.offers offers
    exact ⟨after, type, offers⟩

end Service

namespace Sample

def service : Service Nat :=
  { store := { environment := ⟨0, {}⟩, stackSize := 1024, userData := 0, host := 0 } }

theorem reachable_service : service.Reachable := by
  have created : Store.new ⟨0, {}⟩ 1024 0 0 = .ok service.store := rfl
  exact .new created _

end Sample
end WasmBinding
