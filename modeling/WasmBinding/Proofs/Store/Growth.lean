import WasmBinding.Proofs.Store.SharedMemory

/-! How memories grow. Whatever is done with a store, its memories stay where they are, none gets smaller, and what is added
to one are whole pages of zeros. -/

namespace WasmBinding

open Wasm (Instance LinearMemory Value)

namespace Wasm

namespace LinearMemory

variable {old new : LinearMemory}

/-- The number of pages that the memory may grow to. -/
def limit (m : LinearMemory) : Nat := min (m.max.getD pageBound) pageBound

def Whole (m : LinearMemory) : Prop := pageSize ∣ m.bytes.size

theorem whole_ofLimits (l : Limits) : (ofLimits l).Whole := Nat.dvd_mul_left pageSize l.min

theorem Whole.size_eq (whole : old.Whole) : old.bytes.size = old.pages * pageSize :=
  (Nat.div_mul_cancel whole).symm

theorem GrowsTo.whole (grows : old.GrowsTo new) (whole : old.Whole) : new.Whole := by
  obtain ⟨_, count, size⟩ := grows
  rw [Whole, size]
  exact Nat.dvd_add whole (Nat.dvd_mul_left pageSize count)

theorem GrowsTo.size_le (grows : old.GrowsTo new) : old.bytes.size ≤ new.bytes.size := by
  obtain ⟨_, count, size⟩ := grows
  exact size ▸ Nat.le_add_right _ _

end LinearMemory

/-- A pool that has all memories of another, none of them smaller, and others whose pages are whole. -/
structure PoolGrows (before after : Array LinearMemory) : Prop where
  kept : ∀ (place : Nat) (old : LinearMemory), before[place]? = some old → ∃ new, after[place]? = some new ∧ old.GrowsTo new
  fresh : ∀ (place : Nat) (new : LinearMemory), before[place]? = none → after[place]? = some new → new.Whole

namespace PoolGrows

variable {before mid after pool : Array LinearMemory}

theorem refl (pool : Array LinearMemory) : PoolGrows pool pool where
  kept _ old found := ⟨old, found, .refl old⟩
  fresh _ _ absent found := by
    rw [absent] at found
    contradiction

theorem trans (first : PoolGrows before mid) (second : PoolGrows mid after) : PoolGrows before after where
  kept place old found := by
    obtain ⟨old', found', grows⟩ := first.kept place old found
    obtain ⟨new, found, grows'⟩ := second.kept place old' found'
    exact ⟨new, found, grows.trans grows'⟩
  fresh place new absent found := by
    cases between : mid[place]? with
    | none => exact second.fresh place new between found
    | some old =>
      obtain ⟨new', found', grows⟩ := second.kept place old between
      cases found.symm.trans found'
      exact grows.whole (first.fresh place old absent between)

theorem whole (grows : PoolGrows before after)
    (all : ∀ (place : Nat) (m : LinearMemory), before[place]? = some m → m.Whole) (place : Nat) (new : LinearMemory)
    (found : after[place]? = some new) : new.Whole := by
  cases was : before[place]? with
  | none => exact grows.fresh place new was found
  | some old =>
    obtain ⟨new', found', grew⟩ := grows.kept place old was
    cases found.symm.trans found'
    exact grew.whole (all place old was)

theorem set {old new : LinearMemory} (found : pool[place]? = some old) (grows : old.GrowsTo new) :
    PoolGrows pool (pool.setIfInBounds place new) where
  kept other was found' := by
    by_cases same : place = other
    · subst same
      cases found.symm.trans found'
      have inside := (Array.getElem?_eq_some_iff.mp found).1
      exact ⟨new, by simp [inside], grows⟩
    · exact ⟨was, by rw [Array.getElem?_setIfInBounds_ne same, found'], .refl was⟩
  fresh other made absent found' := by
    have apart : place ≠ other := fun same => by
      rw [same, absent] at found
      contradiction
    rw [Array.getElem?_setIfInBounds_ne apart, absent] at found'
    contradiction

theorem append (more : Array LinearMemory) (whole : ∀ m ∈ more, m.Whole) : PoolGrows pool (pool ++ more) where
  kept place old found := by
    have inside := (Array.getElem?_eq_some_iff.mp found).1
    exact ⟨old, by rw [Array.getElem?_append_left inside, found], .refl old⟩
  fresh place new absent found := by
    rw [Array.getElem?_append_right (Array.getElem?_eq_none_iff.mp absent)] at found
    exact whole new (Array.mem_of_getElem? found)

/-- Memories that were added can be taken away again. -/
theorem take (grows : PoolGrows before after) : PoolGrows before (after.take before.size) where
  kept place old found := by
    obtain ⟨new, found', grew⟩ := grows.kept place old found
    have inside := (Array.getElem?_eq_some_iff.mp found).1
    have inside' := (Array.getElem?_eq_some_iff.mp found').1
    refine ⟨new, ?_, grew⟩
    rw [Array.take_eq_extract, Array.getElem?_extract, if_pos (by omega), Nat.zero_add, found']
  fresh place new absent found := by
    have outside := Array.getElem?_eq_none_iff.mp absent
    have inside := (Array.getElem?_eq_some_iff.mp found).1
    simp only [Array.take_eq_extract, Array.size_extract] at inside
    omega

theorem of_change {σ : Type} {s t : State σ} (change : s.Change t) : PoolGrows s.memories t.memories := by
  cases change with
  | own => exact .refl _
  | memory has found grows => exact .set found grows

end PoolGrows
end Wasm

open Wasm (PoolGrows)

theorem modify_eq_setIfInBounds {α : Type} {a : α} {pool : Array α} (found : pool[place]? = some a) (f : α → α) :
    pool.modify place f = pool.setIfInBounds place (f a) := by
  apply Array.ext_getElem?
  intro other
  have inside := (Array.getElem?_eq_some_iff.mp found).1
  rw [Array.getElem?_modify, Array.getElem?_setIfInBounds]
  by_cases here : place = other
  · rw [if_pos here, if_pos here, if_pos (here ▸ inside), ← here, found]
    rfl
  · rw [if_neg here, if_neg here]

section

variable {σ : Type} {memories : Array LinearMemory}

theorem writeBack_grows {bytes : Option Memory}
    (same : bytes.map Memory.size = (bytesAt memories place).map Memory.size) :
    PoolGrows memories (writeBack memories place bytes) := by
  cases place with
  | none => exact .refl _
  | some place =>
    cases bytes with
    | none => exact .refl _
    | some bytes =>
      cases found : memories[place]? with
      | none => simp [bytesAt, found] at same
      | some m =>
        have size : bytes.size = m.bytes.size := by simpa [bytesAt, found] using same
        have modified : writeBack memories (some place) (some bytes) =
            memories.setIfInBounds place { m with bytes := bytes } := modify_eq_setIfInBounds found _
        exact modified ▸ .set found (.of_size bytes size)

theorem answer_grows (target : Target σ) (results : List ValueTag) (userData : Nat) (memory : Option Nat)
    (args : List Value) (memories : Array LinearMemory) (host : σ) :
    PoolGrows memories (target.answer results userData memory args memories host).memories := by
  unfold Target.answer
  split
  · exact .refl _
  · rename_i slots _
    let exchange : Exchange := ⟨List.replicate results.length 0 ++ slots, bytesAt memories memory⟩
    let reply := target.function ⟨userData, target.context, exchange⟩ host
    have written : PoolGrows memories (writeBack memories memory reply.exchange.val.memory) :=
      writeBack_grows reply.exchange.property.2
    dsimp only
    repeat' split
    all_goals exact written

theorem dispatch_grows (slots : List (ImportSlot σ)) (stubs : List Stub) (userData : Nat) (memory : Option Nat)
    (index : Nat) (args : List Value) (memories : Array LinearMemory) (host : σ) :
    PoolGrows memories (dispatch slots stubs userData memory index args memories host).memories := by
  rcases dispatch_cases index args memories host with refused | ⟨stub, slot, target, _, _, _, answered⟩
  · rw [refused]
    exact .refl _
  · rw [answered]
    exact answer_grows ..

/-- Memories grow in the course of a run. -/
theorem kept_poolGrows (slots : List (ImportSlot σ)) (stubs : List Stub) (userData : Nat) (memory : Option Nat)
    (pool : Array LinearMemory) :
    Wasm.Kept (dispatch slots stubs userData memory) fun state => PoolGrows pool state.memories where
  change grown change := grown.trans (.of_change change)
  answer _ _ _ grown := grown.trans (dispatch_grows ..)

theorem populate_grows {start state : Wasm.State σ} {pool : Array LinearMemory}
    (h : start.populate (dispatch slots stubs userData memory) budget eager = (state, result))
    (grown : PoolGrows pool start.memories) : PoolGrows pool state.memories := by
  have kept := (kept_poolGrows slots stubs userData memory pool).populate budget eager grown
  rwa [h] at kept

end

/-- A memory can be grown to any size between its own and its limit. -/
theorem growTo_eq_ok_iff {m grown : LinearMemory} :
    growTo m pages = .ok grown ↔
      m.pages ≤ pages ∧ pages ≤ m.limit ∧ grown = { m with bytes := m.bytes.extend ((pages - m.pages) * Wasm.pageSize) } := by
  unfold growTo LinearMemory.grow?
  by_cases fewer : pages < m.pages
  · simp only [if_pos fewer, reduceCtorEq, false_iff]
    omega
  · have sum : m.pages + (pages - m.pages) = pages := by omega
    rw [if_neg fewer, sum]
    have lower := Nat.le_of_not_lt fewer
    by_cases allowed : pages ≤ min (m.max.getD Wasm.pageBound) Wasm.pageBound
    · rw [if_pos allowed]
      simp only [LinearMemory.limit, lower, allowed, true_and, Except.ok.injEq, eq_comm]
    · rw [if_neg allowed]
      simp only [LinearMemory.limit, allowed, false_and, and_false, reduceCtorEq]

/-- A memory that begins with another, has a number of pages, and is zero behind the other. -/
structure Memory.Resized (m : Memory) (pages : Nat) (after : Memory) : Prop where
  size : after.size = pages * Wasm.pageSize
  kept : ∀ a < m.size, after.byte a = m.byte a
  zero : ∀ a, m.size ≤ a → after.byte a = 0

theorem growTo_resized {m grown : LinearMemory} (whole : m.Whole) (h : growTo m pages = .ok grown) :
    m.bytes.Resized pages grown.bytes := by
  obtain ⟨fewer, _, rfl⟩ := growTo_eq_ok_iff.mp h
  refine ⟨?_, fun a _ => Memory.byte_extend .., ?_⟩
  · rw [Memory.size_extend, whole.size_eq, ← Nat.add_mul, Nat.add_sub_cancel' fewer]
  · intro a behind
    rw [Memory.byte_extend, m.bytes.byte_of_size_le a behind]

theorem growTo_grows {m grown : LinearMemory} (h : growTo m pages = .ok grown) : m.GrowsTo grown := by
  obtain ⟨_, _, rfl⟩ := growTo_eq_ok_iff.mp h
  exact ⟨rfl, _, Memory.size_extend _ _⟩

theorem growToPending_grows {m grown : LinearMemory} (h : growToPending m pending = .ok grown) : m.GrowsTo grown := by
  cases pending with
  | none =>
    cases h
    exact .refl m
  | some pages => exact growTo_grows h

namespace Store

variable {σ : Type} {s t u : Store σ}

theorem supply_grows (h : s.supply m got i = (t, result)) : PoolGrows s.memories t.memories := by
  unfold supply at h
  split at h
  · cases h
    exact .refl _
  · split at h <;> cases h <;> exact .refl _
  · split at h
    · cases h
      exact .refl _
    · split at h
      · cases h
        exact .refl _
      · rename_i made
        cases h
        have whole := (growToPending_grows made).whole (LinearMemory.whole_ofLimits _)
        rw [Array.push_eq_append]
        exact .append _ (by simpa using whole)
  · cases h
    exact .refl _

theorem supplyAll_grows (h : s.supplyAll m got wanted = (t, result)) : PoolGrows s.memories t.memories := by
  induction wanted generalizing s got with
  | nil =>
    cases h
    exact .refl _
  | cons i rest ih =>
    unfold supplyAll at h
    split at h
    · rename_i supplied
      exact (supply_grows supplied).trans (ih h)
    · rename_i supplied
      cases h
      exact supply_grows supplied

theorem share_grows (h : s.share inst = (t, result)) : PoolGrows s.memories t.memories := by
  unfold share at h
  split at h
  · split at h
    · cases h
      exact .refl _
    · split at h
      · cases h
        exact .refl _
      · rename_i found
        split at h
        · cases h
          exact .refl _
        · rename_i grown
          cases h
          exact .set found (growToPending_grows grown)
  · cases h
    exact .refl _

theorem allocate_grows (m : Wasm.Module) (globals : List Value) (places : List Nat) (pool : Array LinearMemory)
    (user : σ) : PoolGrows pool (m.allocate globals places pool user).memories := by
  refine .append _ fun made among => ?_
  obtain ⟨l, _, rfl⟩ := List.mem_map.mp (List.mem_toArray.mp among)
  exact LinearMemory.whole_ofLimits l

theorem instantiateWith_grows (h : s.instantiateWith m got = (t, result)) : PoolGrows s.memories t.memories := by
  unfold instantiateWith at h
  split at h
  case isFalse =>
    cases h
    exact .refl _
  case isTrue =>
    dsimp only at h
    have allocated := allocate_grows m got.globals got.memories s.memories s.host
    split at h
    · rename_i populated
      cases h
      exact populate_grows populated allocated
    · rename_i populated
      have grown := populate_grows populated allocated
      split at h
      all_goals
        rename_i shared
        cases h
        exact grown.trans (share_grows shared)

theorem instantiate_grows (h : s.instantiate m = (t, result)) : PoolGrows s.memories t.memories := by
  unfold instantiate at h
  split at h
  · rename_i supplied
    cases h
    exact supplyAll_grows supplied
  · rename_i supplied
    exact (supplyAll_grows supplied).trans (instantiateWith_grows h)

theorem load_grows (h : s.load p = (t, result)) : PoolGrows s.memories t.memories := by
  unfold load at h
  split at h
  · cases h
    exact .refl _
  · split at h
    · cases h
      exact .refl _
    · split at h
      · rename_i instantiated
        cases h
        exact (instantiate_grows instantiated).take
      · rename_i instantiated
        have grown := instantiate_grows instantiated
        cases h
        exact grown

/-- A store whose shared memory, if there was one, is where it was, and whose memories have grown. -/
structure Advances (s t : Store σ) : Prop where
  memory : ∀ place, s.memory = some place → t.memory = some place
  pool : PoolGrows s.memories t.memories

namespace Advances

theorem refl (s : Store σ) : Advances s s := ⟨fun _ shared => shared, .refl _⟩

theorem trans (first : Advances s t) (second : Advances t u) : Advances s u :=
  ⟨fun place shared => second.memory place (first.memory place shared), first.pool.trans second.pool⟩

theorem of_continues (continues : Continues s t) (pool : PoolGrows s.memories t.memories) : Advances s t :=
  ⟨fun _ shared => continues.memory.trans shared, pool⟩

theorem load (h : s.load p = (t, result)) : Advances s t := by
  refine ⟨fun place shared => ?_, load_grows h⟩
  cases result with
  | ok number =>
    obtain ⟨_, m, gained⟩ := load_ok h
    exact gained.memory_stays shared
  | error fault =>
    obtain ⟨same, _⟩ := load_error h
    rw [same]
    exact shared

theorem call (h : s.call f args = (t, result)) : Advances s t := by
  refine of_continues (.call h) ?_
  rcases call_cases h with ⟨_, rfl, _⟩ | ⟨values, u, answer, _, ran, results, rfl⟩
  · exact .refl _
  · rcases run_cases ran with ⟨rfl, _⟩ | ⟨m, _, rfl⟩
    · exact .refl _
    · exact (kept_poolGrows ..).call _ _ _ (.refl _)

theorem resize (h : s.resize pages = .ok t) : Advances s t := by
  refine of_continues (.resize h) ?_
  rcases resize_cases h with rfl | ⟨_, rfl⟩ | ⟨place, m, grown, _, found, grew, rfl⟩
  · exact .refl _
  · exact .refl _
  · exact .set found (growTo_grows grew)

theorem setGlobal (h : s.setGlobal g tag slot = .ok t) : Advances s t := by
  refine of_continues (.setGlobal h) ?_
  obtain ⟨v, _, _, _, rfl⟩ := setGlobal_ok h
  exact .refl _

theorem setMemory (found : s.memory? = some m) {after : Memory} (size : after.size = m.size) :
    Advances s (s.setMemory after) := by
  refine of_continues (.setMemory s after) (writeBack_grows ?_)
  have found : bytesAt s.memories s.memory = some m := found
  rw [found, Option.map_some, Option.map_some, size]

/-- A memory that can be seen stays so, and is never smaller than it was. -/
theorem memory? (h : Advances s t) (found : s.memory? = some m) :
    t.memory = s.memory ∧ ∃ after, t.memory? = some after ∧ m.size ≤ after.size := by
  simp only [Store.memory?, bytesAt, Option.map_eq_some_iff, Option.bind_eq_some_iff] at found ⊢
  obtain ⟨old, ⟨place, shared, found⟩, rfl⟩ := found
  obtain ⟨new, found, grows⟩ := h.pool.kept place old found
  exact ⟨(h.memory place shared).trans shared.symm, new.bytes, ⟨new, ⟨place, h.memory place shared, found⟩, rfl⟩,
    grows.size_le⟩

end Advances
end Store

/-- A memory of `k` pages that can be resized to any number of pages between its own and a limit, and to no other. -/
structure Resizes {ε τ : Type} (resize : Nat → Except ε τ) (shown : τ → Option Memory) (m : Memory) (k limit : Nat) :
    Prop where
  size : m.size = k * Wasm.pageSize
  grows : ∀ pages, k ≤ pages → pages ≤ limit →
    ∃ t after, resize pages = .ok t ∧ shown t = some after ∧ m.Resized pages after
  refuses : ∀ pages, pages < k ∨ limit < pages → ∃ e, resize pages = .error e

namespace Store

variable {σ : Type} {s : Store σ} {m : LinearMemory}

/-- The memory that the store shows. -/
def shared? (s : Store σ) : Option LinearMemory := s.memory.bind (s.memories[·]?)

theorem resize_of_shared? (shown : s.shared? = some m) (pages : Nat) :
    ∃ place, s.memories[place]? = some m ∧ s.memory = some place ∧
      s.resize pages = (growTo m pages).map fun grown => { s with memories := s.memories.setIfInBounds place grown } := by
  obtain ⟨place, shared, found⟩ := Option.bind_eq_some_iff.mp shown
  refine ⟨place, found, shared, ?_⟩
  simp only [resize, shared, found]
  rfl

theorem resizes_of_shared? (shown : s.shared? = some m) (whole : m.Whole) :
    Resizes s.resize Store.memory? m.bytes m.pages m.limit where
  size := whole.size_eq
  grows pages fewer allowed := by
    obtain ⟨place, found, shared, resized⟩ := resize_of_shared? shown pages
    have inside := (Array.getElem?_eq_some_iff.mp found).1
    have grew := growTo_eq_ok_iff.mpr ⟨fewer, allowed, rfl⟩
    rw [grew] at resized
    exact ⟨_, _, resized, by simp [memory?, bytesAt, shared, inside], growTo_resized whole grew⟩
  refuses pages outside := by
    obtain ⟨place, found, shared, resized⟩ := resize_of_shared? shown pages
    cases grew : growTo m pages with
    | ok grown =>
      obtain ⟨fewer, allowed, _⟩ := growTo_eq_ok_iff.mp grew
      omega
    | error fault =>
      rw [grew] at resized
      exact ⟨fault, resized⟩

end Store
end WasmBinding
