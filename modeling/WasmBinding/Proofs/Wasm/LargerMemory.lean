import WasmBinding.Proofs.Wasm.Execution

/-! Memories of other sizes. A module without a start function never learns the size of a memory: if its segments fit, they
also fit into a larger one, and what they write there is the same. -/

namespace WasmBinding

namespace Memory

/-- Bytes that fit can be written before or after the memory is made larger. -/
theorem extend_copyIn {m : Memory} (fits : off + bytes.length ≤ m.size) (n : Nat) :
    (m.extend n).copyIn off bytes = (m.copyIn off bytes).extend n := by
  refine ext (by simp) fun a => ?_
  rw [byte_extend]
  by_cases inside : a < m.size
  · rw [byte_copyIn _ _ _ _ (by rw [size_extend]; omega), byte_copyIn _ _ _ _ inside, byte_extend]
  · -- Behind the old end nothing was written, and the new pages are zero.
    rw [(m.copyIn off bytes).byte_of_size_le a (by rw [size_copyIn]; omega)]
    by_cases new : a < (m.extend n).size
    · rw [byte_copyIn _ _ _ _ new, if_neg (by omega), byte_extend, m.byte_of_size_le a (by omega)]
    · exact byte_of_size_le _ a (by rw [size_copyIn]; omega)

theorem extend_extend (m : Memory) (a b : Nat) : (m.extend a).extend b = m.extend (a + b) :=
  ext (by simp [Nat.add_assoc]) fun _ => rfl

end Memory

namespace Wasm

namespace LinearMemory

variable {old new : LinearMemory}

/-- Adds pages of zeros whatever the bound. -/
def enlarge (count : Nat) (m : LinearMemory) : LinearMemory := { m with bytes := m.bytes.extend (count * pageSize) }

theorem bytes_enlarge (m : LinearMemory) (count : Nat) :
    (m.enlarge count).bytes = m.bytes.extend (count * pageSize) := by rw [enlarge]

theorem max_enlarge (m : LinearMemory) (count : Nat) : (m.enlarge count).max = m.max := by rw [enlarge]

theorem size_enlarge (m : LinearMemory) (count : Nat) :
    (m.enlarge count).bytes.size = m.bytes.size + count * pageSize := by
  rw [bytes_enlarge, Memory.size_extend]

theorem pages_enlarge (m : LinearMemory) (count : Nat) : (m.enlarge count).pages = m.pages + count := by
  rw [pages, size_enlarge]
  exact Nat.add_mul_div_right m.bytes.size count (by decide)

theorem enlarge_enlarge (m : LinearMemory) (a b : Nat) : (m.enlarge a).enlarge b = m.enlarge (a + b) := by
  rw [enlarge, bytes_enlarge, Memory.extend_extend, ← Nat.add_mul, max_enlarge, enlarge]

theorem grows_enlarge (m : LinearMemory) (count : Nat) : m.GrowsTo (m.enlarge count) :=
  ⟨max_enlarge m count, count, size_enlarge m count⟩

/-- A memory that may stand for an imported one may still do so when it has grown. -/
theorem satisfies_of_grows (grows : old.GrowsTo new) (fits : old.satisfies l = true) : new.satisfies l = true := by
  obtain ⟨bound, count, size⟩ := grows
  have larger : old.pages ≤ new.pages := by
    unfold pages
    exact Nat.div_le_div_right (size ▸ Nat.le_add_right _ _)
  simp only [satisfies, Bool.and_eq_true, decide_eq_true_eq, bound] at fits ⊢
  exact ⟨Nat.le_trans fits.1 larger, fits.2⟩

/-- What of a memory decides how far it can grow. -/
def frame (m : LinearMemory) : Nat × Option Nat := (m.bytes.size, m.max)

end LinearMemory

theorem Module.accepts_enlarge (m : Module) (memories : List Nat) {pool : Array LinearMemory}
    (accepted : m.accepts memories pool = true) (place count : Nat) :
    m.accepts memories (pool.modify place (·.enlarge count)) = true := by
  simp only [accepts, List.all_eq_true, Option.any_eq_true] at accepted ⊢
  intro both among
  obtain ⟨old, found, fits⟩ := accepted both among
  rw [Array.getElem?_modify]
  split
  · exact ⟨old.enlarge count, by rw [found]; rfl, LinearMemory.satisfies_of_grows (old.grows_enlarge count) fits⟩
  · exact ⟨old, found, fits⟩

/-- The memory that is given for all imported ones is there. -/
theorem Module.exists_of_accepts {m : Module} {pool : Array LinearMemory} (imports : m.importedMemories ≠ [])
    (accepted : m.accepts (List.replicate m.importedMemories.length place) pool = true) :
    ∃ made, pool[place]? = some made := by
  obtain ⟨limits, rest, some⟩ := List.exists_cons_of_ne_nil imports
  simp only [accepts, some, List.length_cons, List.replicate_succ, List.zip_cons_cons, List.all_cons,
    Bool.and_eq_true, Option.any_eq_true] at accepted
  obtain ⟨⟨made, found, _⟩, _⟩ := accepted
  exact ⟨made, found⟩

namespace State

variable {σ : Type} {s t : State σ}

def enlarge (place count : Nat) (s : State σ) : State σ :=
  { s with memories := s.memories.modify place (·.enlarge count) }

def frames (s : State σ) : Array (Nat × Option Nat) := s.memories.map LinearMemory.frame

theorem frame_of_frames {place : Nat} {old : LinearMemory} (same : t.frames = s.frames)
    (found : s.memories[place]? = some old) :
    ∃ new, t.memories[place]? = some new ∧ new.frame = old.frame := by
  have there := congrArg (·[place]?) same
  simp only [frames, Array.getElem?_map, found, Option.map_some, Option.map_eq_some_iff] at there
  exact there

theorem memory?_enlarge (found : s.memory? index = some (at_, m)) (place count : Nat) :
    (s.enlarge place count).memory? index = some (at_, if place = at_ then m.enlarge count else m) := by
  obtain ⟨placed, found⟩ := memory?_some found
  have pool : (s.memories.modify place (·.enlarge count))[at_]? = some (if place = at_ then m.enlarge count else m) := by
    rw [Array.getElem?_modify, found]
    split <;> rfl
  simp only [memory?, enlarge, placed, pool, Option.bind_eq_bind, Option.bind_some, Option.pure_def]

theorem frames_poke (found : s.memories[place]? = some m) (off : Nat) (bytes : List UInt8) :
    (s.poke place m off bytes).frames = s.frames := by
  apply Array.ext_getElem?
  intro other
  have inside := (Array.getElem?_eq_some_iff.mp found).1
  simp only [frames, poke, setMemory, Array.getElem?_map, Array.getElem?_setIfInBounds]
  split
  · rename_i here
    rw [← here, found]
    simp [LinearMemory.frame]
  · rfl

/-- Bytes that fit into a memory can be written before or after a memory is made larger. -/
theorem poke_enlarge (found : s.memories[at_]? = some m) (fits : off + bytes.length ≤ m.bytes.size)
    (place count : Nat) :
    (s.enlarge place count).poke at_ (if place = at_ then m.enlarge count else m) off bytes =
      (s.poke at_ m off bytes).enlarge place count := by
  have inside := (Array.getElem?_eq_some_iff.mp found).1
  have pools : (s.memories.modify place (·.enlarge count)).setIfInBounds at_
      { (if place = at_ then m.enlarge count else m) with
        bytes := (if place = at_ then m.enlarge count else m).bytes.copyIn off bytes } =
      (s.memories.setIfInBounds at_ { m with bytes := m.bytes.copyIn off bytes }).modify place (·.enlarge count) := by
    -- Only where the bytes and the pages go to the same memory does the order matter.
    apply Array.ext_getElem?
    intro other
    rw [Array.getElem?_setIfInBounds, Array.getElem?_modify, Array.getElem?_modify, Array.getElem?_setIfInBounds,
      Array.size_modify]
    by_cases here : at_ = other
    · subst here
      by_cases same : place = at_
      · simp [same, inside, LinearMemory.enlarge, Memory.extend_copyIn fits]
      · simp [same, inside]
    · simp [here]
  simp only [poke, setMemory, enlarge, pools]

/-- A way to write segments that keeps the sizes of memories and does not depend on them. -/
structure Steady {α : Type} (put : State σ → α → Except Trap (State σ)) : Prop where
  module : ∀ {s t a}, put s a = .ok t → t.inst.module = s.inst.module
  frames : ∀ {s t a}, put s a = .ok t → t.frames = s.frames
  enlarge : ∀ {s t a}, put s a = .ok t → ∀ place count, put (s.enlarge place count) a = .ok (t.enlarge place count)

theorem steady_putElements : Steady (σ := σ) putElements where
  module h := (putElements_change h).module_eq
  frames h := by
    unfold putElements at h
    dsimp only at h
    repeat' split at h
    all_goals cases h
    all_goals rfl
  enlarge {s t segment} h place count := by
    unfold putElements at h ⊢
    cases mode : segment.mode with
    | passive | declared =>
      simp only [mode] at h ⊢
      cases h
      rfl
    | active table offset =>
      simp only [mode] at h ⊢
      split at h
      · rename_i entries start found given
        split at h
        · rename_i fits
          cases h
          have found : (s.enlarge place count).inst.tables[table]? = some entries := found
          have given : (s.enlarge place count).offset? offset = some start := given
          have fits : start + ((s.enlarge place count).inst.entries segment).length ≤ entries.size := fits
          rw [found, given]
          dsimp only
          rw [if_pos fits]
          rfl
        · contradiction
      · contradiction

theorem steady_putData : Steady (σ := σ) putData where
  module h := (putData_change h).module_eq
  frames {s t segment} h := by
    unfold putData at h
    repeat' split at h
    all_goals cases h
    · rename_i found _ _
      exact frames_poke (memory?_some found).2 _ _
    all_goals rfl
  enlarge {s t segment} h place count := by
    unfold putData at h ⊢
    cases mode : segment.mode with
    | passive | declared =>
      simp only [mode] at h ⊢
      cases h
      rfl
    | active memory offset =>
      simp only [mode] at h ⊢
      split at h
      · rename_i at_ m start found given
        split at h
        · rename_i fits
          cases h
          have given : (s.enlarge place count).offset? offset = some start := given
          rw [memory?_enlarge found, given]
          dsimp only
          have larger : m.bytes.size ≤ (if place = at_ then m.enlarge count else m).bytes.size := by
            split
            · rw [LinearMemory.size_enlarge]
              exact Nat.le_add_right _ _
            · exact Nat.le_refl _
          rw [if_pos (Nat.le_trans fits larger), poke_enlarge (memory?_some found).2 fits]
        · contradiction
      · contradiction

theorem Steady.putAll {put : State σ → α → Except Trap (State σ)} (steady : Steady put) {items : List α}
    (h : State.putAll put s items = (t, .ok ())) :
    t.inst.module = s.inst.module ∧ t.frames = s.frames ∧
      ∀ place count, State.putAll put (s.enlarge place count) items = (t.enlarge place count, .ok ()) := by
  induction items generalizing s with
  | nil =>
    cases h
    exact ⟨rfl, rfl, fun _ _ => rfl⟩
  | cons a rest ih =>
    unfold State.putAll at h
    split at h
    · rename_i mid wrote
      obtain ⟨module, frames, larger⟩ := ih h
      refine ⟨module.trans (steady.module wrote), frames.trans (steady.frames wrote), fun place count => ?_⟩
      rw [State.putAll, steady.enlarge wrote place count]
      exact larger place count
    · cases h

theorem Steady.isOk_enlarge {put : State σ → α → Except Trap (State σ)} (steady : Steady put) {a : α}
    (h : (put s a).isOk = true) (place count : Nat) : (put (s.enlarge place count) a).isOk = true := by
  cases wrote : put s a with
  | ok t =>
    rw [steady.enlarge wrote]
    rfl
  | error cause =>
    rw [wrote] at h
    contradiction

theorem segmentsFit_enlarge (fit : s.segmentsFit = true) (place count : Nat) :
    (s.enlarge place count).segmentsFit = true := by
  simp only [segmentsFit, Bool.and_eq_true, List.all_eq_true] at fit ⊢
  exact ⟨fun a among => steady_putElements.isOk_enlarge (fit.1 a among) place count,
    fun a among => steady_putData.isOk_enlarge (fit.2 a among) place count⟩

theorem putSegments_steady (h : s.putSegments = (t, .ok ())) :
    t.inst.module = s.inst.module ∧ t.frames = s.frames ∧
      ∀ place count, (s.enlarge place count).putSegments = (t.enlarge place count, .ok ()) := by
  unfold putSegments at h
  split at h
  · rename_i mid wrote
    obtain ⟨module, frames, larger⟩ := steady_putElements.putAll wrote
    obtain ⟨module', frames', larger'⟩ := steady_putData.putAll h
    refine ⟨module'.trans module, frames'.trans frames, fun place count => ?_⟩
    have elements : State.putAll putElements (s.enlarge place count) (s.enlarge place count).inst.module.elements = _ :=
      larger place count
    rw [putSegments, elements]
    exact larger' place count
  · rename_i failed
    exact absurd h (failed t)

/-- Without a start function an instance is populated alike in a larger memory. -/
theorem populate_steady {host : HostCall σ} (h : s.populate host budget eager = (t, .ok ()))
    (idle : s.inst.module.start = none) :
    t.inst.module = s.inst.module ∧ t.frames = s.frames ∧
      ∀ place count, (s.enlarge place count).populate host budget eager = (t.enlarge place count, .ok ()) := by
  unfold populate at h
  split at h
  · cases h
  · rename_i fit
    split at h
    · cases h
    · rename_i mid wrote
      obtain ⟨module, frames, larger⟩ := putSegments_steady wrote
      have idle' : mid.inst.module.start = none := module ▸ idle
      simp only [idle'] at h
      cases h
      refine ⟨module, frames, fun place count => ?_⟩
      -- Segments that did not fit may fit now, but the ones of `s` did.
      have fit' : ¬ (eager && !(s.enlarge place count).segmentsFit) = true := by
        intro misfit
        simp only [Bool.and_eq_true, Bool.not_eq_true'] at misfit fit
        cases fits : s.segmentsFit with
        | false => exact fit ⟨misfit.1, fits⟩
        | true =>
          rw [segmentsFit_enlarge fits] at misfit
          cases misfit.2
      have idle'' : (t.enlarge place count).inst.module.start = none := idle'
      simp only [populate, if_neg fit', larger, idle'']

end State
end Wasm
end WasmBinding
