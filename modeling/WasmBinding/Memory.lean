import Std.Data.ExtTreeMap

/-! A block of bytes of a fixed length. Only the bytes other than zero are stored, so blocks with
the same length and the same bytes are equal, and a block costs what was written to it. -/

namespace WasmBinding

structure Memory where
  size : Nat
  cells : Std.ExtTreeMap Nat UInt8
  cells_lt : ∀ a : Nat, a ∈ cells → a < size := by simp
  cells_ne_zero : ∀ (a : Nat) (b : UInt8), cells[a]? = some b → b ≠ 0 := by simp

namespace Memory

/-- The byte at an address; zero beyond the end. -/
def byte (m : Memory) (a : Nat) : UInt8 := m.cells.getD a 0

def zeros (size : Nat) : Memory where
  size := size
  cells := ∅

@[simp] theorem size_zeros (n : Nat) : (zeros n).size = n := rfl

theorem byte_of_size_le (m : Memory) (a : Nat) (h : m.size ≤ a) : m.byte a = 0 := by
  have out : a ∉ m.cells := fun mem => by
    have := m.cells_lt a mem
    omega
  simp [byte, Std.ExtTreeMap.getD_eq_fallback out]

theorem getElem?_cells (m : Memory) (a : Nat) :
    m.cells[a]? = if m.byte a = 0 then none else some (m.byte a) := by
  unfold byte
  rw [Std.ExtTreeMap.getD_eq_getD_getElem?]
  cases h : m.cells[a]? with
  | none => simp
  | some b => simp [m.cells_ne_zero a b h]

theorem ext {m n : Memory} (size : m.size = n.size) (byte : ∀ a, m.byte a = n.byte a) : m = n := by
  have cells : m.cells = n.cells := Std.ExtTreeMap.ext_getElem? fun a => by
    rw [getElem?_cells, getElem?_cells, byte a]
  cases m
  cases n
  simp_all

/-- Sets one byte; an address beyond the end changes nothing. -/
def set (m : Memory) (a : Nat) (b : UInt8) : Memory :=
  if inside : a < m.size then
    if zero : b = 0 then
      { m with
        cells := m.cells.erase a
        cells_lt := fun c mem => m.cells_lt c (by simp at mem; exact mem.2)
        cells_ne_zero := fun c v get => m.cells_ne_zero c v (by
          rw [Std.ExtTreeMap.getElem?_erase] at get
          split at get
          · contradiction
          · exact get) }
    else
      { m with
        cells := m.cells.insert a b
        cells_lt := fun c mem => by
          rw [Std.ExtTreeMap.mem_insert] at mem
          rcases mem with same | mem
          · simp only [Nat.compare_eq_eq] at same
            omega
          · exact m.cells_lt c mem
        cells_ne_zero := fun c v get => by
          rw [Std.ExtTreeMap.getElem?_insert] at get
          split at get
          · simp only [Option.some.injEq] at get
            exact get ▸ zero
          · exact m.cells_ne_zero c v get }
  else m

@[simp] theorem size_set (m : Memory) (a : Nat) (b : UInt8) : (m.set a b).size = m.size := by
  unfold set
  split
  · split <;> rfl
  · rfl

theorem byte_set (m : Memory) (a : Nat) (b : UInt8) (c : Nat) :
    (m.set a b).byte c = if c = a ∧ a < m.size then b else m.byte c := by
  unfold set byte
  split
  · split
    · rw [Std.ExtTreeMap.getD_erase]
      simp only [Nat.compare_eq_eq]
      grind
    · rw [Std.ExtTreeMap.getD_insert]
      simp only [Nat.compare_eq_eq]
      grind
  · grind

def slice (m : Memory) (off count : Nat) : List UInt8 :=
  (List.range count).map fun i => m.byte (off + i)

@[simp] theorem length_slice (m : Memory) (off count : Nat) : (m.slice off count).length = count := by
  simp [slice]

def toList (m : Memory) : List UInt8 := m.slice 0 m.size

/-- Writes bytes from an address on; those that would lie beyond the end are dropped. -/
def copyIn (m : Memory) (off : Nat) : List UInt8 → Memory
  | [] => m
  | b :: rest => (m.set off b).copyIn (off + 1) rest

@[simp] theorem size_copyIn (m : Memory) (off : Nat) (bytes : List UInt8) :
    (m.copyIn off bytes).size = m.size := by
  induction bytes generalizing m off with
  | nil => rfl
  | cons b rest ih => simp [copyIn, ih]

theorem byte_copyIn (m : Memory) (off : Nat) (bytes : List UInt8) (a : Nat) (h : a < m.size) :
    (m.copyIn off bytes).byte a =
      if off ≤ a ∧ a < off + bytes.length then bytes.getD (a - off) 0 else m.byte a := by
  induction bytes generalizing m off with
  | nil =>
    have outside : ¬ (off ≤ a ∧ a < off + 0) := by omega
    simp only [copyIn, List.length_nil, if_neg outside]
  | cons b rest ih =>
    simp only [copyIn, List.length_cons]
    rw [ih _ _ (by simpa using h), byte_set]
    by_cases eq : a = off
    · subst eq
      have : ¬ a + 1 ≤ a := by omega
      simp [h, this]
    · by_cases lt : off < a
      · obtain ⟨k, rfl⟩ : ∃ k, a = off + 1 + k := ⟨a - (off + 1), by omega⟩
        have : off + 1 + k - off = k + 1 := by omega
        by_cases inside : k < rest.length <;> simp [this, inside, eq] <;> omega
      · have : ¬ off + 1 ≤ a := by omega
        have : ¬ off ≤ a := by omega
        simp [*]

def ofList (bytes : List UInt8) : Memory := (zeros bytes.length).copyIn 0 bytes

def extend (m : Memory) (count : Nat) : Memory :=
  { m with
    size := m.size + count
    cells_lt := fun a mem => by
      have := m.cells_lt a mem
      omega }

@[simp] theorem size_extend (m : Memory) (n : Nat) : (m.extend n).size = m.size + n := rfl

@[simp] theorem byte_extend (m : Memory) (n a : Nat) : (m.extend n).byte a = m.byte a := rfl

/-- Adds a byte at an address in front of runs that lie behind it. -/
def consRun (a : Nat) (b : UInt8) : List (Nat × List UInt8) → List (Nat × List UInt8)
  | (next, bytes) :: runs =>
    if next = a + 1 then (a, b :: bytes) :: runs else (a, [b]) :: (next, bytes) :: runs
  | [] => [(a, [b])]

/-- The maximal stretches of bytes other than zero, by address. -/
def runs (m : Memory) : List (Nat × List UInt8) :=
  m.cells.toList.foldr (fun (a, b) runs => consRun a b runs) []

/-- The memory after something that does not change its size. -/
abbrev After (m : Memory) := { after : Memory // after.size = m.size }

def After.unchanged (m : Memory) : m.After := ⟨m, rfl⟩

end Memory
end WasmBinding
