import WasmBinding.Proofs.Memory.Steps

/-! Arrays in memory. To write values at once is to write them one by one in any order, and to read them at once is to read
each of them. What is written does not reach beyond its place. -/

namespace WasmBinding.Memory

variable {m n : Memory} {t : ScalarType}

theorem slice_congr (same : ∀ a, off ≤ a → a < off + count → n.byte a = m.byte a) :
    n.slice off count = m.slice off count := by
  refine List.map_congr_left fun i inside => same (off + i) (Nat.le_add_right off i) ?_
  have := List.mem_range.mp inside
  omega

theorem slice_add (m : Memory) (off first second : Nat) :
    m.slice off (first + second) = m.slice off first ++ m.slice (off + first) second := by
  simp only [slice, List.range_add, List.map_append, List.map_map]
  congr 1
  refine List.map_congr_left fun i _ => ?_
  simp only [Function.comp, Nat.add_assoc]

theorem byte_copyIn_outside (m : Memory) (off : Nat) (bytes : List UInt8)
    (outside : ¬ (off ≤ a ∧ a < off + bytes.length)) : (m.copyIn off bytes).byte a = m.byte a := by
  by_cases inside : a < m.size
  · rw [byte_copyIn _ _ _ _ inside, if_neg outside]
  · have behind := Nat.le_of_not_lt inside
    rw [m.byte_of_size_le a behind, byte_of_size_le _ a (by rwa [size_copyIn])]

namespace Access

variable {w r : Access}

theorem length_bytes_le (a : Access) : a.bytes.length ≤ a.length := by
  cases kind : a.isRead with
  | true => simp [bytes_of_read kind]
  | false => exact Nat.le_of_eq (length_bytes kind)

theorem size_perform (word : m.size < addressCount) (w : Access) : (w.perform m).2.memory.size = m.size := by
  rw [perform_eq word]
  split
  · exact size_copyIn ..
  · rfl

theorem byte_perform (word : m.size < addressCount) (w : Access) (outside : ¬ (w.offset ≤ a ∧ a < w.offset + w.length)) :
    (w.perform m).2.memory.byte a = m.byte a := by
  rw [perform_eq word]
  split
  · refine byte_copyIn_outside m w.offset w.bytes fun within => outside ?_
    have := w.length_bytes_le
    omega
  · rfl

/-- What a read gives depends only on the bytes in its range. -/
theorem perform_congr (word : m.size < addressCount) (reads : r.isRead = true) (size : n.size = m.size)
    (same : ∀ a, r.offset ≤ a → a < r.offset + r.length → n.byte a = m.byte a) :
    r.perform n = ((r.perform m).1, ⟨n, (r.perform m).2.buffer⟩) := by
  have within : n.Within r.offset r.length ↔ m.Within r.offset r.length := by rw [Within, Within, size]
  rw [perform_eq word, perform_eq (size ▸ word)]
  by_cases inside : m.Within r.offset r.length
  · rw [if_pos inside, if_pos (within.mpr inside), granted, granted, slice_congr same, bytes_of_read reads]
    rfl
  · rw [if_neg inside, if_neg (mt within.mp inside)]
    rfl

end Access

/-- Byte `j` of element `i`. -/
theorem getElem?_flatMap_encode {values : List t.Carrier} (found : values[i]? = some v) (inside : j < t.size) :
    (values.flatMap t.encode)[i * t.size + j]? = (t.encode v)[j]? := by
  induction values generalizing i with
  | nil => contradiction
  | cons first rest ih =>
    rw [List.flatMap_cons]
    cases i with
    | zero =>
      cases found
      rw [Nat.zero_mul, Nat.zero_add, List.getElem?_append_left (by rwa [t.length_encode])]
    | succ i =>
      have behind : (t.encode first).length ≤ (i + 1) * t.size + j := by
        rw [t.length_encode, Nat.succ_mul]
        omega
      have shifted : (i + 1) * t.size + j - t.size = i * t.size + j := by
        rw [Nat.succ_mul]
        omega
      rw [List.getElem?_append_right behind, t.length_encode, shifted, ih found]

/-- An element of an array ends where the next one begins, at the latest at the end of the array. -/
theorem element_le (t : ScalarType) (inside : i < count) : i * t.size + t.size ≤ count * t.size := by
  rw [← Nat.succ_mul]
  exact Nat.mul_le_mul_right t.size inside

theorem within_elements (t : ScalarType) (some : count ≠ 0) :
    m.Within off (count * t.size) ↔ ∀ i < count, m.Within (off + i * t.size) t.size := by
  constructor
  · rintro ⟨begins, ends⟩ i inside
    have := element_le t inside
    have := size_pos t
    exact ⟨by omega, by omega⟩
  · intro all
    obtain ⟨last, rfl⟩ := Nat.exists_eq_succ_of_ne_zero some
    obtain ⟨begins, _⟩ := all 0 (Nat.succ_pos last)
    obtain ⟨_, ends⟩ := all last (Nat.lt_succ_self last)
    rw [Within, Nat.succ_mul]
    exact ⟨by omega, by omega⟩

theorem decodeArray_slice (m : Memory) (t : ScalarType) (off count : Nat) :
    decodeArray t count (m.slice off (count * t.size)) =
      (List.range count).map fun i => t.decode (m.slice (off + i * t.size) t.size) := by
  induction count generalizing off with
  | zero => rfl
  | succ count ih =>
    have length := m.length_slice off t.size
    have total : (count + 1) * t.size = t.size + count * t.size := by rw [Nat.succ_mul, Nat.add_comm]
    rw [total, slice_add, decodeArray, List.take_left' length, List.drop_left' length, ih,
      List.range_succ_eq_map, List.map_cons, List.map_map, Nat.zero_mul, Nat.add_zero]
    congr 2
    funext i
    rw [Function.comp, Nat.succ_mul, Nat.add_assoc, Nat.add_comm t.size]

/-- Reading values at once is reading each of them. -/
theorem readValues_elements (word : m.size < addressCount) (t : ScalarType) (off : Nat) (some : count ≠ 0) :
    ((∃ values, m.readValues t off count = .ok values) ↔
      ∀ i < count, ∃ value, m.readValue t (off + i * t.size) = .ok value) ∧
    ∀ values, m.readValues t off count = .ok values →
      values.map Except.ok = (List.range count).map fun i => m.readValue t (off + i * t.size) := by
  have each (i : Nat) :
      (∃ value, m.readValue t (off + i * t.size) = .ok value) ↔ m.Within (off + i * t.size) t.size := by
    rw [readValue_eq word]
    split <;> simp [*]
  simp only [each, ← within_elements t some, readValues_eq word]
  by_cases inside : m.Within off (count * t.size)
  · simp only [if_pos inside]
    refine ⟨⟨fun _ => inside, fun _ => ⟨_, rfl⟩⟩, fun values read => ?_⟩
    cases read
    rw [decodeArray_slice, List.map_map]
    refine List.map_congr_left fun i among => ?_
    have here := (within_elements t some).mp inside i (List.mem_range.mp among)
    rw [readValue_eq word, if_pos here]
    rfl
  · simp [inside]

/-- What is written for one value is what is written there for all of them. -/
theorem byte_element {values : List t.Carrier} (inside : off + values.length * t.size ≤ m.size) (size : n.size = m.size)
    (i : Fin values.length) (low : off + i * t.size ≤ a) (high : a < off + i * t.size + t.size) :
    (n.copyIn (off + i * t.size) (t.encode values[i])).byte a = (m.copyIn off (values.flatMap t.encode)).byte a := by
  have := element_le t i.isLt
  have found : values[i.val]? = some values[i] := List.getElem?_eq_getElem i.isLt
  obtain ⟨j, rfl⟩ := Nat.exists_eq_add_of_le low
  have small : j < t.size := by omega
  have position : off + i * t.size + j - off = i * t.size + j := by omega
  rw [byte_copyIn _ _ _ _ (by omega), byte_copyIn _ _ _ _ (by omega), t.length_encode, if_pos ⟨low, high⟩,
    length_flatMap_encode, if_pos (by omega), Nat.add_sub_cancel_left, position, List.getD_eq_getElem?_getD,
    List.getD_eq_getElem?_getD, getElem?_flatMap_encode found small]

/-- The order in which values are written one by one does not matter, nor whether some are written again. -/
theorem foldlM_writeValue (word : m.size < addressCount) (values : List t.Carrier)
    (inside : m.Within off (values.length * t.size)) (order : List (Fin values.length)) (size : n.size = m.size) :
    ∃ after, order.foldlM (fun n i => n.writeValue t (off + i * t.size) values[i]) n = .ok after ∧
      after.size = m.size ∧ ∀ a,
        (n.byte a = (m.copyIn off (values.flatMap t.encode)).byte a ∨
          ∃ i ∈ order, off + i * t.size ≤ a ∧ a < off + i * t.size + t.size) →
        after.byte a = (m.copyIn off (values.flatMap t.encode)).byte a := by
  -- A byte that is as it will be in the end stays so, because every value is written where it belongs.
  induction order generalizing n with
  | nil => exact ⟨n, rfl, size, fun a same => by simpa using same⟩
  | cons i rest ih =>
    have := element_le t i.isLt
    have some : values.length ≠ 0 := Nat.ne_of_gt (Nat.zero_lt_of_lt i.isLt)
    have here : n.Within (off + i * t.size) t.size := by
      have := (within_elements t some).mp inside i i.isLt
      rwa [Within, size]
    have wrote : n.writeValue t (off + i * t.size) values[i] = .ok (n.copyIn (off + i * t.size) (t.encode values[i])) := by
      rw [writeValue_eq (size ▸ word), if_pos here]
    obtain ⟨after, written, size', agrees⟩ := ih ((n.size_copyIn _ _).trans size)
    refine ⟨after, ?_, size', fun a same => agrees a ?_⟩
    · rw [List.foldlM_cons, wrote]
      exact written
    · have element := byte_element inside.2 size i (a := a)
      rcases same with same | ⟨j, among, low, high⟩
      · by_cases place : off + i * t.size ≤ a ∧ a < off + i * t.size + t.size
        · exact .inl (element place.1 place.2)
        · exact .inl ((byte_copyIn_outside n _ _ (by rwa [t.length_encode])).trans same)
      · rcases List.mem_cons.mp among with rfl | among
        · exact .inl (element low high)
        · exact .inr ⟨j, among, low, high⟩

/-- Writing values at once is writing each of them, in whatever order. -/
theorem writeValues_elements (word : m.size < addressCount) {values : List t.Carrier}
    (wrote : m.writeValues t off values = .ok after) (order : List (Fin values.length)) (all : ∀ i, i ∈ order) :
    order.foldlM (fun n i => n.writeValue t (off + i * t.size) values[i]) m = .ok after := by
  rw [writeValues_eq word] at wrote
  split at wrote
  · rename_i inside
    cases wrote
    obtain ⟨after, written, size, agrees⟩ := foldlM_writeValue word values inside order rfl
    rw [written, ext (size.trans (size_copyIn ..).symm) fun a => agrees a ?_]
    by_cases place : off ≤ a ∧ a < off + values.length * t.size
    · have pos := size_pos t
      have i : (a - off) / t.size < values.length := by
        rw [Nat.div_lt_iff_lt_mul pos]
        omega
      have := Nat.div_add_mod' (a - off) t.size
      have := Nat.mod_lt (a - off) pos
      exact .inr ⟨⟨_, i⟩, all _, by simp only []; omega, by simp only []; omega⟩
    · rw [← length_flatMap_encode] at place
      exact .inl (byte_copyIn_outside m off _ place).symm
  · contradiction

/-- Writing values is writing their bytes, one value behind the other. -/
theorem write_flatMap_encode (word : m.size < addressCount) (t : ScalarType) (off : Nat) (values : List t.Carrier) :
    m.write off (values.flatMap t.encode) = m.writeValues t off values := by
  rw [write_eq word, writeValues_eq word, length_flatMap_encode]

theorem steps_of_writeValues_error (word : m.size < addressCount) {values : List t.Carrier}
    (failed : m.writeValues t off values = .error e) :
    (Access.writeValues t off values).steps.run ⟨m, []⟩ = .ok (.error e, ⟨m, []⟩) := by
  rw [writeValues_eq word] at failed
  split at failed
  · contradiction
  · rename_i outside
    cases failed
    exact Access.steps_outside (a := .writeValues t off values) word outside

/-- Access to several values is access to each of them. They are written at once exactly as one by one in any order, or as
their bytes, and if they do not all fit then none is written; they can be read at once exactly if each can be read. A read
that does not meet a write gives what it gave before. -/
theorem arrays_are_elements (m : Memory) (word : m.size < addressCount) :
    (∀ (t : ScalarType) (off : Nat) (values : List t.Carrier),
      (∀ after, m.writeValues t off values = .ok after →
        (∀ order : List (Fin values.length), (∀ i, i ∈ order) →
          order.foldlM (fun n i => n.writeValue t (off + i * t.size) values[i]) m = .ok after) ∧
        m.write off (values.flatMap t.encode) = .ok after ∧ after.size = m.size ∧
        ∀ a, after.byte a ≠ m.byte a → off ≤ a ∧ a < off + values.length * t.size) ∧
      ∀ e, m.writeValues t off values = .error e →
        (Access.writeValues t off values).steps.run ⟨m, []⟩ = .ok (.error e, ⟨m, []⟩)) ∧
    (∀ (t : ScalarType) (off count : Nat), count ≠ 0 →
      ((∃ values, m.readValues t off count = .ok values) ↔
        ∀ i < count, ∃ value, m.readValue t (off + i * t.size) = .ok value) ∧
      ∀ values, m.readValues t off count = .ok values →
        values.map Except.ok = (List.range count).map fun i => m.readValue t (off + i * t.size)) ∧
    ∀ r w : Access, r.isRead = true → w.isRead = false →
      (∀ a, r.offset ≤ a → a < r.offset + r.length → ¬ (w.offset ≤ a ∧ a < w.offset + w.length)) →
      r.perform (w.perform m).2.memory = ((r.perform m).1, ⟨(w.perform m).2.memory, (r.perform m).2.buffer⟩) := by
  refine ⟨fun t off values => ⟨fun after wrote => ?_, fun e => steps_of_writeValues_error word⟩,
    fun t off count => readValues_elements word t off, fun r w reads _ apart => ?_⟩
  · have bytes := (write_flatMap_encode word t off values).trans wrote
    refine ⟨writeValues_elements word wrote, bytes, size_writeValues wrote, fun a changed => ?_⟩
    refine Decidable.byContradiction fun outside => changed ?_
    rw [write_eq word] at bytes
    split at bytes
    · cases bytes
      exact byte_copyIn_outside m off _ (by rwa [length_flatMap_encode])
    · contradiction
  · refine Access.perform_congr word reads (Access.size_perform word w) fun a low high => ?_
    exact Access.byte_perform word w (apart a low high)

theorem arrays_are_elements_zeros :
    (zeros 16).size < addressCount ∧
    (∃ after, (zeros 16).writeValues .u32 1 [0x01020304, 0xa0b0c0d0] = .ok after ∧
      (do (← (zeros 16).writeValue .u32 5 0xa0b0c0d0).writeValue .u32 1 0x01020304) = .ok after) ∧
    (Access.writeValues .u32 9 [1, 2]).steps.run ⟨zeros 16, []⟩ = .ok (.error .invalidMemoryAccess, ⟨zeros 16, []⟩) ∧
    (∃ values, (zeros 16).readValues .u32 1 2 = .ok values ∧
      values.map Except.ok = (List.range 2).map fun i => (zeros 16).readValue .u32 (1 + i * 4)) ∧
    ((Access.readBytes 9 7).perform ((Access.writeValues .u32 1 [1, 2]).perform (zeros 16)).2.memory).1 =
      ((Access.readBytes 9 7).perform (zeros 16)).1 := by
  have word : (zeros 16).size < addressCount := by decide
  obtain ⟨writes, reads, apart⟩ := arrays_are_elements (zeros 16) word
  refine ⟨word, ?_, ?_, ?_, ?_⟩
  · have wrote := (writeValues_eq word .u32 1 [0x01020304, 0xa0b0c0d0]).trans (if_pos (by decide))
    obtain ⟨each, _⟩ := (writes .u32 1 [0x01020304, 0xa0b0c0d0]).1 _ wrote
    exact ⟨_, wrote, each [1, 0] (by decide)⟩
  · have failed := (writeValues_eq word .u32 9 [1, 2]).trans (if_neg (by decide))
    exact (writes .u32 9 [1, 2]).2 _ failed
  · have read := (readValues_eq word .u32 1 2).trans (if_pos (by decide))
    exact ⟨_, read, (reads .u32 1 2 (by decide)).2 _ read⟩
  · rw [apart (.readBytes 9 7) (.writeValues .u32 1 [1, 2]) rfl rfl]
    intro a low _ within
    have low : 9 ≤ a := low
    have within : 1 ≤ a ∧ a < 1 + 8 := within
    omega

end WasmBinding.Memory
