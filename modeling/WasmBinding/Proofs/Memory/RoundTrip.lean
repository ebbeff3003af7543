import WasmBinding.Proofs.Memory.Arrays

/-! Values in memory are their bytes. What was written is read back bit for bit, what was read can be written back without a
change, and reading the same bytes as values of another type gives the values with these bytes, wherever they begin. -/

namespace WasmBinding

namespace ScalarType

variable {t : ScalarType}

theorem width_eq (t : ScalarType) : t.width = 8 * t.size := by
  cases t <;> rfl

theorem decode_encode (t : ScalarType) (v : t.Carrier) : t.decode (t.encode v) = v := by
  have bits : BitVec.ofNat t.width (LittleEndian.ofBytes (t.encode v)) = t.toBits v := by
    have small : (t.toBits v).toNat % 2 ^ (8 * t.size) = (t.toBits v).toNat := by
      rw [← width_eq]
      exact Nat.mod_eq_of_lt (t.toBits v).isLt
    rw [encode, LittleEndian.ofBytes_toBytes, Nat.one_shiftLeft, small, BitVec.ofNat_toNat, BitVec.setWidth_eq]
  rw [decode, bits, ofBits_toBits]

theorem encode_decode (exact : bytes.length = t.size) : t.encode (t.decode bytes) = bytes := by
  have small : LittleEndian.ofBytes bytes < 2 ^ t.width := by
    rw [width_eq, ← exact, ← Nat.one_shiftLeft]
    exact LittleEndian.ofBytes_lt bytes
  rw [decode, encode, toBits_ofBits, BitVec.toNat_ofNat, Nat.mod_eq_of_lt small, ← exact, LittleEndian.toBytes_ofBytes]

end ScalarType

namespace Memory

variable {m : Memory} {t : ScalarType}

theorem decodeArray_encode (t : ScalarType) (values : List t.Carrier) :
    decodeArray t values.length (values.flatMap t.encode) = values := by
  induction values with
  | nil => rfl
  | cons v rest ih =>
    have exact := t.length_encode v
    rw [List.length_cons, List.flatMap_cons, decodeArray, List.take_left' exact, List.drop_left' exact, ih, t.decode_encode]

theorem encode_decodeArray (exact : bytes.length = count * t.size) :
    (decodeArray t count bytes).flatMap t.encode = bytes := by
  induction count generalizing bytes with
  | zero => simpa [decodeArray, eq_comm] using exact
  | succ count ih =>
    rw [Nat.succ_mul] at exact
    have first : (bytes.take t.size).length = t.size := by
      rw [List.length_take]
      omega
    have rest : (bytes.drop t.size).length = count * t.size := by
      rw [List.length_drop]
      omega
    rw [decodeArray, List.flatMap_cons, ScalarType.encode_decode first, ih rest, List.take_append_drop]

theorem length_decodeArray (t : ScalarType) (count : Nat) (bytes : List UInt8) :
    (decodeArray t count bytes).length = count := by
  induction count generalizing bytes with
  | zero => rfl
  | succ count ih => rw [decodeArray, List.length_cons, ih]

/-- Values are the ones that bytes stand for exactly if these are their bytes. -/
theorem eq_decodeArray_iff {values : List t.Carrier} (exact : bytes.length = count * t.size) :
    values = decodeArray t count bytes ↔ values.flatMap t.encode = bytes := by
  constructor
  · rintro rfl
    exact encode_decodeArray exact
  · rintro rfl
    rw [length_flatMap_encode] at exact
    rw [← Nat.eq_of_mul_eq_mul_right (size_pos t) exact, decodeArray_encode]

theorem slice_copyIn (fits : off + bytes.length ≤ m.size) : (m.copyIn off bytes).slice off bytes.length = bytes := by
  apply List.ext_getElem
  · exact length_slice ..
  · intro i _ inside
    simp only [slice, List.getElem_map, List.getElem_range]
    rw [byte_copyIn _ _ _ _ (by omega), if_pos (by omega), Nat.add_sub_cancel_left, List.getD_eq_getElem?_getD,
      List.getElem?_eq_getElem inside, Option.getD_some]

theorem copyIn_slice (fits : off + count ≤ m.size) : m.copyIn off (m.slice off count) = m := by
  refine ext (size_copyIn ..) fun a => ?_
  by_cases place : off ≤ a ∧ a < off + count
  · obtain ⟨i, rfl⟩ := Nat.exists_eq_add_of_le place.1
    have inside : i < (m.slice off count).length := by
      rw [length_slice]
      omega
    rw [byte_copyIn _ _ _ _ (by omega), length_slice, if_pos place, Nat.add_sub_cancel_left,
      List.getD_eq_getElem?_getD, List.getElem?_eq_getElem inside, Option.getD_some]
    simp only [slice, List.getElem_map, List.getElem_range]
  · exact byte_copyIn_outside m off _ (by rwa [length_slice])

/-- A part of a range holds a part of its bytes. -/
theorem slice_part (m : Memory) (off : Nat) (part : skip + count ≤ total) :
    m.slice (off + skip) count = ((m.slice off total).drop skip).take count := by
  obtain ⟨rest, rfl⟩ := Nat.exists_eq_add_of_le part
  rw [slice_add, slice_add, List.append_assoc, List.drop_left' (length_slice ..), List.take_left' (length_slice ..)]

/-- Values that lie in memory one behind the other. -/
structure Holds (m : Memory) (t : ScalarType) (off : Nat) (values : List t.Carrier) : Prop where
  read : m.readValues t off values.length = .ok values
  rewritten : m.writeValues t off values = .ok m
  /-- Some of their bytes are read as values of another type: those that consist of just these bytes. -/
  reread : ∀ (u : ScalarType) (skip count : Nat), off + skip < m.size → skip + count * u.size ≤ values.length * t.size →
    ∃ others : List u.Carrier, m.readValues u (off + skip) count = .ok others ∧
      ∀ candidates : List u.Carrier, candidates = others ↔
        candidates.flatMap u.encode = ((values.flatMap t.encode).drop skip).take (count * u.size)

/-- Values lie where their bytes lie. -/
theorem holds_of_slice (word : m.size < addressCount) {values : List t.Carrier}
    (inside : m.Within off (values.length * t.size))
    (bytes : m.slice off (values.length * t.size) = values.flatMap t.encode) : m.Holds t off values where
  read := by rw [readValues_eq word, if_pos inside, bytes, decodeArray_encode]
  rewritten := by rw [writeValues_eq word, if_pos inside, ← bytes, copyIn_slice inside.2]
  reread u skip count begins part := by
    have here : m.Within (off + skip) (count * u.size) := by
      have := inside.2
      exact ⟨begins, by omega⟩
    refine ⟨_, (readValues_eq word u _ count).trans (if_pos here), fun candidates => ?_⟩
    rw [← bytes, ← slice_part m off part]
    exact eq_decodeArray_iff (length_slice ..)

theorem holds_of_writeValues (word : m.size < addressCount) {values : List t.Carrier}
    (wrote : m.writeValues t off values = .ok after) : after.Holds t off values := by
  have size := size_writeValues wrote
  rw [writeValues_eq word] at wrote
  split at wrote
  · rename_i inside
    have fits : off + (values.flatMap t.encode).length ≤ m.size := by
      rw [length_flatMap_encode]
      exact inside.2
    cases wrote
    refine holds_of_slice (size ▸ word) ⟨size ▸ inside.1, size ▸ inside.2⟩ ?_
    rw [← length_flatMap_encode, slice_copyIn fits]
  · contradiction

theorem holds_of_readValues (word : m.size < addressCount) {values : List t.Carrier}
    (read : m.readValues t off count = .ok values) : values.length = count ∧ m.Holds t off values := by
  rw [readValues_eq word] at read
  split at read
  · rename_i inside
    cases read
    have count_eq := length_decodeArray t count (m.slice off (count * t.size))
    refine ⟨count_eq, holds_of_slice word (by rwa [count_eq]) ?_⟩
    rw [count_eq, encode_decodeArray (length_slice ..)]
  · contradiction

/-- Values and their bytes determine each other. Values that were written lie where they were written, and values that were
read lie where they were read: reading them gives them back, writing them changes nothing, and any of their bytes are read as
values of any other type, at whatever address these begin. -/
theorem values_are_bytes (m : Memory) (word : m.size < addressCount) (t : ScalarType) (off : Nat) :
    (∀ (values : List t.Carrier) (after : Memory), m.writeValues t off values = .ok after → after.Holds t off values) ∧
    ∀ (count : Nat) (values : List t.Carrier), m.readValues t off count = .ok values →
      values.length = count ∧ m.Holds t off values :=
  ⟨fun _ _ => holds_of_writeValues word, fun _ _ => holds_of_readValues word⟩

/-- A NaN with a payload is read back whole, and its last bytes, which begin at an odd address, are read as an integer. -/
theorem values_are_bytes_nan :
    (zeros 16).size < addressCount ∧ ∃ after, (zeros 16).writeValues .f64 1 [⟨0x7ff8000000abcdef⟩] = .ok after ∧
      after.readValues .f64 1 1 = .ok [⟨0x7ff8000000abcdef⟩] ∧ after.readValues .u32 5 1 = .ok [0x7ff80000] ∧
      after.writeValues .u32 5 [0x7ff80000] = .ok after := by
  have word : (zeros 16).size < addressCount := by decide
  have wrote := (writeValues_eq word .f64 1 [⟨0x7ff8000000abcdef⟩]).trans (if_pos (by decide))
  have size := size_writeValues wrote
  have holds := (values_are_bytes (zeros 16) word .f64 1).1 _ _ wrote
  obtain ⟨others, read, only⟩ := holds.reread .u32 4 1 (size ▸ by decide) (by decide)
  obtain rfl := (only [0x7ff80000]).mpr (by decide)
  have held := ((values_are_bytes _ (size ▸ word) .u32 5).2 1 _ read).2
  exact ⟨word, _, wrote, holds.read, read, held.rewritten⟩

end Memory
end WasmBinding
