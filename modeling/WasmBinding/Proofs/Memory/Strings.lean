import WasmBinding.Proofs.Memory.RoundTrip
import WasmBinding.Proofs.Text.Utf8

/-! Texts in memory. What was written is read back, and whatever bytes there are can be read: as the text that they are, if they
are UTF-8, and otherwise as a text that survives being written and read again. -/

namespace WasmBinding

namespace Utf8

/-- A text is written as the bytes that it consists of. -/
theorem encode_toByteArray (text : List Char) : (encode text).toByteArray = (String.ofList text).toByteArray := by
  rw [String.toByteArray_ofList, List.utf8Encode, encode, funext encodeChar_eq]

theorem length_encode (text : String) : (encode text.toList).length = text.utf8ByteSize := by
  rw [← List.size_toByteArray, encode_toByteArray, String.ofList_toList, String.size_toByteArray]

/-- Bytes that are UTF-8 are read as the text that they are. -/
theorem ofList_decodeLossy (valid : bytes.toByteArray.IsValidUTF8) :
    String.ofList (decodeLossy bytes) = String.fromUTF8 bytes.toByteArray valid := by
  have text := String.ofList_toList (s := String.fromUTF8 bytes.toByteArray valid)
  have written : bytes = encode (String.fromUTF8 bytes.toByteArray valid).toList := by
    rw [← List.toByteArray_inj, encode_toByteArray, text]
    rfl
  conv => lhs; rw [written, decodeLossy_encode, text]

end Utf8

namespace Memory

variable {m : Memory}

theorem writeString_eq (word : m.size < addressCount) (off : Nat) (text : String) :
    m.writeString off text =
      if m.Within off text.utf8ByteSize then .ok (m.copyIn off (Utf8.encode text.toList)) else .error .invalidMemoryAccess := by
  rw [writeString, write_eq word, Utf8.length_encode]

theorem readString_eq (word : m.size < addressCount) (off count : Nat) :
    m.readString off count =
      if m.Within off count then .ok (String.ofList (Utf8.decodeLossy (m.slice off count))) else .error .invalidMemoryAccess := by
  rw [readString, readBytes_eq word]
  split <;> rfl

/-- A text that was written is read back. -/
theorem readString_writeString (word : m.size < addressCount) (wrote : m.writeString off text = .ok after) :
    after.readString off text.utf8ByteSize = .ok text := by
  rw [writeString_eq word] at wrote
  split at wrote
  · rename_i inside
    have fits : off + (Utf8.encode text.toList).length ≤ m.size := Utf8.length_encode text ▸ inside.2
    cases wrote
    have here : (m.copyIn off (Utf8.encode text.toList)).Within off text.utf8ByteSize := by
      rwa [Within, size_copyIn]
    rw [readString_eq (by rwa [size_copyIn]), if_pos here, ← Utf8.length_encode, slice_copyIn fits,
      Utf8.decodeLossy_encode, String.ofList_toList]
  · contradiction

/-- What is read where bytes lie. -/
structure TextAt (m : Memory) (off count : Nat) (text : String) : Prop where
  read : m.readString off count = .ok text
  /-- Each character stands where it is written, and between these one replacement for each part that begins none. -/
  reads : Utf8.Reads (m.slice off count) text.toList
  strict : ∀ valid : (m.slice off count).toByteArray.IsValidUTF8, text = String.fromUTF8 _ valid

theorem textAt_of_within (word : m.size < addressCount) (inside : m.Within off count) :
    m.TextAt off count (String.ofList (Utf8.decodeLossy (m.slice off count))) where
  read := (readString_eq word off count).trans (if_pos inside)
  reads := by
    rw [String.toList_ofList]
    exact Utf8.reads_decodeLossy _
  strict := Utf8.ofList_decodeLossy

/-- Wherever a text fits, it can be written and is read back. -/
def Survives (text : String) : Prop :=
  ∀ (m : Memory) (off : Nat), m.size < addressCount → m.Within off text.utf8ByteSize →
    ∃ after, m.writeString off text = .ok after ∧ after.readString off text.utf8ByteSize = .ok text

theorem survives (text : String) : Survives text := by
  intro m off word inside
  have wrote := (writeString_eq word off text).trans (if_pos inside)
  exact ⟨_, wrote, readString_writeString word wrote⟩

/-- A text that was written is read back, and whatever bytes there are can be read as a text that survives. -/
theorem texts_survive (m : Memory) (word : m.size < addressCount) (off : Nat) :
    (∀ (text : String) (after : Memory), m.writeString off text = .ok after →
      after.readString off text.utf8ByteSize = .ok text) ∧
    ∀ count, m.Within off count → ∃ text, m.TextAt off count text ∧ Survives text :=
  ⟨fun _ _ => readString_writeString word, fun _ inside => ⟨_, textAt_of_within word inside, survives _⟩⟩

/-- Of three bytes only the first is there: what is read is a replacement and the letter behind it, which take four bytes. -/
theorem texts_survive_truncated :
    ∃ m : Memory, m.size < addressCount ∧ m.slice 1 2 = [0xe2, 0x61] ∧ m.readString 1 2 = .ok "\ufffda" ∧
      ∃ after, m.writeString 4 "\ufffda" = .ok after ∧ after.readString 4 4 = .ok "\ufffda" := by
  have word : ((zeros 8).copyIn 1 [0xe2, 0x61]).size < addressCount := by
    rw [size_copyIn]
    decide
  have bytes : ((zeros 8).copyIn 1 [0xe2, 0x61]).slice 1 2 = [0xe2, 0x61] := slice_copyIn (by decide)
  have survive := texts_survive _ word
  obtain ⟨text, here, survives⟩ := (survive 1).2 2 (by rw [Within, size_copyIn]; decide)
  have reads := Utf8.reads_iff.mp here.reads
  rw [bytes] at reads
  obtain rfl : text = "\ufffda" := String.toList_inj.mp reads
  obtain ⟨after, wrote, _⟩ := survives _ 4 word (by rw [Within, size_copyIn]; decide)
  exact ⟨_, word, bytes, here.read, after, wrote, (survive 4).1 _ after wrote⟩

end Memory
end WasmBinding
