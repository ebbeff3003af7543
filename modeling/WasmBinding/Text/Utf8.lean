/-! UTF-8 as byte lists. Decoding never fails: each maximal part of the input that begins a
character without completing it becomes one replacement character. -/

namespace WasmBinding.Utf8

def encodeChar (c : Char) : List UInt8 :=
  let n := c.toNat
  let trail (k : Nat) : UInt8 := UInt8.ofNat (0x80 + (n >>> (6 * k)) % 64)
  if n < 0x80 then [UInt8.ofNat n]
  else if n < 0x800 then [UInt8.ofNat (0xc0 + (n >>> 6)), trail 0]
  else if n < 0x10000 then [UInt8.ofNat (0xe0 + (n >>> 12)), trail 1, trail 0]
  else [UInt8.ofNat (0xf0 + (n >>> 18)), trail 2, trail 1, trail 0]

def encode (s : List Char) : List UInt8 := s.flatMap encodeChar

def replacement : Char := '\ufffd'

/-- A character of which some bytes have been read: `more` bytes follow the next one, which has
to lie between `lo` and `hi`. -/
structure Partial where
  more : Nat
  lo : Nat
  hi : Nat
  value : Nat

/-- What the first byte of a character says about the rest. -/
def lead (b : UInt8) : List Char × Option Partial :=
  let n := b.toNat
  if n < 0x80 then ([Char.ofNat n], none)
  else if n < 0xc2 then ([replacement], none)
  else if n < 0xe0 then ([], some ⟨0, 0x80, 0xbf, n - 0xc0⟩)
  else if n < 0xf0 then
    ([], some ⟨1, if n = 0xe0 then 0xa0 else 0x80, if n = 0xed then 0x9f else 0xbf, n - 0xe0⟩)
  else if n < 0xf5 then
    ([], some ⟨2, if n = 0xf0 then 0x90 else 0x80, if n = 0xf4 then 0x8f else 0xbf, n - 0xf0⟩)
  else ([replacement], none)

/-- Reads one byte: the characters that it settles, and the character left unfinished. -/
def feed : Option Partial → UInt8 → List Char × Option Partial
  | none, b => lead b
  | some p, b =>
    if p.lo ≤ b.toNat ∧ b.toNat ≤ p.hi then
      let value := p.value * 64 + b.toNat % 64
      match p.more with
      | 0 => ([Char.ofNat value], none)
      | more + 1 => ([], some ⟨more, 0x80, 0xbf, value⟩)
    else (replacement :: (lead b).1, (lead b).2)

def decodeFrom : Option Partial → List UInt8 → List Char
  | none, [] => []
  | some _, [] => [replacement]
  | p, b :: rest => (feed p b).1 ++ decodeFrom (feed p b).2 rest

def decodeLossy (bytes : List UInt8) : List Char := decodeFrom none bytes

def decode? (bytes : List UInt8) : Option (List Char) :=
  if encode (decodeLossy bytes) = bytes then some (decodeLossy bytes) else none

end WasmBinding.Utf8
