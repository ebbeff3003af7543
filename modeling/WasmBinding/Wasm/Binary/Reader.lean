import WasmBinding.Text.Utf8

/-! Reading the items of a binary from a list of bytes. A reader that needs more bytes than there
are reports the end of the input, whatever it was reading. -/

namespace WasmBinding.Wasm

abbrev Bytes := List UInt8

inductive Rejection where
  | endOfInput
  | duplicateExport (name : String)
  | malformed (reason : String)
  | invalid (reason : String)
  deriving DecidableEq, Repr

namespace Rejection

def message : Rejection → String
  | endOfInput => "unexpected end-of-file"
  | duplicateExport name => "duplicate export name `" ++ name ++ "` already defined"
  | malformed reason => reason
  | invalid reason => reason

end Rejection

abbrev Reader := StateT Bytes (Except Rejection)

namespace Reader

def byte : Reader UInt8 := fun bytes =>
  match bytes with
  | [] => .error .endOfInput
  | b :: rest => .ok (b, rest)

/-- The next byte, which stays unread. -/
def peek : Reader UInt8 := fun bytes =>
  match bytes with
  | [] => .error .endOfInput
  | b :: rest => .ok (b, b :: rest)

def take (count : Nat) : Reader Bytes := fun bytes =>
  if count ≤ bytes.length then .ok (bytes.take count, bytes.drop count) else .error .endOfInput

def atEnd : Reader Bool := fun bytes => .ok (bytes.isEmpty, bytes)

def malformed {α : Type} (reason : String) : Reader α := throw (.malformed reason)

/-- An unsigned number in groups of seven bits, lowest first: at most `more` full groups, and then
one of which `last` bits count. -/
def unsigned (last : Nat) : (more : Nat) → Reader Nat
  | 0 => do
    let b ← byte
    if b.toNat < 1 <<< last then return b.toNat else malformed "integer representation too long"
  | more + 1 => do
    let b ← byte
    if b.toNat < 128 then return b.toNat
    else return b.toNat - 128 + 128 * (← unsigned last more)

/-- A signed number in groups of seven bits, lowest first. -/
def signed (last : Nat) : (more : Nat) → Reader Int
  | 0 => do
    let b ← byte
    if b.toNat < 1 <<< (last - 1) then return b.toNat
    else if 128 - (1 <<< (last - 1)) ≤ b.toNat ∧ b.toNat < 128 then return (b.toNat : Int) - 128
    else malformed "integer representation too long"
  | more + 1 => do
    let b ← byte
    if b.toNat < 64 then return b.toNat
    else if b.toNat < 128 then return (b.toNat : Int) - 128
    else return (b.toNat : Int) - 128 + 128 * (← signed last more)

def u32 : Reader Nat := unsigned 4 4

def u64 : Reader Nat := unsigned 1 9

def s32 : Reader Int := signed 4 4

def s33 : Reader Int := signed 5 4

def s64 : Reader Int := signed 1 9

def repeated {α : Type} (item : Reader α) : (count : Nat) → Reader (List α)
  | 0 => return []
  | count + 1 => do
    let a ← item
    return a :: (← repeated item count)

def vector {α : Type} (item : Reader α) : Reader (List α) := do repeated item (← u32)

def sized : Reader Bytes := do take (← u32)

def name : Reader String := do
  let length ← u32
  if length > 100000 then malformed "string size out of bounds"
  match Utf8.decode? (← take length) with
  | some text => return String.ofList text
  | none => malformed "malformed UTF-8 encoding"

/-- Reads bytes of their own from the first to the last. -/
def whole {α : Type} (item : Reader α) (bytes : Bytes) : Except Rejection α := do
  let (a, rest) ← item bytes
  if rest.isEmpty then return a
  else throw (.malformed "section size mismatch: unexpected data at the end of the section")

end Reader
end WasmBinding.Wasm
