/-! Floating point numbers, kept as their IEEE bits so that moving one never changes it.
Arithmetic goes through the hardware types; conversion to an integer is computed exactly. -/

namespace WasmBinding

structure F32 where
  bits : BitVec 32
  deriving DecidableEq, Repr, Inhabited

structure F64 where
  bits : BitVec 64
  deriving DecidableEq, Repr, Inhabited

/-- What a floating point bit pattern stands for: a signed multiple of a power of two. -/
inductive Ieee.Parts where
  | nan
  | infinite (negative : Bool)
  | finite (negative : Bool) (significand : Nat) (exponent : Int)
  deriving DecidableEq, Repr

namespace Ieee

/-- Splits `1 + expBits + fracBits` bits into sign, exponent and fraction. -/
def parts (expBits fracBits : Nat) (bits : Nat) : Parts :=
  let fraction := bits % (1 <<< fracBits)
  let exponent := (bits >>> fracBits) % (1 <<< expBits)
  let negative := (bits >>> (fracBits + expBits)) % 2 == 1
  let bias : Int := (1 <<< (expBits - 1) : Nat) - 1 + fracBits
  if exponent = (1 <<< expBits) - 1 then
    if fraction = 0 then .infinite negative else .nan
  else if exponent = 0 then .finite negative fraction (1 - bias)
  else .finite negative ((1 <<< fracBits) + fraction) (exponent - bias)

/-- The integer nearest to the number in the direction of zero. -/
def Parts.truncate : Parts → Option Int
  | .nan | .infinite _ => none
  | .finite negative significand exponent =>
    let magnitude : Nat :=
      if exponent < 0 then significand >>> exponent.natAbs else significand <<< exponent.natAbs
    some (if negative then -magnitude else magnitude)

/-- As `truncate`, with infinities and numbers out of range taken to the nearest bound and
no number taken to zero. -/
def Parts.saturate (lo hi : Int) : Parts → Int
  | .nan => 0
  | .infinite negative => if negative then lo else hi
  | p@(.finite ..) => max lo (min hi (p.truncate.getD 0))

end Ieee

namespace F32

def parts (x : F32) : Ieee.Parts := Ieee.parts 8 23 x.bits.toNat

def toFloat32 (x : F32) : Float32 := Float32.ofBits (UInt32.ofBitVec x.bits)

def ofFloat32 (x : Float32) : F32 := ⟨x.toBits.toBitVec⟩

end F32

namespace F64

def parts (x : F64) : Ieee.Parts := Ieee.parts 11 52 x.bits.toNat

def toFloat (x : F64) : Float := Float.ofBits (UInt64.ofBitVec x.bits)

def ofFloat (x : Float) : F64 := ⟨x.toBits.toBitVec⟩

end F64
end WasmBinding
