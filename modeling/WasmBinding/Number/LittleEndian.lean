/-! Numbers as byte lists, least significant byte first. Writing then reading gives the number
back modulo the width, and every byte list is what its number is written as. -/

namespace WasmBinding.LittleEndian

def toBytes : (count : Nat) → Nat → List UInt8
  | 0, _ => []
  | count + 1, n => UInt8.ofNat n :: toBytes count (n / 256)

def ofBytes : List UInt8 → Nat
  | [] => 0
  | b :: rest => b.toNat + 256 * ofBytes rest

@[simp] theorem length_toBytes (count n : Nat) : (toBytes count n).length = count := by
  induction count generalizing n with
  | zero => rfl
  | succ count ih => simp [toBytes, ih]

theorem shiftLeft_succ_byte (count : Nat) :
    1 <<< (8 * (count + 1)) = 256 * (1 <<< (8 * count)) := by
  simp only [Nat.shiftLeft_eq, Nat.one_mul, Nat.mul_add, Nat.mul_one, Nat.pow_add]
  omega

theorem ofBytes_toBytes (count n : Nat) :
    ofBytes (toBytes count n) = n % (1 <<< (8 * count)) := by
  induction count generalizing n with
  | zero => simp [toBytes, ofBytes, Nat.mod_one]
  | succ count ih =>
    simp only [toBytes, ofBytes, ih, shiftLeft_succ_byte]
    rw [Nat.mod_mul]
    simp

theorem toBytes_ofBytes (bs : List UInt8) : toBytes bs.length (ofBytes bs) = bs := by
  induction bs with
  | nil => rfl
  | cons b rest ih =>
    have low : UInt8.ofNat (b.toNat + 256 * ofBytes rest) = b := by
      apply UInt8.toNat.inj
      simp
    have high : (b.toNat + 256 * ofBytes rest) / 256 = ofBytes rest := by
      have := b.toNat_lt
      omega
    simp [toBytes, ofBytes, low, high, ih]

theorem ofBytes_lt (bs : List UInt8) : ofBytes bs < 1 <<< (8 * bs.length) := by
  induction bs with
  | nil => simp [ofBytes]
  | cons b rest ih =>
    have := b.toNat_lt
    simp only [ofBytes, List.length_cons, shiftLeft_succ_byte]
    omega

end WasmBinding.LittleEndian
