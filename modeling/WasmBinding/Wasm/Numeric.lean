import WasmBinding.Wasm.Trap
import WasmBinding.Wasm.Value

/-! Numeric instructions: which operands each takes, what it gives, and when it traps. -/

namespace WasmBinding.Wasm

inductive Width where
  | w32 | w64
  deriving DecidableEq, Repr

namespace Width

@[reducible] def bits : Width → Nat
  | .w32 => 32
  | .w64 => 64

def int : Width → ValType
  | .w32 => .i32
  | .w64 => .i64

def float : Width → ValType
  | .w32 => .f32
  | .w64 => .f64

def ofInt : (w : Width) → BitVec w.bits → Value
  | .w32, b => .i32 b
  | .w64, b => .i64 b

end Width

inductive IntUnary where
  | clz | ctz | popcnt | extend8 | extend16 | extend32
  deriving DecidableEq, Repr

inductive IntBinary where
  | add | sub | mul | divS | divU | remS | remU | and | or | xor | shl | shrS | shrU | rotl | rotr
  deriving DecidableEq, Repr

inductive IntCompare where
  | eq | ne | ltS | ltU | gtS | gtU | leS | leU | geS | geU
  deriving DecidableEq, Repr

inductive FloatUnary where
  | abs | neg | ceil | floor | trunc | nearest | sqrt
  deriving DecidableEq, Repr

inductive FloatBinary where
  | add | sub | mul | div | min | max | copysign
  deriving DecidableEq, Repr

inductive FloatCompare where
  | eq | ne | lt | gt | le | ge
  deriving DecidableEq, Repr

inductive NumericOp where
  | eqz (w : Width)
  | intCompare (w : Width) (op : IntCompare)
  | intUnary (w : Width) (op : IntUnary)
  | intBinary (w : Width) (op : IntBinary)
  | floatCompare (w : Width) (op : FloatCompare)
  | floatUnary (w : Width) (op : FloatUnary)
  | floatBinary (w : Width) (op : FloatBinary)
  | wrap
  | extend (signed : Bool)
  | truncate (source target : Width) (signed saturating : Bool)
  | convert (source target : Width) (signed : Bool)
  | demote
  | promote
  | bitsOfFloat (w : Width)
  | floatOfBits (w : Width)
  deriving DecidableEq, Repr

namespace IntUnary

def eval (op : IntUnary) (x : BitVec n) : BitVec n :=
  match op with
  | clz => x.clz
  | ctz => x.ctz
  | popcnt => BitVec.ofNat n ((List.range n).countP x.getLsbD)
  | extend8 => (x.setWidth 8).signExtend n
  | extend16 => (x.setWidth 16).signExtend n
  | extend32 => (x.setWidth 32).signExtend n

end IntUnary

namespace IntBinary

def eval (op : IntBinary) (x y : BitVec n) : Except Trap (BitVec n) :=
  match op with
  | add => .ok (x + y)
  | sub => .ok (x - y)
  | mul => .ok (x * y)
  | divS =>
    if y = 0 then .error .divideByZero
    else if x = BitVec.intMin n ∧ y = BitVec.allOnes n then .error .integerOverflow
    else .ok (x.sdiv y)
  | divU => if y = 0 then .error .divideByZero else .ok (x / y)
  | remS => if y = 0 then .error .divideByZero else .ok (x.srem y)
  | remU => if y = 0 then .error .divideByZero else .ok (x % y)
  | and => .ok (x &&& y)
  | or => .ok (x ||| y)
  | xor => .ok (x ^^^ y)
  | shl => .ok (x <<< (y.toNat % n))
  | shrS => .ok (x.sshiftRight (y.toNat % n))
  | shrU => .ok (x >>> (y.toNat % n))
  | rotl => .ok (x.rotateLeft (y.toNat % n))
  | rotr => .ok (x.rotateRight (y.toNat % n))

end IntBinary

namespace IntCompare

def eval (op : IntCompare) (x y : BitVec n) : Bool :=
  match op with
  | eq => x == y
  | ne => x != y
  | ltS => x.slt y
  | ltU => x.ult y
  | gtS => y.slt x
  | gtU => y.ult x
  | leS => x.sle y
  | leU => x.ule y
  | geS => y.sle x
  | geU => y.ule x

end IntCompare

/-- The integer to which a number rounds, ties to even; a number of a large enough exponent is
one already. -/
def roundEven (parts : Ieee.Parts) : Option Int :=
  match parts with
  | .finite negative significand exponent =>
    if exponent < 0 then
      let unit := 1 <<< exponent.natAbs
      let low := significand / unit
      let twice := 2 * (significand % unit)
      let magnitude : Nat :=
        if twice < unit then low else if unit < twice then low + 1
        else if low % 2 = 0 then low else low + 1
      some (if negative then -magnitude else magnitude)
    else none
  | _ => none

namespace FloatUnary

def eval32 (op : FloatUnary) (x : F32) : F32 :=
  let f := x.toFloat32
  let keepSign (y : Float32) : F32 := ⟨(F32.ofFloat32 y).bits.setWidth 31 |>.setWidth 32 |>.or (x.bits.and 0x80000000)⟩
  match op with
  | abs => ⟨x.bits.and 0x7fffffff⟩
  | neg => ⟨x.bits.xor 0x80000000⟩
  | ceil => .ofFloat32 f.ceil
  | floor => .ofFloat32 f.floor
  | trunc => if f < 0 then .ofFloat32 f.ceil else .ofFloat32 f.floor
  | nearest =>
    match roundEven x.parts with
    | some n => keepSign (Float32.ofInt n)
    | none => x
  | sqrt => .ofFloat32 f.sqrt

def eval64 (op : FloatUnary) (x : F64) : F64 :=
  let f := x.toFloat
  let keepSign (y : Float) : F64 := ⟨(F64.ofFloat y).bits.setWidth 63 |>.setWidth 64 |>.or (x.bits.and 0x8000000000000000)⟩
  match op with
  | abs => ⟨x.bits.and 0x7fffffffffffffff⟩
  | neg => ⟨x.bits.xor 0x8000000000000000⟩
  | ceil => .ofFloat f.ceil
  | floor => .ofFloat f.floor
  | trunc => if f < 0 then .ofFloat f.ceil else .ofFloat f.floor
  | nearest =>
    match roundEven x.parts with
    | some n => keepSign (Float.ofInt n)
    | none => x
  | sqrt => .ofFloat f.sqrt

end FloatUnary

namespace FloatBinary

/-- Of two zeros the negative one is the less. -/
def eval32 (op : FloatBinary) (x y : F32) : F32 :=
  let f := x.toFloat32
  let g := y.toFloat32
  match op with
  | add => .ofFloat32 (f + g)
  | sub => .ofFloat32 (f - g)
  | mul => .ofFloat32 (f * g)
  | div => .ofFloat32 (f / g)
  | min => if f < g then x else if g < f then y else if f == g then ⟨x.bits.or y.bits⟩ else .ofFloat32 (f + g)
  | max => if f < g then y else if g < f then x else if f == g then ⟨x.bits.and y.bits⟩ else .ofFloat32 (f + g)
  | copysign => ⟨(x.bits.and 0x7fffffff).or (y.bits.and 0x80000000)⟩

/-- Of two zeros the negative one is the less. -/
def eval64 (op : FloatBinary) (x y : F64) : F64 :=
  let f := x.toFloat
  let g := y.toFloat
  match op with
  | add => .ofFloat (f + g)
  | sub => .ofFloat (f - g)
  | mul => .ofFloat (f * g)
  | div => .ofFloat (f / g)
  | min => if f < g then x else if g < f then y else if f == g then ⟨x.bits.or y.bits⟩ else .ofFloat (f + g)
  | max => if f < g then y else if g < f then x else if f == g then ⟨x.bits.and y.bits⟩ else .ofFloat (f + g)
  | copysign =>
    ⟨(x.bits.and 0x7fffffffffffffff).or (y.bits.and 0x8000000000000000)⟩

end FloatBinary

namespace FloatCompare

def eval32 (op : FloatCompare) (x y : F32) : Bool :=
  let f := x.toFloat32
  let g := y.toFloat32
  match op with
  | eq => f == g
  | ne => f != g
  | lt => f < g
  | gt => g < f
  | le => f ≤ g
  | ge => g ≤ f

def eval64 (op : FloatCompare) (x y : F64) : Bool :=
  let f := x.toFloat
  let g := y.toFloat
  match op with
  | eq => f == g
  | ne => f != g
  | lt => f < g
  | gt => g < f
  | le => f ≤ g
  | ge => g ≤ f

end FloatCompare

def intRange (w : Width) (signed : Bool) : Int × Int :=
  let half : Nat := 1 <<< (w.bits - 1)
  if signed then (-half, half - 1) else (0, 2 * half - 1)

/-- The integer part of a number; one that the target cannot hold traps or goes to a bound. -/
def truncate (parts : Ieee.Parts) (target : Width) (signed saturating : Bool) : Except Trap Value :=
  let (lo, hi) := intRange target signed
  if saturating then .ok (target.ofInt (BitVec.ofInt _ (parts.saturate lo hi)))
  else
    match parts with
    | .nan => .error .badConversion
    | parts =>
      match parts.truncate with
      | some n => if lo ≤ n ∧ n ≤ hi then .ok (target.ofInt (BitVec.ofInt _ n)) else .error .integerOverflow
      | none => .error .integerOverflow

def convert (target : Width) (n : Int) : Value :=
  match target with
  | .w32 => .f32 (.ofFloat32 (if n < 0 then Float32.ofInt n else (UInt64.ofNat n.toNat).toFloat32))
  | .w64 => .f64 (.ofFloat (if n < 0 then Float.ofInt n else (UInt64.ofNat n.toNat).toFloat))

namespace NumericOp

def params : NumericOp → List ValType
  | eqz w | intUnary w _ => [w.int]
  | intCompare w _ | intBinary w _ => [w.int, w.int]
  | floatCompare w _ | floatBinary w _ => [w.float, w.float]
  | floatUnary w _ => [w.float]
  | wrap => [.i64]
  | extend _ => [.i32]
  | truncate source _ _ _ => [source.float]
  | convert source _ _ => [source.int]
  | demote => [.f64]
  | promote => [.f32]
  | bitsOfFloat w => [w.float]
  | floatOfBits w => [w.int]

def result : NumericOp → ValType
  | eqz _ | intCompare _ _ | floatCompare _ _ => .i32
  | intUnary w _ | intBinary w _ => w.int
  | floatUnary w _ | floatBinary w _ => w.float
  | wrap => .i32
  | extend _ => .i64
  | truncate _ target _ _ => target.int
  | convert _ target _ => target.float
  | demote => .f32
  | promote => .f64
  | bitsOfFloat w => w.int
  | floatOfBits w => w.float

def eval : NumericOp → List Value → Except Trap Value
  | eqz .w32, [.i32 x] => .ok (.bool (x == 0))
  | eqz .w64, [.i64 x] => .ok (.bool (x == 0))
  | intCompare .w32 op, [.i32 x, .i32 y] => .ok (.bool (op.eval x y))
  | intCompare .w64 op, [.i64 x, .i64 y] => .ok (.bool (op.eval x y))
  | intUnary .w32 op, [.i32 x] => .ok (.i32 (op.eval x))
  | intUnary .w64 op, [.i64 x] => .ok (.i64 (op.eval x))
  | intBinary .w32 op, [.i32 x, .i32 y] => (op.eval x y).map .i32
  | intBinary .w64 op, [.i64 x, .i64 y] => (op.eval x y).map .i64
  | floatCompare .w32 op, [.f32 x, .f32 y] => .ok (.bool (op.eval32 x y))
  | floatCompare .w64 op, [.f64 x, .f64 y] => .ok (.bool (op.eval64 x y))
  | floatUnary .w32 op, [.f32 x] => .ok (.f32 (op.eval32 x))
  | floatUnary .w64 op, [.f64 x] => .ok (.f64 (op.eval64 x))
  | floatBinary .w32 op, [.f32 x, .f32 y] => .ok (.f32 (op.eval32 x y))
  | floatBinary .w64 op, [.f64 x, .f64 y] => .ok (.f64 (op.eval64 x y))
  | wrap, [.i64 x] => .ok (.i32 (x.setWidth 32))
  | extend signed, [.i32 x] => .ok (.i64 (if signed then x.signExtend 64 else x.setWidth 64))
  | truncate .w32 target signed saturating, [.f32 x] => Wasm.truncate x.parts target signed saturating
  | truncate .w64 target signed saturating, [.f64 x] => Wasm.truncate x.parts target signed saturating
  | convert .w32 target signed, [.i32 x] => .ok (Wasm.convert target (if signed then x.toInt else x.toNat))
  | convert .w64 target signed, [.i64 x] => .ok (Wasm.convert target (if signed then x.toInt else x.toNat))
  | demote, [.f64 x] => .ok (.f32 (.ofFloat32 x.toFloat.toFloat32))
  | promote, [.f32 x] => .ok (.f64 (.ofFloat x.toFloat32.toFloat))
  | bitsOfFloat .w32, [.f32 x] => .ok (.i32 x.bits)
  | bitsOfFloat .w64, [.f64 x] => .ok (.i64 x.bits)
  | floatOfBits .w32, [.i32 x] => .ok (.f32 ⟨x⟩)
  | floatOfBits .w64, [.i64 x] => .ok (.f64 ⟨x⟩)
  | _, _ => .error .illTyped

end NumericOp
end WasmBinding.Wasm
