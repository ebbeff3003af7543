import Mathlib.Algebra.Group.Nat.Defs
import WasmBinding.Proofs.Wasm.Values

/-! The bits of a slot that belong to its value. Slots that are made of numbers have no others, and of slots that are read only
these bits matter. -/

namespace WasmBinding

open Wasm (Value)

namespace ValueTag

/-- How many bits of a slot belong to a value; no value of another type is held by one. -/
def width : ValueTag → Nat
  | .i32 | .f32 => 32
  | .i64 | .f64 => 64
  | .none | .unknown => 0

/-- The slot holds nothing beside a value. -/
def Canonical (tag : ValueTag) (slot : Slot) : Prop := slot.toNat < 2 ^ tag.width

/-- The slots hold the same value, whatever they hold beside it. -/
def SameBits (tag : ValueTag) (a b : Slot) : Prop := a.toNat % 2 ^ tag.width = b.toNat % 2 ^ tag.width

/-- Slots for values of some types, of which each holds the same value as its counterpart. Behind them there may be others. -/
structure SameValues (tags : List ValueTag) (a b : List Slot) : Prop where
  length : a.length = b.length
  bits : ∀ (i : Nat) (tag : ValueTag) (x y : Slot), tags[i]? = some tag → a[i]? = some x → b[i]? = some y →
    tag.SameBits x y

theorem SameValues.refl (tags : List ValueTag) (a : List Slot) : SameValues tags a a where
  length := rfl
  bits _ _ _ _ _ first second := by
    cases first.symm.trans second
    rfl

/-- Only the first slot counts if there is one type. -/
theorem SameValues.first {xs ys : List Slot} (same : tag.SameBits x y) (length : xs.length = ys.length) :
    SameValues [tag] (x :: xs) (y :: ys) where
  length := congrArg (· + 1) length
  bits i _ _ _ known first second := by
    cases i with
    | succ => contradiction
    | zero =>
      cases known
      cases first
      cases second
      exact same

end ValueTag

namespace Wasm.Value

theorem canonical_of_toSlot? {v : Value} (carried : v.toSlot? = some slot) : v.type.tag.Canonical slot := by
  cases v with
  | i32 b =>
    cases carried
    have bound := b.isLt
    simpa [ValueTag.Canonical, type, ValType.tag, ValueTag.width] using by omega
  | f32 x =>
    cases carried
    have bound := x.bits.isLt
    simpa [ValueTag.Canonical, type, ValType.tag, ValueTag.width] using by omega
  | i64 b => exact slot.isLt
  | f64 x => exact slot.isLt
  | v128 | funcref => contradiction

theorem ofSlot?_congr (same : tag.SameBits a b) : ofSlot? a tag = ofSlot? b tag := by
  have narrow {a b : Slot} (same : a.toNat % 2 ^ 32 = b.toNat % 2 ^ 32) : a.setWidth 32 = b.setWidth 32 :=
    BitVec.eq_of_toNat_eq (by rwa [BitVec.toNat_setWidth, BitVec.toNat_setWidth])
  have whole {a b : Slot} (same : a.toNat % 2 ^ 64 = b.toNat % 2 ^ 64) : a = b :=
    BitVec.eq_of_toNat_eq (by rwa [Nat.mod_eq_of_lt a.isLt, Nat.mod_eq_of_lt b.isLt] at same)
  cases tag with
  | i32 | f32 => simp only [ofSlot?, narrow same]
  | i64 | f64 => simp only [ofSlot?, whole same]
  | none | unknown => rfl

/-- Values are read alike from slots that hold the same. -/
theorem mapM_ofSlot?_congr (same : ValueTag.SameValues tags a b) :
    (a.zip tags).mapM (fun (slot, tag) => ofSlot? slot tag) = (b.zip tags).mapM (fun (slot, tag) => ofSlot? slot tag) := by
  induction tags generalizing a b with
  | nil => simp
  | cons tag rest ih =>
    cases a with
    | nil => rw [List.length_eq_zero_iff.mp same.length.symm]
    | cons x xs =>
      cases b with
      | nil => exact absurd same.length (by simp)
      | cons y ys =>
        have first := ofSlot?_congr (same.bits 0 tag x y rfl rfl rfl)
        have others : ValueTag.SameValues rest xs ys :=
          ⟨Nat.succ.inj same.length, fun i tag x y there left right => same.bits (i + 1) tag x y there left right⟩
        simp only [List.zip_cons_cons, List.mapM_cons, first, ih others]

theorem map_of_mapM {values : List Value} (carried : values.mapM toSlot? = some slots) :
    slots.map some = values.map toSlot? := by
  induction values generalizing slots with
  | nil =>
    cases carried
    rfl
  | cons v rest ih =>
    simp only [List.mapM_cons, Option.bind_eq_bind, Option.bind_eq_some_iff, Option.pure_def, Option.some.injEq] at carried
    obtain ⟨slot, first, others, carried, rfl⟩ := carried
    rw [List.map_cons, List.map_cons, first, ih carried]

/-- Slots of values, one behind the other, hold nothing beside these. -/
theorem exists_of_carried {slots : List Slot} {values : List Value} {i : Nat}
    (carried : slots.map some <+: values.map toSlot?) (here : slots[i]? = some slot) :
    ∃ v : Value, values[i]? = some v ∧ v.toSlot? = some slot ∧ v.type.tag.Canonical slot := by
  obtain ⟨more, all⟩ := carried
  have inside := (List.getElem?_eq_some_iff.mp here).1
  have same : (values.map toSlot?)[i]? = some (some slot) := by
    rw [← all, List.getElem?_append_left (by rwa [List.length_map]), List.getElem?_map, here]
    rfl
  rw [List.getElem?_map, Option.map_eq_some_iff] at same
  obtain ⟨v, there, carried⟩ := same
  exact ⟨v, there, carried, canonical_of_toSlot? carried⟩

end Wasm.Value
end WasmBinding
