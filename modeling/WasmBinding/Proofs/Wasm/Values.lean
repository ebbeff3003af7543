import WasmBinding.Host.Args
import WasmBinding.Wasm.Value

/-! Values on both sides of the boundary. A scalar of the host and the number of WebAssembly with the same bits have
one slot, and each can be had from that slot. -/

namespace WasmBinding

open Wasm (ValType Value)

theorem Wasm.ValType.tag_inj {a b : ValType} (same : a.tag = b.tag) (known : a.tag ≠ .unknown) : a = b := by
  cases a <;> cases b <;> simp_all [tag]

theorem Wasm.Value.ofSlot?_some {v : Value} (h : ofSlot? slot tag = some v) : v.type.tag = tag ∧ tag ≠ .unknown := by
  cases tag <;> simp only [ofSlot?, Option.some.injEq, reduceCtorEq] at h <;> subst h <;> exact ⟨rfl, by decide⟩

/-- Values that have types with the same tags have those types, if all of the tags stand for numbers. -/
theorem Wasm.types_of_tags {values : List Value} {types : List ValType}
    (same : values.map (·.type.tag) = types.map (·.tag)) (known : ∀ t ∈ types, t.tag ≠ .unknown) :
    values.map Value.type = types := by
  induction values generalizing types with
  | nil =>
    cases types with
    | nil => rfl
    | cons t ts => simp at same
  | cons v rest ih =>
    cases types with
    | nil => simp at same
    | cons t ts =>
      simp only [List.map_cons, List.cons.injEq] at same
      have first : v.type = t := ValType.tag_inj same.1 (same.1 ▸ known t List.mem_cons_self)
      rw [List.map_cons, first, ih same.2 fun t among => known t (List.mem_cons_of_mem _ among)]

namespace ScalarType

theorem tag_ne_unknown (t : ScalarType) : t.tag ≠ .unknown := by cases t <;> decide

def valType : ScalarType → ValType
  | .i32 | .u32 => .i32
  | .i64 | .u64 | .isize => .i64
  | .f32 => .f32
  | .f64 => .f64

@[simp] theorem tag_valType (t : ScalarType) : t.valType.tag = t.tag := by cases t <;> rfl

theorem eq_valType_iff {t : ScalarType} {type : ValType} : type = t.valType ↔ type.tag = t.tag := by
  constructor
  · rintro rfl
    exact t.tag_valType
  · intro same
    exact ValType.tag_inj (same.trans t.tag_valType.symm) (same ▸ t.tag_ne_unknown)

/-- Tags tell the types of numbers apart, so that a list of types is known by its tags if they are those of scalars. -/
theorem map_valType_iff {types : List ValType} {scalars : List ScalarType} :
    types = scalars.map valType ↔ types.map (·.tag) = scalars.map tag := by
  induction types generalizing scalars with
  | nil => simp [eq_comm]
  | cons type rest ih => cases scalars <;> simp [ih, eq_valType_iff]

def toValue : (t : ScalarType) → t.Carrier → Value
  | .i32, v => .i32 v.toBitVec
  | .u32, v => .i32 v.toBitVec
  | .i64, v | .isize, v => .i64 v.toBitVec
  | .u64, v => .i64 v.toBitVec
  | .f32, v => .f32 v
  | .f64, v => .f64 v

@[simp] theorem tag_toValue (t : ScalarType) (v : t.Carrier) : (t.toValue v).type.tag = t.tag := by
  cases t <;> rfl

@[simp] theorem toSlot?_toValue (t : ScalarType) (v : t.Carrier) : (t.toValue v).toSlot? = some (t.toSlot v) := by
  cases t <;> simp [toValue, Value.toSlot?, toSlot, toBits]

@[simp] theorem ofSlot?_toSlot (t : ScalarType) (v : t.Carrier) :
    Value.ofSlot? (t.toSlot v) t.tag = some (t.toValue v) := by
  cases t <;> simp [toValue, Value.ofSlot?, toSlot, toBits, tag]

@[simp] theorem ofSlot_toSlot (t : ScalarType) (v : t.Carrier) : t.ofSlot (t.toSlot v) = v := by
  have fits : t.width ≤ 64 := by cases t <;> decide
  rw [ofSlot, toSlot, BitVec.setWidth_setWidth_of_le _ fits, BitVec.setWidth_eq, ofBits_toBits]

theorem ofSlot?_tag (t : ScalarType) (slot : Slot) : Value.ofSlot? slot t.tag = some (t.toValue (t.ofSlot slot)) := by
  cases t <;> simp [toValue, Value.ofSlot?, ofSlot, ofBits, tag]

theorem toValue_inj {t : ScalarType} {v w : t.Carrier} (same : t.toValue v = t.toValue w) : v = w := by
  have slots := congrArg Value.toSlot? same
  rw [toSlot?_toValue, toSlot?_toValue, Option.some.injEq] at slots
  rw [← ofSlot_toSlot t v, slots, ofSlot_toSlot]

/-- Types of the embedder that stand for one type of number read the same number from a slot. -/
theorem toValue_ofSlot {t u : ScalarType} (same : t.tag = u.tag) (slot : Slot) :
    t.toValue (t.ofSlot slot) = u.toValue (u.ofSlot slot) := by
  have read := ofSlot?_tag t slot
  rw [same, ofSlot?_tag u slot] at read
  exact (Option.some.inj read).symm

theorem exists_toValue {t : ScalarType} {v : Value} (h : v.type.tag = t.tag) : ∃ c, t.toValue c = v := by
  cases v with
  | i32 b => cases t <;> first | contradiction | exact ⟨⟨⟨b⟩⟩, rfl⟩ | exact ⟨⟨b⟩, rfl⟩
  | i64 b => cases t <;> first | contradiction | exact ⟨⟨⟨b⟩⟩, rfl⟩ | exact ⟨⟨b⟩, rfl⟩
  | f32 x => cases t <;> first | contradiction | exact ⟨x, rfl⟩
  | f64 x => cases t <;> first | contradiction | exact ⟨x, rfl⟩
  | v128 | funcref => cases t <;> contradiction

end ScalarType

namespace Scalar

def toValue (s : Scalar) : Value := s.type.toValue s.val

@[simp] theorem tag_toValue (s : Scalar) : s.toValue.type.tag = s.type.tag := s.type.tag_toValue s.val

@[simp] theorem toSlot?_toValue (s : Scalar) : s.toValue.toSlot? = some s.toSlot := s.type.toSlot?_toValue s.val

/-- Scalars are read back from their slots as the numbers with their bits. -/
theorem mapM_ofSlot? (args : List Scalar) :
    ((args.map toSlot).zip (args.map (·.type.tag))).mapM (fun (slot, tag) => Value.ofSlot? slot tag) =
      some (args.map toValue) := by
  induction args with
  | nil => rfl
  | cons a rest ih =>
    have first : Value.ofSlot? a.toSlot a.type.tag = some a.toValue := a.type.ofSlot?_toSlot a.val
    simp only [List.map_cons, List.zip_cons_cons, List.mapM_cons, first, ih, Option.bind_eq_bind, Option.bind_some,
      Option.pure_def]

/-- The number that a scalar stands for says all that crosses the boundary. -/
theorem same_of_toValue {args others : List Scalar} (same : others.map toValue = args.map toValue) :
    others.map (·.type.tag) = args.map (·.type.tag) ∧ others.map toSlot = args.map toSlot := by
  have tags (l : List Scalar) : l.map (·.type.tag) = (l.map toValue).map (·.type.tag) := by
    simp [Function.comp_def]
  have slots (l : List Scalar) : (l.map toSlot).map some = (l.map toValue).map Value.toSlot? := by
    simp [Function.comp_def]
  refine ⟨by rw [tags, tags, same], ?_⟩
  apply (List.map_inj_right fun _ _ => Option.some.inj).mp
  rw [slots, slots, same]

end Scalar

namespace ResultType

/-- The numbers that a result comes to, of which there is at most one. -/
def toValues : (r : ResultType) → r.Carrier → List Value
  | none, _ => []
  | some t, v => [t.toValue v]

theorem tags_toValues (r : ResultType) (v : r.Carrier) :
    (r.toValues v).map (·.type.tag) = (r.map ScalarType.tag).toList := by
  cases r with
  | none => rfl
  | some t => simp [toValues]

theorem values_of_store {r : ResultType} {v : r.Carrier} (stored : r.store v stack = some after) :
    (after.zip (r.map ScalarType.tag).toList).mapM (fun (slot, tag) => Value.ofSlot? slot tag) =
      some (r.toValues v) := by
  cases r with
  | none => simp [toValues]
  | some t =>
    cases stack with
    | nil => simp [store] at stored
    | cons slot rest =>
      cases stored
      simp [toValues]

theorem store_of_slots (r : ResultType) (v : r.Carrier) (args : List Slot) :
    ∃ after, r.store v (List.replicate r.slots 0 ++ args) = some after := by
  cases r with
  | none => exact ⟨_, rfl⟩
  | some t => exact ⟨_, rfl⟩

end ResultType

namespace Args

/-- Numbers of the types of parameters are those of one argument list, which is read back from their slots. -/
theorem exists_of_values {params : List ScalarType} {values : List Value}
    (h : values.map (·.type.tag) = params.map ScalarType.tag) :
    ∃ (args : Args params) (slots : List Slot), (toScalars params args).map Scalar.toValue = values ∧
      values.mapM Value.toSlot? = some slots ∧ slots.length = params.length ∧ ofSlots params slots = args := by
  induction params generalizing values with
  | nil =>
    cases values with
    | nil => exact ⟨(), [], rfl, rfl, rfl, rfl⟩
    | cons v rest => simp at h
  | cons t ts ih =>
    cases values with
    | nil => simp at h
    | cons v rest =>
      simp only [List.map_cons, List.cons.injEq] at h
      obtain ⟨c, rfl⟩ := ScalarType.exists_toValue h.1
      obtain ⟨args, slots, rfl, carried, length, back⟩ := ih h.2
      exact ⟨(c, args), t.toSlot c :: slots, rfl, by simp [carried], by simp [length],
        by simp only [ofSlots, ScalarType.ofSlot_toSlot, back]⟩

end Args
end WasmBinding
