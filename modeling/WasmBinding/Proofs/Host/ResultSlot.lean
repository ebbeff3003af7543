import WasmBinding.Host.Function

/-! What host functions make of the slots that they get. The slots and the memory decide whether a function is called at all; if
it is, it gets what the slots behind those of its result hold, and of all slots only the leading one can change. -/

namespace WasmBinding

namespace ResultType

/-- Slots in the first of which there is a result, if there is one. -/
def put : (r : ResultType) → r.Carrier → List Slot → List Slot
  | none, _, stack => stack
  | some t, v, stack => stack.set 0 (t.toSlot v)

theorem store_eq (r : ResultType) (v : r.Carrier) (enough : r.slots ≤ stack.length) :
    r.store v stack = some (r.put v stack) := by
  cases r with
  | none => rfl
  | some t =>
    cases stack with
    | nil => simp [slots] at enough
    | cons _ rest => rfl

end ResultType

namespace HostFunction

variable {σ : Type} {f : HostFunction σ} {e : Exchange}

/-- Whether the function looks at the memory of its caller. -/
def views (f : HostFunction σ) : Bool :=
  match f.body with
  | .plain _ => false
  | .viewing _ => true

/-- What the function itself does: what it leaves of the memory, the state of the host, and its result unless it gives up. -/
def enter (f : HostFunction σ) (memory : Option Memory) (args : Args f.params) (host : σ) :
    Option Memory × σ × Option f.result.Carrier :=
  match f.body, memory with
  | .plain run, memory => (memory, run args host)
  | .viewing run, some m => (some (run m args host).1.val, (run m args host).2)
  | .viewing _, none => (none, host, none)

/-- The same function, which takes down the arguments of each call. -/
def traced (f : HostFunction σ) : HostFunction (σ × List (Args f.params)) where
  params := f.params
  result := f.result
  body :=
    match f.body with
    | .plain run => .plain fun args host => (((run args host.1).1, host.2 ++ [args]), (run args host.1).2)
    | .viewing run => .viewing fun m args host =>
        ((run m args host.1).1, ((run m args host.1).2.1, host.2 ++ [args]), (run m args host.1).2.2)

/-- The same function with a view of memory, at which it does not look. -/
def ignoring (f : HostFunction σ) : HostFunction σ :=
  { f with
    body :=
      match f.body with
      | .plain run => .viewing fun m args host => (Memory.After.unchanged m, run args host)
      | .viewing run => .viewing run }

/-- The memory that the function looks at is there. -/
def Equipped (f : HostFunction σ) (e : Exchange) : Prop := f.views → e.memory ≠ none

/-- There is one slot for the result, if there is one, and one for each argument. -/
def Fits (f : HostFunction σ) (stack : List Slot) : Prop := stack.length = f.result.slots + f.params.length

theorem apply_of_missing (missing : ¬ f.Equipped e) (host : σ) :
    f.apply e host = (.failed .invalidMemoryAccess, ⟨e, .refl e⟩, host) := by
  obtain ⟨params, result, body⟩ := f
  obtain ⟨stack, memory⟩ := e
  cases body with
  | plain run => exact absurd (fun looks => nomatch looks) missing
  | viewing run =>
    cases memory with
    | none => rfl
    | some m => exact absurd (fun _ => Option.some_ne_none m) missing

theorem apply_of_misfit (equipped : f.Equipped e) (misfit : ¬ f.Fits e.stack) (host : σ) :
    f.apply e host = (.failed .invalidSignature, ⟨e, .refl e⟩, host) := by
  have none : f.args? e.stack = none := if_neg misfit
  obtain ⟨params, result, body⟩ := f
  obtain ⟨stack, memory⟩ := e
  cases body with
  | plain run => simp only [apply, none]
  | viewing run =>
    cases memory with
    | none => exact absurd rfl (equipped rfl)
    | some m => simp only [apply, none]

theorem memory_storeResult (f : HostFunction σ) (e : Exchange) (value : Option f.result.Carrier) :
    (f.storeResult e value).2.memory = e.memory := by
  unfold storeResult
  split
  · rfl
  · split <;> rfl

/-- A function that is called at all is called once, and then its result is stored. -/
theorem apply_of_args (equipped : f.Equipped e) (given : f.args? e.stack = some args) (host : σ) :
    (f.apply e host).1 = (f.storeResult ⟨e.stack, (f.enter e.memory args host).1⟩ (f.enter e.memory args host).2.2).1 ∧
      (f.apply e host).2.1.val =
        (f.storeResult ⟨e.stack, (f.enter e.memory args host).1⟩ (f.enter e.memory args host).2.2).2 ∧
      (f.apply e host).2.2 = (f.enter e.memory args host).2.1 := by
  obtain ⟨params, result, body⟩ := f
  obtain ⟨stack, memory⟩ := e
  cases body with
  | plain run => simp only [apply, given, enter, and_self]
  | viewing run =>
    cases memory with
    | none => exact absurd rfl (equipped rfl)
    | some m => simp only [apply, given, enter, and_self]

/-- What is left of an exchange when a function has been called once. -/
structure Leaves (f : HostFunction σ) (e : Exchange) (args : Args f.params) (host : σ) : Prop where
  memory : (f.apply e host).2.1.val.memory = (f.enter e.memory args host).1
  user : (f.apply e host).2.2 = (f.enter e.memory args host).2.1
  gaveUp : (f.enter e.memory args host).2.2 = none → (f.apply e host).1 = .gaveUp ∧ (f.apply e host).2.1.val.stack = e.stack
  done : ∀ v, (f.enter e.memory args host).2.2 = some v →
    (f.apply e host).1 = .done ∧ (f.apply e host).2.1.val.stack = f.result.put v e.stack

theorem leaves_of_fits (equipped : f.Equipped e) (fits : f.Fits e.stack) (host : σ) :
    f.Leaves e (Args.ofSlots f.params (e.stack.drop f.result.slots)) host := by
  have enough : f.result.slots ≤ e.stack.length := fits ▸ Nat.le_add_right _ _
  obtain ⟨outcome, after, user⟩ := f.apply_of_args equipped (if_pos fits) host
  refine ⟨?_, user, fun gaveUp => ?_, fun v done => ?_⟩
  · rw [after, memory_storeResult]
  · rw [outcome, after, gaveUp]
    exact ⟨rfl, rfl⟩
  · rw [outcome, after, done]
    simp only [storeResult, f.result.store_eq v enough, and_self]

theorem equipped_traced : f.traced.Equipped e ↔ f.Equipped e := by
  obtain ⟨params, result, body⟩ := f
  cases body <;> rfl

theorem enter_traced (equipped : f.Equipped e) (args : Args f.params) (host : σ) (calls : List (Args f.params)) :
    (f.traced.enter e.memory args (host, calls)).2.1.2 = calls ++ [args] := by
  obtain ⟨params, result, body⟩ := f
  obtain ⟨stack, memory⟩ := e
  cases body with
  | plain run => rfl
  | viewing run =>
    cases memory with
    | none => exact absurd rfl (equipped rfl)
    | some m => rfl

theorem enter_ignoring (present : e.memory ≠ none) (args : Args f.params) (host : σ) :
    f.ignoring.enter e.memory args host = f.enter e.memory args host := by
  obtain ⟨params, result, body⟩ := f
  obtain ⟨stack, memory⟩ := e
  cases memory with
  | none => exact absurd rfl present
  | some m => cases body <;> rfl

theorem storeResult_ignoring (f : HostFunction σ) (e : Exchange) (value : Option f.result.Carrier) :
    f.ignoring.storeResult e value = f.storeResult e value := by
  cases value <;> rfl

theorem apply_ignoring (f : HostFunction σ) (present : e.memory ≠ none) (host : σ) :
    f.ignoring.apply e host = f.apply e host := by
  have equipped (g : HostFunction σ) : g.Equipped e := fun _ => present
  by_cases fits : f.Fits e.stack
  · obtain ⟨outcome, after, user⟩ := f.apply_of_args (equipped f) (if_pos fits) host
    obtain ⟨outcome', after', user'⟩ := f.ignoring.apply_of_args (equipped _) (if_pos fits) host
    have same := enter_ignoring present (Args.ofSlots f.params (e.stack.drop f.result.slots)) host
    have stored := (f.storeResult_ignoring _ _).trans (congrArg (fun left => f.storeResult ⟨e.stack, left.1⟩ left.2.2) same)
    refine Prod.ext ?_ (Prod.ext (Subtype.ext ?_) ?_)
    · exact outcome'.trans ((congrArg Prod.fst stored).trans outcome.symm)
    · exact after'.trans ((congrArg Prod.snd stored).trans after.symm)
    · exact user'.trans ((congrArg (·.2.1) same).trans user.symm)
  · have refused := apply_of_misfit (equipped f.ignoring) (mt id fits) host
    exact refused.trans (apply_of_misfit (equipped f) fits host).symm

/-- What a host function makes of an exchange. -/
structure Answers (f : HostFunction σ) (e : Exchange) (host : σ) : Prop where
  missing : (f.apply e host).1 = .failed .invalidMemoryAccess ↔ f.views ∧ e.memory = none
  misfit : (f.apply e host).1 = .failed .invalidSignature ↔
    (f.views → e.memory ≠ none) ∧ e.stack.length ≠ f.result.slots + f.params.length
  /-- There is no other error. The function is not called then, and nothing changes. -/
  refused : ∀ error, (f.apply e host).1 = .failed error →
    (error = .invalidMemoryAccess ∨ error = .invalidSignature) ∧ f.apply e host = (.failed error, ⟨e, .refl e⟩, host) ∧
      ∀ calls, (f.traced.apply e (host, calls)).2.2.2 = calls
  /-- Otherwise it is called once, with what the slots behind those of the result hold. -/
  called : (∀ error, (f.apply e host).1 ≠ .failed error) → ∃ args,
    Args.toScalars f.params args = List.zipWith Scalar.ofSlot f.params (e.stack.drop f.result.slots) ∧
      f.Leaves e args host ∧ ∀ calls, (f.traced.apply e (host, calls)).2.2.2 = calls ++ [args]

theorem answers_of_missing (missing : ¬ f.Equipped e) (host : σ) : f.Answers e host := by
  have refused := apply_of_missing missing host
  have traced := apply_of_missing (mt equipped_traced.mp missing)
  have none : f.views ∧ e.memory = none := by simpa [Equipped] using missing
  refine ⟨?_, ?_, fun error failed => ?_, fun fine => absurd (congrArg Prod.fst refused) (fine _)⟩
  · simp [refused, none]
  · simp [refused, none]
  · rw [refused] at failed ⊢
    cases failed
    exact ⟨.inl rfl, rfl, fun calls => by rw [traced]⟩

theorem answers_of_misfit (equipped : f.Equipped e) (misfit : ¬ f.Fits e.stack) (host : σ) : f.Answers e host := by
  have refused := apply_of_misfit equipped misfit host
  have traced := apply_of_misfit (equipped_traced.mpr equipped) misfit
  refine ⟨?_, ?_, fun error failed => ?_, fun fine => absurd (congrArg Prod.fst refused) (fine _)⟩
  · simpa [refused, Equipped] using equipped
  · simp only [refused, true_iff]
    exact ⟨equipped, misfit⟩
  · rw [refused] at failed ⊢
    cases failed
    exact ⟨.inr rfl, rfl, fun calls => by rw [traced]⟩

theorem answers_of_fits (equipped : f.Equipped e) (fits : f.Fits e.stack) (host : σ) : f.Answers e host := by
  have leaves := leaves_of_fits equipped fits host
  have length : (e.stack.drop f.result.slots).length = f.params.length := by
    rw [List.length_drop, fits, Nat.add_sub_cancel_left]
  have fine (error : Error) : (f.apply e host).1 ≠ .failed error := by
    intro failed
    cases value : (f.enter e.memory (Args.ofSlots f.params (e.stack.drop f.result.slots)) host).2.2 with
    | none => cases failed.symm.trans (leaves.gaveUp value).1
    | some v => cases failed.symm.trans (leaves.done v value).1
  refine ⟨?_, ?_, fun error failed => absurd failed (fine error), fun _ => ⟨_, ?_, leaves, fun calls => ?_⟩⟩
  · refine iff_of_false (fine _) ?_
    rintro ⟨looks, none⟩
    exact equipped looks none
  · exact iff_of_false (fine _) fun misfit => misfit.2 fits
  · exact Args.toScalars_ofSlots f.params _ length
  · have traced := (leaves_of_fits (equipped_traced.mpr equipped) fits (host, calls)).user
    rw [traced]
    exact enter_traced equipped _ host calls

/-- Of the slots that a host function gets, it changes at most the one in which its result belongs. Nor does it matter to the
slots whether it takes a view of memory and ignores it. -/
theorem only_result_slot (f : HostFunction σ) (e : Exchange) (host : σ) :
    f.Answers e host ∧ f.ignoring.signature = f.signature ∧
      (e.memory ≠ none → f.ignoring.apply e host = f.apply e host) := by
  refine ⟨?_, rfl, fun present => f.apply_ignoring present host⟩
  by_cases equipped : f.Equipped e
  · by_cases fits : f.Fits e.stack
    · exact answers_of_fits equipped fits host
    · exact answers_of_misfit equipped fits host
  · exact answers_of_missing equipped host

end HostFunction
end WasmBinding
