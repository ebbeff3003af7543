import Std.Data.ExtTreeMap
import WasmBinding.Host.Function
import WasmBinding.Script.MemoryStep

/-! Host functions given as data. They keep a journal of their calls. -/

namespace WasmBinding.Script

structure JournalEntry where
  label : String
  args : List Scalar
  /-- The answers of the accesses to memory, if they were made. -/
  memory : Option (List MemoryAnswer)

/-- How often each function has been called, and what was noted since the journal was last emptied. -/
structure Journal where
  calls : Std.ExtTreeMap Nat Nat := ∅
  entries : List JournalEntry := []

inductive GiveUp where
  | never
  /-- Before it looks at memory. -/
  | before
  | after
  | onError
  deriving DecidableEq, Repr

inductive ResultRule where
  | sum
  | product
  | difference
  | calls
  | lastAnswer
  | operand (o : Operand)
  deriving DecidableEq, Repr

structure HostScript where
  /-- Under which number the calls of the function are counted. -/
  number : Nat
  label : String
  params : List ScalarType
  result : ResultType
  /-- Whether it looks at the memory of its caller. -/
  viewing : Bool
  steps : Option (List MemoryStep)
  giveUp : GiveUp
  rule : ResultRule
  deriving DecidableEq, Repr

namespace ResultRule

/-- The slot, given those of the arguments, the number of calls and the answers of memory. -/
def eval (slots : List Slot) (count : Nat) (answers : List MemoryAnswer) (rule : ResultRule) : Slot :=
  match rule with
  | .sum => slots.foldl (· + ·) 0
  | .product => slots.foldl (· * ·) 1
  | .difference => slots.getD 0 0 - slots.getD 1 0
  | .calls => BitVec.ofNat 64 count
  | .lastAnswer => (answers.getLast?.map MemoryAnswer.number).getD 0
  | .operand o => o.eval slots

end ResultRule

namespace HostScript

/-- Counts and notes a call; answers the result unless the function gives up. -/
def conclude (s : HostScript) (args : List Scalar) (answers : Option (List MemoryAnswer)) (j : Journal) :
    Journal × Option s.result.Carrier :=
  let calls := j.calls.getD s.number 0 + 1
  let j : Journal :=
    { calls := j.calls.insert s.number calls
      entries := j.entries ++ [⟨s.label, args, answers⟩] }
  let answers := answers.getD []
  let givesUp := match s.giveUp with
    | .never => false
    | .before | .after => true
    | .onError => answers.any MemoryAnswer.isFailure
  if givesUp then (j, none)
  else (j, some (s.result.ofSlot (s.rule.eval (args.map Scalar.toSlot) calls answers)))

def function (s : HostScript) : HostFunction Journal where
  params := s.params
  result := s.result
  body :=
    if s.viewing then
      .viewing fun m args j =>
        let args := Args.toScalars s.params args
        match s.steps, s.giveUp with
        | none, _ | _, .before => (Memory.After.unchanged m, s.conclude args none j)
        | some steps, _ =>
          let (after, answers) := MemoryStep.runAll (args.map Scalar.toSlot) m steps
          (after, s.conclude args (some answers) j)
    else .plain fun args j => s.conclude (Args.toScalars s.params args) none j

end HostScript
end WasmBinding.Script
