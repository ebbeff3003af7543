import WasmBinding.Scalar
import WasmBinding.Text.Basic

/-! The written form of a function type: a character for the result, and between parentheses one for
each parameter. Blanks may stand anywhere. -/

namespace WasmBinding

structure Signature where
  result : Option ValueTag
  params : List ValueTag
  deriving DecidableEq, Repr

namespace Signature

/-- The result that a character stands for, if it stands for one. -/
def resultOfCode? : Char → Option (Option ValueTag)
  | 'v' => some none
  | c => (ValueTag.ofCode? c).map some

/-- The parameters up to a closing parenthesis, which comes last. -/
def paramsOfCodes? : List Char → Option (List ValueTag)
  | [] => none
  | [')'] => some []
  | c :: rest => do
    let type ← ValueTag.ofCode? c
    return type :: (← paramsOfCodes? rest)

def ofCodes? : List Char → Option Signature
  | result :: '(' :: rest => do return ⟨← resultOfCode? result, ← paramsOfCodes? rest⟩
  | _ => none

def parse? (text : String) : Option Signature :=
  ofCodes? (text.toList.filter fun c => !Text.isBlank c)

def write (result : Char) (params : List Char) : String :=
  String.ofList (result :: '(' :: params ++ [')'])

end Signature
end WasmBinding
