import WasmBinding.Text.Json

/-! The settings of an environment, their JSON form and their description in diagnostics. In JSON a
missing field has its default, an unknown one is ignored and a repeated one is refused; a list
gives the fields in their order. -/

namespace WasmBinding

open Text (Json)

inductive OptLevel where
  | none | speed | speedAndSize
  deriving DecidableEq, Repr

namespace OptLevel

def describe : OptLevel → String
  | .none => "None"
  | .speed => "Speed"
  | .speedAndSize => "SpeedAndSize"

def name : OptLevel → String
  | .none => "none"
  | .speed => "speed"
  | .speedAndSize => "speed_and_size"

def ofName? (s : String) : Option OptLevel :=
  [OptLevel.none, .speed, .speedAndSize].find? fun level => level.name == s

/-- A level is written as its name, or as an object whose one member has that name and no value. -/
def ofJson? : Json → Option OptLevel
  | .string (some s) => ofName? s
  | .object [(some s, .null)] => ofName? s
  | _ => Option.none

end OptLevel

structure Settings where
  optLevel : OptLevel := .speed
  /-- Bulk memory operations; without them there are no reference types either. -/
  bulkMemory : Bool := true
  multiValue : Bool := true
  debugInfo : Bool := false
  deriving DecidableEq, Repr

namespace Settings

def default : Settings := {}

def describe (title : String) (s : Settings) : String :=
  title ++ " \x7b opt_level: " ++ s.optLevel.describe ++ ", bulk_memory: " ++ toString s.bulkMemory ++
    ", multi_value: " ++ toString s.multiValue ++ ", debug_info: " ++ toString s.debugInfo ++ " \x7d"

def toJson (s : Settings) : String :=
  "\x7b\"opt_level\":\"" ++ s.optLevel.name ++ "\",\"bulk_memory\":" ++ toString s.bulkMemory ++
    ",\"multi_value\":" ++ toString s.multiValue ++ ",\"debug_info\":" ++ toString s.debugInfo ++ "\x7d"

def boolOfJson? : Json → Option Bool
  | .bool b => some b
  | _ => none

inductive Field where
  | optLevel | bulkMemory | multiValue | debugInfo
  deriving DecidableEq

namespace Field

def all : List Field := [.optLevel, .bulkMemory, .multiValue, .debugInfo]

def name : Field → String
  | .optLevel => "opt_level"
  | .bulkMemory => "bulk_memory"
  | .multiValue => "multi_value"
  | .debugInfo => "debug_info"

def set? (f : Field) (value : Json) (s : Settings) : Option Settings :=
  match f with
  | .optLevel => (OptLevel.ofJson? value).map fun level => { s with optLevel := level }
  | .bulkMemory => (boolOfJson? value).map fun b => { s with bulkMemory := b }
  | .multiValue => (boolOfJson? value).map fun b => { s with multiValue := b }
  | .debugInfo => (boolOfJson? value).map fun b => { s with debugInfo := b }

end Field

/-- Sets fields from members, refusing one that is no longer among those `left`. -/
def ofMembers? : (left : List Field) → List (Option String × Json) → Settings → Option Settings
  | _, [], s => some s
  | _, (none, _) :: _, _ => none
  | left, (some key, value) :: rest, s =>
    match Field.all.find? fun f => f.name == key with
    | none => ofMembers? left rest s
    | some f => if f ∈ left then (f.set? value s).bind (ofMembers? (left.erase f) rest) else none

/-- Sets fields in order from a list that may be shorter but not longer. -/
def ofItems? : List Field → List Json → Settings → Option Settings
  | _, [], s => some s
  | [], _ :: _, _ => none
  | f :: fields, value :: rest, s => (f.set? value s).bind (ofItems? fields rest)

def ofJson? : Json → Option Settings
  | .object members => ofMembers? Field.all members default
  | .array items => ofItems? Field.all items default
  | _ => none

def parse? (text : String) : Option Settings := (Json.parse? text).bind ofJson?

end Settings
end WasmBinding
