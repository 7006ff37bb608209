import MemberBinding.Json.Reading
import MemberBinding.Text.Quoted

/-! # Why a JSON value is refused -/

namespace MemberBinding

/-- What stands where something else was expected. -/
inductive Found
  | null
  | bool (b : Bool)
  | number (n : Number)
  | string (s : String)
  | sequence
  | map
  deriving DecidableEq, Repr

def Found.text : Found → String
  | null => "null"
  | bool b => s!"boolean `{b}`"
  | number (.real minus x) => s!"floating point `{(Number.real minus x).text}`"
  | number n => s!"integer `{n.text}`"
  | string s => "string " ++ Quoted.encode s
  | sequence => "sequence"
  | map => "map"

inductive Mismatch
  | wrongType (found : Found) (expected : String)
  | wrongValue (found : Found) (expected : String)
  | wrongLength (length : Nat) (expected : String)
  | unknownVariant (name : String) (known : List String)
  | missingField (key : String)
  | duplicateField (key : String)
  deriving DecidableEq, Repr

namespace Mismatch

private def alternatives : List String → String
  | [] => "there are no variants"
  | [a] => s!"expected `{a}`"
  | [a, b] => s!"expected `{a}` or `{b}`"
  | names => "expected one of " ++ ", ".intercalate (names.map fun n => s!"`{n}`")

def message : Mismatch → String
  | wrongType found expected => s!"invalid type: {found.text}, expected {expected}"
  | wrongValue found expected => s!"invalid value: {found.text}, expected {expected}"
  | wrongLength length expected => s!"invalid length {length}, expected {expected}"
  | unknownVariant name known => s!"unknown variant `{name}`, " ++ alternatives known
  | missingField key => s!"missing field `{key}`"
  | duplicateField key => s!"duplicate field `{key}`"

end Mismatch

inductive DecodeError
  | fault (fault : Fault)
  | mismatch (mismatch : Mismatch)
  deriving DecidableEq, Repr

def Fault.message : Fault → String
  | malformed => "malformed JSON"
  | truncated => "the JSON text ends too early"

def DecodeError.message : DecodeError → String
  | fault f => f.message
  | mismatch m => m.message

namespace Reading

def found : Reading → Except Fault Found
  | null => .ok .null
  | bool b => .ok (.bool b)
  | number n => .ok (.number n)
  | string s => .ok (.string s)
  | array .. => .ok .sequence
  | object .. => .ok .map
  | spoilt _ fault _ => .error fault

/-- A value of the wrong type; a spoilt one is refused for its fault. -/
def wrongType (r : Reading) (expected : String) : DecodeError :=
  match r.found with
  | .ok found => .mismatch (.wrongType found expected)
  | .error fault => .fault fault

end Reading
end MemberBinding
