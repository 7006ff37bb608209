import MemberBinding.Json.Basic

/-!
# Text read as JSON, with its faults in place

Reading never fails: a fault stands in the tree where it was met, so that whoever walks the tree
from left to right meets the first problem first, be it a fault of the text or a value of the
wrong shape. A value may be looked at or skipped. Skipping forgives a number that is too large and
an escape that is half a character, so a spoilt value has a fault for each way of meeting it.
-/

namespace MemberBinding

inductive Fault
  | malformed
  /-- The text ends too early. -/
  | truncated
  deriving DecidableEq, Repr

/-- What a spoilt value begins with: nothing at the end of the text, a quote, or anything else. -/
inductive Opening
  | nothing | quote | other
  deriving DecidableEq, Repr

inductive Reading
  | null
  | bool (b : Bool)
  | number (n : Number)
  | string (s : String)
  /-- `cut` is a fault where a comma or the end was due. -/
  | array (items : List Reading) (cut : Option Fault)
  /-- Only the last key can be other than a string. -/
  | object (fields : List (Reading × Reading)) (cut : Option Fault)
  | spoilt (opening : Opening) (fault : Fault) (skipped : Option Fault)
  deriving Repr

namespace Reading

instance : Inhabited Reading := ⟨null⟩

/-- The fault met at a key that can only be a string. -/
def keyFault : Reading → Fault
  | spoilt .other _ _ => .malformed
  | spoilt _ fault _ => fault
  | _ => .malformed

def skipKey : Reading → Option Fault
  | string _ => none
  | spoilt .quote _ skipped => skipped
  | key => some key.keyFault

mutual

/-- The first fault that skipping a value meets. -/
def skipFault : Reading → Option Fault
  | array items cut => (skipItems items).or cut
  | object fields cut => (skipFields fields).or cut
  | spoilt _ _ skipped => skipped
  | _ => none

def skipItems : List Reading → Option Fault
  | [] => none
  | r :: rs => r.skipFault.or (skipItems rs)

def skipFields : List (Reading × Reading) → Option Fault
  | [] => none
  | (k, v) :: fields => k.skipKey.or (v.skipFault.or (skipFields fields))

end

end Reading

namespace Json

mutual

def toReading : Json → Reading
  | null => .null
  | bool b => .bool b
  | number n => .number n
  | string s => .string s
  | array items => .array (toReadings items) none
  | object fields => .object (toReadingFields fields) none

def toReadings : List Json → List Reading
  | [] => []
  | j :: js => j.toReading :: toReadings js

def toReadingFields : List (String × Json) → List (Reading × Reading)
  | [] => []
  | (k, j) :: fields => (.string k, j.toReading) :: toReadingFields fields

end

end Json
end MemberBinding
