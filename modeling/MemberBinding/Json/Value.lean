import MemberBinding.Json.Reader

/-!
# Text as a value

A text without faults is a value. The keys of an object are put in order, and the last of several
equal keys wins.
-/

namespace MemberBinding

def Json.put (key : String) (value : Json) : List (String × Json) → List (String × Json)
  | [] => [(key, value)]
  | (k, v) :: fields =>
    if key = k then (key, value) :: fields
    else if key < k then (key, value) :: (k, v) :: fields
    else (k, v) :: Json.put key value fields

namespace Reading

mutual

def toJson? : Reading → Option Json
  | null => some .null
  | bool b => some (.bool b)
  | number n => some (.number n)
  | string s => some (.string s)
  | array items none => (toJsons? items).map .array
  | object fields none => (toJsonFields? [] fields).map .object
  | array _ (some _) | object _ (some _) | spoilt .. => none

def toJsons? : List Reading → Option (List Json)
  | [] => some []
  | r :: rs => do some ((← r.toJson?) :: (← toJsons? rs))

def toJsonFields? (done : List (String × Json)) :
    List (Reading × Reading) → Option (List (String × Json))
  | [] => some done
  | (.string k, v) :: fields => do toJsonFields? (Json.put k (← v.toJson?) done) fields
  | _ => none

end

end Reading

def Json.ofText? (text : String) : Option Json :=
  let doc := Reading.ofText text
  if doc.followed then none else doc.value.toJson?

end MemberBinding
