import MemberBinding.Json.Number

/-! # JSON values -/

namespace MemberBinding

inductive Json
  | null
  | bool (b : Bool)
  | number (n : Number)
  | string (s : String)
  | array (items : List Json)
  | object (fields : List (String × Json))
  deriving Repr

namespace Json

instance : Inhabited Json := ⟨null⟩

def nat (n : Nat) : Json := number (.natural n)

def strings (ss : List String) : Json := array (ss.map string)

/-- A field for a value that is present, and no field for one that is not. -/
def fieldOf {α : Type} (key : String) (encode : α → Json) (a : Option α) : List (String × Json) :=
  a.toList.map fun a => (key, encode a)

def orNull {α : Type} (encode : α → Json) (a : Option α) : Json := (a.map encode).getD null

/-- The value of a field. -/
def get? (j : Json) (key : String) : Option Json :=
  match j with
  | object fields => fields.lookup key
  | _ => none

end Json
end MemberBinding
