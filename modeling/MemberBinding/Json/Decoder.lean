import MemberBinding.Json.Mismatch
import MemberBinding.Json.Reader
import MemberBinding.Text.Vocabulary

/-!
# Decoders

A decoder takes a value apart from left to right and stops at the first problem. It differs a
little between a text that is being read, a value at hand, and the content of a tagged value, which
is read in full before it is decoded. Text may nest 127 containers, those skipped apart.
-/

namespace MemberBinding

inductive Source
  | text | value | content
  deriving DecidableEq, Repr

/-- `room` counts the containers that a text may still open, plus one. -/
structure Place where
  source : Source
  room : Nat := 128
  deriving DecidableEq, Repr

abbrev Decoder (α : Type) := Place → Reading → Except DecodeError α

def Fault.refuse {α : Type} (fault : Fault) : Except DecodeError α := .error (.fault fault)

def Mismatch.refuse {α : Type} (m : Mismatch) : Except DecodeError α := .error (.mismatch m)

/-- The place inside a container. -/
def Place.enter (p : Place) : Except DecodeError Place :=
  match p.source with
  | .text => if p.room ≤ 1 then Fault.malformed.refuse else .ok { p with room := p.room - 1 }
  | _ => .ok p

/-- At the end of a container. -/
def endOf {α : Type} (cut : Option Fault) (a : α) : Except DecodeError α :=
  match cut with
  | some fault => fault.refuse
  | none => .ok a

namespace Decoder

def string : Decoder String := fun _ r =>
  match r with
  | .string s => .ok s
  | r => .error (r.wrongType "a string")

def bool : Decoder Bool := fun _ r =>
  match r with
  | .bool b => .ok b
  | r => .error (r.wrongType "a boolean")

/-- A machine word without a sign. -/
def size : Decoder Nat := fun _ r =>
  match r with
  | .number (.natural n) => .ok n
  | .number (.negative n) => Mismatch.refuse (.wrongValue (.number (.negative n)) "usize")
  | r => .error (r.wrongType "usize")

def optional {α : Type} (d : Decoder α) : Decoder (Option α) := fun p r =>
  match r with
  | .null => .ok none
  | r => (d p r).map some

def list {α : Type} (d : Decoder α) : Decoder (List α) := fun p r =>
  match r with
  | .array items cut => do endOf cut (← items.mapM (d (← p.enter)))
  | r => .error (r.wrongType "a sequence")

def variant {α : Type} (v : Vocabulary α) (name : String) : Except DecodeError α :=
  match v.find? name with
  | some a => .ok a
  | none => Mismatch.refuse (.unknownVariant name v.words)

/-- The variant that stands as a tag. -/
def identifier {α : Type} (v : Vocabulary α) : Reading → Except DecodeError α
  | .string s => variant v s
  | r => .error (r.wrongType "variant identifier")

/-- Nothing; content may also spell it as an empty object. -/
def unit : Decoder Unit := fun p r =>
  match p.source, r with
  | _, .null => .ok ()
  | .content, .object [] _ => .ok ()
  | _, r => .error (r.wrongType "unit")

/-- A word by itself, or as the one key of an object that holds nothing. -/
def enumeration {α : Type} (v : Vocabulary α) : Decoder α := fun p r =>
  match p.source, r with
  | _, .string s => variant v s
  | .text, .object [] cut => do
    let _ ← p.enter
    (cut.getD .malformed).refuse
  | .text, .object ((.string name, value) :: more) cut => do
    let p ← p.enter
    let a ← variant v name
    unit p value
    if more.isEmpty then endOf cut a else Fault.malformed.refuse
  | .text, .object ((key, _) :: _) _ => do
    let _ ← p.enter
    key.keyFault.refuse
  | .text, r => r.keyFault.refuse
  | _, .object [(.string name, value)] _ => do
    let a ← variant v name
    unit p value
    .ok a
  | _, .object .. => Mismatch.refuse (.wrongValue .map "map with a single key")
  | _, r => .error (r.wrongType "string or map")

end Decoder

/-! ## Records -/

/-- A field of a record under construction: decoding it tells how to set it. -/
structure Field (α : Type) where
  key : String
  required : Bool := false
  decode : Decoder (α → α)

/-- A record: the object of its fields, in any order and with others between them, or the array of
its fields in their order. `blank` has the values of the fields that may be left out. -/
structure Shape (α : Type) where
  name : String
  blank : α
  fields : List (Field α)

def Field.of {α β : Type} (key : String) (d : Decoder β) (set : β → α → α)
    (required : Bool := false) : Field α :=
  ⟨key, required, fun p r => (d p r).map set⟩

private def elements : Nat → String
  | 1 => "1 element"
  | n => s!"{n} elements"

namespace Shape

variable {α : Type} (shape : Shape α)

def field? (key : String) : Option (Field α) := shape.fields.find? (·.key == key)

def firstMissing? (seen : List String) : Option String :=
  (shape.fields.find? fun f => f.required && !seen.contains f.key).map (·.key)

/-- `seen` holds the keys of the fields decoded so far. -/
def decodeFields (p : Place) (acc : α) (seen : List String) :
    List (Reading × Reading) → Except DecodeError (α × List String)
  | [] => .ok (acc, seen)
  | (key, value) :: rest =>
    match key with
    | .string k =>
      match shape.field? k with
      | some f =>
        if seen.contains k then Mismatch.refuse (.duplicateField k)
        else do decodeFields p ((← f.decode p value) acc) (k :: seen) rest
      | none =>
        match value.skipFault with
        | some fault => fault.refuse
        | none => decodeFields p acc seen rest
    | key => key.keyFault.refuse

/-- More items than fields. -/
def tooLong (p : Place) (length : Nat) : Except DecodeError α :=
  match p.source with
  | .text => Fault.malformed.refuse
  | .value => Mismatch.refuse (.wrongLength length "fewer elements in array")
  | .content =>
    Mismatch.refuse (.wrongLength length (elements shape.fields.length ++ " in sequence"))

/-- `index` counts the fields decoded so far. -/
def decodeItems (p : Place) (cut : Option Fault) (index : Nat) (acc : α) :
    List (Field α) → List Reading → Except DecodeError α
  | [], [] => endOf cut acc
  | [], items => shape.tooLong p (index + items.length)
  | f :: fs, item :: items => do
    decodeItems p cut (index + 1) ((← f.decode p item) acc) fs items
  | f :: fs, [] =>
    match cut with
    | some fault => fault.refuse
    | none =>
      if f.required then
        Mismatch.refuse (.wrongLength index
          s!"struct {shape.name} with {elements shape.fields.length}")
      else decodeItems p cut (index + 1) acc fs []

def decode : Decoder α := fun p r =>
  match r with
  | .array items cut => do shape.decodeItems (← p.enter) cut 0 shape.blank shape.fields items
  | .object fields cut => do
    let (a, seen) ← shape.decodeFields (← p.enter) shape.blank [] fields
    endOf cut ()
    match shape.firstMissing? seen with
    | some key => Mismatch.refuse (.missingField key)
    | none => .ok a
  | r => .error (r.wrongType s!"struct {shape.name}")

end Shape

/-! ## Content that is read in full before it is decoded -/

namespace Reading

mutual

def readThrough (p : Place) : Reading → Except DecodeError Unit
  | array items cut => do
    readItems (← p.enter) items
    endOf cut ()
  | object fields cut => do
    readFields (← p.enter) fields
    endOf cut ()
  | spoilt _ fault _ => fault.refuse
  | _ => .ok ()

def readItems (p : Place) : List Reading → Except DecodeError Unit
  | [] => .ok ()
  | r :: rs => do
    r.readThrough p
    readItems p rs

def readFields (p : Place) : List (Reading × Reading) → Except DecodeError Unit
  | [] => .ok ()
  | (.string _, v) :: fields => do
    v.readThrough p
    readFields p fields
  | (key, _) :: _ => key.keyFault.refuse

end

end Reading

namespace Decoder

/-- What follows a value in a text is noticed last. -/
def ofText {α : Type} (d : Decoder α) (text : String) : Except DecodeError α := do
  let doc := Reading.ofText text
  let a ← d ⟨.text, 128⟩ doc.value
  if doc.followed then Fault.malformed.refuse else .ok a

def ofValue {α : Type} (d : Decoder α) (j : Json) : Except DecodeError α :=
  d { source := .value } j.toReading

end Decoder
end MemberBinding
