import MemberBinding.Json.Decoder
import MemberBinding.Snapshot

/-!
# Snapshots as JSON

Fields are written in a fixed order; an absent option and an empty list of parameters or marks are
left out. A mark is an object tagged by `type`, and a link puts its fields beside the tag.
-/

namespace MemberBinding

namespace LinkKind

def toJson (k : LinkKind) : Json := .string k.name

def decode : Decoder LinkKind := .enumeration vocabulary

end LinkKind

namespace MemberKind

def toJson (k : MemberKind) : Json := .string k.label

def decode : Decoder MemberKind := .enumeration vocabulary

end MemberKind

namespace Link

def jsonFields (l : Link) : List (String × Json) :=
  [("kind", l.kind.toJson), ("name", .string l.name)] ++
    Json.fieldOf "second_name" .string l.secondName

def toJson (l : Link) : Json := .object l.jsonFields

def shape : Shape Link where
  name := "ExplicitLink"
  blank := ⟨.field, "", none⟩
  fields := [
    .of "kind" LinkKind.decode (fun v l => { l with kind := v }) true,
    .of "name" .string (fun v l => { l with name := v }) true,
    .of "second_name" (.optional .string) fun v l => { l with secondName := v }]

def decode : Decoder Link := shape.decode

end Link

/-- What the tag of a mark says. -/
inductive MarkTag
  | included | excluded | link | requireExplicitLink | suppressAutoField
  deriving DecidableEq, Repr

namespace MarkTag

def name : MarkTag → String
  | included => "include"
  | excluded => "exclude"
  | link => "link"
  | requireExplicitLink => "require_explicit_link"
  | suppressAutoField => "suppress_auto_field"

def vocabulary : Vocabulary MarkTag :=
  ⟨"annotation", [included, excluded, link, requireExplicitLink, suppressAutoField], name⟩

/-- A mark other than a link has no content: an array of it is empty. -/
def bare (mark : Mark) : Reading → Except DecodeError Mark
  | .array (r :: rs) _ =>
    Mismatch.refuse (.wrongLength (r :: rs).length "0 elements in sequence")
  | _ => .ok mark

/-- The mark of a tag, from what stands beside the tag. -/
def mark (tag : MarkTag) (content : Reading) : Except DecodeError Mark :=
  match tag with
  | included => bare .included content
  | excluded => bare .excluded content
  | link => (Link.decode { source := .content } content).map .link
  | requireExplicitLink => bare .requireExplicitLink content
  | suppressAutoField => bare .suppressAutoField content

end MarkTag

namespace Mark

def toJson : Mark → Json
  | included => .object [("type", .string "include")]
  | excluded => .object [("type", .string "exclude")]
  | link l => .object (("type", .string "link") :: l.jsonFields)
  | requireExplicitLink => .object [("type", .string "require_explicit_link")]
  | suppressAutoField => .object [("type", .string "suppress_auto_field")]

/-- The tag among the fields of an object, and the other fields in order. -/
def splitTag (p : Place) (tag : Option MarkTag) (others : List (Reading × Reading)) :
    List (Reading × Reading) →
      Except DecodeError (Option MarkTag × List (Reading × Reading))
  | [] => .ok (tag, others.reverse)
  | (key, value) :: rest =>
    match key with
    | .string k =>
      if k = "type" then
        match tag with
        | some _ => Mismatch.refuse (.duplicateField "type")
        | none => do splitTag p (some (← Decoder.identifier MarkTag.vocabulary value)) others rest
      else do
        value.readThrough p
        splitTag p tag ((key, value) :: others) rest
    | key => key.keyFault.refuse

def decode : Decoder Mark := fun p r =>
  match r with
  | .array [] cut => do
    let _ ← p.enter
    endOf cut ()
    Mismatch.refuse (.missingField "type")
  | .array (tag :: items) cut => do
    let p ← p.enter
    let tag ← Decoder.identifier MarkTag.vocabulary tag
    Reading.readItems p items
    endOf cut ()
    tag.mark (.array items none)
  | .object fields cut => do
    let (tag, others) ← splitTag (← p.enter) none [] fields
    endOf cut ()
    match tag with
    | some tag => tag.mark (.object others none)
    | none => Mismatch.refuse (.missingField "type")
  | r => .error (r.wrongType "internally tagged enum Annotation")

end Mark

namespace Member

def ifAny (key : String) : List Json → List (String × Json)
  | [] => []
  | items => [(key, .array items)]

def toJson (m : Member) : Json :=
  .object <|
    [("name", .string m.name), ("kind", m.kind.toJson)] ++
      Json.fieldOf "value_type" .string m.valueType ++
      Json.fieldOf "return_type" .string m.returnType ++
      ifAny "parameters" (m.parameters.map .string) ++
      [("is_static", .bool m.isStatic)] ++
      ifAny "annotations" (m.marks.map Mark.toJson)

def shape : Shape Member where
  name := "Member"
  blank := { name := "", kind := .field }
  fields := [
    .of "name" .string (fun v m => { m with name := v }) true,
    .of "kind" MemberKind.decode (fun v m => { m with kind := v }) true,
    .of "value_type" (.optional .string) fun v m => { m with valueType := v },
    .of "return_type" (.optional .string) fun v m => { m with returnType := v },
    .of "parameters" (.list .string) fun v m => { m with parameters := v },
    .of "is_static" .bool fun v m => { m with isStatic := v },
    .of "annotations" (.list Mark.decode) fun v m => { m with marks := v }]

def decode : Decoder Member := shape.decode

end Member

namespace Snapshot

def toJson (s : Snapshot) : Json :=
  .object [("name", .string s.name), ("members", .array (s.members.map Member.toJson))]

def shape : Shape Snapshot where
  name := "TypeSnapshot"
  blank := { name := "" }
  fields := [
    .of "name" .string (fun v s => { s with name := v }) true,
    .of "members" (.list Member.decode) fun v s => { s with members := v }]

def decode : Decoder Snapshot := shape.decode

end Snapshot
end MemberBinding
