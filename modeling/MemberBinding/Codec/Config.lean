import MemberBinding.BindingKind
import MemberBinding.Config
import MemberBinding.Json.Decoder

/-! # Settings as JSON -/

namespace MemberBinding

namespace TypeNames

def toJson (t : TypeNames) : Json :=
  .object [
    ("void_type", .string t.void),
    ("bool_type", .string t.boolean),
    ("command_type", .string t.command),
    ("command_assignable_types", .strings t.commandAssignable),
    ("dependency_property_type", .string t.dependencyProperty)]

def shape : Shape TypeNames where
  name := "TypeSystem"
  blank := ⟨"", "", "", [], ""⟩
  fields := [
    .of "void_type" .string (fun v t => { t with void := v }) true,
    .of "bool_type" .string (fun v t => { t with boolean := v }) true,
    .of "command_type" .string (fun v t => { t with command := v }) true,
    .of "command_assignable_types" (.list .string)
      (fun v t => { t with commandAssignable := v }) true,
    .of "dependency_property_type" .string (fun v t => { t with dependencyProperty := v }) true]

def decode : Decoder TypeNames := shape.decode

end TypeNames

namespace Options

def toJson (o : Options) : Json :=
  .object [
    ("skip_invalid_names", .bool o.skipInvalidNames),
    ("prefer_explicit_over_name_search", .bool o.preferExplicit)]

def shape : Shape Options where
  name := "ResolveOptions"
  blank := {}
  fields := [
    .of "skip_invalid_names" .bool fun v o => { o with skipInvalidNames := v },
    .of "prefer_explicit_over_name_search" .bool fun v o => { o with preferExplicit := v }]

def decode : Decoder Options := shape.decode

end Options

namespace Mode

def toJson (m : Mode) : Json := .string m.key

def decode : Decoder Mode := .enumeration vocabulary

end Mode

namespace BindingKind

def toJson (k : BindingKind) : Json := .string k.key

def decode : Decoder BindingKind := .enumeration vocabulary

end BindingKind

namespace Scheme

def toJson (s : Scheme) : Json := .string s.name

def decode : Decoder Scheme := .enumeration vocabulary

end Scheme

namespace Role

def toJson (r : Role) : Json := .string r.name

def decode : Decoder Role := .enumeration names

end Role
end MemberBinding
