import MemberBinding.Binding.Bindings
import MemberBinding.Codec.Member

/-! # Bindings as JSON -/

namespace MemberBinding

private def memberOrNull (m : Option Member) : Json := Json.orNull Member.toJson m

def FieldBinding.toJson (b : FieldBinding Member) : Json :=
  .object [("property", b.property.toJson), ("field", memberOrNull b.field)]

def CommandBinding.toJson (b : CommandBinding Member) : Json :=
  .object [
    ("execute", b.execute.toJson), ("can_execute", memberOrNull b.canExecute),
    ("property", memberOrNull b.property), ("field", memberOrNull b.field)]

def Bindings.toJson : Bindings → Json
  | property bs | dependency bs => .array (bs.map FieldBinding.toJson)
  | command bs => .array (bs.map CommandBinding.toJson)

end MemberBinding
