import MemberBinding.Text.Vocabulary

/-! # The kinds of binding -/

namespace MemberBinding

inductive BindingKind
  | property | command | dependency
  deriving DecidableEq, Repr

namespace BindingKind

def key : BindingKind → String
  | property => "property"
  | command => "command"
  | dependency => "dependency"

/-- The kind as messages name it. -/
def label : BindingKind → String
  | property => "property"
  | command => "command"
  | dependency => "dependency property"

def vocabulary : Vocabulary BindingKind := ⟨"binding kind", [property, command, dependency], key⟩

end BindingKind
end MemberBinding
