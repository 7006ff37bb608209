import MemberBinding.Binding.Command
import MemberBinding.Binding.Dependency
import MemberBinding.Binding.Property

/-! # The bindings of any kind -/

namespace MemberBinding

inductive Bindings
  | property (bindings : List (FieldBinding Member))
  | command (bindings : List (CommandBinding Member))
  | dependency (bindings : List (FieldBinding Member))
  deriving DecidableEq, Repr

def BindingKind.rules : BindingKind → Rules
  | property => Property.rules
  | command => Command.rules
  | dependency => Dependency.rules

namespace Bindings

def resolve (kind : BindingKind) (config : Config) (snapshot : Snapshot) (mode : Mode) :
    Except Failure Bindings :=
  match kind with
  | .property => (Property.resolve config snapshot mode).map .property
  | .command => (Command.resolve config snapshot mode).map .command
  | .dependency => (Dependency.resolve config snapshot mode).map .dependency

def lines : Bindings → List String
  | property bs => bs.map (·.line "field")
  | command bs => bs.map (·.line)
  | dependency bs => bs.map (·.line "descriptor")

end Bindings
end MemberBinding
