import MemberBinding.Binding.FieldBinding
import MemberBinding.Binding.Shape

/-!
# Properties and their backing fields

The field has the type of the property. Properties that hold a command are left to the command
binding.
-/

namespace MemberBinding.Property

def profile : FieldBinding.Profile where
  kind := .property
  property := .property
  field := .field
  admits types m := !(m.valueType == some types.command)
  faults _ property field := sameTypeFaults "property" property "field" field

def rules : Rules := profile.rules

def positions (config : Config) (snapshot : Snapshot) (mode : Mode) :
    Except Failure (List (FieldBinding Nat)) :=
  profile.positions config snapshot mode

def resolve (config : Config) (snapshot : Snapshot) (mode : Mode) :
    Except Failure (List (FieldBinding Member)) :=
  profile.resolve config snapshot mode

end MemberBinding.Property
