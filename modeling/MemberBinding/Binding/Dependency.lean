import MemberBinding.Binding.FieldBinding

/-!
# Dependency properties and their descriptors

The descriptor is a static field of the platform's descriptor type.
-/

namespace MemberBinding.Dependency

def descriptorFaults (types : TypeNames) (m : Member) : List Violation :=
  (if m.isStatic then [] else [.shape "field" m.name "can not be non static"]) ++
    if m.declaredType == some types.dependencyProperty then []
    else [.shape "field" m.name s!"must be of type '{types.dependencyProperty}'"]

theorem descriptorFaults_eq_nil_iff {types : TypeNames} {m : Member} :
    descriptorFaults types m = [] ↔
      m.isStatic = true ∧ m.declaredType = some types.dependencyProperty := by
  simp [descriptorFaults]

def profile : FieldBinding.Profile where
  kind := .dependency
  property := .dependencyProperty
  field := .dependencyField
  admits _ _ := true
  faults types _ field := descriptorFaults types field

def rules : Rules := profile.rules

def positions (config : Config) (snapshot : Snapshot) (mode : Mode) :
    Except Failure (List (FieldBinding Nat)) :=
  profile.positions config snapshot mode

def resolve (config : Config) (snapshot : Snapshot) (mode : Mode) :
    Except Failure (List (FieldBinding Member)) :=
  profile.resolve config snapshot mode

end MemberBinding.Dependency
