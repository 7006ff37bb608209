import MemberBinding.Naming.Convention
import MemberBinding.Naming.Role

/-! # One convention per role, and the conversion of names between roles -/

namespace MemberBinding

structure Conventions where
  of : Role → Convention

namespace Conventions

def standard : Conventions where
  of
    | .field => .plain .lowerCamel
    | .property => .plain .upperCamel
    | .commandField => ⟨.lowerCamel, "", "Command"⟩
    | .commandProperty => ⟨.upperCamel, "", "Command"⟩
    | .dependencyField => ⟨.upperCamel, "", "Property"⟩
    | .dependencyProperty => .plain .upperCamel
    | .executeMethod => ⟨.upperCamel, "Execute", "Method"⟩
    | .canExecuteMethod => ⟨.upperCamel, "CanExecute", "Method"⟩

def set (cs : Conventions) (role : Role) (c : Convention) : Conventions where
  of r := if r = role then c else cs.of r

/-- The words of `name` under its old role, written under the new one. -/
def convert (cs : Conventions) (name : String) (source target : Role) : Except NameFault String :=
  ((cs.of source).segment name).map (cs.of target).compile

@[simp] theorem of_set_self (cs : Conventions) (r : Role) (c : Convention) :
    (cs.set r c).of r = c := by simp [set]

theorem of_set_of_ne (cs : Conventions) {r s : Role} (c : Convention) (h : s ≠ r) :
    (cs.set r c).of s = cs.of s := by simp [set, h]

end Conventions
end MemberBinding
