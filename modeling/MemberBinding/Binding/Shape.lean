import MemberBinding.Violation

/-! # Checks on the shape of bound members -/

namespace MemberBinding

def sameTypeFaults (leftRole : String) (left : Member) (rightRole : String) (right : Member) :
    List Violation :=
  if left.declaredType == right.declaredType then []
  else [.typeMismatch leftRole left.name rightRole right.name]

/-- A bound method has no parameters and returns `type`. -/
def methodFaults (role : String) (m : Member) (type : String) : List Violation :=
  (if m.parameters.isEmpty then [] else [.shape role m.name "can not have parameters"]) ++
    if m.returns type then [] else [.shape role m.name s!"must return '{type}'"]

theorem sameTypeFaults_eq_nil_iff {leftRole rightRole : String} {left right : Member} :
    sameTypeFaults leftRole left rightRole right = [] ↔ left.declaredType = right.declaredType := by
  simp [sameTypeFaults]

theorem methodFaults_eq_nil_iff {role type : String} {m : Member} :
    methodFaults role m type = [] ↔ m.parameters = [] ∧ m.returnType = some type := by
  simp [methodFaults, Member.returns]

end MemberBinding
