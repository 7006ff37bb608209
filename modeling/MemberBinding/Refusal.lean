import MemberBinding.Diagnostics
import MemberBinding.Naming.Convention

/-! # Why a request has no result -/

namespace MemberBinding

inductive Refusal
  | naming (fault : NameFault)
  | resolution (failure : Failure)
  deriving DecidableEq, Repr

def Refusal.message : Refusal → String
  | naming fault => s!"Naming error: {fault.message}"
  | resolution failure => failure.message

end MemberBinding
