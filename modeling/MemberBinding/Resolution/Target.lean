import MemberBinding.Resolution.Rules

/-! # The one member that a link names -/

namespace MemberBinding

inductive TargetFault
  | notFound | excluded | ambiguous
  deriving DecidableEq, Repr

def TargetFault.violation (fault : TargetFault) (target name : String) (site : LinkSite) :
    Violation :=
  match fault with
  | notFound => .linkNotFound target name site
  | excluded => .linkToExcluded target name site
  | ambiguous => .linkAmbiguous target name site

namespace Context

def target (ctx : Context) (kind : MemberKind) (name : String) : Except TargetFault Nat :=
  match ctx.index.lookup kind name with
  | [] => .error .notFound
  | [id] => if (ctx.member id).isExcluded then .error .excluded else .ok id
  | _ => .error .ambiguous

/-- The target of a link, or what to report at its site. `label` says what was looked for. -/
def linkTarget (ctx : Context) (kind : MemberKind) (label name : String) (site : LinkSite) :
    Except Violation Nat :=
  (ctx.target kind name).mapError (·.violation label name site)

end Context

section

variable {ε α β : Type}

/-- The error of an outcome, as a list. -/
def reported {ε α : Type} : Except ε α → List ε
  | .error e => [e]
  | .ok _ => []

@[simp] theorem reported_ok (a : α) : reported (.ok a : Except ε α) = [] := rfl

@[simp] theorem reported_error (e : ε) : reported (.error e : Except ε α) = [e] := rfl

theorem reported_eq_nil_iff {o : Except ε α} : reported o = [] ↔ ∃ a, o = .ok a := by
  cases o <;> simp

theorem reported_map (f : α → β) (o : Except ε α) : reported (o.map f) = reported o := by
  cases o <;> rfl

end

end MemberBinding
