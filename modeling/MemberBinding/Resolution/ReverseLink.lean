import MemberBinding.Resolution.Target

/-!
# Reverse links

Every reverse link of a member that is not excluded either resolves to one entry or is reported:
once for each of its names that has no single target, or once for two targets that can not be
told apart.
-/

namespace MemberBinding

/-- A source member, with a candidate for another role when the link names two members. -/
structure ReverseTarget where
  source : Nat
  companion : Option (Nat × Nat) := none
  deriving DecidableEq, Repr

structure ReverseLink extends ReverseTarget where
  owner : Nat
  deriving DecidableEq, Repr

def ReverseLink.ofTarget (owner : Nat) :
    Except Violation ReverseTarget → Except (List Violation) ReverseLink
  | .ok target => .ok { target with owner }
  | .error v => .error [v]

/-- Where a reverse link of `owner` is reported. -/
def RoleSpec.reverseSite (spec : RoleSpec) (owner : Member) (link : Link) : LinkSite :=
  ⟨link.kind, spec.label, owner.name⟩

def RoleSpec.splitTargets (spec : RoleSpec) (ctx : Context) (site : LinkSite) (first : Nat)
    (second : Option Nat) : Except Violation ReverseTarget :=
  match second, spec.companion with
  | some second, some c =>
    (c.order ctx.config.types site (ctx.member first) (ctx.member second)).map fun
      | .asWritten => ⟨first, some (c.role, second)⟩
      | .swapped => ⟨second, some (c.role, first)⟩
  | _, _ => .ok ⟨first, none⟩

namespace Rules

/-- As `splitTargets`, for a role number and positions that may not exist: nothing when a member
that has to be looked at is missing. -/
def splitTargets? (rules : Rules) (ctx : Context) (role : Nat) (owner : Member) (link : Link)
    (first : Nat) (second : Option Nat) : Option (Except Violation ReverseTarget) :=
  match rules.roles[role]? with
  | none => some (.ok ⟨first, none⟩)
  | some spec =>
    let known (id : Nat) : Bool := (ctx.snapshot.member? id).isSome
    if spec.companion.isNone || second.all (known first && known ·) then
      some (spec.splitTargets ctx (spec.reverseSite owner link) first second)
    else none

def reverseLink (rules : Rules) (ctx : Context) (spec : RoleSpec) (owner : Member × Nat)
    (link : Link) : Except (List Violation) ReverseLink :=
  let site := spec.reverseSite owner.1 link
  let source := rules.source spec
  let first := ctx.linkTarget source.kind source.label link.name site
  match link.secondName with
  | none =>
    match first with
    | .ok first => ReverseLink.ofTarget owner.2 (spec.splitTargets ctx site first none)
    | .error v => .error [v]
  | some name =>
    let second := ctx.linkTarget source.kind (spec.secondLabel.getD source.label) name site
    match first, second with
    | .ok first, .ok second =>
      ReverseLink.ofTarget owner.2 (spec.splitTargets ctx site first (some second))
    | first, second => .error (reported first ++ reported second)

/-- In the order of the owners, and of each owner's marks. -/
def reverseOutcomes (rules : Rules) (ctx : Context) (spec : RoleSpec) :
    List (Except (List Violation) ReverseLink) :=
  ((ctx.snapshot.ofKind spec.kind).filter fun e => !e.1.isExcluded).flatMap fun owner =>
    (owner.1.linksOf spec.reverse).map (rules.reverseLink ctx spec owner)

def reverseLinks (rules : Rules) (ctx : Context) (spec : RoleSpec) : List ReverseLink :=
  (rules.reverseOutcomes ctx spec).filterMap Except.toOption

def reverseFaults (rules : Rules) (ctx : Context) (spec : RoleSpec) : List Violation :=
  (rules.reverseOutcomes ctx spec).flatMap fun outcome => (reported outcome).flatten

/-- The reverse links of each role. -/
def reverseTable (rules : Rules) (ctx : Context) : List (List ReverseLink) :=
  rules.roles.map (rules.reverseLinks ctx)

end Rules
end MemberBinding
