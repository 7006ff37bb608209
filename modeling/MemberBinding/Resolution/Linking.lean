import MemberBinding.Resolution.ReverseLink

/-!
# Filling a role

The candidates of a role are, in this order, the members that its name conversion gives, the
targets of the source's forward links, and the owners of the reverse links to the source.
Companions are added once the role has been split, so that they follow the member whose link
named them.
-/

namespace MemberBinding

namespace Rules

section

variable (rules : Rules) (ctx : Context) (table : List (List ReverseLink)) (spec : RoleSpec)
  (role source : Nat)

def reverseOwners : List Nat :=
  ((table[role]?.getD []).filter (·.source == source)).map (·.owner)

/-- Whether some explicit link fills the role; a link of two names counts for both of its roles. -/
def hasExplicit : Bool :=
  !((ctx.member source).linksOf spec.forward).isEmpty || !(reverseOwners table role source).isEmpty ||
    table.flatten.any fun l => l.source == source && (l.companion.map (·.1)) == some role

def searchesByName : Bool :=
  !(ctx.member source).requiresExplicitLink &&
    !(ctx.config.options.preferExplicit && hasExplicit ctx table spec role source)

def namedCandidates : List Nat :=
  match ctx.config.conventions.convert (ctx.member source).name (rules.source spec).naming
      spec.naming with
  | .ok name => (ctx.index.lookup spec.kind name).filter fun id => !(ctx.member id).isExcluded
  | .error _ => []

def forwardOutcomes : List (Except Violation Nat) :=
  let m := ctx.member source
  (m.linksOf spec.forward).map fun link =>
    ctx.linkTarget spec.kind spec.label link.name ⟨link.kind, (rules.source spec).label, m.name⟩

def found : List Nat :=
  (if searchesByName ctx table spec role source then rules.namedCandidates ctx spec source
    else []) ++
    (rules.forwardOutcomes ctx spec source).filterMap Except.toOption ++
    reverseOwners table role source

end

def linkRole (rules : Rules) (ctx : Context) (table : List (List ReverseLink)) (spec : RoleSpec)
    (role : Nat) (g : Group) : Group :=
  match g.sourceOf spec with
  | some source => g.addAll role (rules.found ctx table spec role source)
  | none => g

def linkFaults (rules : Rules) (ctx : Context) (spec : RoleSpec) (g : Group) : List Violation :=
  match g.sourceOf spec with
  | some source => (rules.forwardOutcomes ctx spec source).flatMap reported
  | none => []

end Rules

namespace Group

/-- The role and the member that `link` adds to a group. -/
def carried (g : Group) (role : Nat) (link : ReverseLink) : Option (Nat × Nat) :=
  if link.source == g.anchor && (g.candidates role).contains link.owner then link.companion
  else none

def attachOne (g : Group) (role : Nat) (link : ReverseLink) : Group :=
  match g.carried role link with
  | some (r, c) => g.add r c
  | none => g

def attach (g : Group) (role : Nat) (links : List ReverseLink) : Group :=
  links.foldl (·.attachOne role ·) g

/-- Whether every companion has a role to be added to. -/
def attachInRange (g : Group) (role : Nat) : List ReverseLink → Bool
  | [] => true
  | link :: links =>
    (g.carried role link).all (g.hasRole ·.1) && attachInRange (g.attachOne role link) role links

end Group
end MemberBinding
