import MemberBinding.Resolution.Rules

/-! # What every finished group must satisfy -/

namespace MemberBinding.Rules

/-- A role with a known source has at most one candidate. -/
def multiplicityFaults (rules : Rules) (ctx : Context) (g : Group) : List Violation :=
  rules.roles.zipIdx.flatMap fun (spec, role) =>
    let candidates := g.candidates role
    match g.sourceOf spec with
    | some source =>
      if candidates.length < 2 then []
      else [.multiConnect (rules.source spec).label (ctx.member source).name spec.label
        (candidates.map fun id => (ctx.member id).name)]
    | none => []

/-- A required role is filled when its source requires explicit links. -/
def requiredFaults (rules : Rules) (ctx : Context) (g : Group) : List Violation :=
  rules.roles.zipIdx.flatMap fun (spec, role) =>
    match g.sourceOf spec with
    | some source =>
      if spec.required && (g.candidates role).isEmpty && (ctx.member source).requiresExplicitLink then
        [.missingRequiredLink spec.label (rules.source spec).label (ctx.member source).name]
      else []
    | none => []

def groupFaults (rules : Rules) (ctx : Context) (g : Group) : List Violation :=
  rules.multiplicityFaults ctx g ++ rules.requiredFaults ctx g ++ rules.check ctx g

end MemberBinding.Rules
