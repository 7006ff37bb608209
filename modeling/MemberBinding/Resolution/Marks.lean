import MemberBinding.Resolution.Rules

/-! # Marks that exclude each other -/

namespace MemberBinding.Rules

def memberKinds (rules : Rules) : List MemberKind :=
  rules.anchor.kind :: rules.roles.map (·.kind)

def linkKinds (rules : Rules) : List LinkKind :=
  rules.roles.flatMap fun spec => [spec.forward, spec.reverse]

def markFaultsOf (rules : Rules) (m : Member) : List Violation :=
  if rules.memberKinds.contains m.kind && m.isExcluded then
    (if m.isIncluded then [.includeAndExclude m.kind.label m.name] else []) ++
      (m.links.filter fun l => rules.linkKinds.contains l.kind).map fun l =>
        .excludedWithLink l.kind m.kind.label m.name
  else []

def markFaults (rules : Rules) (ctx : Context) : List Violation :=
  ctx.snapshot.members.flatMap rules.markFaultsOf

end MemberBinding.Rules
