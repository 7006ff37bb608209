import MemberBinding.Resolution.ReverseLink

/-! # The members that bindings start from -/

namespace MemberBinding

inductive Verdict
  | ignored
  | selected
  | rejected (violation : Violation)
  deriving DecidableEq, Repr

def Verdict.violation? : Verdict → Option Violation
  | rejected v => some v
  | _ => none

namespace Rules

/-- The forward links that tie an anchor to a role. -/
def anchorLinkKinds (rules : Rules) : List LinkKind :=
  (rules.roles.filter (·.origin == .anchor)).map (·.forward)

/-- The positions that the reverse links of the anchor's roles point at. -/
def targeted (rules : Rules) (table : List (List ReverseLink)) : List Nat :=
  ((rules.roles.zip table).filter (·.1.origin == .anchor)).flatMap fun e => e.2.map (·.source)

def isLinked (rules : Rules) (table : List (List ReverseLink)) (e : Member × Nat) : Bool :=
  e.1.links.any (rules.anchorLinkKinds.contains ·.kind) || (rules.targeted table).contains e.2

def verdict (rules : Rules) (ctx : Context) (table : List (List ReverseLink))
    (e : Member × Nat) : Verdict :=
  let m := e.1
  let linked := rules.isLinked table e
  if m.isExcluded || !rules.isCandidate ctx m linked then .ignored
  else if ctx.mode == .selectively && !m.isIncluded && !linked then .ignored
  else if m.requiresExplicitLink ||
      (ctx.config.conventions.of rules.anchor.naming).accepts m.name then .selected
  else if ctx.config.options.skipInvalidNames then .ignored
  else .rejected (.invalidName rules.anchor.label m.name)

def anchors (rules : Rules) (ctx : Context) (table : List (List ReverseLink)) : List Nat :=
  ((ctx.snapshot.ofKind rules.anchor.kind).filter fun e =>
    rules.verdict ctx table e == .selected).map (·.2)

def anchorFaults (rules : Rules) (ctx : Context) (table : List (List ReverseLink)) :
    List Violation :=
  (ctx.snapshot.ofKind rules.anchor.kind).filterMap fun e =>
    (rules.verdict ctx table e).violation?

end Rules
end MemberBinding
