import MemberBinding.Resolution.Anchors
import MemberBinding.Resolution.Checks
import MemberBinding.Resolution.Linking
import MemberBinding.Resolution.Marks

/-!
# Resolution

Roles are filled one after the other, for all groups at a time. A fault never stops a run: the
groups are the result only if nothing was reported on the way.
-/

namespace MemberBinding

/-- The groups so far, what was reported while filling them, and whether every role number met
exists. -/
structure Run where
  groups : List Group
  faults : List Violation := []
  inRange : Bool := true

namespace Rules

/-- The groups before companions are added. -/
def splitGroups (rules : Rules) (ctx : Context) (table : List (List ReverseLink)) (spec : RoleSpec)
    (role : Nat) (groups : List Group) : List Group :=
  let linked := groups.map (rules.linkRole ctx table spec role)
  if spec.explodes then linked.flatMap (·.explode role) else linked

def step (rules : Rules) (ctx : Context) (table : List (List ReverseLink)) (run : Run)
    (entry : RoleSpec × Nat) : Run :=
  let (spec, role) := entry
  let links := table[role]?.getD []
  let groups := rules.splitGroups ctx table spec role run.groups
  { groups := groups.map (·.attach role links)
    faults := run.faults ++ run.groups.flatMap (rules.linkFaults ctx spec)
    inRange := run.inRange && groups.all (·.attachInRange role links) }

def seeds (rules : Rules) (ctx : Context) (table : List (List ReverseLink)) : List Group :=
  (rules.anchors ctx table).map (.seed · rules.roles.length)

def run (rules : Rules) (ctx : Context) (table : List (List ReverseLink)) : Run :=
  rules.roles.zipIdx.foldl (rules.step ctx table) { groups := rules.seeds ctx table }

/-- All that a run reports, in order, repeats included. -/
def reports (rules : Rules) (ctx : Context) (table : List (List ReverseLink)) (run : Run) :
    List Violation :=
  rules.markFaults ctx ++ rules.roles.flatMap (rules.reverseFaults ctx) ++
    rules.anchorFaults ctx table ++ run.faults ++ run.groups.flatMap (rules.groupFaults ctx)

def resolve (rules : Rules) (ctx : Context) : Except Failure (List Group) :=
  let table := rules.reverseTable ctx
  let run := rules.run ctx table
  (Diagnostics.ofList (rules.reports ctx table run)).finish rules.kind run.groups

/-- As `resolve`, for rules that may name roles that do not exist. -/
def resolve? (rules : Rules) (ctx : Context) : Option (Except Failure (List Group)) :=
  if rules.sourcesInRange && (rules.run ctx (rules.reverseTable ctx)).inRange then
    some (rules.resolve ctx)
  else none

end Rules
end MemberBinding
