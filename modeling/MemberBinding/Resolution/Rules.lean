import MemberBinding.Config
import MemberBinding.Diagnostics
import MemberBinding.Resolution.Group
import MemberBinding.Snapshot.NameIndex

/-!
# Binding rules

A kind of binding has an anchor and a list of roles. Each role is linked from the anchor or from
another role: by the name that the conventions give it, by a forward link on the source, or by a
reverse link on the member that fills it.
-/

namespace MemberBinding

/-- All that one resolution reads. -/
structure Context where
  snapshot : Snapshot
  config : Config
  mode : Mode
  index : NameIndex := .ofSnapshot snapshot
  index_eq : index = .ofSnapshot snapshot := by rfl

def Context.of (config : Config) (snapshot : Snapshot) (mode : Mode) : Context :=
  { snapshot, config, mode }

def Context.member (ctx : Context) (id : Nat) : Member := ctx.snapshot.member id

/-- A place in a binding that one member fills. -/
structure Slot where
  label : String
  kind : MemberKind
  naming : Role
  deriving DecidableEq, Repr

inductive Origin
  | anchor
  | role (index : Nat)
  deriving DecidableEq, Repr

inductive PairOrder
  | asWritten | swapped
  deriving DecidableEq, Repr

/-- A second name of a reverse link fills another role. `order` tells which of the two members is
the source. -/
structure Companion where
  role : Nat
  order : TypeNames → LinkSite → (first second : Member) → Except Violation PairOrder

structure RoleSpec extends Slot where
  origin : Origin
  /-- Declared on the source, naming the member of this role. -/
  forward : LinkKind
  /-- Declared on the member of this role, naming the source. -/
  reverse : LinkKind
  /-- Several candidates split the group. -/
  explodes : Bool := false
  /-- Must be filled when the source requires explicit links. -/
  required : Bool := false
  secondLabel : Option String := none
  companion : Option Companion := none

structure Rules where
  kind : BindingKind
  anchor : Slot
  roles : List RoleSpec
  /-- Filter on possible anchors, given whether some explicit link ties them to a role. -/
  isCandidate : Context → Member → (linked : Bool) → Bool
  /-- What is wrong with a finished group. -/
  check : Context → Group → List Violation

namespace Rules

/-- Where the links of a role start. -/
def source (rules : Rules) (spec : RoleSpec) : Slot :=
  match spec.origin with
  | .anchor => rules.anchor
  | .role i => (rules.roles[i]?.map RoleSpec.toSlot).getD rules.anchor

def sourcesInRange (rules : Rules) : Bool :=
  rules.roles.all fun spec =>
    match spec.origin with
    | .anchor => true
    | .role i => i < rules.roles.length

end Rules

/-- The member that the links of a role start from, once it is known. -/
def Group.sourceOf (g : Group) (spec : RoleSpec) : Option Nat :=
  match spec.origin with
  | .anchor => some g.anchor
  | .role i => g.single? i

end MemberBinding
