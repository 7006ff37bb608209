import MemberBinding.Binding.Shape
import MemberBinding.Resolution.Run

/-!
# Commands

An execute method, with the method that says whether it can execute, the property that exposes the
command, and the field behind that property. Several properties split a command. A property may
name both methods in one link; their return types tell them apart.
-/

namespace MemberBinding

/-- Over positions, or over the members themselves. -/
structure CommandBinding (α : Type) where
  execute : α
  canExecute : Option α
  property : Option α
  field : Option α
  deriving DecidableEq, Repr

namespace Command

def canExecuteRole : Nat := 0

def propertyRole : Nat := 1

def fieldRole : Nat := 2

/-- The method that returns nothing is executed; failing that, the one that does not return a
truth value. -/
def pairOrder (types : TypeNames) (site : LinkSite) (first second : Member) :
    Except Violation PairOrder :=
  match first.returns types.void, second.returns types.void with
  | true, true => .error (.conflictingMethods "execute method" first.name second.name site)
  | false, true => .ok .swapped
  | true, false => .ok .asWritten
  | false, false =>
    match first.returns types.boolean, second.returns types.boolean with
    | true, true => .error (.conflictingMethods "can execute method" first.name second.name site)
    | true, false => .ok .swapped
    | false, _ => .ok .asWritten

def isCandidate (ctx : Context) (m : Member) (linked : Bool) : Bool :=
  match ctx.mode with
  | .selectively => true
  | .all => linked || (m.parameters.isEmpty && m.returns ctx.config.types.void &&
      (m.requiresExplicitLink || (ctx.config.conventions.of .executeMethod).accepts m.name))

def propertyFaults (types : TypeNames) (m : Member) : List Violation :=
  if m.declaredType.any types.isCommandAssignable then []
  else [.shape "property" m.name s!"must be assignable from '{types.command}'"]

def check (ctx : Context) (g : Group) : List Violation :=
  let types := ctx.config.types
  methodFaults "execute method" (ctx.member g.anchor) types.void ++
    (match g.single? canExecuteRole with
      | some id => methodFaults "can execute method" (ctx.member id) types.boolean
      | none => []) ++
    match g.single? propertyRole with
    | some p => propertyFaults types (ctx.member p) ++
      match g.single? fieldRole with
      | some f => sameTypeFaults "property" (ctx.member p) "field" (ctx.member f)
      | none => []
    | none => []

def canExecuteSpec : RoleSpec :=
  { label := "can execute method", kind := .method, naming := .canExecuteMethod,
    origin := .anchor, forward := .canExecuteMethod, reverse := .executeMethod }

def propertySpec : RoleSpec :=
  { label := "property", kind := .property, naming := .commandProperty, origin := .anchor,
    forward := .command, reverse := .commandMethods, explodes := true, required := true,
    secondLabel := some "can execute method",
    companion := some ⟨canExecuteRole, pairOrder⟩ }

def fieldSpec : RoleSpec :=
  { label := "field", kind := .field, naming := .commandField, origin := .role propertyRole,
    forward := .field, reverse := .property }

def rules : Rules where
  kind := .command
  anchor := ⟨"execute method", .method, .executeMethod⟩
  roles := [canExecuteSpec, propertySpec, fieldSpec]
  isCandidate := isCandidate
  check := check

/-- The property of a command has the one companion. -/
theorem eq_of_companion {spec : RoleSpec} (hspec : spec ∈ rules.roles) {c : Companion}
    (hc : spec.companion = some c) : spec = propertySpec ∧ c = ⟨canExecuteRole, pairOrder⟩ := by
  obtain rfl | rfl | rfl : spec = canExecuteSpec ∨ spec = propertySpec ∨ spec = fieldSpec := by
    simpa [rules] using hspec
  · cases hc
  · exact ⟨rfl, (Option.some.inj hc).symm⟩
  · cases hc

end Command

namespace CommandBinding

def map {α β : Type} (f : α → β) (b : CommandBinding α) : CommandBinding β :=
  ⟨f b.execute, b.canExecute.map f, b.property.map f, b.field.map f⟩

@[simp] theorem map_map {α β γ : Type} (f : α → β) (g : β → γ) (b : CommandBinding α) :
    (b.map f).map g = b.map (g ∘ f) := by simp [map]

@[simp] theorem map_id {α : Type} (b : CommandBinding α) : b.map id = b := by simp [map]

def ofGroup (g : Group) : CommandBinding Nat :=
  ⟨g.anchor, g.single? Command.canExecuteRole, g.single? Command.propertyRole,
    g.single? Command.fieldRole⟩

/-- Whether a field has to be added for the command. -/
def needsField (b : CommandBinding Member) : Bool :=
  b.field.isNone && !b.property.any Member.suppressesAutoField

def line (b : CommandBinding Member) : String :=
  let name (m : Option Member) : String := (m.map Member.name).getD "-"
  s!"{b.execute.name} -> can execute: " ++ name b.canExecute ++ ", property: " ++ name b.property ++
    ", field: " ++ name b.field

end CommandBinding

namespace Command

def positions (config : Config) (snapshot : Snapshot) (mode : Mode) :
    Except Failure (List (CommandBinding Nat)) :=
  (rules.resolve (.of config snapshot mode)).map (·.map .ofGroup)

def resolve (config : Config) (snapshot : Snapshot) (mode : Mode) :
    Except Failure (List (CommandBinding Member)) :=
  (positions config snapshot mode).map (·.map (·.map snapshot.member))

end Command
end MemberBinding
