import MemberBinding.Resolution.Run

/-!
# A property bound to at most one field

The kinds of such a binding differ in their conventions, in the properties they leave alone, and
in what they ask of a field.
-/

namespace MemberBinding

/-- Over positions, or over the members themselves. -/
structure FieldBinding (α : Type) where
  property : α
  field : Option α
  deriving DecidableEq, Repr

namespace FieldBinding

def map {α β : Type} (f : α → β) (b : FieldBinding α) : FieldBinding β :=
  ⟨f b.property, b.field.map f⟩

@[simp] theorem map_map {α β γ : Type} (f : α → β) (g : β → γ) (b : FieldBinding α) :
    (b.map f).map g = b.map (g ∘ f) := by simp [map]

@[simp] theorem map_id {α : Type} (b : FieldBinding α) : b.map id = b := by simp [map]

def ofGroup (g : Group) : FieldBinding Nat := ⟨g.anchor, g.single? 0⟩

/-- `title` says what the field is to the property. -/
def line (title : String) (b : FieldBinding Member) : String :=
  s!"{b.property.name} -> {title}: " ++ (b.field.map Member.name).getD "-"

structure Profile where
  kind : BindingKind
  property : Role
  field : Role
  /-- Whether a property is bound at all. -/
  admits : TypeNames → Member → Bool
  /-- What is wrong with a property and its field. -/
  faults : TypeNames → (property field : Member) → List Violation

namespace Profile

def fieldSpec (profile : Profile) : RoleSpec :=
  { label := "field", kind := .field, naming := profile.field, origin := .anchor,
    forward := .field, reverse := .property, required := true }

def rules (profile : Profile) : Rules where
  kind := profile.kind
  anchor := ⟨"property", .property, profile.property⟩
  roles := [profile.fieldSpec]
  isCandidate ctx m _ := profile.admits ctx.config.types m
  check ctx g :=
    match g.single? 0 with
    | some id => profile.faults ctx.config.types (ctx.member g.anchor) (ctx.member id)
    | none => []

theorem companion_eq_none {profile : Profile} {spec : RoleSpec}
    (hspec : spec ∈ profile.rules.roles) : spec.companion = none := by
  rw [List.mem_singleton.1 hspec]
  rfl

def positions (profile : Profile) (config : Config) (snapshot : Snapshot) (mode : Mode) :
    Except Failure (List (FieldBinding Nat)) :=
  (profile.rules.resolve (.of config snapshot mode)).map (·.map .ofGroup)

def resolve (profile : Profile) (config : Config) (snapshot : Snapshot) (mode : Mode) :
    Except Failure (List (FieldBinding Member)) :=
  (profile.positions config snapshot mode).map (·.map (·.map snapshot.member))

end Profile
end FieldBinding
end MemberBinding
