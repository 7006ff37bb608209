import MemberBinding.Binding.Bindings
import MemberBinding.Proofs.Resolution.Embedding

/-!
# Bindings by position

The kinds of binding seen alike: an anchor, and for each role the member that fills it, all by
position. Main statements: `placements_eq` and `Bindings.resolve_eq`, by which placements and
bindings are read off the finished groups.
-/

namespace MemberBinding

/-- A role that nothing fills, or not one member alone, is `none`. -/
structure Placement where
  anchor : Nat
  members : List (Option Nat)
  deriving DecidableEq, Repr

def FieldBinding.placement (b : FieldBinding Nat) : Placement := ⟨b.property, [b.field]⟩

def CommandBinding.placement (b : CommandBinding Nat) : Placement :=
  ⟨b.execute, [b.canExecute, b.property, b.field]⟩

/-- The same bindings in any order, or none on either side. -/
inductive SamePlacements :
    Except Failure (List Placement) → Except Failure (List Placement) → Prop
  | ok {ps qs} (perm : qs.Perm ps) : SamePlacements (.ok ps) (.ok qs)
  | error {failure failure'} : SamePlacements (.error failure) (.error failure')

/-- The positions in the bindings of a kind, or why there are none. -/
def BindingKind.placements (kind : BindingKind) (config : Config) (snapshot : Snapshot) (mode : Mode) :
    Except Failure (List Placement) :=
  match kind with
  | .property => (Property.positions config snapshot mode).map (·.map FieldBinding.placement)
  | .command => (Command.positions config snapshot mode).map (·.map CommandBinding.placement)
  | .dependency => (Dependency.positions config snapshot mode).map (·.map FieldBinding.placement)

def Group.placement (roleCount : Nat) (g : Group) : Placement :=
  ⟨g.anchor, (List.range roleCount).map g.single?⟩

/-- Placements are the anchors of the finished groups, with the candidates that stand alone. -/
theorem BindingKind.placements_eq (kind : BindingKind) (config : Config) (s : Snapshot)
    (mode : Mode) :
    kind.placements config s mode =
      (kind.rules.resolve (.of config s mode)).map
        (·.map (Group.placement kind.rules.roles.length)) := by
  have hfield (groups : List Group) : (groups.map FieldBinding.ofGroup).map FieldBinding.placement =
      groups.map (Group.placement 1) := List.map_map
  have hcommand (groups : List Group) :
      (groups.map CommandBinding.ofGroup).map CommandBinding.placement =
      groups.map (Group.placement 3) := List.map_map
  cases kind with
  | property | dependency =>
    refine (map_map_eq _ _ _).trans ?_
    simp only [Function.comp_def, hfield]
    rfl
  | command =>
    refine (map_map_eq _ _ _).trans ?_
    simp only [Function.comp_def, hcommand]
    rfl

namespace Bindings

/-- The bindings that finished groups stand for. -/
def ofGroups (kind : BindingKind) (s : Snapshot) (groups : List Group) : Bindings :=
  match kind with
  | .property => .property ((groups.map FieldBinding.ofGroup).map (·.map s.member))
  | .command => .command ((groups.map CommandBinding.ofGroup).map (·.map s.member))
  | .dependency => .dependency ((groups.map FieldBinding.ofGroup).map (·.map s.member))

theorem resolve_eq (kind : BindingKind) (config : Config) (s : Snapshot) (mode : Mode) :
    resolve kind config s mode =
      (kind.rules.resolve (.of config s mode)).map (ofGroups kind s) := by
  cases kind with
  | property => exact (map_map_eq _ _ _).trans (map_map_eq _ _ _)
  | command => exact (map_map_eq _ _ _).trans (map_map_eq _ _ _)
  | dependency => exact (map_map_eq _ _ _).trans (map_map_eq _ _ _)

end Bindings
end MemberBinding
