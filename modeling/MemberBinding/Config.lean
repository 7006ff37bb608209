import MemberBinding.Naming.Conventions

/-! # What a resolution is given besides the snapshot -/

namespace MemberBinding

/-- The platform type names that shapes are checked against. -/
structure TypeNames where
  void : String
  boolean : String
  command : String
  /-- The types that can hold a command. -/
  commandAssignable : List String
  dependencyProperty : String
  deriving DecidableEq, Repr

namespace TypeNames

def standard : TypeNames where
  void := "System.Void"
  boolean := "System.Boolean"
  command := "System.Windows.Input.ICommand"
  commandAssignable := ["System.Windows.Input.ICommand", "System.Object"]
  dependencyProperty := "System.Windows.DependencyProperty"

def isCommandAssignable (t : TypeNames) (type : String) : Bool := t.commandAssignable.contains type

end TypeNames

structure Options where
  /-- Drop anchors whose name breaks their convention, instead of reporting them. -/
  skipInvalidNames : Bool := false
  /-- No search by name for a role that has an explicit link. -/
  preferExplicit : Bool := false
  deriving DecidableEq, Repr

inductive Mode
  | all
  /-- Only members marked as included or linked explicitly. -/
  | selectively
  deriving DecidableEq, Repr

namespace Mode

def key : Mode → String
  | all => "all"
  | selectively => "selectively"

def vocabulary : Vocabulary Mode := ⟨"resolve mode", [all, selectively], key⟩

end Mode

structure Config where
  conventions : Conventions := .standard
  types : TypeNames := .standard
  options : Options := {}

end MemberBinding
