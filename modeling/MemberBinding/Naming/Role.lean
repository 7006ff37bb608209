import MemberBinding.Text.Vocabulary

/-! # The roles a member name can play -/

namespace MemberBinding

inductive Role
  | field | property | commandField | commandProperty | dependencyField | dependencyProperty
  | executeMethod | canExecuteMethod
  deriving DecidableEq, Repr

namespace Role

def all : List Role :=
  [field, property, commandField, commandProperty, dependencyField, dependencyProperty,
    executeMethod, canExecuteMethod]

theorem mem_all (r : Role) : r ∈ all := by cases r <;> decide

def key : Role → String
  | field => "field"
  | property => "property"
  | commandField => "command-field"
  | commandProperty => "command-property"
  | dependencyField => "dependency-field"
  | dependencyProperty => "dependency-property"
  | executeMethod => "execute-method"
  | canExecuteMethod => "can-execute-method"

def name : Role → String
  | field => "Field"
  | property => "Property"
  | commandField => "CommandField"
  | commandProperty => "CommandProperty"
  | dependencyField => "DependencyField"
  | dependencyProperty => "DependencyProperty"
  | executeMethod => "ExecuteMethod"
  | canExecuteMethod => "CanExecuteMethod"

def vocabulary : Vocabulary Role := ⟨"naming role", all, key⟩

def names : Vocabulary Role := ⟨"naming role", all, name⟩

end Role
end MemberBinding
