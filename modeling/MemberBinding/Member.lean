import MemberBinding.Text.Vocabulary

/-!
# Members of a type

Fields, properties and methods, with the marks that steer their binding. An explicit link asks for
the sibling of a given name. Nothing ties the type fields to the kind: a property may carry a
return type.
-/

namespace MemberBinding

inductive MemberKind
  | field | property | method
  deriving DecidableEq, Repr

namespace MemberKind

def label : MemberKind → String
  | field => "field"
  | property => "property"
  | method => "method"

def vocabulary : Vocabulary MemberKind := ⟨"member kind", [field, property, method], label⟩

end MemberKind

inductive LinkKind
  | field | property | canExecuteMethod | executeMethod | command | commandMethods
  deriving DecidableEq, Repr

namespace LinkKind

def all : List LinkKind :=
  [field, property, canExecuteMethod, executeMethod, command, commandMethods]

def name : LinkKind → String
  | field => "LinkField"
  | property => "LinkProperty"
  | canExecuteMethod => "LinkCanExecuteMethod"
  | executeMethod => "LinkExecuteMethod"
  | command => "LinkCommand"
  | commandMethods => "LinkCommandMethods"

def vocabulary : Vocabulary LinkKind := ⟨"link kind", all, name⟩

end LinkKind

structure Link where
  kind : LinkKind
  name : String
  secondName : Option String := none
  deriving DecidableEq, Repr

def Link.names (l : Link) : List String := l.name :: l.secondName.toList

inductive Mark
  | included
  | excluded
  | link (link : Link)
  /-- No search by name for the roles linked from the member. -/
  | requireExplicitLink
  | suppressAutoField
  deriving DecidableEq, Repr

def Mark.link? : Mark → Option Link
  | link l => some l
  | _ => none

structure Member where
  name : String
  kind : MemberKind
  valueType : Option String := none
  returnType : Option String := none
  parameters : List String := []
  isStatic : Bool := false
  marks : List Mark := []
  deriving DecidableEq, Repr

namespace Member

def field (name type : String) : Member := { name, kind := .field, valueType := some type }

def property (name type : String) : Member := { name, kind := .property, valueType := some type }

def method (name type : String) : Member := { name, kind := .method, returnType := some type }

instance : Inhabited Member := ⟨field "" ""⟩

def withParameter (m : Member) (type : String) : Member :=
  { m with parameters := m.parameters ++ [type] }

def withMark (m : Member) (mark : Mark) : Member := { m with marks := m.marks ++ [mark] }

def withLink (m : Member) (link : Link) : Member := m.withMark (.link link)

def asStatic (m : Member) : Member := { m with isStatic := true }

def declaredType (m : Member) : Option String :=
  match m.kind with
  | .method => m.returnType
  | .field | .property => m.valueType

def returns (m : Member) (type : String) : Bool := m.returnType == some type

def isIncluded (m : Member) : Bool := m.marks.contains .included

def isExcluded (m : Member) : Bool := m.marks.contains .excluded

def requiresExplicitLink (m : Member) : Bool := m.marks.contains .requireExplicitLink

def suppressesAutoField (m : Member) : Bool := m.marks.contains .suppressAutoField

def links (m : Member) : List Link := m.marks.filterMap Mark.link?

def linksOf (m : Member) (kind : LinkKind) : List Link := m.links.filter (·.kind == kind)

theorem mem_links {m : Member} {l : Link} : l ∈ m.links ↔ .link l ∈ m.marks := by
  simp only [links, List.mem_filterMap]
  constructor
  · rintro ⟨mark, h, e⟩
    cases mark <;> simp_all [Mark.link?]
  · exact fun h => ⟨_, h, rfl⟩

theorem mem_linksOf {m : Member} {kind : LinkKind} {l : Link} :
    l ∈ m.linksOf kind ↔ .link l ∈ m.marks ∧ l.kind = kind := by
  simp [linksOf, mem_links]

end Member
end MemberBinding
