import MemberBinding.Member

/-! # What can be wrong with the members of a type -/

namespace MemberBinding

/-- Where an explicit link stands. -/
structure LinkSite where
  link : LinkKind
  ownerRole : String
  owner : String
  deriving DecidableEq, Repr

def LinkSite.text (site : LinkSite) : String :=
  s!"specified in {site.link.name} at {site.ownerRole} '{site.owner}'"

inductive Category
  | nameFormat | linkResolution | multiplicity | typeMismatch | shape | mutualExclusion
  deriving DecidableEq, Repr

namespace Category

def all : List Category :=
  [nameFormat, linkResolution, multiplicity, typeMismatch, shape, mutualExclusion]

def name : Category → String
  | nameFormat => "NameFormat"
  | linkResolution => "LinkResolution"
  | multiplicity => "Multiplicity"
  | typeMismatch => "TypeMismatch"
  | shape => "Shape"
  | mutualExclusion => "MutualExclusion"

end Category

inductive Violation
  | invalidName (role name : String)
  | linkNotFound (target name : String) (site : LinkSite)
  | linkAmbiguous (target name : String) (site : LinkSite)
  | linkToExcluded (target name : String) (site : LinkSite)
  | missingRequiredLink (target ownerRole owner : String)
  | multiConnect (ownerRole owner target : String) (candidates : List String)
  | typeMismatch (leftRole left rightRole right : String)
  | shape (role name requirement : String)
  | includeAndExclude (kind name : String)
  | excludedWithLink (link : LinkKind) (kind name : String)
  | conflictingMethods (role first second : String) (site : LinkSite)
  deriving DecidableEq, Repr

namespace Violation

def name : Violation → String
  | invalidName .. => "InvalidName"
  | linkNotFound .. => "LinkNotFound"
  | linkAmbiguous .. => "LinkAmbiguous"
  | linkToExcluded .. => "LinkToExcluded"
  | missingRequiredLink .. => "MissingRequiredLink"
  | multiConnect .. => "MultiConnect"
  | typeMismatch .. => "TypeMismatch"
  | shape .. => "Shape"
  | includeAndExclude .. => "IncludeAndExclude"
  | excludedWithLink .. => "ExcludedWithLink"
  | conflictingMethods .. => "ConflictingMethods"

def category : Violation → Category
  | invalidName .. => .nameFormat
  | linkNotFound .. | linkAmbiguous .. | linkToExcluded .. | missingRequiredLink .. =>
    .linkResolution
  | multiConnect .. => .multiplicity
  | typeMismatch .. => .typeMismatch
  | shape .. => .shape
  | includeAndExclude .. | excludedWithLink .. | conflictingMethods .. => .mutualExclusion

private def quoted (names : List String) : String :=
  ", ".intercalate (names.map fun n => s!"'{n}'")

def message : Violation → String
  | invalidName role name => s!"Not valid patching {role} name '{name}'"
  | linkNotFound target name site => s!"Not found {target} with name '{name}', {site.text}"
  | linkAmbiguous target name site =>
    s!"Found several {target}s with name '{name}', {site.text}"
  | linkToExcluded target name site => s!"Found excluded {target} '{name}', {site.text}"
  | missingRequiredLink target ownerRole owner =>
    s!"Not found {target} for {ownerRole} '{owner}' when using RequireExplicitLink"
  | multiConnect ownerRole owner target candidates =>
    s!"Multi-connect {ownerRole} to {target} found: {ownerRole} '{owner}', {target}s: " ++
      quoted candidates
  | typeMismatch leftRole left rightRole right =>
    s!"Types do not match inside group: {leftRole} '{left}', {rightRole} '{right}'"
  | shape role name requirement => s!"Patching {role} '{name}' {requirement}"
  | includeAndExclude kind name => s!"Can not use Include and Exclude together at {kind} '{name}'"
  | excludedWithLink link kind name =>
    s!"Can not use Exclude together with {link.name} at {kind} '{name}'"
  | conflictingMethods role first second site =>
    s!"Can not be connect to two {role}s '{first}', '{second}', {site.text}"

end Violation
end MemberBinding
