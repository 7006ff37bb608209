import MemberBinding.BindingKind
import MemberBinding.Config

/-!
# Command line arguments

A flag and an option are given at most once each, an option's value after it or behind an equals
sign. After `--` every argument is positional.
-/

namespace MemberBinding

structure ResolveRequest where
  snapshot : String
  kind : BindingKind := .property
  mode : Mode := .all
  options : Options := {}
  json : Bool := false
  deriving DecidableEq, Repr

inductive Invocation
  | version
  | resolve (request : ResolveRequest)
  | convert (name : String) (source target : Role)
  deriving DecidableEq, Repr

/-- The flags and options that a command knows. -/
structure Grammar where
  flags : List String
  options : List String

/-- Arguments told apart. -/
structure Arguments where
  positional : List String := []
  flags : List String := []
  options : List (String × String) := []
  deriving DecidableEq, Repr

/-- The name of a long argument, and the value behind its equals sign. -/
def long? (arg : String) : Option (String × Option String) :=
  match arg.toList with
  | '-' :: '-' :: cs =>
    let value :=
      match cs.dropWhile (· != '=') with
      | [] => none
      | _ :: value => some (String.ofList value)
    some (String.ofList (cs.takeWhile (· != '=')), value)
  | _ => none

/-- A dash by itself is no option. -/
def isPositional (arg : String) : Bool :=
  match arg.toList with
  | ['-'] => true
  | '-' :: _ => false
  | _ => true

namespace Arguments

def withPositional (a : Arguments) (args : List String) : Arguments :=
  { a with positional := a.positional ++ args }

def withFlag? (a : Arguments) (g : Grammar) (key : String) : Option Arguments :=
  if g.flags.contains key && !a.flags.contains key then some { a with flags := key :: a.flags }
  else none

def withOption? (a : Arguments) (g : Grammar) (key value : String) : Option Arguments :=
  if g.options.contains key && (a.options.lookup key).isNone then
    some { a with options := (key, value) :: a.options }
  else none

def addAll? (g : Grammar) (a : Arguments) : List String → Option Arguments
  | [] => some a
  | arg :: args =>
    if arg = "--" then some (a.withPositional args)
    else
      match long? arg with
      | some (key, some value) => a.withOption? g key value >>= (addAll? g · args)
      | some (key, none) =>
        if g.options.contains key then
          match args with
          | [] => none
          | value :: args => a.withOption? g key value >>= (addAll? g · args)
        else a.withFlag? g key >>= (addAll? g · args)
      | none => if isPositional arg then addAll? g (a.withPositional [arg]) args else none

/-- The only positional argument. -/
def only? (a : Arguments) : Option String :=
  match a.positional with
  | [arg] => some arg
  | _ => none

/-- The value of an option, or what stands for its absence. -/
def value? {α : Type} (a : Arguments) (v : Vocabulary α) (key : String)
    (absent : Option α := none) : Option α :=
  match a.options.lookup key with
  | some text => v.find? text
  | none => absent

end Arguments

namespace Invocation

def resolveGrammar : Grammar := ⟨["skip-invalid-names", "prefer-explicit", "json"], ["kind", "mode"]⟩

def resolve? (args : List String) : Option Invocation := do
  let a ← Arguments.addAll? resolveGrammar {} args
  some <| .resolve {
    snapshot := ← a.only?
    kind := ← a.value? BindingKind.vocabulary "kind" (some .property)
    mode := ← a.value? Mode.vocabulary "mode" (some .all)
    options := ⟨a.flags.contains "skip-invalid-names", a.flags.contains "prefer-explicit"⟩
    json := a.flags.contains "json" }

def convert? (args : List String) : Option Invocation := do
  let a ← Arguments.addAll? ⟨[], ["from", "to"]⟩ {} args
  some <| .convert (← a.only?) (← a.value? Role.vocabulary "from") (← a.value? Role.vocabulary "to")

/-- A request for the version may be bundled with further letters, which are not looked at. -/
def isVersion (arg : String) : Bool := arg == "--version" || arg.startsWith "-V"

/-- Nothing for arguments of wrong usage. -/
def parse? : List String → Option Invocation
  | [] => none
  | arg :: args =>
    if isVersion arg then some .version
    else if arg = "resolve" then resolve? args
    else if arg = "convert" then convert? args
    else none

end Invocation
end MemberBinding
