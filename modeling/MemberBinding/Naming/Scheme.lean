import MemberBinding.Text.CaseMapping
import MemberBinding.Text.Pattern
import MemberBinding.Text.Vocabulary

/-!
# Casing schemes

How the words of an identifier are cased and joined: the pattern of its bodies, the words of a
body, and the body of a list of words. Words of a body are in lower case.
-/

namespace MemberBinding

inductive Scheme
  | allLower | allUpper | firstUpper | lowerCamel | upperCamel
  deriving DecidableEq, Repr

namespace Scheme

def name : Scheme → String
  | allLower => "AllLower"
  | allUpper => "AllUpper"
  | firstUpper => "FirstUpper"
  | lowerCamel => "LowerCamel"
  | upperCamel => "UpperCamel"

def vocabulary : Vocabulary Scheme :=
  ⟨"casing scheme", [allLower, allUpper, firstUpper, lowerCamel, upperCamel], name⟩

/-- Words joined by an underscore, as opposed to by a change of case. -/
def isSpaced : Scheme → Bool
  | allLower | allUpper | firstUpper => true
  | lowerCamel | upperCamel => false

def lowerOrDigit (c : Char) : Bool := c.isLower || c.isDigit

def upperOrDigit (c : Char) : Bool := c.isUpper || c.isDigit

/-- A word that starts with `first`, later words after one underscore each, and perhaps a last
underscore. -/
def spacedPattern (first later : Char → Bool) : Pattern :=
  let underscore := Pattern.one (· == '_')
  .seq (.one first) <| .seq (.many (.one later)) <|
    .seq (.many (.seq underscore (Pattern.repeated (.one later)))) underscore.optional

def capitalWord : Pattern := .seq (.one Char.isUpper) (Pattern.repeated (.one lowerOrDigit))

def pattern : Scheme → Pattern
  | allLower => spacedPattern Char.isLower lowerOrDigit
  | allUpper => spacedPattern Char.isUpper upperOrDigit
  | firstUpper => spacedPattern Char.isUpper lowerOrDigit
  | lowerCamel => .seq (.one Char.isLower) <| .seq (.many (.one lowerOrDigit)) (.many capitalWord)
  | upperCamel => .seq (.many capitalWord) (.alt capitalWord (.one Char.isUpper))

def isBody (s : Scheme) (body : List Char) : Bool := s.pattern.accepts body

/-- Puts `c` before the first word. -/
def extend (c : Char) : List (List Char) → List (List Char)
  | [] => [[c]]
  | w :: ws => (c :: w) :: ws

/-- A word ends before each upper-case letter. -/
def camelWords : List Char → List (List Char)
  | [] => []
  | [c] => [[c.toLower]]
  | c :: d :: s =>
    if d.isUpper then [c.toLower] :: camelWords (d :: s) else extend c.toLower (camelWords (d :: s))

def splitBody (s : Scheme) (body : List Char) : List (List Char) :=
  if s.isSpaced then (body.splitOn '_').map (·.map Char.toLower) else camelWords body

def renderFirst : Scheme → List Char → List Char
  | allLower | lowerCamel => CaseMapping.lower
  | allUpper => CaseMapping.upper
  | firstUpper | upperCamel => CaseMapping.capitalize

def renderLater : Scheme → List Char → List Char
  | allLower | firstUpper => CaseMapping.lower
  | allUpper => CaseMapping.upper
  | lowerCamel | upperCamel => CaseMapping.capitalize

def separator (s : Scheme) : List Char := if s.isSpaced then ['_'] else []

def joinWords (s : Scheme) : List (List Char) → List Char
  | [] => []
  | w :: ws => s.renderFirst w ++ ws.flatMap (s.separator ++ s.renderLater ·)

def compile (s : Scheme) (words : List String) : String :=
  String.ofList (s.joinWords (words.map String.toList))

end Scheme
end MemberBinding
