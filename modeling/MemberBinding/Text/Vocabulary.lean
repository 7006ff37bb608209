/-!
# Closed vocabularies

The words that stand for the values of an enumeration.
-/

namespace MemberBinding

structure Vocabulary (α : Type) where
  title : String
  all : List α
  spell : α → String

structure UnknownWord where
  title : String
  text : String
  deriving DecidableEq, Repr

def UnknownWord.message (e : UnknownWord) : String := s!"unknown {e.title} '{e.text}'"

namespace Vocabulary

variable {α : Type} (v : Vocabulary α)

def words : List String := v.all.map v.spell

def find? (text : String) : Option α := v.all.find? (v.spell · == text)

/-- As `find?`, with the ASCII letters of both sides in one case. -/
def findAnyCase? (text : String) : Option α :=
  v.all.find? fun a => (v.spell a).toList.map Char.toLower == text.toList.map Char.toLower

def orUnknown (found : Option α) (text : String) : Except UnknownWord α :=
  found.elim (.error ⟨v.title, text⟩) .ok

def parse (text : String) : Except UnknownWord α := v.orUnknown (v.find? text) text

def parseAnyCase (text : String) : Except UnknownWord α := v.orUnknown (v.findAnyCase? text) text

variable {v}

theorem spell_of_find? {text : String} {a : α} (h : v.find? text = some a) : v.spell a = text := by
  simpa using List.find?_some h

theorem find?_spell [BEq α] [LawfulBEq α] {a : α} (ha : a ∈ v.all)
    (inj : ∀ b ∈ v.all, v.spell b = v.spell a → b = a) : v.find? (v.spell a) = some a := by
  cases h : v.find? (v.spell a) with
  | none => simpa using List.find?_eq_none.1 h a ha
  | some b => rw [inj b (List.mem_of_find?_eq_some h) (spell_of_find? h)]

end Vocabulary
end MemberBinding
