import MemberBinding.Naming.Scheme

/-!
# Naming conventions

A casing scheme between two literal affixes. A name follows the convention when it is the one
affix, a body of the scheme, and the other affix; the affixes do not overlap.
-/

namespace MemberBinding

/-- The part of `s` between the affixes. -/
def between? (before after s : List Char) : Option (List Char) :=
  if before.isPrefixOf s && after.isSuffixOf (s.drop before.length) then
    some ((s.drop before.length).take (s.length - before.length - after.length))
  else none

theorem between?_eq_some_iff {before after s body : List Char} :
    between? before after s = some body ↔ s = before ++ body ++ after := by
  have taken (u : List Char) :
      (u ++ after).take ((before ++ (u ++ after)).length - before.length - after.length) = u := by
    rw [show (before ++ (u ++ after)).length - before.length - after.length = u.length by
      simp only [List.length_append]; omega]
    exact List.take_left
  unfold between?
  constructor
  · intro h
    split at h
    · rename_i hc
      simp only [Bool.and_eq_true, List.isPrefixOf_iff_prefix, List.isSuffixOf_iff_suffix] at hc
      obtain ⟨⟨t, rfl⟩, u, hu⟩ := hc
      rw [List.drop_left] at h hu
      subst hu
      rw [taken, Option.some.injEq] at h
      simp [h]
    · cases h
  · rintro rfl
    rw [List.append_assoc, List.drop_left, taken, if_pos]
    simp [List.isSuffixOf_iff_suffix]

structure Convention where
  scheme : Scheme
  before : String
  after : String
  deriving DecidableEq, Repr

/-- A name that breaks its convention. -/
structure NameFault where
  name : String
  convention : Convention
  deriving DecidableEq, Repr

namespace Convention

def plain (scheme : Scheme) : Convention := ⟨scheme, "", ""⟩

def display (c : Convention) : String := s!"{c.before}<{c.scheme.name}>{c.after}"

def body? (c : Convention) (name : String) : Option (List Char) :=
  (between? c.before.toList c.after.toList name.toList).filter c.scheme.isBody

def accepts (c : Convention) (name : String) : Bool := (c.body? name).isSome

/-- The words of a name, in lower case. -/
def segment (c : Convention) (name : String) : Except NameFault (List String) :=
  match c.body? name with
  | some body => .ok ((c.scheme.splitBody body).map String.ofList)
  | none => .error ⟨name, c⟩

def compile (c : Convention) (words : List String) : String :=
  c.before ++ c.scheme.compile words ++ c.after

theorem body?_eq_some_iff {c : Convention} {name : String} {body : List Char} :
    c.body? name = some body ↔
      name.toList = c.before.toList ++ body ++ c.after.toList ∧ c.scheme.isBody body = true := by
  simp [body?, Option.filter_eq_some_iff, between?_eq_some_iff]

theorem accepts_iff {c : Convention} {name : String} :
    c.accepts name = true ↔ ∃ body, name.toList = c.before.toList ++ body ++ c.after.toList ∧
      c.scheme.isBody body = true := by
  simp [accepts, Option.isSome_iff_exists, body?_eq_some_iff]

end Convention

def NameFault.message (e : NameFault) : String :=
  s!"Name '{e.name}' does not match naming convention {e.convention.display}"

end MemberBinding
