import MemberBinding.Violation

/-!
# What a message tells about its violation

Messages of different categories begin differently, so the category of a violation can be read off
its text, although names in the text may hold anything. Main statement:
`Violation.category_eq_of_message_eq`.
-/

namespace MemberBinding

/-- The category of the violation that a text reports, told by how the text begins. -/
def Category.ofText? : List Char → Option Category
  | 'N' :: 'o' :: 't' :: ' ' :: 'v' :: _ => some .nameFormat
  | 'N' :: _ => some .linkResolution
  | 'F' :: _ => some .linkResolution
  | 'M' :: _ => some .multiplicity
  | 'T' :: _ => some .typeMismatch
  | 'P' :: _ => some .shape
  | 'C' :: _ => some .mutualExclusion
  | _ => none

namespace Violation

private theorem toString_string (s : String) : toString s = s := rfl

theorem ofText?_message (v : Violation) :
    Category.ofText? v.message.toList = some v.category := by
  unfold message category
  cases v <;> dsimp only <;> simp [toString_string, Category.ofText?]

theorem category_eq_of_message_eq {v w : Violation} (h : v.message = w.message) :
    v.category = w.category := by
  have hv := ofText?_message v
  rw [h, ofText?_message] at hv
  exact (Option.some.inj hv).symm

end Violation
end MemberBinding
