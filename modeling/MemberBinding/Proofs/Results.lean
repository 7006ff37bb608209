import Mathlib.Data.List.Basic

/-!
# Results and errors

What is known of a computation from the result of a later step.
-/

namespace MemberBinding

variable {ε α β γ : Type}

theorem bind_eq_ok_iff {o : Except ε α} {f : α → Except ε β} {b : β} :
    (o >>= f) = .ok b ↔ ∃ a, o = .ok a ∧ f a = .ok b := by
  cases o <;> simp [bind, Except.bind]

theorem map_eq_ok_iff {o : Except ε α} {f : α → β} {b : β} :
    o.map f = .ok b ↔ ∃ a, o = .ok a ∧ f a = b := by
  cases o <;> simp [Except.map]

theorem map_eq_error_iff {o : Except ε α} {f : α → β} {e : ε} :
    o.map f = .error e ↔ o = .error e := by
  cases o <;> simp [Except.map]

theorem map_map_eq (f : α → β) (g : β → γ) (o : Except ε α) : (o.map f).map g = o.map (g ∘ f) := by
  cases o <;> rfl

/-! ## The result alone -/

theorem toOption_eq_some_iff {o : Except ε α} {a : α} : o.toOption = some a ↔ o = .ok a := by
  cases o <;> simp [Except.toOption]

theorem toOption_map (f : α → β) (o : Except ε α) : (o.map f).toOption = o.toOption.map f := by
  cases o <;> rfl

theorem filterMap_toOption_map (f : α → β) (os : List (Except ε α)) :
    (os.map (·.map f)).filterMap Except.toOption = (os.filterMap Except.toOption).map f := by
  rw [List.filterMap_map, List.map_filterMap]
  exact List.filterMap_congr fun o _ => toOption_map f o

end MemberBinding
