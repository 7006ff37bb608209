import MemberBinding.Binding.Bindings
import MemberBinding.Proofs.Command.Reports
import MemberBinding.Proofs.FieldBinding.Reports

/-!
# Reports are exact

Main statement: `Bindings.resolve_reports`, by which a resolution of any kind fails exactly when
something is wrong with the members, and then reports everything that is wrong and nothing else.
-/

namespace MemberBinding

/-- Everything that is wrong with the members of a snapshot, for a kind of binding. -/
def BindingKind.Arises (kind : BindingKind) (config : Config) (s : Snapshot) (mode : Mode) :
    Violation → Prop :=
  match kind with
  | .property => FieldBinding.Arises .ofProperty config s mode
  | .command => Command.Arises config s mode
  | .dependency => FieldBinding.Arises .ofDependency config s mode

namespace Bindings

variable {kind : BindingKind} {config : Config} {s : Snapshot} {mode : Mode}

theorem not_arises_of_resolve_eq_ok {bs : Bindings} (h : resolve kind config s mode = .ok bs)
    (v : Violation) : ¬kind.Arises config s mode v := by
  cases kind with
  | property =>
    obtain ⟨_, h, -⟩ := map_eq_ok_iff.1 h
    exact FieldBinding.Profile.not_arises_of_resolve_eq_ok
      FieldBinding.Profile.enforces_ofProperty h
  | command =>
    obtain ⟨_, h, -⟩ := map_eq_ok_iff.1 h
    exact Command.not_arises_of_resolve_eq_ok h
  | dependency =>
    obtain ⟨_, h, -⟩ := map_eq_ok_iff.1 h
    exact FieldBinding.Profile.not_arises_of_resolve_eq_ok
      FieldBinding.Profile.enforces_ofDependency h

theorem reports_of_resolve_eq_error {f : Failure} (h : resolve kind config s mode = .error f) :
    f.kind = kind ∧ f.Reports (kind.Arises config s mode) := by
  cases kind with
  | property =>
    exact FieldBinding.Profile.reports_of_resolve_eq_error
      FieldBinding.Profile.enforces_ofProperty (map_eq_error_iff.1 h)
  | command => exact Command.reports_of_resolve_eq_error (map_eq_error_iff.1 h)
  | dependency =>
    exact FieldBinding.Profile.reports_of_resolve_eq_error
      FieldBinding.Profile.enforces_ofDependency (map_eq_error_iff.1 h)

/-- A resolution succeeds only when nothing is wrong. A failure lists what is wrong: every entry
arises from the members, and the message of everything that arises is among its messages. -/
theorem resolve_reports (kind : BindingKind) (config : Config) (s : Snapshot) (mode : Mode) :
    match resolve kind config s mode with
    | .ok _ => ∀ v, ¬kind.Arises config s mode v
    | .error f => f.kind = kind ∧ f.Reports (kind.Arises config s mode) := by
  split
  · rename_i h
    exact not_arises_of_resolve_eq_ok h
  · rename_i h
    exact reports_of_resolve_eq_error h

end Bindings
end MemberBinding
