import MemberBinding.Proofs.Command.Reordering
import MemberBinding.Proofs.Reports.Exact
import MemberBinding.Proofs.Reports.Messages

/-!
# Declaration order does not matter

The same members in another order give the same bindings, or failures that report the same, up to
order. Main statement: `Bindings.resolve_perm`.
-/

namespace MemberBinding

def Violation.isMultiConnect : Violation → Bool
  | multiConnect .. => true
  | _ => false

namespace Failure

/-- The messages of the violations that do not list several candidates. -/
def plainMessages (f : Failure) : List String :=
  (f.violations.filter fun v => !v.isMultiConnect).map Violation.message

/-- Two failures that report the same, in any order and with candidates in any order. -/
structure Reordered (f f' : Failure) : Prop where
  kind_eq : f.kind = f'.kind
  plain_iff : ∀ text, text ∈ f.plainMessages ↔ text ∈ f'.plainMessages
  multiConnect_eq : f.violations.any Violation.isMultiConnect =
    f'.violations.any Violation.isMultiConnect
  category_eq : ∀ c, f.hasCategory c = f'.hasCategory c

/-- Everything that `f` reports is reported by `f'`, up to the order of candidates. -/
def CoveredBy (f f' : Failure) : Prop :=
  ∀ v ∈ f.violations, ∃ w, v.Alike w ∧ ∃ u ∈ f'.violations, u.message = w.message

variable {f f' : Failure}

theorem isMultiConnect_iff_category {v : Violation} :
    v.isMultiConnect = true ↔ v.category = .multiplicity := by
  cases v <;> simp [Violation.isMultiConnect, Violation.category]

theorem Reports.coveredBy {P : Violation → Prop} (h : f.Reports P) (h' : f'.Reports P) :
    f.CoveredBy f' := by
  intro v hv
  obtain ⟨w, halike, hw⟩ := h'.complete v (h.sound v hv)
  exact ⟨w, halike, List.mem_map.1 hw⟩

theorem CoveredBy.exists_category_eq (h : f.CoveredBy f') {v : Violation} (hv : v ∈ f.violations) :
    ∃ u ∈ f'.violations, u.category = v.category := by
  obtain ⟨w, halike, u, hu, hmessage⟩ := h v hv
  have hcategory : w.category = v.category := by
    cases halike with
    | refl => rfl
    | multiConnect => rfl
  exact ⟨u, hu, (Violation.category_eq_of_message_eq hmessage).trans hcategory⟩

theorem CoveredBy.mem_plainMessages (h : f.CoveredBy f') {text : String}
    (ht : text ∈ f.plainMessages) : text ∈ f'.plainMessages := by
  obtain ⟨v, hv, rfl⟩ := List.mem_map.1 ht
  obtain ⟨hv, hplain⟩ := List.mem_filter.1 hv
  obtain ⟨w, halike, u, hu, hmessage⟩ := h v hv
  cases halike with
  | refl =>
    -- A text begins differently when it lists several candidates, so `u` lists none either.
    have hcategory := Violation.category_eq_of_message_eq hmessage
    have hplain' : u.isMultiConnect = v.isMultiConnect := by
      rw [Bool.eq_iff_iff, isMultiConnect_iff_category, isMultiConnect_iff_category, hcategory]
    exact List.mem_map.2 ⟨u, List.mem_filter.2 ⟨hu, by rwa [hplain']⟩, hmessage⟩
  | multiConnect => cases hplain

theorem CoveredBy.hasCategory (h : f.CoveredBy f') {c : Category} (hc : f.hasCategory c = true) :
    f'.hasCategory c = true := by
  obtain ⟨v, hv, hvc⟩ := List.any_eq_true.1 hc
  obtain ⟨u, hu, hcategory⟩ := h.exists_category_eq hv
  exact List.any_eq_true.2 ⟨u, hu, by rwa [hcategory]⟩

theorem hasCategory_multiplicity (f : Failure) :
    f.hasCategory .multiplicity = f.violations.any Violation.isMultiConnect := by
  apply congrArg (List.any f.violations)
  funext v
  rw [Bool.eq_iff_iff, beq_iff_eq, isMultiConnect_iff_category]

theorem Reordered.of_coveredBy (hkind : f.kind = f'.kind) (h : f.CoveredBy f')
    (h' : f'.CoveredBy f) : f.Reordered f' := by
  have hcategory : ∀ c, f.hasCategory c = f'.hasCategory c := by
    intro c
    rw [Bool.eq_iff_iff]
    exact ⟨h.hasCategory, h'.hasCategory⟩
  refine ⟨hkind, fun text => ⟨h.mem_plainMessages, h'.mem_plainMessages⟩, ?_, hcategory⟩
  rw [← hasCategory_multiplicity, ← hasCategory_multiplicity, hcategory]

end Failure

namespace Bindings

/-- The same bindings, in any order. -/
inductive Reordered : Bindings → Bindings → Prop
  | property {bs bs'} (perm : bs.Perm bs') : Reordered (.property bs) (.property bs')
  | command {bs bs'} (perm : bs.Perm bs') : Reordered (.command bs) (.command bs')
  | dependency {bs bs'} (perm : bs.Perm bs') : Reordered (.dependency bs) (.dependency bs')

variable {kind : BindingKind} {config : Config} {s s' : Snapshot} {mode : Mode}
  {σ : Equiv.Perm Nat}

theorem arises_of_reordering (r : s.Reordering s' σ) {v : Violation}
    (h : kind.Arises config s mode v) : kind.Arises config s' mode v := by
  cases kind with
  | property => exact FieldBinding.Arises.reordered h r
  | command => exact Command.Arises.reordered h r
  | dependency => exact FieldBinding.Arises.reordered h r

theorem arises_iff_of_reordering (r : s.Reordering s' σ) {v : Violation} :
    kind.Arises config s mode v ↔ kind.Arises config s' mode v :=
  ⟨arises_of_reordering r, arises_of_reordering r.symm⟩

theorem reordered_of_eq_ok (r : s.Reordering s' σ) {bs bs' : Bindings}
    (h : resolve kind config s mode = .ok bs) (h' : resolve kind config s' mode = .ok bs') :
    bs.Reordered bs' := by
  cases kind with
  | property =>
    obtain ⟨xs, hxs, rfl⟩ := map_eq_ok_iff.1 h
    obtain ⟨ys, hys, rfl⟩ := map_eq_ok_iff.1 h'
    exact .property (FieldBinding.Profile.perm_of_resolve
      FieldBinding.Profile.obeys_ofProperty r hxs hys)
  | command =>
    obtain ⟨xs, hxs, rfl⟩ := map_eq_ok_iff.1 h
    obtain ⟨ys, hys, rfl⟩ := map_eq_ok_iff.1 h'
    exact .command (Command.perm_of_resolve r hxs hys)
  | dependency =>
    obtain ⟨xs, hxs, rfl⟩ := map_eq_ok_iff.1 h
    obtain ⟨ys, hys, rfl⟩ := map_eq_ok_iff.1 h'
    exact .dependency (FieldBinding.Profile.perm_of_resolve
      FieldBinding.Profile.obeys_ofDependency r hxs hys)

theorem exists_arises_of_eq_error {f : Failure} (h : resolve kind config s mode = .error f) :
    ∃ v, kind.Arises config s mode v := by
  obtain ⟨-, hreports⟩ := reports_of_resolve_eq_error h
  obtain ⟨v, hv⟩ := List.exists_mem_of_ne_nil _ hreports.ne_nil
  exact ⟨v, hreports.sound v hv⟩

/-- The order in which members are declared decides neither whether a resolution succeeds, nor what
is bound, nor what is reported. -/
theorem resolve_perm (h : s.members.Perm s'.members) (kind : BindingKind) (config : Config)
    (mode : Mode) :
    match resolve kind config s mode, resolve kind config s' mode with
    | .ok bs, .ok bs' => bs.Reordered bs'
    | .error f, .error f' => f.Reordered f'
    | _, _ => False := by
  obtain ⟨σ, r⟩ := Snapshot.exists_reordering h
  cases hs : resolve kind config s mode with
  | ok bs =>
    cases hs' : resolve kind config s' mode with
    | ok bs' => exact reordered_of_eq_ok r hs hs'
    | error f' =>
      obtain ⟨v, hv⟩ := exists_arises_of_eq_error hs'
      exact not_arises_of_resolve_eq_ok hs v ((arises_iff_of_reordering r).2 hv)
  | error f =>
    cases hs' : resolve kind config s' mode with
    | ok bs' =>
      obtain ⟨v, hv⟩ := exists_arises_of_eq_error hs
      exact not_arises_of_resolve_eq_ok hs' v ((arises_iff_of_reordering r).1 hv)
    | error f' =>
      obtain ⟨hkind, hf⟩ := reports_of_resolve_eq_error hs
      obtain ⟨hkind', hf'⟩ := reports_of_resolve_eq_error hs'
      have hsame : kind.Arises config s mode = kind.Arises config s' mode :=
        funext fun v => propext (arises_iff_of_reordering r)
      rw [hsame] at hf
      exact .of_coveredBy (hkind.trans hkind'.symm) (hf.coveredBy hf') (hf'.coveredBy hf)

/-- A property that two fields point at, beside a field with marks that clash. -/
def crowded : Snapshot where
  name := "Document"
  members := [
    (Member.field "oldTitle" "System.String").withLink ⟨.property, "Title", none⟩,
    .property "Title" "System.String",
    (Member.field "newTitle" "System.String").withLink ⟨.property, "Title", none⟩,
    ((Member.field "draft" "System.String").withMark .included).withMark .excluded]

def crowdedBackwards : Snapshot := { crowded with members := crowded.members.reverse }

theorem resolve_perm_crowded :
    crowded.members.Perm crowdedBackwards.members ∧
      ∃ f f', resolve .property {} crowded .all = .error f ∧
        resolve .property {} crowdedBackwards .all = .error f' ∧ f.Reordered f' ∧
        f.messages ≠ f'.messages := by
  have hperm : crowded.members.Perm crowdedBackwards.members := (List.reverse_perm _).symm
  have h := resolve_perm hperm .property {} .all
  have hs : resolve .property {} crowded .all = .error ⟨.property,
      [.includeAndExclude "field" "draft",
        .multiConnect "property" "Title" "field" ["oldTitle", "newTitle"]]⟩ := rfl
  have hs' : resolve .property {} crowdedBackwards .all = .error ⟨.property,
      [.includeAndExclude "field" "draft",
        .multiConnect "property" "Title" "field" ["newTitle", "oldTitle"]]⟩ := rfl
  rw [hs, hs'] at h
  exact ⟨hperm, _, _, hs, hs', h, by decide⟩

end Bindings
end MemberBinding
