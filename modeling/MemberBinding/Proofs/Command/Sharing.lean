import MemberBinding.Binding.Bindings
import MemberBinding.Proofs.Command.Consistent
import MemberBinding.Proofs.FieldBinding.Exact
import MemberBinding.Proofs.Naming.Conversion

/-!
# Members that two bindings share

Where the words of a name are kept apart, no two names lead to the same member. A member that is
bound under two names was given to one of them by a link. Main statement: `shared_only_by_link`.
-/

namespace MemberBinding

/-- Converting names to a role of the rules loses nothing. -/
def Rules.NamesApart (rules : Rules) (conventions : Conventions) : Prop :=
  ∀ spec ∈ rules.roles, conventions.KeepsApart (rules.source spec).naming spec.naming

theorem Command.namesApart_iff {conventions : Conventions} : rules.NamesApart conventions ↔
    conventions.KeepsApart .executeMethod .canExecuteMethod ∧
      conventions.KeepsApart .executeMethod .commandProperty ∧
      conventions.KeepsApart .commandProperty .commandField := by
  simp only [Rules.NamesApart, roles_rules, List.forall_mem_cons, List.not_mem_nil, false_imp_iff,
    implies_true, and_true]
  rfl

theorem FieldBinding.Profile.namesApart_iff {profile : Profile} {conventions : Conventions} :
    profile.rules.NamesApart conventions ↔
      conventions.KeepsApart profile.property profile.field := by
  simp only [Rules.NamesApart, roles_rules, List.forall_mem_singleton]
  rfl

theorem BindingKind.namesApart_standard (kind : BindingKind) :
    kind.rules.NamesApart .standard := by
  cases kind with
  | property | dependency => exact FieldBinding.Profile.namesApart_iff.2 (.inl rfl)
  | command => exact Command.namesApart_iff.2 ⟨.inl rfl, .inl rfl, .inl rfl⟩

/-- Two names that lead to one member are the same. -/
theorem Snapshot.MatchesName.name_eq {s : Snapshot} {conventions : Conventions}
    {given sought : Role} {kind : MemberKind} {p q id : Nat}
    (hapart : conventions.KeepsApart given sought)
    (h : s.MatchesName conventions given sought kind p id)
    (h' : s.MatchesName conventions given sought kind q id) :
    (s.member p).name = (s.member q).name :=
  Conventions.convert_inj hapart h.2 h'.2

/-- Of two members that are led to one, each by a link or by its name, one has a link. -/
theorem Snapshot.or_of_matchesName {s : Snapshot} {conventions : Conventions} {given sought : Role}
    {kind : MemberKind} {p q id : Nat} {T T' : Prop}
    (hapart : conventions.KeepsApart given sought) (hne : (s.member p).name ≠ (s.member q).name)
    (h : T ∨ s.MatchesName conventions given sought kind p id)
    (h' : T' ∨ s.MatchesName conventions given sought kind q id) : T ∨ T' := by
  rcases h with htied | hmatches
  · exact .inl htied
  · rcases h' with htied | hmatches'
    · exact .inr htied
    · exact absurd (hmatches.name_eq hapart hmatches') hne

/-! ## Fields -/

/-- The property names the field in a link, or the field names the property. -/
inductive FieldTie (s : Snapshot) (p f : Nat) : Prop
  | forward {l} (carried : l ∈ (s.member p).linksOf .field)
      (designated : s.Designates .field l.name f)
  | reverse (points : s.PointsAt .field .property .property f p)

theorem FieldCandidate.tied_or_matches {config : Config} {s : Snapshot} {given sought : Role}
    {p f : Nat} (h : FieldCandidate config s given sought p f) :
    FieldTie s p f ∨ s.MatchesName config.conventions given sought .field p f := by
  cases h with
  | named _ matched => exact .inr matched
  | forward carried designated => exact .inl (.forward carried designated)
  | reverse points => exact .inl (.reverse points)

theorem FieldBinding.Profile.tied_or_tied {profile : Profile} {law : Law} {config : Config}
    {s : Snapshot} {mode : Mode} {bs : List (FieldBinding Nat)} (hlaw : profile.Obeys law)
    (hapart : profile.rules.NamesApart config.conventions)
    (h : profile.positions config s mode = .ok bs) {b b' : FieldBinding Nat} (hb : b ∈ bs)
    (hb' : b' ∈ bs) (hne : (s.member b.property).name ≠ (s.member b'.property).name) {f : Nat}
    (hf : b.field = some f) (hf' : b'.field = some f) :
    FieldTie s b.property f ∨ FieldTie s b'.property f := by
  have hbs := outcome_of_positions_eq_ok hlaw h
  rw [namesApart_iff, hlaw.property_eq, hlaw.field_eq] at hapart
  exact Snapshot.or_of_matchesName hapart hne
    (FieldCandidate.tied_or_matches ((hbs.field_iff b hb f).1 hf))
    (FieldCandidate.tied_or_matches ((hbs.field_iff b' hb' f).1 hf'))

/-! ## Commands -/

namespace Command

/-- The method names the property in a link, or the property names the method. -/
inductive PropertyTie (config : Config) (s : Snapshot) (e p : Nat) : Prop
  | forward {l} (carried : l ∈ (s.member e).linksOf .command)
      (designated : s.Designates .property l.name p)
  | reverse {c} (exposes : Exposes config s p e c)

/-- One of the methods names the other in a link, or the property that `e` is bound with names
both. -/
inductive CanExecuteTie (config : Config) (s : Snapshot) (e : Nat) (p : Option Nat) (c : Nat) : Prop
  | forward {l} (carried : l ∈ (s.member e).linksOf .canExecuteMethod)
      (designated : s.Designates .method l.name c)
  | reverse (guards : Guards s c e)
  | companion {q} (bound : p = some q) (exposes : Exposes config s q e (some c))

/-- What two bindings of different names have in common, one of them has through a link. -/
structure SharedByLink (config : Config) (s : Snapshot) (b b' : CommandBinding Nat) : Prop where
  property : (s.member b.execute).name ≠ (s.member b'.execute).name →
    ∀ p, b.property = some p → b'.property = some p →
      PropertyTie config s b.execute p ∨ PropertyTie config s b'.execute p
  canExecute : (s.member b.execute).name ≠ (s.member b'.execute).name →
    ∀ c, b.canExecute = some c → b'.canExecute = some c →
      CanExecuteTie config s b.execute b.property c ∨
        CanExecuteTie config s b'.execute b'.property c
  field : ∀ p, b.property = some p → ∀ q, b'.property = some q →
    (s.member p).name ≠ (s.member q).name →
      ∀ f, b.field = some f → b'.field = some f → FieldTie s p f ∨ FieldTie s q f

variable {config : Config} {s : Snapshot} {mode : Mode}

theorem PropertyCandidate.tied_or_matches {e p : Nat} (h : PropertyCandidate config s e p) :
    PropertyTie config s e p ∨
      s.MatchesName config.conventions .executeMethod .commandProperty .property e p := by
  cases h with
  | named _ matched => exact .inr matched
  | forward carried designated => exact .inl (.forward carried designated)
  | reverse exposes => exact .inl (.reverse exposes)

theorem CanExecuteCandidate.tied_or_matches {e c : Nat} {p : Option Nat}
    (h : CanExecuteCandidate config s e p c) : CanExecuteTie config s e p c ∨
      s.MatchesName config.conventions .executeMethod .canExecuteMethod .method e c := by
  cases h with
  | named _ matched => exact .inr matched
  | forward carried designated => exact .inl (.forward carried designated)
  | reverse guards => exact .inl (.reverse guards)
  | companion bound exposes => exact .inl (.companion bound exposes)

theorem Justified.sharedByLink (hapart : rules.NamesApart config.conventions)
    {b b' : CommandBinding Nat} (h : Justified config s mode b) (h' : Justified config s mode b') :
    SharedByLink config s b b' := by
  obtain ⟨hcanExecute, hproperty, hfield⟩ := namesApart_iff.1 hapart
  refine ⟨?_, ?_, ?_⟩
  · intro hne p hp hp'
    have hcandidate := exposure_some_iff.1 (hp ▸ h.exposure)
    have hcandidate' := exposure_some_iff.1 (hp' ▸ h'.exposure)
    exact Snapshot.or_of_matchesName hproperty hne hcandidate.tied_or_matches
      hcandidate'.tied_or_matches
  · intro hne c hc hc'
    have hcandidate := (h.canExecute_iff c).1 hc
    have hcandidate' := (h'.canExecute_iff c).1 hc'
    exact Snapshot.or_of_matchesName hcanExecute hne hcandidate.tied_or_matches
      hcandidate'.tied_or_matches
  · intro p hp q hq hne f hf hf'
    obtain ⟨p', hp', hcandidate⟩ := (h.field_iff f).1 hf
    obtain ⟨q', hq', hcandidate'⟩ := (h'.field_iff f).1 hf'
    obtain rfl := Option.some.inj (hp.symm.trans hp')
    obtain rfl := Option.some.inj (hq.symm.trans hq')
    exact Snapshot.or_of_matchesName hfield hne (FieldCandidate.tied_or_matches hcandidate)
      (FieldCandidate.tied_or_matches hcandidate')

end Command

namespace Bindings

/-- Where the words of names are kept apart, as the standard conventions do, conversion is
injective on valid names, and of two bindings under different names that share a member one has it
through a link. -/
theorem shared_only_by_link (config : Config) (s : Snapshot) (mode : Mode) :
    (∀ kind : BindingKind, kind.rules.NamesApart .standard) ∧
    (∀ kind : BindingKind, kind.rules.NamesApart config.conventions → ∀ spec ∈ kind.rules.roles,
      Set.InjOn (config.conventions.convert · (kind.rules.source spec).naming spec.naming)
        {name | (config.conventions.of (kind.rules.source spec).naming).accepts name = true}) ∧
    (∀ profile ∈ [Property.profile, Dependency.profile],
      profile.rules.NamesApart config.conventions →
      ∀ bs, profile.positions config s mode = .ok bs → ∀ b ∈ bs, ∀ b' ∈ bs,
        (s.member b.property).name ≠ (s.member b'.property).name →
        ∀ f, b.field = some f → b'.field = some f →
          FieldTie s b.property f ∨ FieldTie s b'.property f) ∧
    (Command.rules.NamesApart config.conventions →
      ∀ bs, Command.positions config s mode = .ok bs → ∀ b ∈ bs, ∀ b' ∈ bs,
        Command.SharedByLink config s b b') := by
  refine ⟨BindingKind.namesApart_standard, ?_, ?_, ?_⟩
  · intro kind hapart spec hspec
    exact Conventions.convert_injOn (hapart spec hspec)
  · intro profile hprofile hapart bs h b hb b' hb' hne f hf hf'
    obtain ⟨law, -, hlaw⟩ := FieldBinding.Profile.exists_obeys hprofile
    exact FieldBinding.Profile.tied_or_tied hlaw hapart h hb hb' hne hf hf'
  · intro hapart bs h b hb b' hb'
    exact (Command.justified_of_mem h hb).sharedByLink hapart (Command.justified_of_mem h hb')

/-- Two properties over one field, and two commands behind one property. -/
def sharedMembers : Snapshot where
  name := "Document"
  members := [
    .property "Title" "System.String",
    (Member.property "Heading" "System.String").withLink ⟨.field, "title", none⟩,
    .field "title" "System.String",
    .method "ExecuteSaveMethod" "System.Void",
    (Member.method "ExecuteStoreMethod" "System.Void").withLink ⟨.command, "SaveCommand", none⟩,
    .property "SaveCommand" "System.Windows.Input.ICommand"]

theorem shared_only_by_link_sharedMembers :
    Property.positions {} sharedMembers .all = .ok [⟨0, some 2⟩, ⟨1, some 2⟩] ∧
    (FieldTie sharedMembers 0 2 ∨ FieldTie sharedMembers 1 2) ∧
    Command.positions {} sharedMembers .all =
      .ok [⟨3, none, some 5, none⟩, ⟨4, none, some 5, none⟩] ∧
    (Command.PropertyTie {} sharedMembers 3 5 ∨ Command.PropertyTie {} sharedMembers 4 5) := by
  have hfields : Property.positions {} sharedMembers .all = .ok [⟨0, some 2⟩, ⟨1, some 2⟩] := rfl
  have hcommands : Command.positions {} sharedMembers .all =
      .ok [⟨3, none, some 5, none⟩, ⟨4, none, some 5, none⟩] := rfl
  obtain ⟨happart, -, hshared, hsharedCommands⟩ := shared_only_by_link {} sharedMembers .all
  refine ⟨hfields, ?_, hcommands, ?_⟩
  · exact hshared Property.profile (by simp) (happart .property) _ hfields ⟨0, some 2⟩ (by simp)
      ⟨1, some 2⟩ (by simp) (by decide) 2 rfl rfl
  · exact (hsharedCommands (happart .command) _ hcommands ⟨3, none, some 5, none⟩ (by simp)
      ⟨4, none, some 5, none⟩ (by simp)).property (by decide) 5 rfl rfl

end Bindings
end MemberBinding
