import MemberBinding.Proofs.Command.Consistent

/-!
# Bound commands are well formed

Whatever names and links lead to a binding, its members have the kinds, marks and types of their
roles. Main statement: `resolve_sound`.
-/

namespace MemberBinding

/-- A member of the snapshot that may be bound as `kind`. -/
structure Snapshot.Offers (s : Snapshot) (kind : MemberKind) (m : Member) : Prop where
  mem : m ∈ s.members
  kind_eq : m.kind = kind
  not_excluded : m.isExcluded = false

theorem Snapshot.Available.offers {s : Snapshot} {kind : MemberKind} {id : Nat}
    (h : s.Available kind id) : s.Offers kind (s.member id) :=
  ⟨member_mem h.lt, h.kind_eq, h.not_excluded⟩

namespace Command

/-- A method without parameters that returns `type`. -/
structure IsHandler (s : Snapshot) (type : String) (m : Member) : Prop
    extends s.Offers .method m where
  parameters_eq : m.parameters = []
  returnType_eq : m.returnType = some type

structure Sound (config : Config) (s : Snapshot) (b : CommandBinding Member) : Prop where
  execute : IsHandler s config.types.void b.execute
  named : (config.conventions.of .executeMethod).accepts b.execute.name = true ∨
    b.execute.requiresExplicitLink = true
  canExecute : ∀ c, b.canExecute = some c → IsHandler s config.types.boolean c
  property : ∀ p, b.property = some p → s.Offers .property p ∧
    ∃ type ∈ config.types.commandAssignable, p.valueType = some type
  field : ∀ f, b.field = some f → s.Offers .field f ∧
    ∃ p, b.property = some p ∧ p.declaredType = f.declaredType
  required : b.execute.requiresExplicitLink = true → ∃ p, b.property = some p

variable {config : Config} {s : Snapshot} {mode : Mode}

theorem Justified.sound {b : CommandBinding Nat} (h : Justified config s mode b) :
    Sound config s (b.map s.member) := by
  have hexecute := h.fit.execute_shape
  refine ⟨⟨h.selected.offers, hexecute.1, hexecute.2⟩, h.selected.named, ?_, ?_, ?_, ?_⟩
  · intro m hm
    obtain ⟨c, hc, rfl⟩ := Option.map_eq_some_iff.1 hm
    have hcandidate := (h.canExecute_iff c).1 hc
    have hshape := h.fit.canExecute_shape c hcandidate
    exact ⟨hcandidate.available.offers, hshape.1, hshape.2⟩
  · intro m hm
    obtain ⟨p, hp, rfl⟩ := Option.map_eq_some_iff.1 hm
    have hcandidate : PropertyCandidate config s b.execute p :=
      exposure_some_iff.1 (hp ▸ h.exposure)
    exact ⟨hcandidate.available.offers, h.fit.property_type p hp⟩
  · intro m hm
    obtain ⟨f, hf, rfl⟩ := Option.map_eq_some_iff.1 hm
    obtain ⟨p, hp, hcandidate⟩ := (h.field_iff f).1 hf
    have hproperty : (b.map s.member).property = some (s.member p) :=
      Option.map_eq_some_iff.2 ⟨p, hp, rfl⟩
    exact ⟨hcandidate.available.offers, _, hproperty, h.fit.field_type p hp f hcandidate⟩
  · intro hx
    obtain ⟨p, hp⟩ := Option.ne_none_iff_exists'.1 (h.fit.required hx)
    exact ⟨s.member p, Option.map_eq_some_iff.2 ⟨p, hp, rfl⟩⟩

/-- An executed method is asked by no binding whether it can execute. -/
theorem Sound.canExecute_ne {b b' : CommandBinding Member}
    (hne : config.types.void ≠ config.types.boolean) (h : Sound config s b)
    (h' : Sound config s b') : b'.canExecute ≠ some b.execute := by
  intro hb
  have hboolean := (h'.canExecute _ hb).returnType_eq
  rw [h.execute.returnType_eq] at hboolean
  exact hne (Option.some.inj hboolean)

/-- Every binding of a successful resolution is sound, and no method plays two parts. -/
theorem resolve_sound {bs : List (CommandBinding Member)}
    (h : Command.resolve config s mode = .ok bs) :
    (∀ b ∈ bs, Sound config s b) ∧ (config.types.void ≠ config.types.boolean →
      ∀ b ∈ bs, ∀ b' ∈ bs, b'.canExecute ≠ some b.execute) := by
  obtain ⟨ps, hps, rfl⟩ := map_eq_ok_iff.1 h
  have hsound : ∀ b ∈ ps.map (·.map s.member), Sound config s b := by
    intro b hb
    obtain ⟨q, hq, rfl⟩ := List.mem_map.1 hb
    exact (justified_of_mem hps hq).sound
  refine ⟨hsound, ?_⟩
  intro hne b hb b' hb'
  exact (hsound b hb).canExecute_ne hne (hsound b' hb')

/-- A command whose members are found by name alone. -/
def namedCommand : Snapshot where
  name := "Document"
  members := [.method "ExecuteSaveMethod" "System.Void",
    .method "CanExecuteSaveMethod" "System.Boolean",
    .property "SaveCommand" "System.Windows.Input.ICommand",
    .field "saveCommand" "System.Windows.Input.ICommand"]

def namedBinding : CommandBinding Member :=
  CommandBinding.map namedCommand.member ⟨0, some 1, some 2, some 3⟩

theorem resolve_sound_namedCommand :
    Command.resolve {} namedCommand .all = .ok [namedBinding] ∧
      Sound {} namedCommand namedBinding ∧ namedBinding.canExecute ≠ some namedBinding.execute := by
  have h : Command.resolve {} namedCommand .all = .ok [namedBinding] := rfl
  obtain ⟨hsound, hne⟩ := resolve_sound h
  have hb : namedBinding ∈ [namedBinding] := List.mem_singleton_self _
  exact ⟨h, hsound _ hb, hne (by decide) _ hb _ hb⟩

end Command
end MemberBinding
