import MemberBinding.Proofs.FieldBinding.Reports
import MemberBinding.Proofs.Snapshot.Reordering

/-!
# Property bindings of reordered members

Selection, candidates and reports move along with the members. Main statements:
`Arises.reordered`, by which the same is reported, and `Profile.perm_of_resolve`, by which the same
is bound.
-/

namespace MemberBinding

open Snapshot

section

variable {config : Config} {s s' : Snapshot} {σ : Equiv.Perm Nat} {p f : Nat}

theorem FieldLinked.reordered (h : FieldLinked s p) (r : Reordering s s' σ) :
    FieldLinked s' (σ p) := by
  rcases h with h | ⟨f, h⟩
  · exact .inl (by rwa [r.member_eq])
  · exact .inr ⟨σ f, r.pointsAt h⟩

theorem fieldLinked_reordered_iff (r : Reordering s s' σ) :
    FieldLinked s' (σ p) ↔ FieldLinked s p :=
  ⟨fun h => by simpa using h.reordered r.symm, fun h => h.reordered r⟩

theorem FieldCandidate.reordered {given sought : Role}
    (h : FieldCandidate config s given sought p f) (r : Reordering s s' σ) :
    FieldCandidate config s' given sought (σ p) (σ f) := by
  cases h with
  | named searches matched =>
    refine .named ?_ (r.matchesName matched)
    rwa [r.member_eq, fieldLinked_reordered_iff r]
  | forward carried designated => exact .forward (by rwa [r.member_eq]) (r.designates designated)
  | reverse points => exact .reverse (r.pointsAt points)

end

namespace FieldBinding

variable {law : Law} {config : Config} {s s' : Snapshot} {mode : Mode} {σ : Equiv.Perm Nat}
  {p f : Nat}

theorem candidate_reordered_iff (r : Reordering s s' σ) (f : Nat) :
    Candidate law config s' (σ p) (σ f) ↔ Candidate law config s p f :=
  ⟨fun h => by simpa [Candidate] using FieldCandidate.reordered h r.symm,
    fun h => FieldCandidate.reordered h r⟩

theorem Eligible.reordered (h : Eligible law config s mode p) (r : Reordering s s' σ) :
    Eligible law config s' mode (σ p) where
  toAvailable := r.available h.toAvailable
  admitted := by
    rw [r.member_eq]
    exact h.admitted
  chosen := by
    rw [r.member_eq, fieldLinked_reordered_iff r]
    exact h.chosen

theorem wellNamed_reordered_iff (r : Reordering s s' σ) :
    WellNamed law config s' (σ p) ↔ WellNamed law config s p := by
  rw [WellNamed, r.member_eq, WellNamed]

theorem Selected.reordered (h : Selected law config s mode p) (r : Reordering s s' σ) :
    Selected law config s' mode (σ p) :=
  ⟨h.1.reordered r, (wellNamed_reordered_iff r).2 h.2⟩

theorem Arises.reordered {law : ReportingLaw} {v : Violation} (h : Arises law config s mode v)
    (r : Reordering s s' σ) : Arises law config s' mode v := by
  cases h with
  | marks clash => exact .marks (r.markClash clash)
  | reverseLink owner carried listed undesignated =>
    rw [← r.member_eq] at carried undesignated
    exact .reverseLink (r.available owner) carried listed (r.undesignated undesignated)
  | invalidName eligible illNamed reported =>
    rw [← r.member_eq]
    exact .invalidName (eligible.reordered r) (mt (wellNamed_reordered_iff r).1 illNamed) reported
  | forwardLink selected carried undesignated =>
    rw [← r.member_eq] at carried undesignated
    exact .forwardLink (selected.reordered r) carried (r.undesignated undesignated)
  | multiConnect selected several =>
    rw [← r.member_eq]
    exact .multiConnect (selected.reordered r) (r.several (candidate_reordered_iff r) several)
  | missingRequired selected requires none =>
    rw [← r.member_eq] at requires ⊢
    refine .missingRequired (selected.reordered r) requires ?_
    intro g hg
    obtain ⟨f, rfl⟩ := σ.surjective g
    exact none f ((candidate_reordered_iff r f).1 hg)
  | unfit selected sole fault =>
    rw [← r.member_eq, ← r.member_eq] at fault
    exact .unfit (selected.reordered r) (Reordering.sole (candidate_reordered_iff r) sole) fault

/-! ## Bindings -/

/-- A selected property, with its candidate if it has one. -/
structure Binds (law : Law) (config : Config) (s : Snapshot) (mode : Mode) (b : FieldBinding Nat) :
    Prop where
  selected : Selected law config s mode b.property
  field_iff : ∀ f, b.field = some f ↔ Candidate law config s b.property f

/-- The properties of an outcome leave no choice of the fields. -/
theorem Outcome.mem_iff_binds {bs : List (FieldBinding Nat)} (h : Outcome law config s mode bs)
    {b : FieldBinding Nat} : b ∈ bs ↔ Binds law config s mode b := by
  constructor
  · intro hb
    exact ⟨h.selected hb, h.field_iff b hb⟩
  · intro hb
    obtain ⟨c, hc, hproperty⟩ := List.mem_map.1 ((h.mem_iff _).2 hb.selected)
    have hfield : c.field = b.field := by
      apply Option.ext
      intro f
      rw [h.field_iff c hc, hproperty, hb.field_iff]
    obtain ⟨_, _⟩ := b
    obtain ⟨_, _⟩ := c
    cases hproperty
    cases hfield
    exact hc

theorem Outcome.nodup {bs : List (FieldBinding Nat)} (h : Outcome law config s mode bs) :
    bs.Nodup := by
  have hproperties : (bs.map (·.property)).Nodup := h.ordered.imp Nat.ne_of_lt
  exact List.Pairwise.of_map _ (fun _ _ hne heq => hne (congrArg _ heq)) hproperties

theorem Binds.reordered {b : FieldBinding Nat} (h : Binds law config s mode b)
    (r : Reordering s s' σ) :
    Binds law config s' mode (b.map σ) where
  selected := h.selected.reordered r
  field_iff := by
    intro g
    obtain ⟨f, rfl⟩ := σ.surjective g
    have hfield : (b.map σ).field = some (σ f) ↔ b.field = some f := by
      simp [map]
    rw [hfield, h.field_iff]
    exact (candidate_reordered_iff r f).symm

/-- The bindings whose positions are permuted. -/
def permute (σ : Equiv.Perm Nat) : Equiv.Perm (FieldBinding Nat) where
  toFun b := b.map σ
  invFun b := b.map σ.symm
  left_inv b := by simp
  right_inv b := by simp

theorem Outcome.perm (r : Reordering s s' σ) {bs bs' : List (FieldBinding Nat)}
    (h : Outcome law config s mode bs) (h' : Outcome law config s' mode bs') :
    (bs.map (·.map s.member)).Perm (bs'.map (·.map s'.member)) := by
  refine map_perm_map (permute σ) h.nodup h'.nodup ?_ ?_
  · intro b
    rw [h.mem_iff_binds, h'.mem_iff_binds]
    constructor
    · intro hb
      simpa [permute] using hb.reordered r.symm
    · exact fun hb => hb.reordered r
  · intro b
    have hmember : s'.member ∘ σ = s.member := funext r.member_eq
    simp [permute, hmember]

theorem Profile.perm_of_resolve {profile : Profile} (hlaw : profile.Obeys law)
    (r : Reordering s s' σ) {bs bs' : List (FieldBinding Member)}
    (h : profile.resolve config s mode = .ok bs) (h' : profile.resolve config s' mode = .ok bs') :
    bs.Perm bs' := by
  obtain ⟨ps, hps, rfl⟩ := map_eq_ok_iff.1 h
  obtain ⟨ps', hps', rfl⟩ := map_eq_ok_iff.1 h'
  exact (outcome_of_positions_eq_ok hlaw hps).perm r (outcome_of_positions_eq_ok hlaw hps')

end FieldBinding
end MemberBinding
