import MemberBinding.Proofs.Command.Provenance
import MemberBinding.Proofs.Command.Reports
import MemberBinding.Proofs.FieldBinding.Reordering

/-!
# Command bindings of reordered members

Selection, candidates and reports move along with the members. Main statements:
`Arises.reordered`, by which the same is reported, and `perm_of_resolve`, by which the same is
bound.
-/

namespace MemberBinding.Command

open Snapshot

variable {config : Config} {s s' : Snapshot} {mode : Mode} {σ : Equiv.Perm Nat} {e : Nat}
  {p : Option Nat}

theorem Executes.reordered {types : TypeNames} {l : Link} {c : Option Nat}
    (h : Executes types s l e c) (r : Reordering s s' σ) :
    Executes types s' l (σ e) (c.map σ) := by
  cases h with
  | alone single execute => exact .alone single (r.designates execute)
  | first second execute canExecute order =>
    refine .first second (r.designates execute) (r.designates canExecute) ?_
    rwa [r.member_eq, r.member_eq]
  | second second execute canExecute order =>
    refine .second second (r.designates execute) (r.designates canExecute) ?_
    rwa [r.member_eq, r.member_eq]

theorem Exposes.reordered {q : Nat} {c : Option Nat} (h : Exposes config s q e c)
    (r : Reordering s s' σ) : Exposes config s' (σ q) (σ e) (c.map σ) := by
  obtain ⟨ha, l, hl, h⟩ := h
  exact ⟨r.available ha, l, by rwa [r.member_eq], h.reordered r⟩

theorem Guards.reordered {c : Nat} (h : Guards s c e) (r : Reordering s s' σ) :
    Guards s' (σ c) (σ e) :=
  r.pointsAt h

theorem GuardLinked.reordered (h : GuardLinked config s e) (r : Reordering s s' σ) :
    GuardLinked config s' (σ e) := by
  rcases h with h | ⟨c, h⟩ | ⟨q, c, h⟩
  · exact .inl (by rwa [r.member_eq])
  · exact .inr (.inl ⟨σ c, h.reordered r⟩)
  · exact .inr (.inr ⟨σ q, σ c, h.reordered r⟩)

theorem guardLinked_reordered_iff (r : Reordering s s' σ) :
    GuardLinked config s' (σ e) ↔ GuardLinked config s e :=
  ⟨fun h => by simpa using h.reordered r.symm, fun h => h.reordered r⟩

theorem PropertyLinked.reordered (h : PropertyLinked config s e) (r : Reordering s s' σ) :
    PropertyLinked config s' (σ e) := by
  rcases h with h | ⟨q, c, h⟩
  · exact .inl (by rwa [r.member_eq])
  · exact .inr ⟨σ q, c.map σ, h.reordered r⟩

theorem propertyLinked_reordered_iff (r : Reordering s s' σ) :
    PropertyLinked config s' (σ e) ↔ PropertyLinked config s e :=
  ⟨fun h => by simpa using h.reordered r.symm, fun h => h.reordered r⟩

theorem Linked.reordered (h : Linked config s e) (r : Reordering s s' σ) :
    Linked config s' (σ e) := by
  rcases h with h | h | ⟨c, h⟩ | ⟨q, c, h⟩
  · exact .inl (by rwa [r.member_eq])
  · exact .inr (.inl (by rwa [r.member_eq]))
  · exact .inr (.inr (.inl ⟨σ c, h.reordered r⟩))
  · exact .inr (.inr (.inr ⟨σ q, c.map σ, h.reordered r⟩))

theorem wellNamed_reordered_iff (r : Reordering s s' σ) :
    WellNamed config s' (σ e) ↔ WellNamed config s e := by
  rw [WellNamed, r.member_eq, WellNamed]

theorem Marked.reordered (h : Marked config s mode e) (r : Reordering s s' σ) :
    Marked config s' mode (σ e) := by
  rcases h with h | ⟨hmode, hincluded⟩
  · exact .inl (h.reordered r)
  · exact .inr ⟨hmode, by rwa [r.member_eq]⟩

theorem Selected.reordered (h : Selected config s mode e) (r : Reordering s s' σ) :
    Selected config s' mode (σ e) where
  toAvailable := r.available h.toAvailable
  named := (wellNamed_reordered_iff r).2 h.named
  chosen := by
    have hchosen := h.chosen
    rw [chosen_iff] at hchosen ⊢
    rw [r.member_eq]
    exact hchosen.imp_left fun h => h.reordered r

theorem CanExecuteCandidate.reordered {c : Nat} (h : CanExecuteCandidate config s e p c)
    (r : Reordering s s' σ) :
    CanExecuteCandidate config s' (σ e) (p.map σ) (σ c) := by
  cases h with
  | named searches matched =>
    refine .named ?_ (r.matchesName matched)
    rwa [r.member_eq, guardLinked_reordered_iff r]
  | forward carried designated => exact .forward (by rwa [r.member_eq]) (r.designates designated)
  | reverse guards => exact .reverse (guards.reordered r)
  | companion bound exposes => exact .companion (by rw [bound]; rfl) (exposes.reordered r)

theorem canExecuteCandidate_reordered_iff (r : Reordering s s' σ) (c : Nat) :
    CanExecuteCandidate config s' (σ e) (p.map σ) (σ c) ↔ CanExecuteCandidate config s e p c :=
  ⟨fun h => by simpa using h.reordered r.symm, fun h => h.reordered r⟩

theorem PropertyCandidate.reordered {q : Nat} (h : PropertyCandidate config s e q)
    (r : Reordering s s' σ) : PropertyCandidate config s' (σ e) (σ q) := by
  cases h with
  | named searches matched =>
    refine .named ?_ (r.matchesName matched)
    rwa [r.member_eq, propertyLinked_reordered_iff r]
  | forward carried designated => exact .forward (by rwa [r.member_eq]) (r.designates designated)
  | reverse exposes => exact .reverse (exposes.reordered r)

theorem propertyCandidate_reordered_iff (r : Reordering s s' σ) {q : Nat} :
    PropertyCandidate config s' (σ e) (σ q) ↔ PropertyCandidate config s e q :=
  ⟨fun h => by simpa using h.reordered r.symm, fun h => h.reordered r⟩

theorem backingCandidate_reordered_iff (r : Reordering s s' σ) {q : Nat} (f : Nat) :
    BackingCandidate config s' (σ q) (σ f) ↔ BackingCandidate config s q f :=
  ⟨fun h => by simpa [BackingCandidate] using FieldCandidate.reordered h r.symm,
    fun h => FieldCandidate.reordered h r⟩

theorem Exposure.reordered (h : Exposure config s e p) (r : Reordering s s' σ) :
    Exposure config s' (σ e) (p.map σ) := by
  rcases h with ⟨q, rfl, h⟩ | ⟨rfl, h⟩
  · exact .inl ⟨σ q, rfl, h.reordered r⟩
  · refine .inr ⟨rfl, ?_⟩
    intro q' hq'
    obtain ⟨q, rfl⟩ := σ.surjective q'
    exact h q ((propertyCandidate_reordered_iff r).1 hq')

/-! ## Reports -/

theorem BadMethodsLink.reordered {types : TypeNames} {l : Link} {site : LinkSite} {v : Violation}
    (h : BadMethodsLink types s l site v) (r : Reordering s s' σ) :
    BadMethodsLink types s' l site v := by
  cases h with
  | first undesignated => exact .first (r.undesignated undesignated)
  | second second undesignated => exact .second second (r.undesignated undesignated)
  | conflict second designates other conflict =>
    rw [← r.member_eq, ← r.member_eq] at conflict
    exact .conflict second (r.designates designates) (r.designates other) conflict

theorem Misfit.reordered {v : Violation} (h : Misfit config s e p v) (r : Reordering s s' σ) :
    Misfit config s' (σ e) (p.map σ) v := by
  cases h with
  | canExecutes several =>
    rw [← r.member_eq]
    exact .canExecutes (r.several (canExecuteCandidate_reordered_iff r) several)
  | fields bound several =>
    rw [← r.member_eq]
    exact .fields (by rw [bound]; rfl) (r.several (backingCandidate_reordered_iff r) several)
  | required requires unbound =>
    rw [← r.member_eq] at requires ⊢
    exact .required requires (by rw [unbound]; rfl)
  | execute fault =>
    rw [← r.member_eq] at fault
    exact .execute fault
  | canExecute sole fault =>
    rw [← r.member_eq] at fault
    exact .canExecute (Reordering.sole (canExecuteCandidate_reordered_iff r) sole) fault
  | property bound unassignable =>
    rw [← r.member_eq] at unassignable ⊢
    exact .property (by rw [bound]; rfl) unassignable
  | field bound sole fault =>
    rw [← r.member_eq, ← r.member_eq] at fault
    exact .field (by rw [bound]; rfl) (Reordering.sole (backingCandidate_reordered_iff r) sole) fault

theorem Arises.reordered {v : Violation} (h : Arises config s mode v) (r : Reordering s s' σ) :
    Arises config s' mode v := by
  cases h with
  | marks clash => exact .marks (r.markClash clash)
  | guardLink owner carried listed undesignated =>
    rw [← r.member_eq] at carried undesignated
    exact .guardLink (r.available owner) carried listed (r.undesignated undesignated)
  | methodsLink owner carried bad =>
    rw [← r.member_eq] at carried bad
    exact .methodsLink (r.available owner) carried (bad.reordered r)
  | backLink owner carried listed undesignated =>
    rw [← r.member_eq] at carried undesignated
    exact .backLink (r.available owner) carried listed (r.undesignated undesignated)
  | invalidName available marked illNamed reported =>
    rw [← r.member_eq]
    exact .invalidName (r.available available) (marked.reordered r)
      (mt (wellNamed_reordered_iff r).1 illNamed) reported
  | canExecuteLink selected carried undesignated =>
    rw [← r.member_eq] at carried undesignated
    exact .canExecuteLink (selected.reordered r) carried (r.undesignated undesignated)
  | commandLink selected carried undesignated =>
    rw [← r.member_eq] at carried undesignated
    exact .commandLink (selected.reordered r) carried (r.undesignated undesignated)
  | fieldLink selected candidate carried undesignated =>
    rw [← r.member_eq] at carried undesignated
    exact .fieldLink (selected.reordered r) (candidate.reordered r) carried
      (r.undesignated undesignated)
  | misfit selected exposure misfit =>
    exact .misfit (selected.reordered r) (exposure.reordered r) (misfit.reordered r)

/-! ## Bindings -/

/-- A selected method with one of its properties, and the members that these lead to. -/
structure Binds (config : Config) (s : Snapshot) (mode : Mode) (b : CommandBinding Nat) : Prop where
  selected : Selected config s mode b.execute
  exposure : Exposure config s b.execute b.property
  canExecute_iff : ∀ c, b.canExecute = some c ↔ CanExecuteCandidate config s b.execute b.property c
  field_iff : ∀ f, b.field = some f ↔ ∃ q, b.property = some q ∧ BackingCandidate config s q f

theorem Justified.binds {b : CommandBinding Nat} (h : Justified config s mode b) :
    Binds config s mode b :=
  ⟨h.selected, h.exposure, h.canExecute_iff, h.field_iff⟩

/-- The method and the property of a binding leave no choice of the other members. -/
theorem Binds.eq {b c : CommandBinding Nat} (hb : Binds config s mode b)
    (hc : Binds config s mode c) (hexecute : b.execute = c.execute)
    (hproperty : b.property = c.property) : b = c := by
  have hcanExecute : b.canExecute = c.canExecute := by
    apply Option.ext
    intro m
    rw [hb.canExecute_iff, hc.canExecute_iff, hexecute, hproperty]
  have hfield : b.field = c.field := by
    apply Option.ext
    intro m
    rw [hb.field_iff, hc.field_iff, hproperty]
  obtain ⟨_, _, _, _⟩ := b
  obtain ⟨_, _, _, _⟩ := c
  cases hexecute
  cases hproperty
  cases hcanExecute
  cases hfield
  rfl

variable {bs : List (CommandBinding Nat)}

theorem mem_iff_binds (h : positions config s mode = .ok bs) {b : CommandBinding Nat} :
    b ∈ bs ↔ Binds config s mode b := by
  constructor
  · intro hb
    exact (justified_of_mem h hb).binds
  · intro hb
    obtain ⟨c, hc, hexecute, hproperty⟩ := exists_binding h hb.selected hb.exposure
    have heq : c = b := (justified_of_mem h hc).binds.eq hb hexecute hproperty
    exact heq ▸ hc

theorem nodup_of_positions (h : positions config s mode = .ok bs) : bs.Nodup := by
  obtain ⟨-, rfl⟩ := positions_eq_ok_iff.1 h
  refine List.pairwise_flatMap.2 ⟨?_, ?_⟩
  · intro e he
    have hproperties : ((bindings (.of config s mode) e).map (·.property)).Nodup := by
      rw [map_property_bindings]
      exact nodup_choices (nodup_properties _ e)
    exact List.Pairwise.of_map _ (fun _ _ hne heq => hne (congrArg _ heq)) hproperties
  · refine (Rules.pairwise_lt_anchors _ _ _).imp ?_
    intro e e' hlt b hb b' hb' heq
    obtain ⟨_, _, rfl⟩ := List.mem_map.1 hb
    obtain ⟨_, _, rfl⟩ := List.mem_map.1 hb'
    have hexecute : e = e' := congrArg CommandBinding.execute heq
    omega

theorem Binds.reordered {b : CommandBinding Nat} (h : Binds config s mode b)
    (r : Reordering s s' σ) :
    Binds config s' mode (b.map σ) where
  selected := h.selected.reordered r
  exposure := h.exposure.reordered r
  canExecute_iff := by
    intro d
    obtain ⟨c, rfl⟩ := σ.surjective d
    have hcanExecute : (b.map σ).canExecute = some (σ c) ↔ b.canExecute = some c := by
      simp [CommandBinding.map]
    rw [hcanExecute, h.canExecute_iff]
    exact (canExecuteCandidate_reordered_iff r c).symm
  field_iff := by
    intro g
    obtain ⟨f, rfl⟩ := σ.surjective g
    have hfield : (b.map σ).field = some (σ f) ↔ b.field = some f := by
      simp [CommandBinding.map]
    rw [hfield, h.field_iff]
    constructor
    · intro h
      obtain ⟨q, hq, hf⟩ := h
      exact ⟨σ q, Option.map_eq_some_iff.2 ⟨q, hq, rfl⟩, (backingCandidate_reordered_iff r f).2 hf⟩
    · intro h
      obtain ⟨_, hq, hf⟩ := h
      obtain ⟨q, hproperty, rfl⟩ := Option.map_eq_some_iff.1 hq
      exact ⟨q, hproperty, (backingCandidate_reordered_iff r f).1 hf⟩

/-- The bindings whose positions are permuted. -/
def permute (σ : Equiv.Perm Nat) : Equiv.Perm (CommandBinding Nat) where
  toFun b := b.map σ
  invFun b := b.map σ.symm
  left_inv b := by simp
  right_inv b := by simp

theorem perm_of_resolve (r : Reordering s s' σ) {bs bs' : List (CommandBinding Member)}
    (h : Command.resolve config s mode = .ok bs) (h' : Command.resolve config s' mode = .ok bs') :
    bs.Perm bs' := by
  obtain ⟨ps, hps, rfl⟩ := map_eq_ok_iff.1 h
  obtain ⟨ps', hps', rfl⟩ := map_eq_ok_iff.1 h'
  refine map_perm_map (permute σ) (nodup_of_positions hps) (nodup_of_positions hps') ?_ ?_
  · intro b
    rw [mem_iff_binds hps, mem_iff_binds hps']
    constructor
    · intro hb
      simpa [permute] using hb.reordered r.symm
    · exact fun hb => hb.reordered r
  · intro b
    have hmember : s'.member ∘ σ = s.member := funext r.member_eq
    simp [permute, hmember]

end MemberBinding.Command
