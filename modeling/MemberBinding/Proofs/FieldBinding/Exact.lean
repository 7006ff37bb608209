import Mathlib.Data.List.Sort
import MemberBinding.Binding.Dependency
import MemberBinding.Binding.Property
import MemberBinding.Proofs.FieldBinding.Candidates
import MemberBinding.Proofs.Resolution.Run

/-!
# When properties are bound, and to which fields

The requirements on a snapshot are read off its members, with no mention of a run: which properties
are selected, which fields are candidates of a property, and what must hold of both. Main statement:
`resolve_exact`, by which a resolution succeeds exactly on the consistent snapshots and then binds
the selected properties, in order, each to its only candidate.
-/

namespace MemberBinding.FieldBinding

/-- What a kind of binding asks of names and types. -/
structure Law where
  property : Role
  field : Role
  admits : TypeNames → Member → Prop
  fits : TypeNames → (property field : Member) → Prop

/-- A property that holds no command, and a field of the same type. -/
def Law.ofProperty : Law where
  property := .property
  field := .field
  admits types m := m.valueType ≠ some types.command
  fits _ property field := property.declaredType = field.declaredType

/-- Any property, and a static field of the descriptor type. -/
def Law.ofDependency : Law where
  property := .dependencyProperty
  field := .dependencyField
  admits _ _ := True
  fits types _ field :=
    field.isStatic = true ∧ field.declaredType = some types.dependencyProperty

section

variable (law : Law) (config : Config) (s : Snapshot) (mode : Mode)

structure Eligible (p : Nat) : Prop extends s.Available .property p where
  admitted : law.admits config.types (s.member p)
  chosen : mode = .all ∨ (s.member p).isIncluded = true ∨ FieldLinked s p

def WellNamed (p : Nat) : Prop :=
  (s.member p).requiresExplicitLink = true ∨
    (config.conventions.of law.property).accepts (s.member p).name = true

def Selected (p : Nat) : Prop := Eligible law config s mode p ∧ WellNamed law config s p

/-- The fields that a property may be bound to. -/
def Candidate (p f : Nat) : Prop := FieldCandidate config s law.property law.field p f

/-- Nothing about the snapshot is to be reported. -/
structure Consistent : Prop where
  excluded : ∀ id < s.members.length,
    (s.member id).kind = .property ∨ (s.member id).kind = .field →
    (s.member id).isExcluded = true → (s.member id).isIncluded = false ∧
      (s.member id).linksOf .field = [] ∧ (s.member id).linksOf .property = []
  reverseLinks : ∀ f, s.Available .field f → ∀ l ∈ (s.member f).linksOf .property,
    ∀ name ∈ l.names, ∃ p, s.Designates .property name p
  names : ∀ p, Eligible law config s mode p →
    config.options.skipInvalidNames = true ∨ WellNamed law config s p
  forwardLinks : ∀ p, Selected law config s mode p → ∀ l ∈ (s.member p).linksOf .field,
    ∃ f, s.Designates .field l.name f
  unique : ∀ p, Selected law config s mode p → ∀ f, Candidate law config s p f →
    ∀ g, Candidate law config s p g → f = g
  required : ∀ p, Selected law config s mode p → (s.member p).requiresExplicitLink = true →
    ∃ f, Candidate law config s p f
  fits : ∀ p, Selected law config s mode p → ∀ f, Candidate law config s p f →
    law.fits config.types (s.member p) (s.member f)

/-- Every selected property once, in declaration order, with its candidate. -/
structure Outcome (bs : List (FieldBinding Nat)) : Prop where
  ordered : (bs.map (·.property)).Pairwise (· < ·)
  mem_iff : ∀ p, p ∈ bs.map (·.property) ↔ Selected law config s mode p
  field_iff : ∀ b ∈ bs, ∀ f, b.field = some f ↔ Candidate law config s b.property f

end

/-- The properties are in order and their candidates are given, so there is one outcome at most. -/
theorem Outcome.eq {law : Law} {config : Config} {s : Snapshot} {mode : Mode}
    {bs cs : List (FieldBinding Nat)} (h : Outcome law config s mode bs)
    (h' : Outcome law config s mode cs) : bs = cs := by
  have hproperties : bs.map (·.property) = cs.map (·.property) := by
    apply h.ordered.eq_of_mem_iff h'.ordered
    intro p
    rw [h.mem_iff, h'.mem_iff]
  apply List.ext_getElem
  · simpa using congrArg List.length hproperties
  · intro i hb hc
    have hproperty : bs[i].property = cs[i].property := by
      simpa [hb, hc] using congrArg (·[i]?) hproperties
    have hfield : bs[i].field = cs[i].field := by
      apply Option.ext
      intro f
      rw [h.field_iff _ (List.getElem_mem hb), hproperty, h'.field_iff _ (List.getElem_mem hc)]
    exact congrArg₂ FieldBinding.mk hproperty hfield

theorem Outcome.selected {law : Law} {config : Config} {s : Snapshot} {mode : Mode}
    {bs : List (FieldBinding Nat)} (h : Outcome law config s mode bs) {b : FieldBinding Nat}
    (hb : b ∈ bs) : Selected law config s mode b.property :=
  (h.mem_iff b.property).1 (List.mem_map_of_mem hb)

/-- The checks of a profile are those of a law. -/
structure Profile.Obeys (profile : Profile) (law : Law) : Prop where
  property_eq : profile.property = law.property
  field_eq : profile.field = law.field
  admits_iff : ∀ types m, profile.admits types m = true ↔ law.admits types m
  faults_iff : ∀ types property field,
    profile.faults types property field = [] ↔ law.fits types property field

theorem Profile.obeys_ofProperty : Property.profile.Obeys .ofProperty where
  property_eq := rfl
  field_eq := rfl
  admits_iff types m := by simp [Property.profile, Law.ofProperty]
  faults_iff types property field := sameTypeFaults_eq_nil_iff

theorem Profile.obeys_ofDependency : Dependency.profile.Obeys .ofDependency where
  property_eq := rfl
  field_eq := rfl
  admits_iff types m := by simp [Dependency.profile, Law.ofDependency]
  faults_iff types property field := Dependency.descriptorFaults_eq_nil_iff

theorem Profile.exists_obeys {profile : Profile}
    (h : profile ∈ [Property.profile, Dependency.profile]) :
    ∃ law ∈ [Law.ofProperty, Law.ofDependency], profile.Obeys law := by
  rcases List.mem_pair.1 h with rfl | rfl
  · exact ⟨_, List.mem_cons_self, obeys_ofProperty⟩
  · exact ⟨_, List.mem_cons_of_mem _ List.mem_cons_self, obeys_ofDependency⟩

namespace Profile

variable {profile : Profile} {law : Law} {ctx : Context}

@[simp] theorem roles_rules : profile.rules.roles = [profile.fieldSpec] := rfl

theorem fillsField (profile : Profile) : profile.rules.FillsField profile.fieldSpec 0 where
  getElem?_eq := rfl
  source_kind := rfl
  kind := rfl
  forward := rfl
  reverse := rfl
  companion := rfl
  not_carried := by simp [fieldSpec]

theorem linked_iff {p : Nat} : profile.rules.Linked ctx p ↔ FieldLinked ctx.snapshot p := by
  simp only [Rules.Linked, roles_rules, List.mem_singleton, exists_eq_left,
    profile.fillsField.exists_source_iff]
  exact and_iff_right rfl

theorem eligible_iff (h : profile.Obeys law) {p : Nat} :
    profile.rules.Eligible ctx p ↔
      FieldBinding.Eligible law ctx.config ctx.snapshot ctx.mode p := by
  rw [Rules.eligible_iff, linked_iff]
  constructor
  · intro h
    obtain ⟨ha, hc, hch⟩ := h
    exact ⟨ha, (h.admits_iff _ _).1 hc, hch⟩
  · intro h
    obtain ⟨ha, hc, hch⟩ := h
    exact ⟨ha, (h.admits_iff _ _).2 hc, hch⟩

theorem wellNamed_iff (h : profile.Obeys law) {p : Nat} :
    profile.rules.WellNamed ctx p ↔ FieldBinding.WellNamed law ctx.config ctx.snapshot p := by
  rw [FieldBinding.WellNamed, ← h.property_eq]
  rfl

theorem mem_anchors_iff (h : profile.Obeys law) {p : Nat} :
    p ∈ profile.rules.anchors ctx (profile.rules.reverseTable ctx) ↔
      Selected law ctx.config ctx.snapshot ctx.mode p := by
  rw [Rules.mem_anchors_iff, eligible_iff h, wellNamed_iff h, Selected]

/-- The fields that a run finds for a property. -/
def found (profile : Profile) (ctx : Context) (p : Nat) : List Nat :=
  Group.insertAll []
    (profile.rules.found ctx (profile.rules.reverseTable ctx) profile.fieldSpec 0 p)

theorem mem_found_iff (h : profile.Obeys law) {p f : Nat} :
    f ∈ profile.found ctx p ↔ Candidate law ctx.config ctx.snapshot p f := by
  rw [found, Group.mem_insertAll, profile.fillsField.mem_found_iff_fieldCandidate, Candidate,
    ← h.property_eq, ← h.field_eq]
  exact or_iff_right List.not_mem_nil

theorem nodup_found (profile : Profile) (ctx : Context) (p : Nat) : (profile.found ctx p).Nodup :=
  Group.nodup_insertAll List.nodup_nil _

/-- The one group of a property. -/
def group (profile : Profile) (ctx : Context) (p : Nat) : Group := ⟨p, [profile.found ctx p]⟩

theorem grow_seed (profile : Profile) (ctx : Context) (p : Nat) :
    profile.rules.grow ctx (profile.rules.reverseTable ctx) (profile.fieldSpec, 0) (.seed p 1) =
      [profile.group ctx p] := by
  have htable : ((profile.rules.reverseTable ctx)[0]?).getD [] =
      profile.rules.reverseLinks ctx profile.fieldSpec := Rules.getElem?_reverseTable rfl
  have hlink : profile.rules.linkRole ctx (profile.rules.reverseTable ctx) profile.fieldSpec 0
      (.seed p 1) = profile.group ctx p := by
    simp only [Rules.linkRole, Group.sourceOf, fieldSpec, Group.addAll_eq]
    rfl
  rw [Rules.grow_of_not_explodes _ _ _ rfl, htable, hlink,
    Group.attach_of_companion_none fun l hl => Rules.companion_eq_none rfl hl]

theorem block_eq (profile : Profile) (ctx : Context) (p : Nat) :
    profile.rules.block ctx (profile.rules.reverseTable ctx) p = [profile.group ctx p] := by
  have h := profile.grow_seed ctx p
  simp only [Rules.block, roles_rules, List.zipIdx_singleton, List.length_singleton,
    Rules.descendants, h]
  rfl

theorem descentFaults_eq_nil_iff {p : Nat} :
    profile.rules.descentFaults ctx (profile.rules.reverseTable ctx) profile.rules.roles.zipIdx
        (.seed p profile.rules.roles.length) = [] ↔
      ∀ l ∈ (ctx.snapshot.member p).linksOf .field,
        ∃ f, ctx.snapshot.Designates .field l.name f := by
  simp only [roles_rules, List.zipIdx_singleton, List.length_singleton, Rules.descentFaults,
    profile.grow_seed ctx p, List.flatMap_cons, List.flatMap_nil, List.append_nil,
    Rules.linkFaults_eq_nil_iff]
  have hsource : (Group.seed p 1).sourceOf profile.fieldSpec = some p := rfl
  simp only [hsource, Option.some.injEq, forall_eq']
  rfl

theorem length_found_lt_two_iff (h : profile.Obeys law) {p : Nat} :
    (profile.found ctx p).length < 2 ↔ ∀ f, Candidate law ctx.config ctx.snapshot p f →
      ∀ g, Candidate law ctx.config ctx.snapshot p g → f = g := by
  rw [Group.length_lt_two_iff (profile.nodup_found ctx p)]
  simp only [mem_found_iff h]

theorem single?_group_iff (h : profile.Obeys law) {p f : Nat}
    (hlen : (profile.found ctx p).length < 2) :
    (profile.group ctx p).single? 0 = some f ↔ Candidate law ctx.config ctx.snapshot p f := by
  have hlen' : ((profile.group ctx p).candidates 0).length < 2 := hlen
  rw [Group.single?_eq_some_iff_mem hlen', ← mem_found_iff h]
  rfl

theorem multiplicityFaults_group_eq_nil_iff {p : Nat} :
    profile.rules.multiplicityFaults ctx (profile.group ctx p) = [] ↔
      (profile.found ctx p).length < 2 := by
  rw [Rules.multiplicityFaults_eq_nil_iff]
  constructor
  · exact fun h => h profile.fieldSpec 0 rfl p rfl
  · intro h spec role hspec source _
    rw [roles_rules, List.getElem?_singleton] at hspec
    split at hspec
    · rename_i hrole
      exact hrole ▸ h
    · cases hspec

theorem requiredFaults_group_eq_nil_iff (h : profile.Obeys law) {p : Nat} :
    profile.rules.requiredFaults ctx (profile.group ctx p) = [] ↔
      ((ctx.snapshot.member p).requiresExplicitLink = true →
        ∃ f, Candidate law ctx.config ctx.snapshot p f) := by
  have hne : profile.found ctx p ≠ [] ↔ ∃ f, Candidate law ctx.config ctx.snapshot p f := by
    simp only [← mem_found_iff h]
    exact ⟨List.exists_mem_of_ne_nil _, fun ⟨_, hf⟩ => List.ne_nil_of_mem hf⟩
  rw [Rules.requiredFaults_eq_nil_iff, ← hne]
  constructor
  · exact fun hall hx => hall profile.fieldSpec 0 rfl p rfl rfl hx
  · intro hall spec role hspec source hsource _ hx
    rw [roles_rules, List.getElem?_singleton] at hspec
    split at hspec
    · rename_i hrole
      cases hspec
      cases hsource
      exact hrole ▸ hall hx
    · cases hspec

theorem check_group_eq_nil_iff (h : profile.Obeys law) {p : Nat}
    (hlen : (profile.found ctx p).length < 2) :
    profile.rules.check ctx (profile.group ctx p) = [] ↔
      ∀ f, Candidate law ctx.config ctx.snapshot p f →
        law.fits ctx.config.types (ctx.snapshot.member p) (ctx.snapshot.member f) := by
  have hanchor : (profile.group ctx p).anchor = p := rfl
  simp only [← single?_group_iff h hlen, ← h.faults_iff, rules, hanchor, Context.member_eq]
  cases (profile.group ctx p).single? 0 <;> simp

theorem groupFaults_eq_nil_iff (h : profile.Obeys law) {p : Nat} :
    profile.rules.groupFaults ctx (profile.group ctx p) = [] ↔
      (∀ f, Candidate law ctx.config ctx.snapshot p f →
        ∀ g, Candidate law ctx.config ctx.snapshot p g → f = g) ∧
      ((ctx.snapshot.member p).requiresExplicitLink = true →
        ∃ f, Candidate law ctx.config ctx.snapshot p f) ∧
      ∀ f, Candidate law ctx.config ctx.snapshot p f →
        law.fits ctx.config.types (ctx.snapshot.member p) (ctx.snapshot.member f) := by
  rw [Rules.groupFaults, List.append_eq_nil_iff, List.append_eq_nil_iff, and_assoc,
    multiplicityFaults_group_eq_nil_iff, requiredFaults_group_eq_nil_iff h,
    ← length_found_lt_two_iff h]
  exact and_congr_right fun hlen => and_congr_right fun _ => check_group_eq_nil_iff h hlen

/-! ## Marks and reverse links -/

theorem markFaults_eq_nil_iff : profile.rules.markFaults ctx = [] ↔
    ∀ id < ctx.snapshot.members.length,
      (ctx.snapshot.member id).kind = .property ∨ (ctx.snapshot.member id).kind = .field →
      (ctx.snapshot.member id).isExcluded = true → (ctx.snapshot.member id).isIncluded = false ∧
        (ctx.snapshot.member id).linksOf .field = [] ∧
        (ctx.snapshot.member id).linksOf .property = [] := by
  rw [Rules.markFaults_eq_nil_iff]
  simp [Rules.memberKinds, Rules.linkKinds, rules, fieldSpec]

theorem reverseFaults_eq_nil_iff :
    profile.rules.reverseFaults ctx profile.fieldSpec = [] ↔
      ∀ f, ctx.snapshot.Available .field f → ∀ l ∈ (ctx.snapshot.member f).linksOf .property,
        ∀ name ∈ l.names, ∃ p, ctx.snapshot.Designates .property name p :=
  Rules.reverseFaults_eq_nil_iff_of_companion_none rfl

/-! ## The whole run -/

theorem resolve_rules_eq_ok_iff (h : profile.Obeys law) {groups : List Group} :
    profile.rules.resolve ctx = .ok groups ↔
      Consistent law ctx.config ctx.snapshot ctx.mode ∧
        groups = (profile.rules.anchors ctx (profile.rules.reverseTable ctx)).map
          (profile.group ctx) := by
  have hnames : profile.rules.anchorFaults ctx (profile.rules.reverseTable ctx) = [] ↔
      ∀ p, FieldBinding.Eligible law ctx.config ctx.snapshot ctx.mode p →
        ctx.config.options.skipInvalidNames = true ∨
          FieldBinding.WellNamed law ctx.config ctx.snapshot p := by
    simp only [Rules.anchorFaults_eq_nil_iff, eligible_iff h, wellNamed_iff h]
  have hblocks : (profile.rules.anchors ctx (profile.rules.reverseTable ctx)).flatMap
      (profile.rules.block ctx (profile.rules.reverseTable ctx)) =
        (profile.rules.anchors ctx (profile.rules.reverseTable ctx)).map (profile.group ctx) := by
    rw [List.map_eq_flatMap]
    exact congrArg (List.flatMap · _) (funext (profile.block_eq ctx))
  rw [Rules.resolve_eq_ok_iff, markFaults_eq_nil_iff, hnames, hblocks]
  simp only [descentFaults_eq_nil_iff, mem_anchors_iff h, block_eq]
  simp only [roles_rules, List.mem_singleton, forall_eq, reverseFaults_eq_nil_iff,
    groupFaults_eq_nil_iff h]
  constructor
  · intro h
    obtain ⟨hx, hr, hn, hf, hg, rfl⟩ := h
    exact ⟨⟨hx, hr, hn, hf, fun p hp => (hg p hp).1, fun p hp => (hg p hp).2.1,
      fun p hp => (hg p hp).2.2⟩, rfl⟩
  · intro h
    obtain ⟨hc, rfl⟩ := h
    exact ⟨hc.excluded, hc.reverseLinks, hc.names, hc.forwardLinks,
      fun p hp => ⟨hc.unique p hp, hc.required p hp, hc.fits p hp⟩, rfl⟩

variable {config : Config} {s : Snapshot} {mode : Mode}

theorem positions_eq_ok_iff (h : profile.Obeys law) {bs : List (FieldBinding Nat)} :
    profile.positions config s mode = .ok bs ↔ Consistent law config s mode ∧
      bs = (profile.rules.anchors (.of config s mode)
        (profile.rules.reverseTable (.of config s mode))).map
          (ofGroup ∘ profile.group (.of config s mode)) := by
  simp only [positions, map_eq_ok_iff, resolve_rules_eq_ok_iff h, Context.config_of,
    Context.snapshot_of, Context.mode_of]
  constructor
  · intro h
    obtain ⟨_, ⟨hc, rfl⟩, rfl⟩ := h
    exact ⟨hc, by rw [List.map_map]⟩
  · intro h
    obtain ⟨hc, rfl⟩ := h
    exact ⟨_, ⟨hc, rfl⟩, by rw [List.map_map]⟩

/-- What a successful run binds. -/
theorem outcome_of_positions_eq_ok (h : profile.Obeys law) {bs : List (FieldBinding Nat)}
    (hbs : profile.positions config s mode = .ok bs) : Outcome law config s mode bs := by
  obtain ⟨hc, rfl⟩ := (positions_eq_ok_iff h).1 hbs
  have hproperties : ((profile.rules.anchors (.of config s mode)
      (profile.rules.reverseTable (.of config s mode))).map
        (ofGroup ∘ profile.group (.of config s mode))).map (·.property) =
      profile.rules.anchors (.of config s mode)
        (profile.rules.reverseTable (.of config s mode)) := by
    rw [List.map_map]
    exact List.map_id _
  refine ⟨?_, ?_, ?_⟩
  · rw [hproperties]
    exact Rules.pairwise_lt_anchors _ _ _
  · intro p
    rw [hproperties]
    exact mem_anchors_iff h
  · intro b hb f
    obtain ⟨p, hp, rfl⟩ := List.mem_map.1 hb
    have hsel : Selected law config s mode p := (mem_anchors_iff h).1 hp
    exact single?_group_iff h ((length_found_lt_two_iff h).2 (hc.unique p hsel))

theorem positions_eq_ok_iff_outcome (h : profile.Obeys law) {bs : List (FieldBinding Nat)} :
    profile.positions config s mode = .ok bs ↔
      Consistent law config s mode ∧ Outcome law config s mode bs := by
  constructor
  · intro hbs
    exact ⟨((positions_eq_ok_iff h).1 hbs).1, outcome_of_positions_eq_ok h hbs⟩
  · intro hbs
    obtain ⟨hc, hbs⟩ := hbs
    have hok := (positions_eq_ok_iff h).2 ⟨hc, rfl⟩
    rw [hbs.eq (outcome_of_positions_eq_ok h hok)]
    exact hok

theorem exists_resolve_eq_ok_iff (h : profile.Obeys law) :
    (∃ bs, profile.resolve config s mode = .ok bs) ↔ Consistent law config s mode := by
  simp only [resolve, map_eq_ok_iff, positions_eq_ok_iff h]
  constructor
  · intro h
    obtain ⟨_, _, ⟨hc, -⟩, -⟩ := h
    exact hc
  · intro hc
    exact ⟨_, _, ⟨hc, rfl⟩, rfl⟩

end Profile

/-- A property or dependency property binding succeeds exactly on the consistent snapshots, and then
consists of the selected properties in declaration order, each with its candidate. -/
theorem resolve_exact (config : Config) (s : Snapshot) (mode : Mode) :
    ((∃ bs, Property.resolve config s mode = .ok bs) ↔ Consistent .ofProperty config s mode) ∧
    (∀ bs, Property.resolve config s mode = .ok bs →
      ∃ ps, Property.positions config s mode = .ok ps ∧ Outcome .ofProperty config s mode ps ∧
        bs = ps.map (·.map s.member)) ∧
    ((∃ bs, Dependency.resolve config s mode = .ok bs) ↔ Consistent .ofDependency config s mode) ∧
    (∀ bs, Dependency.resolve config s mode = .ok bs →
      ∃ ps, Dependency.positions config s mode = .ok ps ∧ Outcome .ofDependency config s mode ps ∧
        bs = ps.map (·.map s.member)) := by
  refine ⟨Profile.exists_resolve_eq_ok_iff Profile.obeys_ofProperty, ?_,
    Profile.exists_resolve_eq_ok_iff Profile.obeys_ofDependency, ?_⟩
  · intro bs hbs
    obtain ⟨ps, hps, rfl⟩ := map_eq_ok_iff.1 hbs
    exact ⟨ps, hps, Profile.outcome_of_positions_eq_ok Profile.obeys_ofProperty hps, rfl⟩
  · intro bs hbs
    obtain ⟨ps, hps, rfl⟩ := map_eq_ok_iff.1 hbs
    exact ⟨ps, hps, Profile.outcome_of_positions_eq_ok Profile.obeys_ofDependency hps, rfl⟩

/-- A property that is bound with each of two fields, by one kind of binding or the other. -/
def titledSnapshot : Snapshot where
  name := "Document"
  members := [
    .property "Title" "System.String",
    .field "title" "System.String",
    (Member.field "TitleProperty" "System.Windows.DependencyProperty").asStatic]

theorem resolve_exact_titledSnapshot :
    (∃ ps, Property.positions {} titledSnapshot .all = .ok ps ∧ ps = [⟨0, some 1⟩] ∧
      Outcome .ofProperty {} titledSnapshot .all ps) ∧
    ∃ ps, Dependency.positions {} titledSnapshot .all = .ok ps ∧ ps = [⟨0, some 2⟩] ∧
      Outcome .ofDependency {} titledSnapshot .all ps := by
  have hproperty : Property.positions {} titledSnapshot .all = .ok [⟨0, some 1⟩] := rfl
  have hdependency : Dependency.positions {} titledSnapshot .all = .ok [⟨0, some 2⟩] := rfl
  obtain ⟨-, hp, -, hd⟩ := resolve_exact {} titledSnapshot .all
  obtain ⟨ps, hps, hpo, -⟩ := hp _ (map_eq_ok_iff.2 ⟨_, hproperty, rfl⟩)
  obtain ⟨ds, hds, hdo, -⟩ := hd _ (map_eq_ok_iff.2 ⟨_, hdependency, rfl⟩)
  refine ⟨⟨ps, hps, ?_, hpo⟩, ds, hds, ?_, hdo⟩
  · exact (Except.ok.inj (hproperty.symm.trans hps)).symm
  · exact (Except.ok.inj (hdependency.symm.trans hds)).symm

end MemberBinding.FieldBinding
