import MemberBinding.Proofs.FieldBinding.Exact
import MemberBinding.Proofs.Reports.Passes

/-!
# What is reported when properties are bound

The reports are read off the members, with no mention of a run. Main statements: `Arises`, which
lists them, and `Profile.reports_of_resolve_eq_error`, by which a failed resolution reports exactly
these.
-/

namespace MemberBinding.FieldBinding

/-- The field is no descriptor. -/
inductive DescriptorFault (types : TypeNames) (field : Member) : Violation → Prop
  | notStatic (instanced : field.isStatic = false) :
      DescriptorFault types field (.shape "field" field.name "can not be non static")
  | type (ne : field.declaredType ≠ some types.dependencyProperty) :
      DescriptorFault types field
        (.shape "field" field.name s!"must be of type '{types.dependencyProperty}'")

/-- A law, with what is reported of a property and a field that do not fit. -/
structure ReportingLaw extends Law where
  unfit : TypeNames → (property field : Member) → Violation → Prop

def ReportingLaw.ofProperty : ReportingLaw where
  toLaw := .ofProperty
  unfit _ property field := TypeFault property field

def ReportingLaw.ofDependency : ReportingLaw where
  toLaw := .ofDependency
  unfit types _ field := DescriptorFault types field

/-- Everything that is wrong with the members of a snapshot. -/
inductive Arises (law : ReportingLaw) (config : Config) (s : Snapshot) (mode : Mode) :
    Violation → Prop
  | marks {v} (clash : s.MarkClash [.property, .field] [.field, .property] v) :
      Arises law config s mode v
  | reverseLink {f l name v} (owner : s.Available .field f)
      (carried : l ∈ (s.member f).linksOf .property) (listed : name ∈ l.names)
      (undesignated : s.Undesignated .property "property" name
        ⟨l.kind, "field", (s.member f).name⟩ v) : Arises law config s mode v
  | invalidName {p} (eligible : Eligible law.toLaw config s mode p)
      (illNamed : ¬WellNamed law.toLaw config s p)
      (reported : config.options.skipInvalidNames = false) :
      Arises law config s mode (.invalidName "property" (s.member p).name)
  | forwardLink {p l v} (selected : Selected law.toLaw config s mode p)
      (carried : l ∈ (s.member p).linksOf .field)
      (undesignated : s.Undesignated .field "field" l.name
        ⟨l.kind, "property", (s.member p).name⟩ v) : Arises law config s mode v
  | multiConnect {p names} (selected : Selected law.toLaw config s mode p)
      (several : s.Several (Candidate law.toLaw config s p) names) :
      Arises law config s mode (.multiConnect "property" (s.member p).name "field" names)
  | missingRequired {p} (selected : Selected law.toLaw config s mode p)
      (requires : (s.member p).requiresExplicitLink = true)
      (none : ∀ f, ¬Candidate law.toLaw config s p f) :
      Arises law config s mode (.missingRequiredLink "field" "property" (s.member p).name)
  | unfit {p f v} (selected : Selected law.toLaw config s mode p)
      (sole : Sole (Candidate law.toLaw config s p) f)
      (fault : law.unfit config.types (s.member p) (s.member f) v) : Arises law config s mode v

/-- A profile whose checks report what the law says. -/
structure Profile.Enforces (profile : Profile) (law : ReportingLaw) : Prop
    extends profile.Obeys law.toLaw where
  mem_faults_iff : ∀ types property field v,
    v ∈ profile.faults types property field ↔ law.unfit types property field v

theorem mem_descriptorFaults_iff {types : TypeNames} {field : Member} {v : Violation} :
    v ∈ Dependency.descriptorFaults types field ↔ DescriptorFault types field v := by
  unfold Dependency.descriptorFaults
  rw [List.mem_append]
  constructor
  · intro h
    rcases h with h | h
    · split at h
      · cases h
      · rename_i hstatic
        rw [List.mem_singleton.1 h]
        exact .notStatic (by simpa using hstatic)
    · split at h
      · cases h
      · rename_i htype
        rw [List.mem_singleton.1 h]
        exact .type (by simpa using htype)
  · intro h
    cases h with
    | notStatic instanced => simp [instanced]
    | type ne => simp [ne]

theorem Profile.enforces_ofProperty : Property.profile.Enforces .ofProperty where
  toObeys := obeys_ofProperty
  mem_faults_iff _ _ _ _ := mem_sameTypeFaults_iff

theorem Profile.enforces_ofDependency : Dependency.profile.Enforces .ofDependency where
  toObeys := obeys_ofDependency
  mem_faults_iff _ _ _ _ := mem_descriptorFaults_iff

namespace Profile

variable {profile : Profile} {law : ReportingLaw} {ctx : Context} {p : Nat} {v : Violation}

theorem mem_descentFaults_iff :
    v ∈ profile.rules.descentFaults ctx (profile.rules.reverseTable ctx) profile.rules.roles.zipIdx
        (.seed p profile.rules.roles.length) ↔
      ∃ l ∈ (ctx.snapshot.member p).linksOf .field,
        ctx.snapshot.Undesignated .field "field" l.name
          ⟨l.kind, "property", (ctx.snapshot.member p).name⟩ v := by
  have hsource : (Group.seed p 1).sourceOf profile.fieldSpec = some p := rfl
  simp only [roles_rules, List.zipIdx_singleton, List.length_singleton, Rules.descentFaults,
    profile.grow_seed ctx p, List.flatMap_cons, List.flatMap_nil, List.append_nil,
    Rules.mem_linkFaults_iff, hsource, Option.some.injEq, exists_eq_left']
  rfl

theorem roles_getElem?_eq_some_iff {spec : RoleSpec} {role : Nat} :
    profile.rules.roles[role]? = some spec ↔ role = 0 ∧ spec = profile.fieldSpec := by
  rw [roles_rules, List.getElem?_singleton]
  cases role <;> simp [eq_comm]

theorem mem_multiplicityFaults_group_iff :
    v ∈ profile.rules.multiplicityFaults ctx (profile.group ctx p) ↔
      2 ≤ (profile.found ctx p).length ∧
        v = .multiConnect "property" (ctx.snapshot.member p).name "field"
          ((profile.found ctx p).map fun id => (ctx.snapshot.member id).name) := by
  rw [Rules.mem_multiplicityFaults_iff]
  constructor
  · intro h
    obtain ⟨spec, role, hspec, source, hsource, h⟩ := h
    obtain ⟨rfl, rfl⟩ := roles_getElem?_eq_some_iff.1 hspec
    cases hsource
    exact h
  · intro h
    exact ⟨profile.fieldSpec, 0, rfl, p, rfl, h⟩

theorem mem_requiredFaults_group_iff :
    v ∈ profile.rules.requiredFaults ctx (profile.group ctx p) ↔
      profile.found ctx p = [] ∧ (ctx.snapshot.member p).requiresExplicitLink = true ∧
        v = .missingRequiredLink "field" "property" (ctx.snapshot.member p).name := by
  rw [Rules.mem_requiredFaults_iff]
  constructor
  · intro h
    obtain ⟨spec, role, hspec, source, hsource, -, h⟩ := h
    obtain ⟨rfl, rfl⟩ := roles_getElem?_eq_some_iff.1 hspec
    cases hsource
    exact h
  · intro h
    exact ⟨profile.fieldSpec, 0, rfl, p, rfl, rfl, h⟩

theorem mem_check_group_iff (h : profile.Enforces law) :
    v ∈ profile.rules.check ctx (profile.group ctx p) ↔
      ∃ f, profile.found ctx p = [f] ∧
        law.unfit ctx.config.types (ctx.snapshot.member p) (ctx.snapshot.member f) v := by
  have hcandidates : (profile.group ctx p).candidates 0 = profile.found ctx p := rfl
  have hanchor : (profile.group ctx p).anchor = p := rfl
  simp only [← h.mem_faults_iff, ← hcandidates, ← Group.single?_eq_some_iff, rules, hanchor,
    Context.member_eq]
  cases (profile.group ctx p).single? 0 <;> simp

theorem arises_of_mem_groupFaults (h : profile.Enforces law)
    (hp : Selected law.toLaw ctx.config ctx.snapshot ctx.mode p)
    (hv : v ∈ profile.rules.groupFaults ctx (profile.group ctx p)) :
    Arises law ctx.config ctx.snapshot ctx.mode v := by
  have hnodup := profile.nodup_found ctx p
  have hmem : ∀ f, f ∈ profile.found ctx p ↔ Candidate law.toLaw ctx.config ctx.snapshot p f :=
    fun f => mem_found_iff h.toObeys
  rw [Rules.groupFaults, List.mem_append, List.mem_append, mem_multiplicityFaults_group_iff,
    mem_requiredFaults_group_iff, mem_check_group_iff h] at hv
  rcases hv with (⟨hlen, rfl⟩ | ⟨hnil, hx, rfl⟩) | ⟨f, hf, hv⟩
  · exact .multiConnect hp (several_of_nodup hnodup hmem hlen)
  · refine .missingRequired hp hx ?_
    intro f hf
    rw [← hmem, hnil] at hf
    cases hf
  · exact .unfit hp ((eq_singleton_iff_sole hnodup hmem).1 hf) hv

/-- Whatever a run reports arises from the members. -/
theorem arises_of_mem_reports (h : profile.Enforces law)
    (hv : v ∈ profile.rules.reports ctx (profile.rules.reverseTable ctx)
      (profile.rules.run ctx (profile.rules.reverseTable ctx))) :
    Arises law ctx.config ctx.snapshot ctx.mode v := by
  rw [Rules.mem_reports_iff] at hv
  rcases hv with hv | ⟨spec, hs, hv⟩ | hv | ⟨p, hp, hv⟩ | ⟨p, hp, g, hg, hv⟩
  · exact .marks (Rules.mem_markFaults_iff.1 hv)
  · rw [roles_rules, List.mem_singleton] at hs
    subst hs
    obtain ⟨f, hf, l, hl, name, hname, hv⟩ :=
      (Rules.mem_reverseFaults_iff_of_companion_none rfl rfl).1 hv
    exact .reverseLink hf hl hname hv
  · obtain ⟨p, he, hw, hskip, rfl⟩ := Rules.mem_anchorFaults_iff.1 hv
    exact .invalidName ((eligible_iff h.toObeys).1 he) (mt (wellNamed_iff h.toObeys).2 hw) hskip
  · obtain ⟨l, hl, hv⟩ := mem_descentFaults_iff.1 hv
    exact .forwardLink ((mem_anchors_iff h.toObeys).1 hp) hl hv
  · rw [block_eq, List.mem_singleton] at hg
    subst hg
    exact arises_of_mem_groupFaults h ((mem_anchors_iff h.toObeys).1 hp) hv

theorem mem_reports_of_mem_groupFaults (h : profile.Enforces law)
    (hp : Selected law.toLaw ctx.config ctx.snapshot ctx.mode p)
    (hv : v ∈ profile.rules.groupFaults ctx (profile.group ctx p)) :
    v ∈ profile.rules.reports ctx (profile.rules.reverseTable ctx)
      (profile.rules.run ctx (profile.rules.reverseTable ctx)) := by
  refine Rules.mem_reports_iff.2 (.inr (.inr (.inr (.inr
    ⟨p, (mem_anchors_iff h.toObeys).2 hp, _, ?_, hv⟩))))
  rw [block_eq]
  exact List.mem_singleton_self _

/-- Whatever arises from the members is reported by a run. -/
theorem exists_mem_reports_of_arises (h : profile.Enforces law)
    (hv : Arises law ctx.config ctx.snapshot ctx.mode v) :
    ∃ w ∈ profile.rules.reports ctx (profile.rules.reverseTable ctx)
      (profile.rules.run ctx (profile.rules.reverseTable ctx)), v.Alike w := by
  have hmem : ∀ {p} f, f ∈ profile.found ctx p ↔
      Candidate law.toLaw ctx.config ctx.snapshot p f := fun f => mem_found_iff h.toObeys
  cases hv with
  | marks clash =>
    exact ⟨v, Rules.mem_reports_iff.2 (.inl (Rules.mem_markFaults_iff.2 clash)), .refl v⟩
  | reverseLink owner carried listed undesignated =>
    have hv : v ∈ profile.rules.reverseFaults ctx profile.fieldSpec :=
      (Rules.mem_reverseFaults_iff_of_companion_none rfl rfl).2
        ⟨_, owner, _, carried, _, listed, undesignated⟩
    exact ⟨v, Rules.mem_reports_iff.2 (.inr (.inl ⟨_, List.mem_singleton_self _, hv⟩)), .refl v⟩
  | invalidName eligible illNamed reported =>
    have hv := Rules.mem_anchorFaults_iff.2 ⟨_, (eligible_iff h.toObeys).2 eligible,
      mt (wellNamed_iff h.toObeys).1 illNamed, reported, rfl⟩
    exact ⟨_, Rules.mem_reports_iff.2 (.inr (.inr (.inl hv))), .refl _⟩
  | forwardLink selected carried undesignated =>
    refine ⟨v, Rules.mem_reports_iff.2 (.inr (.inr (.inr (.inl ?_)))), .refl v⟩
    exact ⟨_, (mem_anchors_iff h.toObeys).2 selected,
      mem_descentFaults_iff.2 ⟨_, carried, undesignated⟩⟩
  | multiConnect selected several =>
    obtain ⟨hlen, hperm⟩ := several.perm (profile.nodup_found ctx _) hmem
    refine ⟨_, mem_reports_of_mem_groupFaults h selected ?_, .multiConnect hperm⟩
    exact List.mem_append_left _
      (List.mem_append_left _ (mem_multiplicityFaults_group_iff.2 ⟨hlen, rfl⟩))
  | @missingRequired p selected requires none =>
    have hnil : profile.found ctx p = [] := by
      rw [List.eq_nil_iff_forall_not_mem]
      exact fun f hf => none f ((hmem f).1 hf)
    refine ⟨_, mem_reports_of_mem_groupFaults h selected ?_, .refl _⟩
    exact List.mem_append_left _
      (List.mem_append_right _ (mem_requiredFaults_group_iff.2 ⟨hnil, requires, rfl⟩))
  | unfit selected sole fault =>
    have hf := (eq_singleton_iff_sole (profile.nodup_found ctx _) hmem).2 sole
    refine ⟨v, mem_reports_of_mem_groupFaults h selected ?_, .refl v⟩
    exact List.mem_append_right _ ((mem_check_group_iff h).2 ⟨_, hf, fault⟩)

/-- A failed resolution reports what arises from the members, all of it and nothing else. -/
theorem reports_of_resolve_eq_error (h : profile.Enforces law) {config : Config} {s : Snapshot}
    {mode : Mode} {f : Failure} (hf : profile.resolve config s mode = .error f) :
    f.kind = profile.kind ∧ f.Reports (Arises law config s mode) := by
  simp only [resolve, positions, map_eq_error_iff] at hf
  exact Diagnostics.finish_ofList_eq_error hf (fun v hv => arises_of_mem_reports h hv)
    fun v hv => exists_mem_reports_of_arises h hv

/-- Nothing arises from the members when a resolution succeeds. -/
theorem not_arises_of_resolve_eq_ok (h : profile.Enforces law) {config : Config} {s : Snapshot}
    {mode : Mode} {bs : List (FieldBinding Member)} (hbs : profile.resolve config s mode = .ok bs) :
    ¬Arises law config s mode v := by
  simp only [resolve, positions, map_eq_ok_iff] at hbs
  obtain ⟨_, ⟨_, hgroups, -⟩, -⟩ := hbs
  have hnil := (Diagnostics.finish_ofList_eq_ok_iff.1 hgroups).1
  intro hv
  obtain ⟨w, hw, -⟩ := @exists_mem_reports_of_arises profile law (.of config s mode) v h hv
  rw [hnil] at hw
  cases hw

end Profile
end MemberBinding.FieldBinding
