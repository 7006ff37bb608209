import MemberBinding.Binding.Bindings
import MemberBinding.Proofs.Resolution.Run
import MemberBinding.Proofs.Resolution.SameSteps
import MemberBinding.Proofs.Snapshot.SameButLinks

/-!
# Resolutions whose links lead to the same places

Rules read links in two passes only, the reverse links of each role and the forward links of each
source. Where both passes and the marks give the same, so does the whole resolution. Main
statement: `Agree.resolve_eq`.
-/

namespace MemberBinding

/-- Rules whose own judgement of members is not about links. -/
structure Rules.LinkBlind (rules : Rules) : Prop where
  isCandidate_eq : ∀ {ctx ctx' : Context} {m n : Member}, ctx'.config = ctx.config →
    ctx'.mode = ctx.mode → m.SameButLinks n → rules.isCandidate ctx' n = rules.isCandidate ctx m
  check_eq : ∀ {ctx ctx' : Context} {g g' : Group}, ctx.SameButLinks ctx' →
    g'.anchor = g.anchor → (∀ role, g'.single? role = g.single? role) →
    rules.check ctx' g' = rules.check ctx g
  order_eq : ∀ spec ∈ rules.roles, ∀ c, spec.companion = some c → ∀ types site {m n m' n' : Member},
    m.SameButLinks m' → n.SameButLinks n' → c.order types site m' n' = c.order types site m n

theorem sameTypeFaults_eq {m n m' n' : Member} (hm : m.SameButLinks m') (hn : n.SameButLinks n')
    (leftRole rightRole : String) :
    sameTypeFaults leftRole m' rightRole n' = sameTypeFaults leftRole m rightRole n := by
  rw [sameTypeFaults, sameTypeFaults, hm.declaredType_eq, hn.declaredType_eq, hm.name_eq,
    hn.name_eq]

theorem methodFaults_eq {m n : Member} (h : m.SameButLinks n) (role type : String) :
    methodFaults role n type = methodFaults role m type := by
  rw [methodFaults, methodFaults, h.parameters_eq, h.returns_eq, h.name_eq]

/-- A profile that looks at the members and not at their links. -/
structure FieldBinding.Profile.LinkBlind (profile : Profile) : Prop where
  admits_eq : ∀ types {m n : Member}, m.SameButLinks n →
    profile.admits types n = profile.admits types m
  faults_eq : ∀ types {m n m' n' : Member}, m.SameButLinks m' → n.SameButLinks n' →
    profile.faults types m' n' = profile.faults types m n

theorem FieldBinding.Profile.LinkBlind.rules {profile : Profile} (h : profile.LinkBlind) :
    profile.rules.LinkBlind where
  isCandidate_eq := by
    intro ctx ctx' m n hconfig _ hm
    funext linked
    dsimp only [Profile.rules]
    rw [hconfig, h.admits_eq _ hm]
  check_eq := by
    intro ctx ctx' g g' hctx hanchor hsingle
    dsimp only [Profile.rules]
    rw [hsingle, hanchor, hctx.config_eq]
    cases g.single? 0 with
    | none => rfl
    | some id => exact h.faults_eq _ (hctx.member g.anchor) (hctx.member id)
  order_eq spec hspec c hc := by
    rw [companion_eq_none hspec] at hc
    cases hc

theorem Command.linkBlind_rules : Command.rules.LinkBlind where
  isCandidate_eq := by
    intro ctx ctx' m n hconfig hmode h
    funext linked
    dsimp only [Command.rules, Command.isCandidate]
    rw [hmode, hconfig, h.parameters_eq, h.returns_eq, h.requiresExplicitLink_eq, h.name_eq]
  check_eq := by
    intro ctx ctx' g g' hctx hanchor hsingle
    have hproperty (id : Nat) : propertyFaults ctx.config.types (ctx'.member id) =
        propertyFaults ctx.config.types (ctx.member id) := by
      rw [propertyFaults, propertyFaults, Context.member_eq, Context.member_eq,
        (hctx.member id).declaredType_eq, (hctx.member id).name_eq]
    have hmethod (role type : String) (id : Nat) : methodFaults role (ctx'.member id) type =
        methodFaults role (ctx.member id) type := methodFaults_eq (hctx.member id) role type
    have htype (p f : Nat) : sameTypeFaults "property" (ctx'.member p) "field" (ctx'.member f) =
        sameTypeFaults "property" (ctx.member p) "field" (ctx.member f) :=
      sameTypeFaults_eq (hctx.member p) (hctx.member f) "property" "field"
    dsimp only [Command.rules, Command.check]
    simp only [hsingle, hanchor, hctx.config_eq, hmethod, hproperty, htype]
  order_eq := by
    intro spec hspec c hc types site m n m' n' hm hn
    obtain ⟨-, rfl⟩ := eq_of_companion hspec hc
    dsimp only [pairOrder]
    rw [hm.returns_eq, hn.returns_eq, hm.returns_eq, hn.returns_eq, hm.name_eq, hn.name_eq]

theorem Property.linkBlind_profile : Property.profile.LinkBlind where
  admits_eq := by
    intro types m n h
    dsimp only [profile]
    rw [h.valueType_eq]
  faults_eq types _ _ _ _ hm hn := sameTypeFaults_eq hm hn "property" "field"

theorem Dependency.linkBlind_profile : Dependency.profile.LinkBlind where
  admits_eq _ _ _ _ := rfl
  faults_eq := by
    intro types m n m' n' _ hn
    dsimp only [profile, descriptorFaults]
    rw [hn.isStatic_eq, hn.declaredType_eq, hn.name_eq]

theorem BindingKind.linkBlind_rules (kind : BindingKind) : kind.rules.LinkBlind := by
  cases kind with
  | property => exact Property.linkBlind_profile.rules
  | command => exact Command.linkBlind_rules
  | dependency => exact Dependency.linkBlind_profile.rules

/-! ## The passes -/

namespace Rules

variable {rules : Rules} {ctx ctx' : Context} {spec : RoleSpec}

theorem splitTargets_eq (hblind : rules.LinkBlind) (h : ctx.SameButLinks ctx')
    (hspec : spec ∈ rules.roles) (site : LinkSite) (first : Nat) (second : Option Nat) :
    spec.splitTargets ctx' site first second = spec.splitTargets ctx site first second := by
  unfold RoleSpec.splitTargets
  cases second with
  | none => rfl
  | some second =>
    cases hc : spec.companion with
    | none => rfl
    | some c =>
      dsimp only
      rw [h.config_eq, Context.member_eq, Context.member_eq,
        hblind.order_eq spec hspec c hc _ _ (h.member first) (h.member second)]
      rfl

theorem reverseLink_eq (hblind : rules.LinkBlind) (h : ctx.SameButLinks ctx')
    (hspec : spec ∈ rules.roles) (id : Nat) (l : Link) :
    rules.reverseLink ctx' spec (ctx'.snapshot.member id, id) l =
      rules.reverseLink ctx spec (ctx.snapshot.member id, id) l := by
  have hsite : spec.reverseSite (ctx'.snapshot.member id) l =
      spec.reverseSite (ctx.snapshot.member id) l := by
    rw [RoleSpec.reverseSite, RoleSpec.reverseSite, (h.member id).name_eq]
  unfold reverseLink
  dsimp only
  rw [hsite]
  simp only [h.linkTarget_eq, splitTargets_eq hblind h hspec]

theorem namedCandidates_eq (h : ctx.SameNames ctx') (spec : RoleSpec) (source : Nat) :
    rules.namedCandidates ctx' spec source = rules.namedCandidates ctx spec source := by
  unfold namedCandidates
  simp only [Context.lookup_index, h.named_eq, Context.member_eq, h.conventions_eq, h.name_eq,
    h.isExcluded_eq]

/-- Owners stay in order, so it is enough that each of them gives the same. -/
theorem reverseOutcomes_eq (h : ctx.snapshot.SameNames ctx'.snapshot)
    (hlinks : ∀ id, ctx.snapshot.Available spec.kind id →
      ((ctx'.snapshot.member id).linksOf spec.reverse).map
          (rules.reverseLink ctx' spec (ctx'.snapshot.member id, id)) =
        ((ctx.snapshot.member id).linksOf spec.reverse).map
          (rules.reverseLink ctx spec (ctx.snapshot.member id, id))) :
    rules.reverseOutcomes ctx' spec = rules.reverseOutcomes ctx spec := by
  have howners : (ctx.snapshot.ofKind spec.kind).filter ((fun e => !e.1.isExcluded) ∘
      fun e => (ctx'.snapshot.member e.2, e.2)) =
      (ctx.snapshot.ofKind spec.kind).filter fun e => !e.1.isExcluded := by
    apply List.filter_congr
    intro e he
    obtain ⟨m, id⟩ := e
    rw [Function.comp_apply, h.isExcluded_eq, Snapshot.member_of_mem_ofKind he]
  unfold reverseOutcomes
  rw [h.ofKind_eq, List.filter_map, List.flatMap_map, howners]
  apply List.flatMap_congr
  intro e he
  obtain ⟨m, id⟩ := e
  obtain ⟨he, hexcluded⟩ := List.mem_filter.1 he
  obtain ⟨hlt, rfl, hkind⟩ := Snapshot.mem_ofKind_iff_member.1 he
  exact hlinks id ⟨hlt, hkind, by simpa using hexcluded⟩

section

variable {table table' : List (List ReverseLink)}

/-- Members stay in order, so it is enough that each of them is judged alike. -/
theorem anchors_eq (h : ctx.snapshot.SameNames ctx'.snapshot)
    (hverdict : ∀ e ∈ ctx.snapshot.ofKind rules.anchor.kind,
      rules.verdict ctx' table' (ctx'.snapshot.member e.2, e.2) = rules.verdict ctx table e) :
    rules.anchors ctx' table' = rules.anchors ctx table := by
  unfold anchors
  rw [h.ofKind_eq, List.filter_map, List.map_map]
  congr 1
  apply List.filter_congr
  intro e he
  rw [Function.comp_apply, hverdict e he]

theorem anchorFaults_eq (h : ctx.snapshot.SameNames ctx'.snapshot)
    (hverdict : ∀ e ∈ ctx.snapshot.ofKind rules.anchor.kind,
      rules.verdict ctx' table' (ctx'.snapshot.member e.2, e.2) = rules.verdict ctx table e) :
    rules.anchorFaults ctx' table' = rules.anchorFaults ctx table := by
  unfold anchorFaults
  rw [h.ofKind_eq, List.filterMap_map]
  apply List.filterMap_congr
  intro e he
  rw [Function.comp_apply, hverdict e he]

end

theorem multiplicityFaults_eq (h : ctx.snapshot.SameNames ctx'.snapshot) (g : Group) :
    rules.multiplicityFaults ctx' g = rules.multiplicityFaults ctx g := by
  unfold multiplicityFaults
  simp only [Context.member_eq, h.name_eq]

theorem requiredFaults_eq (h : ctx.snapshot.SameNames ctx'.snapshot)
    (hrequires : ∀ id, (ctx'.snapshot.member id).requiresExplicitLink =
      (ctx.snapshot.member id).requiresExplicitLink) (g : Group) :
    rules.requiredFaults ctx' g = rules.requiredFaults ctx g := by
  unfold requiredFaults
  apply List.flatMap_congr
  intro entry _
  dsimp only
  cases g.sourceOf entry.1 with
  | none => rfl
  | some source =>
    dsimp only
    rw [Context.member_eq, Context.member_eq, h.name_eq, hrequires]

/-- Of the links of an excluded member, only the kinds are reported. -/
theorem markFaults_eq (h : ctx.SameButLinks ctx')
    (hkinds : ∀ id, ((ctx'.snapshot.member id).links.map (·.kind)).filter rules.linkKinds.contains =
      ((ctx.snapshot.member id).links.map (·.kind)).filter rules.linkKinds.contains) :
    rules.markFaults ctx' = rules.markFaults ctx := by
  have hmembers (s : Snapshot) : s.members.flatMap rules.markFaultsOf =
      s.members.zipIdx.flatMap fun e => rules.markFaultsOf e.1 := by
    rw [← List.flatMap_map Prod.fst, List.zipIdx_map_fst]
  have hlinks (m : Member) : ((m.links.filter fun l => rules.linkKinds.contains l.kind).map
      fun l => Violation.excludedWithLink l.kind m.kind.label m.name) =
      ((m.links.map (·.kind)).filter rules.linkKinds.contains).map
        fun kind => .excludedWithLink kind m.kind.label m.name := by
    rw [List.filter_map, List.map_map]
    rfl
  unfold markFaults
  rw [hmembers, hmembers, h.sameNames.toSnapshot.zipIdx_eq, List.flatMap_map]
  apply List.flatMap_congr
  intro e he
  obtain ⟨m, id⟩ := e
  obtain ⟨-, rfl⟩ := Snapshot.member?_eq_some_iff_member.1 (Snapshot.member?_eq_some_iff.2 he)
  have hm := h.member id
  dsimp only
  unfold markFaultsOf
  rw [hlinks, hlinks, hkinds, hm.kind_eq, hm.name_eq, hm.isExcluded_eq, hm.isIncluded_eq]

/-- The same from every link that the rules read, and from every mark that they check. -/
structure Agree (rules : Rules) (ctx ctx' : Context) : Prop extends ctx.SameButLinks ctx' where
  forward_eq : ∀ spec ∈ rules.roles, ∀ source,
    rules.forwardOutcomes ctx' spec source = rules.forwardOutcomes ctx spec source
  reverse_eq : ∀ spec ∈ rules.roles,
    rules.reverseOutcomes ctx' spec = rules.reverseOutcomes ctx spec
  markFaults_eq : rules.markFaults ctx' = rules.markFaults ctx

/-- Only links of the kinds that the rules know are read. -/
theorem agree_of_links_eq (hblind : rules.LinkBlind) (h : ctx.SameButLinks ctx')
    (hlinks : ∀ id, (ctx'.snapshot.member id).links.filter (rules.linkKinds.contains ·.kind) =
      (ctx.snapshot.member id).links.filter (rules.linkKinds.contains ·.kind)) :
    rules.Agree ctx ctx' := by
  have hlinksOf {kind : LinkKind} (hkind : kind ∈ rules.linkKinds) (id : Nat) :
      (ctx'.snapshot.member id).linksOf kind = (ctx.snapshot.member id).linksOf kind := by
    have hread (m : Member) : m.linksOf kind =
        (m.links.filter (rules.linkKinds.contains ·.kind)).filter (·.kind == kind) := by
      rw [Member.linksOf, List.filter_filter]
      apply List.filter_congr
      intro l _
      cases hl : l.kind == kind with
      | false => rfl
      | true => simp [beq_iff_eq.1 hl, hkind]
    rw [hread, hread, hlinks]
  refine ⟨h, ?_, ?_, ?_⟩
  · intro spec hspec source
    have hforward : spec.forward ∈ rules.linkKinds :=
      List.mem_flatMap.2 ⟨spec, hspec, List.mem_cons_self⟩
    unfold forwardOutcomes
    simp only [Context.member_eq, hlinksOf hforward, h.linkTarget_eq, (h.member source).name_eq]
  · intro spec hspec
    have hreverse : spec.reverse ∈ rules.linkKinds :=
      List.mem_flatMap.2 ⟨spec, hspec, List.mem_cons_of_mem _ List.mem_cons_self⟩
    apply reverseOutcomes_eq h.sameNames.toSnapshot
    intro id _
    rw [hlinksOf hreverse]
    exact List.map_congr_left fun l _ => reverseLink_eq hblind h hspec id l
  · apply Rules.markFaults_eq h
    intro id
    have hkinds := congrArg (List.map (·.kind)) (hlinks id)
    rw [List.filter_map, List.filter_map]
    exact hkinds

namespace Agree

theorem reverseLinks_eq (h : rules.Agree ctx ctx') (hspec : spec ∈ rules.roles) :
    rules.reverseLinks ctx' spec = rules.reverseLinks ctx spec := by
  rw [reverseLinks, reverseLinks, h.reverse_eq spec hspec]

theorem isEmpty_linksOf_eq (h : rules.Agree ctx ctx') (hspec : spec ∈ rules.roles) (source : Nat) :
    ((ctx'.member source).linksOf spec.forward).isEmpty =
      ((ctx.member source).linksOf spec.forward).isEmpty := by
  have heq := congrArg List.isEmpty (h.forward_eq spec hspec source)
  unfold forwardOutcomes at heq
  rwa [List.isEmpty_map, List.isEmpty_map] at heq

theorem linked_iff (h : rules.Agree ctx ctx') {id : Nat} :
    rules.Linked ctx' id ↔ rules.Linked ctx id := by
  refine exists_congr fun spec => and_congr_right fun hspec => and_congr_right fun _ => ?_
  have hlinks := h.isEmpty_linksOf_eq hspec id
  rw [Bool.eq_iff_iff, List.isEmpty_iff, List.isEmpty_iff] at hlinks
  rw [h.reverseLinks_eq hspec]
  exact or_congr_left (not_congr hlinks)

theorem verdict_eq (h : rules.Agree ctx ctx') (hblind : rules.LinkBlind) (id : Nat) :
    rules.verdict ctx' (rules.reverseTable ctx') (ctx'.snapshot.member id, id) =
      rules.verdict ctx (rules.reverseTable ctx) (ctx.snapshot.member id, id) := by
  have hm := h.member id
  unfold verdict
  dsimp only
  rw [isLinked_eq h.linked_iff, hblind.isCandidate_eq h.config_eq h.mode_eq hm, h.config_eq,
    h.mode_eq, hm.isExcluded_eq, hm.isIncluded_eq, hm.requiresExplicitLink_eq, hm.name_eq]

/-- The verdicts on the members of a kind, in order. -/
theorem verdict_ofKind_eq (h : rules.Agree ctx ctx') (hblind : rules.LinkBlind) {kind : MemberKind}
    {e : Member × Nat} (he : e ∈ ctx.snapshot.ofKind kind) :
    rules.verdict ctx' (rules.reverseTable ctx') (ctx'.snapshot.member e.2, e.2) =
      rules.verdict ctx (rules.reverseTable ctx) e := by
  obtain ⟨m, id⟩ := e
  rw [h.verdict_eq hblind, Snapshot.member_of_mem_ofKind he]

theorem found_eq (h : rules.Agree ctx ctx') (table : List (List ReverseLink))
    (hspec : spec ∈ rules.roles) (role source : Nat) :
    rules.found ctx' table spec role source = rules.found ctx table spec role source := by
  have hsearches : searchesByName ctx' table spec role source =
      searchesByName ctx table spec role source := by
    rw [searchesByName, searchesByName, hasExplicit, hasExplicit, h.isEmpty_linksOf_eq hspec,
      h.config_eq, Context.member_eq, Context.member_eq, (h.member source).requiresExplicitLink_eq]
  rw [found, found, hsearches, namedCandidates_eq h.sameNames, h.forward_eq spec hspec]

theorem sameSteps (h : rules.Agree ctx ctx') (hblind : rules.LinkBlind) :
    rules.SameSteps ctx ctx' where
  reverse_eq := h.reverse_eq
  anchors_eq := anchors_eq h.sameNames.toSnapshot fun _ he => h.verdict_ofKind_eq hblind he
  found_eq _ hspec table := h.found_eq table hspec
  forward_eq := h.forward_eq

theorem groupFaults_eq (h : rules.Agree ctx ctx') (hblind : rules.LinkBlind) (g : Group) :
    rules.groupFaults ctx' g = rules.groupFaults ctx g := by
  rw [groupFaults, groupFaults, multiplicityFaults_eq h.sameNames.toSnapshot,
    requiredFaults_eq h.sameNames.toSnapshot fun id => (h.member id).requiresExplicitLink_eq,
    hblind.check_eq h.toSameButLinks rfl fun _ => rfl]

/-- Resolutions that agree have the same groups, or fail with the same violations in order. -/
theorem resolve_eq (h : rules.Agree ctx ctx') (hblind : rules.LinkBlind) :
    rules.resolve ctx' = rules.resolve ctx := by
  have hsteps := h.sameSteps hblind
  have hanchorFaults : rules.anchorFaults ctx' (rules.reverseTable ctx') =
      rules.anchorFaults ctx (rules.reverseTable ctx) :=
    anchorFaults_eq h.sameNames.toSnapshot fun _ he => h.verdict_ofKind_eq hblind he
  have hgroups : rules.groupFaults ctx' = rules.groupFaults ctx :=
    funext (h.groupFaults_eq hblind)
  have hreports : rules.reports ctx' (rules.reverseTable ctx')
        (rules.run ctx (rules.reverseTable ctx)) =
      rules.reports ctx (rules.reverseTable ctx) (rules.run ctx (rules.reverseTable ctx)) := by
    unfold reports
    rw [h.markFaults_eq, hsteps.flatMap_reverseFaults_eq, hanchorFaults, hgroups]
  unfold resolve
  dsimp only
  rw [hsteps.run_eq, hreports]

end Agree
end Rules
end MemberBinding
