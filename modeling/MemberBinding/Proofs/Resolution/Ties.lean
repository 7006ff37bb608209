import MemberBinding.Proofs.Resolution.Agreement
import MemberBinding.Proofs.Resolution.Placement
import MemberBinding.Proofs.Resolution.Similar

/-!
# Resolutions that tie the same members

A forward link and a reverse link both tie a source to a member of a role. Resolutions with the
same ties succeed together and bind alike, whichever links the ties come from. Main statement:
`SameTies.samePlacements`.
-/

namespace MemberBinding

namespace Rules

variable {rules : Rules} {ctx ctx' : Context} {spec : RoleSpec} {role : Nat}

/-- Some link on either side ties `source` to the role. -/
def Held (rules : Rules) (ctx : Context) (spec : RoleSpec) (source : Nat) : Prop :=
  (ctx.snapshot.member source).linksOf spec.forward ≠ [] ∨
    ∃ r ∈ rules.reverseLinks ctx spec, r.source = source

/-- Some link on either side ties `source` to the member `id` of the role. -/
def Tied (rules : Rules) (ctx : Context) (spec : RoleSpec) (source id : Nat) : Prop :=
  (∃ l ∈ (ctx.snapshot.member source).linksOf spec.forward,
    ctx.snapshot.Designates spec.kind l.name id) ∨
      ∃ r ∈ rules.reverseLinks ctx spec, r.source = source ∧ r.owner = id

theorem mem_found_iff_tied (h : rules.roles[role]? = some spec) {source id : Nat} :
    id ∈ rules.found ctx (rules.reverseTable ctx) spec role source ↔
      (ctx.config.Searches (ctx.snapshot.member source) (rules.Explicit ctx spec role source) ∧
        ctx.snapshot.MatchesName ctx.config.conventions (rules.source spec).naming spec.naming
          spec.kind source id) ∨ rules.Tied ctx spec source id :=
  mem_found_iff h

/-- Companions go to another role than the one their links are read for. -/
def CompanionsApart (rules : Rules) : Prop :=
  ∀ (role : Nat) (spec : RoleSpec) (c : Companion), rules.roles[role]? = some spec →
    spec.companion = some c → c.role ≠ role

/-- The same members and companions, and nothing wrong with links in one where nothing is in the
other. -/
structure SameStanding (rules : Rules) (ctx ctx' : Context) : Prop
    extends ctx.SameButLinks ctx' where
  carrier_iff : ∀ spec ∈ rules.roles, ∀ r : ReverseLink, r.companion ≠ none →
    (r ∈ rules.reverseLinks ctx' spec ↔ r ∈ rules.reverseLinks ctx spec)
  markFaults_iff : rules.markFaults ctx' = [] ↔ rules.markFaults ctx = []
  reverseFaults_iff : ∀ spec ∈ rules.roles,
    rules.reverseFaults ctx' spec = [] ↔ rules.reverseFaults ctx spec = []
  forward_iff : ∀ spec ∈ rules.roles, ∀ source,
    (∀ l ∈ (ctx'.snapshot.member source).linksOf spec.forward,
      ∃ id, ctx'.snapshot.Designates spec.kind l.name id) ↔
    ∀ l ∈ (ctx.snapshot.member source).linksOf spec.forward,
      ∃ id, ctx.snapshot.Designates spec.kind l.name id

namespace SameStanding

theorem symm (h : rules.SameStanding ctx ctx') : rules.SameStanding ctx' ctx where
  toSameButLinks := h.toSameButLinks.symm
  carrier_iff spec hspec r hr := (h.carrier_iff spec hspec r hr).symm
  markFaults_iff := h.markFaults_iff.symm
  reverseFaults_iff spec hspec := (h.reverseFaults_iff spec hspec).symm
  forward_iff spec hspec source := (h.forward_iff spec hspec source).symm

theorem trans {ctx'' : Context} (h : rules.SameStanding ctx ctx')
    (h' : rules.SameStanding ctx' ctx'') : rules.SameStanding ctx ctx'' where
  toSameButLinks := h.toSameButLinks.trans h'.toSameButLinks
  carrier_iff spec hspec r hr :=
    (h'.carrier_iff spec hspec r hr).trans (h.carrier_iff spec hspec r hr)
  markFaults_iff := h'.markFaults_iff.trans h.markFaults_iff
  reverseFaults_iff spec hspec :=
    (h'.reverseFaults_iff spec hspec).trans (h.reverseFaults_iff spec hspec)
  forward_iff spec hspec source :=
    (h'.forward_iff spec hspec source).trans (h.forward_iff spec hspec source)

end SameStanding

/-- The same members tied alike. -/
structure SameTies (rules : Rules) (ctx ctx' : Context) : Prop
    extends rules.SameStanding ctx ctx' where
  held_iff : ∀ spec ∈ rules.roles, ∀ source,
    rules.Held ctx' spec source ↔ rules.Held ctx spec source
  tied_iff : ∀ spec ∈ rules.roles, ∀ source id,
    rules.Tied ctx' spec source id ↔ rules.Tied ctx spec source id

namespace SameTies

theorem symm (h : rules.SameTies ctx ctx') : rules.SameTies ctx' ctx where
  toSameStanding := h.toSameStanding.symm
  held_iff spec hspec source := (h.held_iff spec hspec source).symm
  tied_iff spec hspec source id := (h.tied_iff spec hspec source id).symm

/-! ## Anchors -/

theorem linked_iff (h : rules.SameTies ctx ctx') {id : Nat} :
    rules.Linked ctx' id ↔ rules.Linked ctx id :=
  exists_congr fun spec => and_congr_right fun hspec => and_congr_right fun _ =>
    h.held_iff spec hspec id

theorem eligible_iff (h : rules.SameTies ctx ctx') (hblind : rules.LinkBlind) {id : Nat} :
    rules.Eligible ctx' id ↔ rules.Eligible ctx id := by
  have hm := h.member id
  rw [Rules.eligible_iff, Rules.eligible_iff, h.available_iff, isLinked_eq h.linked_iff,
    hblind.isCandidate_eq h.config_eq h.mode_eq hm, h.mode_eq, hm.isIncluded_eq, h.linked_iff]

theorem wellNamed_iff (h : rules.SameTies ctx ctx') {id : Nat} :
    rules.WellNamed ctx' id ↔ rules.WellNamed ctx id := by
  rw [WellNamed, WellNamed, (h.member id).requiresExplicitLink_eq, (h.member id).name_eq,
    h.config_eq]

theorem anchors_eq (h : rules.SameTies ctx ctx') (hblind : rules.LinkBlind) :
    rules.anchors ctx' (rules.reverseTable ctx') = rules.anchors ctx (rules.reverseTable ctx) := by
  apply (pairwise_lt_anchors _ _ _).eq_of_mem_iff (pairwise_lt_anchors _ _ _)
  intro id
  rw [mem_anchors_iff, mem_anchors_iff, h.eligible_iff hblind, h.wellNamed_iff]

/-! ## Candidates -/

theorem explicit_iff (h : rules.SameTies ctx ctx') (hspec : spec ∈ rules.roles) {source : Nat} :
    rules.Explicit ctx' spec role source ↔ rules.Explicit ctx spec role source := by
  have hcarrier : ∀ other ∈ rules.roles, ∀ r : ReverseLink,
      (r ∈ rules.reverseLinks ctx' other ∧ r.source = source ∧ r.companion.map (·.1) = some role) ↔
      (r ∈ rules.reverseLinks ctx other ∧ r.source = source ∧
        r.companion.map (·.1) = some role) := by
    intro other hother r
    refine and_congr_left fun hr => h.carrier_iff other hother r ?_
    rintro hnone
    rw [hnone] at hr
    cases hr.2
  unfold Explicit
  rw [← or_assoc, ← or_assoc]
  refine or_congr (h.held_iff spec hspec source) (exists_congr fun other =>
    and_congr_right fun hother => exists_congr (hcarrier other hother))

theorem mem_found_iff (h : rules.SameTies ctx ctx') (hrole : rules.roles[role]? = some spec)
    {source id : Nat} :
    id ∈ rules.found ctx' (rules.reverseTable ctx') spec role source ↔
      id ∈ rules.found ctx (rules.reverseTable ctx) spec role source := by
  have hspec := List.mem_of_getElem? hrole
  have hsearches : ctx'.config.Searches (ctx'.snapshot.member source)
      (rules.Explicit ctx' spec role source) ↔
      ctx.config.Searches (ctx.snapshot.member source) (rules.Explicit ctx spec role source) := by
    rw [Config.Searches, Config.Searches, (h.member source).requiresExplicitLink_eq, h.config_eq,
      h.explicit_iff hspec]
  rw [mem_found_iff_tied hrole, mem_found_iff_tied hrole, hsearches, h.config_eq,
    h.matchesName_iff, h.tied_iff spec hspec]

/-! ## Steps -/

variable {g g' : Group}

theorem linkRole (h : rules.SameTies ctx ctx') (hrole : rules.roles[role]? = some spec)
    (hg : g.Similar g') :
    (rules.linkRole ctx (rules.reverseTable ctx) spec role g).Similar
      (rules.linkRole ctx' (rules.reverseTable ctx') spec role g') := by
  unfold Rules.linkRole
  rw [hg.sourceOf_eq]
  cases g.sourceOf spec with
  | none => exact hg
  | some source => exact hg.addAll role fun id => h.mem_found_iff hrole

theorem attach (h : rules.SameTies ctx ctx') (hapart : rules.CompanionsApart)
    (hrole : rules.roles[role]? = some spec) (hg : g.Similar g') :
    (g.attach role ((rules.reverseTable ctx)[role]?.getD [])).Similar
      (g'.attach role ((rules.reverseTable ctx')[role]?.getD [])) := by
  rw [getElem?_reverseTable hrole, getElem?_reverseTable hrole]
  have hspec := List.mem_of_getElem? hrole
  cases hc : spec.companion with
  | none =>
    rw [Group.attach_of_companion_none fun r hr => companion_eq_none hc hr,
      Group.attach_of_companion_none fun r hr => companion_eq_none hc hr]
    exact hg
  | some c =>
    have hother (ctx : Context) : ∀ r ∈ rules.reverseLinks ctx spec, ∀ e,
        r.companion = some e → e.1 = c.role := by
      intro r hr e he
      have hcarried : r.companion.map (·.1) = some e.1 := congrArg (Option.map (·.1)) he
      obtain ⟨d, hd, hrole⟩ := exists_companion_of_role_eq hr hcarried
      rw [hc] at hd
      rw [← hrole, Option.some.inj hd]
    exact hg.attach (hapart role spec c hrole hc) (hother ctx) (hother ctx')
      (h.carrier_iff spec hspec)

theorem grow (h : rules.SameTies ctx ctx') (hapart : rules.CompanionsApart)
    (hrole : rules.roles[role]? = some spec) (hg : g.Similar g') :
    Multiset.Rel Group.Similar
      (rules.grow ctx (rules.reverseTable ctx) (spec, role) g : Multiset Group)
      (rules.grow ctx' (rules.reverseTable ctx') (spec, role) g' : Multiset Group) := by
  have hlink := h.linkRole hrole hg
  cases hexplodes : spec.explodes with
  | false =>
    rw [grow_of_not_explodes rules ctx _ hexplodes, grow_of_not_explodes rules ctx' _ hexplodes]
    exact .cons (h.attach hapart hrole hlink) .zero
  | true =>
    rw [grow_of_explodes rules ctx _ hexplodes, grow_of_explodes rules ctx' _ hexplodes,
      ← Multiset.map_coe, ← Multiset.map_coe, Multiset.rel_map]
    exact (hlink.explode role).mono fun _ _ _ _ hg => h.attach hapart hrole hg

/-! ## Runs -/

theorem descendants (h : rules.SameTies ctx ctx') (hapart : rules.CompanionsApart)
    {entries : List (RoleSpec × Nat)}
    (hentries : ∀ entry ∈ entries, rules.roles[entry.2]? = some entry.1) (hg : g.Similar g') :
    Multiset.Rel Group.Similar
      (rules.descendants ctx (rules.reverseTable ctx) entries g : Multiset Group)
      (rules.descendants ctx' (rules.reverseTable ctx') entries g' : Multiset Group) := by
  induction entries generalizing g g' with
  | nil => exact .cons hg .zero
  | cons entry entries ih =>
    obtain ⟨hentry, hentries⟩ := List.forall_mem_cons.1 hentries
    unfold Rules.descendants
    rw [← Multiset.coe_bind, ← Multiset.coe_bind]
    exact Multiset.rel_bind (fun _ _ hg => ih hentries hg) (h.grow hapart hentry hg)

theorem linkFaults_iff (h : rules.SameTies ctx ctx') (hspec : spec ∈ rules.roles)
    (hg : g.Similar g') :
    rules.linkFaults ctx' spec g' = [] ↔ rules.linkFaults ctx spec g = [] := by
  rw [linkFaults_eq_nil_iff, linkFaults_eq_nil_iff, hg.sourceOf_eq]
  exact forall₂_congr fun source _ => h.forward_iff spec hspec source

theorem descentFaults (h : rules.SameTies ctx ctx') (hapart : rules.CompanionsApart)
    {entries : List (RoleSpec × Nat)}
    (hentries : ∀ entry ∈ entries, rules.roles[entry.2]? = some entry.1) (hg : g.Similar g')
    (hnil : rules.descentFaults ctx (rules.reverseTable ctx) entries g = []) :
    rules.descentFaults ctx' (rules.reverseTable ctx') entries g' = [] := by
  induction entries generalizing g g' with
  | nil => rfl
  | cons entry entries ih =>
    obtain ⟨hentry, hentries⟩ := List.forall_mem_cons.1 hentries
    unfold Rules.descentFaults at hnil ⊢
    rw [List.append_eq_nil_iff, List.flatMap_eq_nil_iff] at hnil ⊢
    refine ⟨(h.linkFaults_iff (List.mem_of_getElem? hentry) hg).2 hnil.1, ?_⟩
    intro grown' hgrown'
    obtain ⟨grown, hgrown, hsimilar⟩ := Multiset.exists_mem_of_rel_of_mem
      (Multiset.rel_flip.2 (h.grow hapart hentry hg)) hgrown'
    exact ih hentries hsimilar (hnil.2 grown hgrown)

/-! ## Checks of a finished group -/

theorem groupFaults_iff (h : rules.SameTies ctx ctx') (hblind : rules.LinkBlind)
    (hg : g.Similar g') : rules.groupFaults ctx' g' = [] ↔ rules.groupFaults ctx g = [] := by
  have hmultiplicity : rules.multiplicityFaults ctx' g' = [] ↔
      rules.multiplicityFaults ctx g = [] := by
    rw [multiplicityFaults_eq_nil_iff, multiplicityFaults_eq_nil_iff]
    simp only [hg.sourceOf_eq, (hg.perm _).length_eq]
  have hrequired : rules.requiredFaults ctx' g' = [] ↔ rules.requiredFaults ctx g = [] := by
    have hempty (role : Nat) : g'.candidates role = [] ↔ g.candidates role = [] := by
      rw [← List.length_eq_zero_iff, (hg.perm role).length_eq, List.length_eq_zero_iff]
    rw [requiredFaults_eq_nil_iff, requiredFaults_eq_nil_iff]
    simp only [hg.sourceOf_eq, (h.member _).requiresExplicitLink_eq, ne_eq, hempty]
  have hcheck : rules.check ctx' g' = rules.check ctx g :=
    hblind.check_eq h.toSameButLinks hg.anchor_eq hg.single?_eq
  rw [groupFaults, groupFaults, List.append_eq_nil_iff, List.append_eq_nil_iff,
    List.append_eq_nil_iff, List.append_eq_nil_iff, hmultiplicity, hrequired, hcheck]

theorem block (h : rules.SameTies ctx ctx') (hapart : rules.CompanionsApart) (anchor : Nat) :
    Multiset.Rel Group.Similar (rules.block ctx (rules.reverseTable ctx) anchor : Multiset Group)
      (rules.block ctx' (rules.reverseTable ctx') anchor : Multiset Group) :=
  h.descendants hapart (getElem?_of_mem_zipIdx rules) (.seed anchor _)

/-- What one resolution binds, the other binds too, up to the order of candidates. -/
theorem resolve (h : rules.SameTies ctx ctx') (hblind : rules.LinkBlind)
    (hapart : rules.CompanionsApart) {groups : List Group} (hok : rules.resolve ctx = .ok groups) :
    ∃ groups', rules.resolve ctx' = .ok groups' ∧
      Multiset.Rel Group.Similar (groups : Multiset Group) (groups' : Multiset Group) := by
  obtain ⟨hmarks, hreverse, hnames, hdescent, hfinished, rfl⟩ := resolve_eq_ok_iff.1 hok
  have hanchors := h.anchors_eq hblind
  refine ⟨_, resolve_eq_ok_iff.2 ⟨h.markFaults_iff.2 hmarks, ?reverse, ?names, ?descent, ?finished,
    rfl⟩, ?groups⟩
  case reverse =>
    intro spec hspec
    exact (h.reverseFaults_iff spec hspec).2 (hreverse spec hspec)
  case names =>
    rw [anchorFaults_eq_nil_iff] at hnames ⊢
    intro id hid
    rw [h.config_eq, h.wellNamed_iff]
    exact hnames id ((h.eligible_iff hblind).1 hid)
  case descent =>
    intro anchor hanchor
    rw [hanchors] at hanchor
    exact h.descentFaults hapart (getElem?_of_mem_zipIdx rules) (.seed anchor _)
      (hdescent anchor hanchor)
  case finished =>
    intro anchor hanchor g' hg'
    rw [hanchors] at hanchor
    obtain ⟨g, hg, hsimilar⟩ := Multiset.exists_mem_of_rel_of_mem
      (Multiset.rel_flip.2 (h.block hapart anchor)) hg'
    exact (h.groupFaults_iff hblind hsimilar).2 (hfinished anchor hanchor g hg)
  case groups =>
    rw [hanchors, ← Multiset.coe_bind, ← Multiset.coe_bind]
    apply Multiset.rel_bind (r := Eq)
    · rintro anchor _ rfl
      exact h.block hapart anchor
    · exact Multiset.rel_eq_refl

end SameTies
end Rules

/-! ## Bindings -/

theorem FieldBinding.Profile.companionsApart_rules (profile : Profile) :
    profile.rules.CompanionsApart := by
  intro role spec c hrole hc
  obtain rfl := List.mem_singleton.1 (List.mem_of_getElem? hrole)
  cases hc

theorem Command.companionsApart_rules : Command.rules.CompanionsApart := by
  intro role spec c hrole hc
  match role with
  | 0 | 2 =>
    cases hrole
    cases hc
  | 1 =>
    cases hrole
    cases hc
    decide
  | role + 3 => cases hrole

theorem BindingKind.companionsApart_rules (kind : BindingKind) : kind.rules.CompanionsApart := by
  cases kind with
  | property => exact Property.profile.companionsApart_rules
  | command => exact Command.companionsApart_rules
  | dependency => exact Dependency.profile.companionsApart_rules

theorem Group.Similar.placement_eq {g g' : Group} (h : g.Similar g') (roleCount : Nat) :
    g'.placement roleCount = g.placement roleCount := by
  rw [placement, placement, h.anchor_eq, funext h.single?_eq]

theorem Group.Similar.perm_placements {groups groups' : List Group}
    (h : Multiset.Rel Similar (groups : Multiset Group) (groups' : Multiset Group))
    (roleCount : Nat) :
    (groups'.map (Group.placement roleCount)).Perm (groups.map (Group.placement roleCount)) := by
  rw [← Multiset.coe_eq_coe, ← Multiset.map_coe, ← Multiset.map_coe, ← Multiset.rel_eq,
    Multiset.rel_map, ← Multiset.rel_flip]
  exact h.mono fun g _ g' _ hg => hg.placement_eq roleCount

/-- Resolutions with the same ties bind the same. -/
theorem Rules.SameTies.samePlacements {kind : BindingKind} {config : Config} {s t : Snapshot}
    {mode : Mode} (h : kind.rules.SameTies (.of config s mode) (.of config t mode)) :
    SamePlacements (kind.placements config s mode) (kind.placements config t mode) := by
  have hblind := kind.linkBlind_rules
  have hapart := kind.companionsApart_rules
  rw [BindingKind.placements_eq, BindingKind.placements_eq]
  cases hs : kind.rules.resolve (.of config s mode) with
  | ok groups =>
    obtain ⟨groups', ht, hsimilar⟩ := h.resolve hblind hapart hs
    rw [ht]
    exact .ok (Group.Similar.perm_placements hsimilar _)
  | error failure =>
    cases ht : kind.rules.resolve (.of config t mode) with
    | ok groups =>
      obtain ⟨groups', hok, -⟩ := h.symm.resolve hblind hapart ht
      rw [hs] at hok
      cases hok
    | error failure' => exact .error

end MemberBinding
