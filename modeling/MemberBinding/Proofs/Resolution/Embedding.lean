import MemberBinding.Proofs.Resolution.Linking
import MemberBinding.Proofs.Resolution.Relocation
import MemberBinding.Proofs.Results

/-!
# A snapshot inside a larger one

The members of a part keep their order in the whole, among others. If every name that the part can
look up stands for the same members in both, then the links and names of the part lead to the same
members. Main statements: `reverseLink_map`, `forwardOutcomes_map` and `namedCandidates_map`.
-/

namespace MemberBinding

/-- The places `φ` of a part in a whole that is resolved alike. -/
structure Context.Places (part whole : Context) (φ : Nat → Nat) : Prop where
  config_eq : whole.config = part.config
  mode_eq : whole.mode = part.mode
  injective : Function.Injective φ
  member_eq : ∀ id, whole.snapshot.member (φ id) = part.snapshot.member id

/-- The places `φ` of a part in a whole, where each of `names` stands for members of the part. -/
structure Context.Embeds (part whole : Context) (names : List String) (φ : Nat → Nat) : Prop where
  config_eq : whole.config = part.config
  mode_eq : whole.mode = part.mode
  injective : Function.Injective φ
  member_eq : ∀ id, whole.snapshot.member (φ id) = part.snapshot.member id
  named_eq : ∀ name ∈ names, ∀ kind,
    whole.snapshot.named kind name = (part.snapshot.named kind name).map φ

/-- Every name that a resolution can look up: the names in the links of the members, and those that
the names of the members are converted to. -/
def Rules.lookups (rules : Rules) (conventions : Conventions) (s : Snapshot) : List String :=
  s.members.flatMap fun m =>
    m.links.flatMap Link.names ++ rules.roles.filterMap fun spec =>
      (conventions.convert m.name (rules.source spec).naming spec.naming).toOption

/-- A text without characters follows no convention. -/
theorem Convention.body?_empty (c : Convention) : c.body? "" = none := by
  rw [Option.eq_none_iff_forall_not_mem]
  intro body hbody
  obtain ⟨htext, hscheme⟩ := body?_eq_some_iff.1 hbody
  have hnil : body = [] := by
    have hlength := congrArg List.length htext
    simp only [List.length_append, String.toList_empty, List.length_nil] at hlength
    exact List.length_eq_zero_iff.1 (by omega)
  have hblank : c.scheme.isBody [] = false := by cases c.scheme <;> rfl
  rw [hnil, hblank] at hscheme
  cases hscheme

theorem Conventions.convert_empty (conventions : Conventions) (given sought : Role) :
    ∃ fault, conventions.convert "" given sought = .error fault := by
  refine ⟨⟨"", conventions.of given⟩, ?_⟩
  unfold convert Convention.segment
  rw [Convention.body?_empty]
  rfl

theorem Snapshot.member_mem_or (s : Snapshot) (id : Nat) :
    s.member id ∈ s.members ∨ s.member id = default := by
  by_cases h : id < s.members.length
  · exact .inl (member_mem h)
  · exact .inr (member_of_length_le (Nat.le_of_not_lt h))

namespace Rules

variable {rules : Rules} {conventions : Conventions} {s : Snapshot} {id : Nat}

theorem mem_lookups_of_link {kind : LinkKind} {l : Link}
    (hl : l ∈ (s.member id).linksOf kind) {name : String} (hname : name ∈ l.names) :
    name ∈ rules.lookups conventions s := by
  rcases s.member_mem_or id with hm | hm
  · refine List.mem_flatMap.2 ⟨_, hm, List.mem_append_left _ ?_⟩
    exact List.mem_flatMap.2 ⟨l, (List.mem_filter.1 hl).1, hname⟩
  · rw [hm] at hl
    cases hl

theorem mem_lookups_of_convert {spec : RoleSpec} (hspec : spec ∈ rules.roles) {name : String}
    (h : conventions.convert (s.member id).name (rules.source spec).naming spec.naming = .ok name) :
    name ∈ rules.lookups conventions s := by
  rcases s.member_mem_or id with hm | hm
  · refine List.mem_flatMap.2 ⟨_, hm, List.mem_append_right _ ?_⟩
    exact List.mem_filterMap.2 ⟨spec, hspec, toOption_eq_some_iff.2 h⟩
  · -- A position without a member has an empty name, which is converted to nothing.
    obtain ⟨fault, hfault⟩ :=
      conventions.convert_empty (rules.source spec).naming spec.naming
    rw [hm] at h
    exact absurd (hfault.symm.trans h) nofun

end Rules

namespace Context.Places

variable {part whole : Context} {φ : Nat → Nat} {rules : Rules} {spec : RoleSpec}

theorem target_map (p : part.Places whole φ) {kind : MemberKind} {name : String}
    (h : whole.snapshot.named kind name = (part.snapshot.named kind name).map φ) :
    whole.target kind name = (part.target kind name).map φ := by
  unfold target
  rw [lookup_index, lookup_index, h]
  match part.snapshot.named kind name with
  | [] => rfl
  | [id] =>
    dsimp only [List.map]
    rw [Context.member_eq, Context.member_eq, p.member_eq]
    split <;> rfl
  | _ :: _ :: _ => rfl

theorem linkTarget_map {kind : MemberKind} {name : String}
    (h : whole.target kind name = (part.target kind name).map φ) (label : String)
    (site : LinkSite) :
    whole.linkTarget kind label name site = (part.linkTarget kind label name site).map φ := by
  unfold linkTarget
  rw [h]
  cases part.target kind name <;> rfl

theorem splitTargets_map (p : part.Places whole φ) (spec : RoleSpec) (site : LinkSite)
    (first : Nat) (second : Option Nat) :
    spec.splitTargets whole site (φ first) (second.map φ) =
      (spec.splitTargets part site first second).map (ReverseTarget.map φ) := by
  unfold RoleSpec.splitTargets
  cases second with
  | none => rfl
  | some second =>
    cases spec.companion with
    | none => rfl
    | some c =>
      dsimp only [Option.map]
      rw [Context.member_eq, Context.member_eq, p.member_eq, p.member_eq, p.config_eq]
      rw [Context.member_eq, Context.member_eq]
      cases c.order part.config.types site (part.snapshot.member first)
          (part.snapshot.member second) with
      | error v => rfl
      | ok order => cases order <;> rfl

theorem ofTarget_splitTargets_map (p : part.Places whole φ) (spec : RoleSpec)
    (site : LinkSite) (owner first : Nat) (second : Option Nat) :
    ReverseLink.ofTarget (φ owner) (spec.splitTargets whole site (φ first) (second.map φ)) =
      (ReverseLink.ofTarget owner (spec.splitTargets part site first second)).map
        (ReverseLink.map φ) := by
  rw [p.splitTargets_map]
  cases spec.splitTargets part site first second <;> rfl

theorem reverseLink_map (p : part.Places whole φ) (owner : Member × Nat) {l : Link}
    (hl : ∀ name ∈ l.names, whole.target (rules.source spec).kind name =
      (part.target (rules.source spec).kind name).map φ) :
    rules.reverseLink whole spec (Prod.map id φ owner) l =
      (rules.reverseLink part spec owner l).map (ReverseLink.map φ) := by
  unfold Rules.reverseLink
  dsimp only [Prod.map, id]
  rw [linkTarget_map (hl l.name (by simp [Link.names]))]
  cases hsecond : l.secondName with
  | none =>
    cases part.linkTarget (rules.source spec).kind (rules.source spec).label l.name
        (spec.reverseSite owner.1 l) with
    | error v => rfl
    | ok first =>
      exact p.ofTarget_splitTargets_map spec (spec.reverseSite owner.1 l) owner.2 first none
  | some name =>
    dsimp only
    rw [linkTarget_map (hl name (by simp [Link.names, hsecond]))]
    cases part.linkTarget (rules.source spec).kind (rules.source spec).label l.name
        (spec.reverseSite owner.1 l) with
    | error v =>
      cases part.linkTarget (rules.source spec).kind
        (spec.secondLabel.getD (rules.source spec).label) name (spec.reverseSite owner.1 l) <;> rfl
    | ok first =>
      cases part.linkTarget (rules.source spec).kind
          (spec.secondLabel.getD (rules.source spec).label) name (spec.reverseSite owner.1 l) with
      | error v => rfl
      | ok second =>
        exact p.ofTarget_splitTargets_map spec (spec.reverseSite owner.1 l) owner.2 first
          (some second)

theorem forwardOutcomes_map (p : part.Places whole φ) {source : Nat}
    (hl : ∀ l ∈ (part.snapshot.member source).linksOf spec.forward,
      whole.target spec.kind l.name = (part.target spec.kind l.name).map φ) :
    rules.forwardOutcomes whole spec (φ source) =
      (rules.forwardOutcomes part spec source).map (·.map φ) := by
  unfold Rules.forwardOutcomes
  dsimp only
  rw [Context.member_eq, Context.member_eq, p.member_eq, List.map_map]
  exact List.map_congr_left fun l h => linkTarget_map (hl l h) _ _

end Context.Places

namespace Context.Embeds

variable {part whole : Context} {names : List String} {φ : Nat → Nat}

theorem places (e : part.Embeds whole names φ) : part.Places whole φ :=
  ⟨e.config_eq, e.mode_eq, e.injective, e.member_eq⟩

theorem target_map (e : part.Embeds whole names φ) (kind : MemberKind) {name : String}
    (hname : name ∈ names) : whole.target kind name = (part.target kind name).map φ :=
  e.places.target_map (e.named_eq name hname kind)

variable {rules : Rules} {spec : RoleSpec}

theorem forwardOutcomes_map
    (e : part.Embeds whole (rules.lookups part.config.conventions part.snapshot) φ)
    (spec : RoleSpec) (source : Nat) :
    rules.forwardOutcomes whole spec (φ source) =
      (rules.forwardOutcomes part spec source).map (·.map φ) := by
  apply e.places.forwardOutcomes_map
  intro l hl
  exact e.target_map _ (Rules.mem_lookups_of_link hl (by simp [Link.names]))

theorem namedCandidates_map
    (e : part.Embeds whole (rules.lookups part.config.conventions part.snapshot) φ)
    (hspec : spec ∈ rules.roles) (source : Nat) :
    rules.namedCandidates whole spec (φ source) =
      (rules.namedCandidates part spec source).map φ := by
  unfold Rules.namedCandidates
  rw [Context.member_eq, Context.member_eq, e.member_eq, e.config_eq]
  cases hname : part.config.conventions.convert (part.snapshot.member source).name
      (rules.source spec).naming spec.naming with
  | error fault => rfl
  | ok name =>
    dsimp only
    rw [lookup_index, lookup_index, e.named_eq name (Rules.mem_lookups_of_convert hspec hname),
      List.filter_map]
    have htest : ((fun id => !(whole.member id).isExcluded) ∘ φ) =
        fun id => !(part.member id).isExcluded := by
      funext id
      rw [Function.comp_apply, Context.member_eq, Context.member_eq, e.member_eq]
    rw [htest]

end Context.Embeds
end MemberBinding
