import MemberBinding.Proofs.Resolution.Anchors
import MemberBinding.Resolution.Linking

/-!
# Where the candidates of a role come from

A candidate is found by name, by a forward link, or by a reverse link. Main statement:
`mem_found_iff`, with the condition under which names count.
-/

namespace MemberBinding.Rules

variable {rules : Rules} {ctx : Context} {spec : RoleSpec} {role source : Nat}

/-- Some explicit link of `source`, to it, or carried by a link to it fills the role. -/
def Explicit (rules : Rules) (ctx : Context) (spec : RoleSpec) (role source : Nat) : Prop :=
  (ctx.snapshot.member source).linksOf spec.forward ≠ [] ∨
    (∃ r ∈ rules.reverseLinks ctx spec, r.source = source) ∨
      ∃ other ∈ rules.roles, ∃ r ∈ rules.reverseLinks ctx other,
        r.source = source ∧ r.companion.map (·.1) = some role

theorem mem_reverseOwners_iff (h : rules.roles[role]? = some spec) {id : Nat} :
    id ∈ reverseOwners (rules.reverseTable ctx) role source ↔
      ∃ r ∈ rules.reverseLinks ctx spec, r.source = source ∧ r.owner = id := by
  simp [reverseOwners, getElem?_reverseTable h, and_assoc]

theorem hasExplicit_iff (h : rules.roles[role]? = some spec) :
    hasExplicit ctx (rules.reverseTable ctx) spec role source = true ↔
      rules.Explicit ctx spec role source := by
  have howners : (reverseOwners (rules.reverseTable ctx) role source).isEmpty = false ↔
      ∃ r ∈ rules.reverseLinks ctx spec, r.source = source := by
    rw [List.isEmpty_eq_false_iff_exists_mem, ReverseLink.exists_source_iff]
    simp only [mem_reverseOwners_iff h]
  have hcarried : ((rules.reverseTable ctx).flatten.any fun l =>
      l.source == source && (l.companion.map (·.1)) == some role) = true ↔
      ∃ other ∈ rules.roles, ∃ r ∈ rules.reverseLinks ctx other,
        r.source = source ∧ r.companion.map (·.1) = some role := by
    simp only [reverseTable, List.any_eq_true, List.mem_flatten, List.mem_map, Bool.and_eq_true,
      beq_iff_eq]
    constructor
    · intro h
      obtain ⟨r, ⟨_, ⟨other, ho, rfl⟩, hr⟩, hs⟩ := h
      exact ⟨other, ho, r, hr, hs⟩
    · intro h
      obtain ⟨other, ho, r, hr, hs⟩ := h
      exact ⟨r, ⟨_, ⟨other, ho, rfl⟩, hr⟩, hs⟩
  rw [hasExplicit, Bool.or_eq_true, Bool.or_eq_true, hcarried, Bool.not_eq_true', Bool.not_eq_true',
    howners, Context.member_eq, List.isEmpty_eq_false_iff, or_assoc, Explicit]

theorem searchesByName_iff (h : rules.roles[role]? = some spec) :
    searchesByName ctx (rules.reverseTable ctx) spec role source = true ↔
      ctx.config.Searches (ctx.snapshot.member source) (rules.Explicit ctx spec role source) := by
  rw [searchesByName, Config.Searches, ← hasExplicit_iff h, Context.member_eq]
  generalize hasExplicit ctx (rules.reverseTable ctx) spec role source = explicit
  cases ctx.config.options.preferExplicit <;> cases explicit <;> simp

theorem mem_namedCandidates_iff {id : Nat} :
    id ∈ rules.namedCandidates ctx spec source ↔
      ctx.snapshot.MatchesName ctx.config.conventions (rules.source spec).naming spec.naming
        spec.kind source id := by
  unfold namedCandidates Snapshot.MatchesName
  rw [Context.member_eq]
  cases ctx.config.conventions.convert (ctx.snapshot.member source).name (rules.source spec).naming
      spec.naming with
  | error e => simp
  | ok name =>
    simp only [Context.lookup_index, List.mem_filter, Snapshot.mem_named_iff_member,
      Context.member_eq, Bool.not_eq_true', Except.ok.injEq]
    constructor
    · intro h
      obtain ⟨⟨hlt, hk, hn⟩, hx⟩ := h
      exact ⟨⟨hlt, hk, hx⟩, hn.symm⟩
    · intro h
      obtain ⟨⟨hlt, hk, hx⟩, hn⟩ := h
      exact ⟨⟨hlt, hk, hn.symm⟩, hx⟩

/-- The candidates found for a role, each with its reason. -/
theorem mem_found_iff (h : rules.roles[role]? = some spec) {id : Nat} :
    id ∈ rules.found ctx (rules.reverseTable ctx) spec role source ↔
      (ctx.config.Searches (ctx.snapshot.member source) (rules.Explicit ctx spec role source) ∧
        ctx.snapshot.MatchesName ctx.config.conventions (rules.source spec).naming spec.naming
          spec.kind source id) ∨
      (∃ l ∈ (ctx.snapshot.member source).linksOf spec.forward,
        ctx.snapshot.Designates spec.kind l.name id) ∨
      ∃ r ∈ rules.reverseLinks ctx spec, r.source = source ∧ r.owner = id := by
  have hnamed : id ∈ (if searchesByName ctx (rules.reverseTable ctx) spec role source then
      rules.namedCandidates ctx spec source else []) ↔
      ctx.config.Searches (ctx.snapshot.member source) (rules.Explicit ctx spec role source) ∧
        ctx.snapshot.MatchesName ctx.config.conventions (rules.source spec).naming spec.naming
          spec.kind source id := by
    rw [← searchesByName_iff h, ← mem_namedCandidates_iff]
    split <;> simp_all
  have hforward : id ∈ (rules.forwardOutcomes ctx spec source).filterMap Except.toOption ↔
      ∃ l ∈ (ctx.snapshot.member source).linksOf spec.forward,
        ctx.snapshot.Designates spec.kind l.name id := by
    simp only [forwardOutcomes, List.filterMap_map, List.mem_filterMap, Function.comp_apply,
      toOption_eq_some_iff, Context.linkTarget_eq_ok_iff, Context.member_eq]
  rw [found, List.mem_append, List.mem_append, hnamed, hforward, mem_reverseOwners_iff h, or_assoc]

theorem forwardFaults_eq_nil_iff :
    (rules.forwardOutcomes ctx spec source).flatMap reported = [] ↔
      ∀ l ∈ (ctx.snapshot.member source).linksOf spec.forward,
        ∃ id, ctx.snapshot.Designates spec.kind l.name id := by
  simp only [forwardOutcomes, List.flatMap_eq_nil_iff, List.forall_mem_map, reported_eq_nil_iff,
    Context.linkTarget_eq_ok_iff, Context.member_eq]

/-- Nothing is reported when every forward link of a known source finds its target. -/
theorem linkFaults_eq_nil_iff {g : Group} :
    rules.linkFaults ctx spec g = [] ↔ ∀ source, g.sourceOf spec = some source →
      ∀ l ∈ (ctx.snapshot.member source).linksOf spec.forward,
        ∃ id, ctx.snapshot.Designates spec.kind l.name id := by
  unfold linkFaults
  cases g.sourceOf spec with
  | none => simp
  | some source =>
    simp only [forwardFaults_eq_nil_iff, Option.some.injEq, forall_eq']

end MemberBinding.Rules
