import MemberBinding.Proofs.Resolution.ReverseLink
import MemberBinding.Resolution.Anchors

/-!
# Which members become anchors

The anchors are the eligible members with a fitting name, in declaration order; the eligible members
with another name are reported, unless they are to be skipped.
-/

namespace MemberBinding.Rules

variable {rules : Rules} {ctx : Context}

/-- Some explicit link, on either side, ties the member to a role that starts from the anchor. -/
def Linked (rules : Rules) (ctx : Context) (id : Nat) : Prop :=
  ∃ spec ∈ rules.roles, spec.origin = .anchor ∧
    ((ctx.snapshot.member id).linksOf spec.forward ≠ [] ∨
      ∃ r ∈ rules.reverseLinks ctx spec, r.source = id)

/-- A possible anchor, whatever its name. -/
structure Eligible (rules : Rules) (ctx : Context) (id : Nat) : Prop
    extends ctx.snapshot.Available rules.anchor.kind id where
  candidate : ∃ linked, (linked = true ↔ rules.Linked ctx id) ∧
    rules.isCandidate ctx (ctx.snapshot.member id) linked = true
  chosen : ctx.mode = .all ∨ (ctx.snapshot.member id).isIncluded = true ∨ rules.Linked ctx id

/-- The name follows the convention, or need not. -/
def WellNamed (rules : Rules) (ctx : Context) (id : Nat) : Prop :=
  (ctx.snapshot.member id).requiresExplicitLink = true ∨
    (ctx.config.conventions.of rules.anchor.naming).accepts (ctx.snapshot.member id).name = true

theorem getElem?_reverseTable {spec : RoleSpec} {role : Nat} (h : rules.roles[role]? = some spec) :
    ((rules.reverseTable ctx)[role]?).getD [] = rules.reverseLinks ctx spec := by
  simp [reverseTable, h]

theorem mem_targeted_iff {id : Nat} :
    id ∈ rules.targeted (rules.reverseTable ctx) ↔ ∃ spec ∈ rules.roles, spec.origin = .anchor ∧
      ∃ r ∈ rules.reverseLinks ctx spec, r.source = id := by
  have hzip : rules.roles.zip (rules.reverseTable ctx) =
      rules.roles.map fun spec => (spec, rules.reverseLinks ctx spec) := by
    rw [reverseTable, ← List.map_prod_left_eq_zip]
  simp only [targeted, hzip, List.mem_flatMap, List.mem_filter, List.mem_map, beq_iff_eq]
  constructor
  · intro h
    obtain ⟨_, ⟨⟨spec, hs, rfl⟩, ho⟩, r, hr, rfl⟩ := h
    exact ⟨spec, hs, ho, r, hr, rfl⟩
  · intro h
    obtain ⟨spec, hs, ho, r, hr, rfl⟩ := h
    exact ⟨_, ⟨⟨spec, hs, rfl⟩, ho⟩, r, hr, rfl⟩

theorem isLinked_iff {id : Nat} :
    rules.isLinked (rules.reverseTable ctx) (ctx.snapshot.member id, id) = true ↔
      rules.Linked ctx id := by
  simp only [isLinked, Bool.or_eq_true, List.any_eq_true, List.contains_iff_mem, mem_targeted_iff,
    anchorLinkKinds, List.mem_map, List.mem_filter, beq_iff_eq]
  constructor
  · intro h
    rcases h with ⟨l, hl, spec, ⟨hs, ho⟩, hf⟩ | ⟨spec, hs, ho, hr⟩
    · have hmem : l ∈ (ctx.snapshot.member id).linksOf spec.forward := by
        simpa [Member.linksOf, hf] using hl
      exact ⟨spec, hs, ho, .inl (List.ne_nil_of_mem hmem)⟩
    · exact ⟨spec, hs, ho, .inr hr⟩
  · intro h
    rcases h with ⟨spec, hs, ho, hf | hr⟩
    · obtain ⟨l, hl⟩ := List.exists_mem_of_ne_nil _ hf
      obtain ⟨hl, hk⟩ := List.mem_filter.1 hl
      exact .inl ⟨l, hl, spec, ⟨hs, ho⟩, (beq_iff_eq.1 hk).symm⟩
    · exact .inr ⟨spec, hs, ho, hr⟩

theorem isLinked_eq {ctx' : Context} {id id' : Nat}
    (h : rules.Linked ctx' id' ↔ rules.Linked ctx id) :
    rules.isLinked (rules.reverseTable ctx') (ctx'.snapshot.member id', id') =
      rules.isLinked (rules.reverseTable ctx) (ctx.snapshot.member id, id) := by
  rw [Bool.eq_iff_iff, isLinked_iff, isLinked_iff, h]

theorem eligible_iff {id : Nat} :
    rules.Eligible ctx id ↔ ctx.snapshot.Available rules.anchor.kind id ∧
      rules.isCandidate ctx (ctx.snapshot.member id)
        (rules.isLinked (rules.reverseTable ctx) (ctx.snapshot.member id, id)) = true ∧
      (ctx.mode = .all ∨ (ctx.snapshot.member id).isIncluded = true ∨ rules.Linked ctx id) := by
  constructor
  · intro h
    obtain ⟨ha, ⟨linked, hl, hc⟩, hch⟩ := h
    have he : linked = rules.isLinked (rules.reverseTable ctx) (ctx.snapshot.member id, id) := by
      rw [Bool.eq_iff_iff, hl, isLinked_iff]
    exact ⟨ha, he ▸ hc, hch⟩
  · intro h
    obtain ⟨ha, hc, hch⟩ := h
    exact ⟨ha, ⟨_, isLinked_iff, hc⟩, hch⟩

/-- The two tests of a verdict that ignore a member whatever its name. -/
private theorem not_ignored_iff {id : Nat} (hlt : id < ctx.snapshot.members.length)
    (hk : (ctx.snapshot.member id).kind = rules.anchor.kind) :
    rules.Eligible ctx id ↔
      ((ctx.snapshot.member id).isExcluded || !rules.isCandidate ctx (ctx.snapshot.member id)
        (rules.isLinked (rules.reverseTable ctx) (ctx.snapshot.member id, id))) = false ∧
      (ctx.mode == .selectively && !(ctx.snapshot.member id).isIncluded &&
        !rules.isLinked (rules.reverseTable ctx) (ctx.snapshot.member id, id)) = false := by
  have hmode : (ctx.mode == .selectively) = false ↔ ctx.mode = .all := by
    cases ctx.mode <;> decide
  rw [eligible_iff, ← isLinked_iff]
  simp only [Bool.or_eq_false_iff, Bool.and_eq_false_iff, Bool.not_eq_false', hmode, or_assoc]
  constructor
  · intro h
    obtain ⟨ha, hc, hch⟩ := h
    exact ⟨⟨ha.not_excluded, hc⟩, hch⟩
  · intro h
    obtain ⟨⟨hx, hc⟩, hch⟩ := h
    exact ⟨⟨hlt, hk, hx⟩, hc, hch⟩

private theorem wellNamed_iff {id : Nat} :
    rules.WellNamed ctx id ↔ ((ctx.snapshot.member id).requiresExplicitLink ||
      (ctx.config.conventions.of rules.anchor.naming).accepts (ctx.snapshot.member id).name) =
        true := by
  simp [WellNamed]

theorem verdict_eq_selected_iff {id : Nat} (hlt : id < ctx.snapshot.members.length)
    (hk : (ctx.snapshot.member id).kind = rules.anchor.kind) :
    rules.verdict ctx (rules.reverseTable ctx) (ctx.snapshot.member id, id) = .selected ↔
      rules.Eligible ctx id ∧ rules.WellNamed ctx id := by
  rw [not_ignored_iff hlt hk, wellNamed_iff, verdict]
  dsimp only
  generalize (_ || !rules.isCandidate ctx _ _) = unfit
  generalize (_ && !rules.isLinked _ _) = unchosen
  generalize (Member.requiresExplicitLink _ || _) = named
  generalize ctx.config.options.skipInvalidNames = skip
  cases unfit <;> cases unchosen <;> cases named <;> cases skip <;> simp

theorem violation?_verdict_eq_some_iff {id : Nat} (hlt : id < ctx.snapshot.members.length)
    (hk : (ctx.snapshot.member id).kind = rules.anchor.kind) {v : Violation} :
    (rules.verdict ctx (rules.reverseTable ctx) (ctx.snapshot.member id, id)).violation? = some v ↔
      rules.Eligible ctx id ∧ ¬rules.WellNamed ctx id ∧
        ctx.config.options.skipInvalidNames = false ∧
        v = .invalidName rules.anchor.label (ctx.snapshot.member id).name := by
  rw [not_ignored_iff hlt hk, wellNamed_iff, verdict]
  dsimp only
  generalize (_ || !rules.isCandidate ctx _ _) = unfit
  generalize (_ && !rules.isLinked _ _) = unchosen
  generalize (Member.requiresExplicitLink _ || _) = named
  generalize ctx.config.options.skipInvalidNames = skip
  cases unfit <;> cases unchosen <;> cases named <;> cases skip <;>
    simp [Verdict.violation?, eq_comm]

theorem mem_anchors_iff {id : Nat} :
    id ∈ rules.anchors ctx (rules.reverseTable ctx) ↔
      rules.Eligible ctx id ∧ rules.WellNamed ctx id := by
  simp only [anchors, List.mem_map, List.mem_filter, beq_iff_eq]
  constructor
  · intro h
    obtain ⟨⟨m, id⟩, ⟨hm, hv⟩, rfl⟩ := h
    obtain ⟨hlt, rfl, hk⟩ := Snapshot.mem_ofKind_iff_member.1 hm
    exact (verdict_eq_selected_iff hlt hk).1 hv
  · intro h
    obtain ⟨he, hw⟩ := h
    exact ⟨(ctx.snapshot.member id, id), ⟨Snapshot.mem_ofKind_iff_member.2 ⟨he.lt, rfl, he.kind_eq⟩,
      (verdict_eq_selected_iff he.lt he.kind_eq).2 ⟨he, hw⟩⟩, rfl⟩

theorem pairwise_lt_anchors (rules : Rules) (ctx : Context) (table : List (List ReverseLink)) :
    (rules.anchors ctx table).Pairwise (· < ·) :=
  ctx.snapshot.pairwise_lt_positions (List.filter_sublist.trans List.filter_sublist)

/-- The names that are reported, each with its reason. -/
theorem mem_anchorFaults_iff {v : Violation} :
    v ∈ rules.anchorFaults ctx (rules.reverseTable ctx) ↔ ∃ id, rules.Eligible ctx id ∧
      ¬rules.WellNamed ctx id ∧ ctx.config.options.skipInvalidNames = false ∧
      v = .invalidName rules.anchor.label (ctx.snapshot.member id).name := by
  rw [anchorFaults, List.mem_filterMap]
  constructor
  · intro h
    obtain ⟨⟨m, id⟩, hm, hv⟩ := h
    obtain ⟨hlt, rfl, hk⟩ := Snapshot.mem_ofKind_iff_member.1 hm
    exact ⟨id, (violation?_verdict_eq_some_iff hlt hk).1 hv⟩
  · intro h
    obtain ⟨id, he, hv⟩ := h
    exact ⟨(ctx.snapshot.member id, id), Snapshot.mem_ofKind_iff_member.2 ⟨he.lt, rfl, he.kind_eq⟩,
      (violation?_verdict_eq_some_iff he.lt he.kind_eq).2 ⟨he, hv⟩⟩

theorem anchorFaults_eq_nil_iff :
    rules.anchorFaults ctx (rules.reverseTable ctx) = [] ↔
      ∀ id, rules.Eligible ctx id → ctx.config.options.skipInvalidNames = true ∨
        rules.WellNamed ctx id := by
  simp only [List.eq_nil_iff_forall_not_mem, mem_anchorFaults_iff]
  constructor
  · intro h id he
    by_cases hw : rules.WellNamed ctx id
    · exact .inr hw
    · cases hskip : ctx.config.options.skipInvalidNames with
      | true => exact .inl rfl
      | false => exact absurd ⟨id, he, hw, hskip, rfl⟩ (h _)
  · intro h v hv
    obtain ⟨id, he, hw, hskip, -⟩ := hv
    rcases h id he with hskip' | hw'
    · rw [hskip] at hskip'
      cases hskip'
    · exact hw hw'

end MemberBinding.Rules
