import MemberBinding.Proofs.Results
import MemberBinding.Proofs.Snapshot.Designation
import MemberBinding.Resolution.ReverseLink

/-!
# Which reverse links resolve

A reverse link gives an entry exactly when all its names designate members and its two targets, if
it has two, can be told apart. Nothing is reported for a role exactly when all its links do.
-/

namespace MemberBinding

/-- The members that the names of a link designate. -/
structure Snapshot.Resolves (s : Snapshot) (kind : MemberKind) (l : Link) (first : Nat)
    (second : Option Nat) : Prop where
  first : s.Designates kind l.name first
  second : Option.Rel (s.Designates kind) l.secondName second

theorem Snapshot.Resolves.secondName_eq_none {s : Snapshot} {kind : MemberKind} {l : Link}
    {first : Nat} (h : s.Resolves kind l first none) : l.secondName = none := by
  have hs := h.second
  cases hl : l.secondName with
  | none => rfl
  | some name =>
    rw [hl] at hs
    cases hs

theorem Snapshot.Resolves.exists_secondName {s : Snapshot} {kind : MemberKind} {l : Link}
    {first second : Nat} (h : s.Resolves kind l first (some second)) :
    ∃ name, l.secondName = some name ∧ s.Designates kind name second := by
  have hs := h.second
  cases hl : l.secondName with
  | none =>
    rw [hl] at hs
    cases hs
  | some name =>
    rw [hl] at hs
    cases hs with
    | some hd => exact ⟨name, rfl, hd⟩

theorem Snapshot.exists_resolves_iff {s : Snapshot} {kind : MemberKind} {l : Link} {first : Nat} :
    (∃ second, s.Resolves kind l first second) ↔
      s.Designates kind l.name first ∧ ∀ name ∈ l.names, ∃ id, s.Designates kind name id := by
  constructor
  · intro h
    obtain ⟨second, h⟩ := h
    refine ⟨h.first, ?_⟩
    intro name hname
    rcases List.mem_cons.1 hname with rfl | hname
    · exact ⟨first, h.first⟩
    · obtain ⟨hf, hs⟩ := h
      rw [Option.mem_toList] at hname
      rw [hname] at hs
      cases hs with
      | some hd => exact ⟨_, hd⟩
  · intro h
    obtain ⟨hf, hall⟩ := h
    cases hs : l.secondName with
    | none => exact ⟨none, hf, hs ▸ .none⟩
    | some name =>
      obtain ⟨id, hd⟩ := hall name (by simp [Link.names, hs])
      exact ⟨some id, hf, hs ▸ .some hd⟩

theorem ReverseLink.exists_source_iff {links : List ReverseLink} {source : Nat} :
    (∃ r ∈ links, r.source = source) ↔
      ∃ owner, ∃ r ∈ links, r.source = source ∧ r.owner = owner := by
  constructor
  · intro h
    obtain ⟨r, hr, hs⟩ := h
    exact ⟨r.owner, r, hr, hs, rfl⟩
  · intro h
    obtain ⟨_, r, hr, hs, -⟩ := h
    exact ⟨r, hr, hs⟩

theorem ReverseLink.ofTarget_eq_ok_iff {outcome : Except Violation ReverseTarget} {owner : Nat}
    {r : ReverseLink} :
    ofTarget owner outcome = .ok r ↔ r.owner = owner ∧ outcome = .ok r.toReverseTarget := by
  cases outcome with
  | error v => simp [ofTarget]
  | ok target =>
    obtain ⟨target', owner'⟩ := r
    simp [ofTarget, eq_comm, and_comm]

theorem ReverseLink.ofTarget_eq_error_iff {outcome : Except Violation ReverseTarget} {owner : Nat}
    {vs : List Violation} : ofTarget owner outcome = .error vs ↔ ∃ v, outcome = .error v ∧ vs = [v] := by
  cases outcome <;> simp [ofTarget, eq_comm]

theorem ReverseLink.ne_nil_of_ofTarget_eq_error {outcome : Except Violation ReverseTarget}
    {owner : Nat} {vs : List Violation} (h : ofTarget owner outcome = .error vs) : vs ≠ [] := by
  obtain ⟨v, -, rfl⟩ := ofTarget_eq_error_iff.1 h
  simp

namespace RoleSpec

theorem splitTargets_of_companion_none {spec : RoleSpec} (h : spec.companion = none)
    (ctx : Context) (site : LinkSite) (first : Nat) (second : Option Nat) :
    spec.splitTargets ctx site first second = .ok ⟨first, none⟩ := by
  unfold splitTargets
  split
  · rename_i hc
    simp [h] at hc
  · rfl

end RoleSpec

namespace Rules

variable {rules : Rules} {ctx : Context} {spec : RoleSpec}

theorem reverseLink_eq_ok_iff {owner : Member × Nat} {l : Link} {r : ReverseLink} :
    rules.reverseLink ctx spec owner l = .ok r ↔ r.owner = owner.2 ∧
      ∃ first second, ctx.snapshot.Resolves (rules.source spec).kind l first second ∧
        spec.splitTargets ctx (spec.reverseSite owner.1 l) first second =
          .ok r.toReverseTarget := by
  unfold reverseLink
  dsimp only
  constructor
  · intro h
    split at h
    · rename_i hs
      split at h
      · rename_i first hf
        obtain ⟨ho, ht⟩ := ReverseLink.ofTarget_eq_ok_iff.1 h
        exact ⟨ho, first, none, ⟨Context.linkTarget_eq_ok_iff.1 hf, hs ▸ .none⟩, ht⟩
      · cases h
    · rename_i name hs
      split at h
      · rename_i first second hf hn
        obtain ⟨ho, ht⟩ := ReverseLink.ofTarget_eq_ok_iff.1 h
        exact ⟨ho, first, some second, ⟨Context.linkTarget_eq_ok_iff.1 hf,
          hs ▸ .some (Context.linkTarget_eq_ok_iff.1 hn)⟩, ht⟩
      · cases h
  · intro h
    obtain ⟨ho, first, second, ⟨hf, hr⟩, ht⟩ := h
    have h := ReverseLink.ofTarget_eq_ok_iff.2 ⟨ho, ht⟩
    cases hs : l.secondName with
    | none =>
      rw [hs] at hr
      cases hr
      simpa only [Context.linkTarget_eq_ok_iff.2 hf] using h
    | some name =>
      rw [hs] at hr
      cases hr with
      | some hn =>
        simpa only [Context.linkTarget_eq_ok_iff.2 hf, Context.linkTarget_eq_ok_iff.2 hn] using h

/-- A link that does not resolve is reported. -/
theorem ne_nil_of_reverseLink_eq_error {owner : Member × Nat} {l : Link} {vs : List Violation}
    (h : rules.reverseLink ctx spec owner l = .error vs) : vs ≠ [] := by
  unfold reverseLink at h
  dsimp only at h
  split at h
  · split at h
    · exact ReverseLink.ne_nil_of_ofTarget_eq_error h
    · cases h
      simp
  · split at h
    · exact ReverseLink.ne_nil_of_ofTarget_eq_error h
    · rename_i hne
      cases h
      intro hnil
      rw [List.append_eq_nil_iff, reported_eq_nil_iff, reported_eq_nil_iff] at hnil
      obtain ⟨⟨a, ha⟩, b, hb⟩ := hnil
      exact hne a b ha hb

theorem mem_reverseOutcomes_iff {o : Except (List Violation) ReverseLink} :
    o ∈ rules.reverseOutcomes ctx spec ↔ ∃ id, ctx.snapshot.Available spec.kind id ∧
      ∃ l ∈ (ctx.snapshot.member id).linksOf spec.reverse,
        rules.reverseLink ctx spec (ctx.snapshot.member id, id) l = o := by
  simp only [reverseOutcomes, List.mem_flatMap, List.mem_filter, List.mem_map]
  constructor
  · intro h
    obtain ⟨⟨m, id⟩, ⟨hm, hx⟩, l, hl, rfl⟩ := h
    obtain ⟨hlt, rfl, hk⟩ := Snapshot.mem_ofKind_iff_member.1 hm
    exact ⟨id, ⟨hlt, hk, by simpa using hx⟩, l, hl, rfl⟩
  · intro h
    obtain ⟨id, ⟨hlt, hk, hx⟩, l, hl, rfl⟩ := h
    refine ⟨(ctx.snapshot.member id, id), ⟨?_, by simpa using hx⟩, l, hl, rfl⟩
    exact Snapshot.mem_ofKind_iff_member.2 ⟨hlt, rfl, hk⟩

theorem mem_reverseLinks_iff {r : ReverseLink} :
    r ∈ rules.reverseLinks ctx spec ↔ ctx.snapshot.Available spec.kind r.owner ∧
      ∃ l ∈ (ctx.snapshot.member r.owner).linksOf spec.reverse, ∃ first second,
        ctx.snapshot.Resolves (rules.source spec).kind l first second ∧
          spec.splitTargets ctx (spec.reverseSite (ctx.snapshot.member r.owner) l) first second =
            .ok r.toReverseTarget := by
  simp only [reverseLinks, List.mem_filterMap, toOption_eq_some_iff, exists_eq_right,
    mem_reverseOutcomes_iff, reverseLink_eq_ok_iff]
  constructor
  · intro h
    obtain ⟨id, ha, l, hl, ho, h⟩ := h
    exact ho ▸ ⟨ha, l, hl, h⟩
  · intro h
    obtain ⟨ha, l, hl, h⟩ := h
    exact ⟨_, ha, l, hl, rfl, h⟩

/-- Nothing is reported for a role when every link of its owners resolves. -/
theorem reverseFaults_eq_nil_iff :
    rules.reverseFaults ctx spec = [] ↔ ∀ id, ctx.snapshot.Available spec.kind id →
      ∀ l ∈ (ctx.snapshot.member id).linksOf spec.reverse, ∃ first second target,
        ctx.snapshot.Resolves (rules.source spec).kind l first second ∧
          spec.splitTargets ctx (spec.reverseSite (ctx.snapshot.member id) l) first second =
            .ok target := by
  rw [reverseFaults, List.flatMap_eq_nil_iff]
  constructor
  · intro h id ha l hl
    have ho := h _ (mem_reverseOutcomes_iff.2 ⟨id, ha, l, hl, rfl⟩)
    cases hr : rules.reverseLink ctx spec (ctx.snapshot.member id, id) l with
    | error vs =>
      have hne := ne_nil_of_reverseLink_eq_error hr
      simp [hr] at ho
      exact absurd ho hne
    | ok r =>
      obtain ⟨-, first, second, hres, hsplit⟩ := reverseLink_eq_ok_iff.1 hr
      exact ⟨first, second, _, hres, hsplit⟩
  · intro h o ho
    obtain ⟨id, ha, l, hl, rfl⟩ := mem_reverseOutcomes_iff.1 ho
    obtain ⟨first, second, target, hres, hsplit⟩ := h id ha l hl
    have hr : rules.reverseLink ctx spec (ctx.snapshot.member id, id) l =
        .ok { target with owner := id } :=
      reverseLink_eq_ok_iff.2 ⟨rfl, first, second, hres, hsplit⟩
    simp [hr]

/-- A companion goes to the role that the spec names. -/
theorem exists_companion_of_role_eq {r : ReverseLink} (hr : r ∈ rules.reverseLinks ctx spec)
    {role : Nat} (hrole : r.companion.map (·.1) = some role) :
    ∃ c, spec.companion = some c ∧ c.role = role := by
  obtain ⟨-, l, -, first, second, -, hsplit⟩ := mem_reverseLinks_iff.1 hr
  unfold RoleSpec.splitTargets at hsplit
  split at hsplit
  · rename_i second c hc
    obtain ⟨order, -, htarget⟩ := map_eq_ok_iff.1 hsplit
    refine ⟨c, hc, ?_⟩
    cases order <;> simpa [← htarget] using hrole
  · have htarget := Except.ok.inj hsplit
    simp [← htarget] at hrole

/-! ## Links of one target -/

theorem companion_eq_none (h : spec.companion = none) {r : ReverseLink}
    (hr : r ∈ rules.reverseLinks ctx spec) : r.companion = none := by
  obtain ⟨-, l, -, first, second, -, hsplit⟩ := mem_reverseLinks_iff.1 hr
  rw [RoleSpec.splitTargets_of_companion_none h] at hsplit
  exact congrArg ReverseTarget.companion (Except.ok.inj hsplit).symm

theorem exists_reverseLink_iff (h : spec.companion = none) {owner source : Nat} :
    (∃ r ∈ rules.reverseLinks ctx spec, r.source = source ∧ r.owner = owner) ↔
      ctx.snapshot.PointsAt spec.kind spec.reverse (rules.source spec).kind owner source := by
  simp only [mem_reverseLinks_iff, RoleSpec.splitTargets_of_companion_none h]
  constructor
  · intro h
    obtain ⟨r, ⟨ha, l, hl, first, second, hres, hsplit⟩, rfl, rfl⟩ := h
    have hfirst : first = r.source := congrArg ReverseTarget.source (Except.ok.inj hsplit)
    exact ⟨ha, l, hl, Snapshot.exists_resolves_iff.1 ⟨second, hfirst ▸ hres⟩⟩
  · intro h
    obtain ⟨ha, l, hl, hnames⟩ := h
    obtain ⟨second, hres⟩ := Snapshot.exists_resolves_iff.2 hnames
    exact ⟨⟨⟨source, none⟩, owner⟩, ⟨ha, l, hl, source, second, hres, rfl⟩, rfl, rfl⟩

theorem exists_source_iff (h : spec.companion = none) {source : Nat} :
    (∃ r ∈ rules.reverseLinks ctx spec, r.source = source) ↔ ∃ owner,
      ctx.snapshot.PointsAt spec.kind spec.reverse (rules.source spec).kind owner source := by
  rw [ReverseLink.exists_source_iff]
  simp only [exists_reverseLink_iff h]

theorem reverseFaults_eq_nil_iff_of_companion_none (h : spec.companion = none) :
    rules.reverseFaults ctx spec = [] ↔ ∀ id, ctx.snapshot.Available spec.kind id →
      ∀ l ∈ (ctx.snapshot.member id).linksOf spec.reverse, ∀ name ∈ l.names,
        ∃ target, ctx.snapshot.Designates (rules.source spec).kind name target := by
  rw [reverseFaults_eq_nil_iff]
  simp only [RoleSpec.splitTargets_of_companion_none h]
  constructor
  · intro hall id ha l hl
    obtain ⟨first, second, -, hres, -⟩ := hall id ha l hl
    exact (Snapshot.exists_resolves_iff.1 ⟨second, hres⟩).2
  · intro hall id ha l hl
    have hnames := hall id ha l hl
    obtain ⟨first, hfirst⟩ := hnames l.name (by simp [Link.names])
    obtain ⟨second, hres⟩ := Snapshot.exists_resolves_iff.2 ⟨hfirst, hnames⟩
    exact ⟨first, second, _, hres, rfl⟩

end Rules
end MemberBinding
