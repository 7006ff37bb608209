import MemberBinding.Proofs.Resolution.ReverseLink

/-!
# What is reported of links

A name that designates no member is reported, for one of three reasons, and so are two names of
which neither can be told to be the source. Main statement: `Rules.mem_reverseFaults_iff`.
-/

namespace MemberBinding

namespace Snapshot

/-- A member of the kind and name, excluded or not. -/
structure Bears (s : Snapshot) (kind : MemberKind) (name : String) (id : Nat) : Prop where
  lt : id < s.members.length
  kind_eq : (s.member id).kind = kind
  name_eq : (s.member id).name = name

/-- What is reported, at a site, of a name that designates no member. `label` says what was looked
for. -/
inductive Undesignated (s : Snapshot) (kind : MemberKind) (label name : String) (site : LinkSite) :
    Violation → Prop
  | notFound (none : ∀ id, ¬s.Bears kind name id) :
      Undesignated s kind label name site (.linkNotFound label name site)
  | ambiguous {i j} (ne : i ≠ j) (first : s.Bears kind name i) (second : s.Bears kind name j) :
      Undesignated s kind label name site (.linkAmbiguous label name site)
  | excluded {id} (bears : s.Bears kind name id) (unique : ∀ j, s.Bears kind name j → j = id)
      (excluded : (s.member id).isExcluded = true) :
      Undesignated s kind label name site (.linkToExcluded label name site)

variable {s : Snapshot} {kind : MemberKind} {label name : String} {site : LinkSite}
  {v : Violation} {id : Nat}

theorem mem_named_iff_bears : id ∈ s.named kind name ↔ s.Bears kind name id := by
  rw [mem_named_iff_member]
  exact ⟨fun h => ⟨h.1, h.2.1, h.2.2⟩, fun h => ⟨h.lt, h.kind_eq, h.name_eq⟩⟩

/-- The three reasons exclude one another. -/
theorem Undesignated.eq {w : Violation} (hv : s.Undesignated kind label name site v)
    (hw : s.Undesignated kind label name site w) : v = w := by
  cases hv with
  | notFound none =>
    cases hw with
    | notFound => rfl
    | ambiguous _ first => exact absurd first (none _)
    | excluded bears => exact absurd bears (none _)
  | ambiguous ne first second =>
    cases hw with
    | notFound none => exact absurd first (none _)
    | ambiguous => rfl
    | excluded _ unique => exact absurd ((unique _ first).trans (unique _ second).symm) ne
  | excluded bears unique =>
    cases hw with
    | notFound none => exact absurd bears (none _)
    | ambiguous ne first second =>
      exact absurd ((unique _ first).trans (unique _ second).symm) ne
    | excluded => rfl

theorem Designates.not_undesignated (h : s.Designates kind name id) :
    ¬s.Undesignated kind label name site v := by
  have hbears : s.Bears kind name id := ⟨h.lt, h.kind_eq, h.name_eq⟩
  have hunique : ∀ j, s.Bears kind name j → j = id :=
    fun j hj => h.unique j hj.lt hj.kind_eq hj.name_eq
  intro hv
  cases hv with
  | notFound none => exact none id hbears
  | ambiguous ne first second => exact ne ((hunique _ first).trans (hunique _ second).symm)
  | excluded bears _ excluded =>
    rw [hunique _ bears, h.not_excluded] at excluded
    cases excluded

end Snapshot

namespace Context

variable {ctx : Context} {kind : MemberKind} {label name : String} {site : LinkSite} {v : Violation}

private theorem target_eq_error {fault : TargetFault} (h : ctx.target kind name = .error fault) :
    ctx.snapshot.Undesignated kind label name site (fault.violation label name site) := by
  rw [target, lookup_index] at h
  split at h
  · rename_i hnil
    cases h
    refine .notFound ?_
    intro id hid
    rw [← Snapshot.mem_named_iff_bears, hnil] at hid
    cases hid
  · rename_i id hid
    have hbears : ∀ j, ctx.snapshot.Bears kind name j ↔ j = id := by
      intro j
      rw [← Snapshot.mem_named_iff_bears, hid, List.mem_singleton]
    split at h
    · rename_i hexcluded
      cases h
      exact .excluded ((hbears id).2 rfl) (fun j hj => (hbears j).1 hj) hexcluded
    · cases h
  · rename_i hnil hsingle
    cases h
    have hordered := ctx.snapshot.pairwise_lt_named kind name
    cases hids : ctx.snapshot.named kind name with
    | nil => exact absurd hids hnil
    | cons i rest =>
      cases rest with
      | nil => exact absurd hids (hsingle i)
      | cons j rest =>
        rw [hids] at hordered
        have hlt : i < j := List.rel_of_pairwise_cons hordered (by simp)
        exact .ambiguous (Nat.ne_of_lt hlt) (Snapshot.mem_named_iff_bears.1 (by simp [hids]))
          (Snapshot.mem_named_iff_bears.1 (by simp [hids]))

/-- A link without a target is reported for what keeps its name from designating a member. -/
theorem linkTarget_eq_error_iff : ctx.linkTarget kind label name site = .error v ↔
    ctx.snapshot.Undesignated kind label name site v := by
  cases htarget : ctx.linkTarget kind label name site with
  | ok id =>
    constructor
    · intro h
      cases h
    · intro h
      exact absurd h (linkTarget_eq_ok_iff.1 htarget).not_undesignated
  | error w =>
    have hw : ctx.snapshot.Undesignated kind label name site w := by
      rw [linkTarget] at htarget
      cases hfault : ctx.target kind name with
      | ok id =>
        rw [hfault] at htarget
        cases htarget
      | error fault =>
        rw [hfault] at htarget
        cases htarget
        exact target_eq_error hfault
    constructor
    · intro h
      cases h
      exact hw
    · intro h
      rw [hw.eq h]

end Context

namespace Rules

/-- What is reported of one reverse link, declared on `owner`. -/
inductive BadReverseLink (rules : Rules) (ctx : Context) (spec : RoleSpec) (owner : Member)
    (l : Link) : Violation → Prop
  | first {v} (undesignated : ctx.snapshot.Undesignated (rules.source spec).kind
      (rules.source spec).label l.name (spec.reverseSite owner l) v) :
      BadReverseLink rules ctx spec owner l v
  | second {name v} (second : l.secondName = some name)
      (undesignated : ctx.snapshot.Undesignated (rules.source spec).kind
        (spec.secondLabel.getD (rules.source spec).label) name (spec.reverseSite owner l) v) :
      BadReverseLink rules ctx spec owner l v
  | pair {i j v} (resolves : ctx.snapshot.Resolves (rules.source spec).kind l i j)
      (conflict : spec.splitTargets ctx (spec.reverseSite owner l) i j = .error v) :
      BadReverseLink rules ctx spec owner l v

variable {rules : Rules} {ctx : Context} {spec : RoleSpec} {v : Violation}

theorem mem_reported_ofTarget_iff {owner : Nat} {outcome : Except Violation ReverseTarget} :
    v ∈ (reported (ReverseLink.ofTarget owner outcome)).flatten ↔ outcome = .error v := by
  cases outcome <;> simp [ReverseLink.ofTarget, eq_comm]

theorem mem_reported_iff {α : Type} {outcome : Except Violation α} :
    v ∈ reported outcome ↔ outcome = .error v := by
  cases outcome <;> simp [eq_comm]

theorem badReverseLink_of_mem_reported {owner : Member × Nat} {l : Link}
    (h : v ∈ (reported (rules.reverseLink ctx spec owner l)).flatten) :
    rules.BadReverseLink ctx spec owner.1 l v := by
  unfold reverseLink at h
  dsimp only at h
  split at h
  · rename_i hsecond
    split at h
    · rename_i i hi
      have hresolves : ctx.snapshot.Resolves (rules.source spec).kind l i none :=
        ⟨Context.linkTarget_eq_ok_iff.1 hi, hsecond ▸ .none⟩
      exact .pair hresolves (mem_reported_ofTarget_iff.1 h)
    · rename_i w hw
      obtain rfl : v = w := by simpa using h
      exact .first (Context.linkTarget_eq_error_iff.1 hw)
  · rename_i name hsecond
    split at h
    · rename_i i j hi hj
      have hresolves : ctx.snapshot.Resolves (rules.source spec).kind l i (some j) :=
        ⟨Context.linkTarget_eq_ok_iff.1 hi, hsecond ▸ .some (Context.linkTarget_eq_ok_iff.1 hj)⟩
      exact .pair hresolves (mem_reported_ofTarget_iff.1 h)
    · simp only [reported_error, List.flatten_cons, List.flatten_nil, List.append_nil,
        List.mem_append, mem_reported_iff, Context.linkTarget_eq_error_iff] at h
      rcases h with h | h
      · exact .first h
      · exact .second hsecond h

theorem BadReverseLink.mem_reported {owner : Member × Nat} {l : Link}
    (h : rules.BadReverseLink ctx spec owner.1 l v) :
    v ∈ (reported (rules.reverseLink ctx spec owner l)).flatten := by
  unfold reverseLink
  dsimp only
  cases h with
  | first undesignated =>
    have hfirst := Context.linkTarget_eq_error_iff.2 undesignated
    rw [hfirst]
    split
    · simp
    · simp
  | second second undesignated =>
    have hname := Context.linkTarget_eq_error_iff.2 undesignated
    rw [second]
    dsimp only
    rw [hname]
    split
    · rename_i hj
      cases hj
    · simp
  | pair resolves conflict =>
    rename_i i j
    cases j with
    | none =>
      rw [resolves.secondName_eq_none]
      dsimp only
      rw [Context.linkTarget_eq_ok_iff.2 resolves.first]
      exact mem_reported_ofTarget_iff.2 conflict
    | some j =>
      obtain ⟨name, hname, hsecond⟩ := resolves.exists_secondName
      rw [hname]
      dsimp only
      rw [Context.linkTarget_eq_ok_iff.2 resolves.first, Context.linkTarget_eq_ok_iff.2 hsecond]
      exact mem_reported_ofTarget_iff.2 conflict

theorem mem_reverseFaults_iff :
    v ∈ rules.reverseFaults ctx spec ↔ ∃ id, ctx.snapshot.Available spec.kind id ∧
      ∃ l ∈ (ctx.snapshot.member id).linksOf spec.reverse,
        rules.BadReverseLink ctx spec (ctx.snapshot.member id) l v := by
  simp only [reverseFaults, List.mem_flatMap, mem_reverseOutcomes_iff]
  constructor
  · intro h
    obtain ⟨_, ⟨id, ha, l, hl, rfl⟩, hv⟩ := h
    exact ⟨id, ha, l, hl, badReverseLink_of_mem_reported hv⟩
  · intro h
    obtain ⟨id, ha, l, hl, hv⟩ := h
    exact ⟨_, ⟨id, ha, l, hl, rfl⟩, hv.mem_reported⟩

/-- A role without companions looks for the one kind of source, under one label. -/
theorem mem_reverseFaults_iff_of_companion_none (hc : spec.companion = none)
    (hs : spec.secondLabel = none) :
    v ∈ rules.reverseFaults ctx spec ↔ ∃ id, ctx.snapshot.Available spec.kind id ∧
      ∃ l ∈ (ctx.snapshot.member id).linksOf spec.reverse, ∃ name ∈ l.names,
        ctx.snapshot.Undesignated (rules.source spec).kind (rules.source spec).label name
          (spec.reverseSite (ctx.snapshot.member id) l) v := by
  have hlabel : spec.secondLabel.getD (rules.source spec).label = (rules.source spec).label := by
    rw [hs]
    rfl
  rw [mem_reverseFaults_iff]
  refine exists_congr fun id => and_congr_right fun _ => exists_congr fun l =>
    and_congr_right fun _ => ?_
  constructor
  · intro h
    cases h with
    | first undesignated => exact ⟨l.name, by simp [Link.names], undesignated⟩
    | second second undesignated => exact ⟨_, by simp [Link.names, second], hlabel ▸ undesignated⟩
    | pair _ conflict =>
      rw [RoleSpec.splitTargets_of_companion_none hc] at conflict
      cases conflict
  · intro h
    obtain ⟨name, hname, undesignated⟩ := h
    rcases List.mem_cons.1 hname with rfl | hname
    · exact .first undesignated
    · exact .second (Option.mem_toList.1 hname) (hlabel.symm ▸ undesignated)

end Rules
end MemberBinding
