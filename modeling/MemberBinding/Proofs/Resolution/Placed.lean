import MemberBinding.Binding.Bindings
import MemberBinding.Proofs.Resolution.Run

/-!
# The members of a group

Whatever steps a run takes, the anchor of a group was selected, and the candidates of a role are
members of its kind that are not excluded. Main statement: `Group.placed_of_mem_run`.
-/

namespace MemberBinding

/-- A companion is looked for among the members that the role it goes to asks for. -/
def Rules.CompanionsFit (rules : Rules) : Prop :=
  ∀ spec ∈ rules.roles, ∀ c, spec.companion = some c → ∀ other, rules.roles[c.role]? = some other →
    other.kind = (rules.source spec).kind

namespace Group

/-- Every member of the group is one that its place asks for. -/
structure Placed (rules : Rules) (ctx : Context) (g : Group) : Prop where
  anchor : g.anchor ∈ rules.anchors ctx (rules.reverseTable ctx)
  candidates : ∀ {role spec}, rules.roles[role]? = some spec → ∀ id ∈ g.candidates role,
    ctx.snapshot.Available spec.kind id

section

variable {g g' : Group} {role other id : Nat} {links : List ReverseLink}

theorem mem_candidates_addAll {cs : List Nat} (h : id ∈ (g.addAll role cs).candidates other) :
    id ∈ g.candidates other ∨ role = other ∧ id ∈ cs := by
  rw [candidates_addAll] at h
  split at h
  · rename_i hrole
    exact (mem_insertAll.1 h).imp_right fun hid => ⟨hrole.1, hid⟩
  · exact .inl h

theorem mem_candidates_explode (hg : g' ∈ g.explode role) (h : id ∈ g'.candidates other) :
    id ∈ g.candidates other := by
  unfold explode at hg
  split at hg
  · exact List.mem_singleton.1 hg ▸ h
  · obtain ⟨c, hc, rfl⟩ := List.mem_map.1 hg
    rw [candidates_choose] at h
    split at h
    · rename_i hrole
      obtain ⟨rfl, -⟩ := hrole
      exact List.mem_singleton.1 h ▸ hc
    · exact h

theorem mem_candidates_attach (h : id ∈ (g.attach role links).candidates other) :
    id ∈ g.candidates other ∨ ∃ r ∈ links, r.companion = some (other, id) := by
  induction links generalizing g with
  | nil => exact .inl h
  | cons link links ih =>
    rw [attach_cons] at h
    rcases ih h with hid | ⟨r, hr, hcompanion⟩
    · unfold attachOne at hid
      split at hid
      · rename_i r c hcarried
        have hcompanion : link.companion = some (r, c) := by
          unfold carried at hcarried
          split at hcarried
          · exact hcarried
          · cases hcarried
        have hadded : id ∈ (g.addAll r [c]).candidates other := hid
        rcases mem_candidates_addAll hadded with hold | ⟨rfl, hnew⟩
        · exact .inl hold
        · exact .inr ⟨link, List.mem_cons_self, List.mem_singleton.1 hnew ▸ hcompanion⟩
      · exact .inl hid
    · exact .inr ⟨r, List.mem_cons_of_mem _ hr, hcompanion⟩

theorem anchor_explode (hg : g' ∈ g.explode role) : g'.anchor = g.anchor := by
  unfold explode at hg
  split at hg
  · rw [List.mem_singleton.1 hg]
  · obtain ⟨c, -, rfl⟩ := List.mem_map.1 hg
    rfl

@[simp] theorem anchor_attach (g : Group) (role : Nat) (links : List ReverseLink) :
    (g.attach role links).anchor = g.anchor := by
  induction links generalizing g with
  | nil => rfl
  | cons link links ih => rw [attach_cons, ih, anchor_attachOne]

end

end Group

namespace Rules

variable {rules : Rules} {ctx : Context} {spec : RoleSpec}

theorem available_of_mem_found {role source id : Nat} (h : rules.roles[role]? = some spec)
    (hid : id ∈ rules.found ctx (rules.reverseTable ctx) spec role source) :
    ctx.snapshot.Available spec.kind id := by
  rcases (mem_found_iff h).1 hid with ⟨-, hnamed⟩ | ⟨l, -, hdesignates⟩ | ⟨r, hr, -, rfl⟩
  · exact hnamed.1
  · exact hdesignates.toAvailable
  · exact (mem_reverseLinks_iff.1 hr).1

theorem available_of_companion_eq {r : ReverseLink} (hr : r ∈ rules.reverseLinks ctx spec)
    {role id : Nat} (hcompanion : r.companion = some (role, id)) :
    (∃ c, spec.companion = some c ∧ c.role = role) ∧
      ctx.snapshot.Available (rules.source spec).kind id := by
  have hrole : r.companion.map (·.1) = some role := by rw [hcompanion]; rfl
  refine ⟨exists_companion_of_role_eq hr hrole, ?_⟩
  obtain ⟨-, l, -, first, second, hresolves, hsplit⟩ := mem_reverseLinks_iff.1 hr
  unfold RoleSpec.splitTargets at hsplit
  split at hsplit
  · rename_i second c hc
    obtain ⟨name, -, hsecond⟩ := hresolves.exists_secondName
    obtain ⟨order, -, htarget⟩ := map_eq_ok_iff.1 hsplit
    have hpair := congrArg ReverseTarget.companion htarget
    rw [hcompanion] at hpair
    -- Either of the two names may be the companion's.
    cases order with
    | asWritten =>
      cases hpair
      exact hsecond.toAvailable
    | swapped =>
      cases hpair
      exact hresolves.first.toAvailable
  · have hnone := congrArg ReverseTarget.companion (Except.ok.inj hsplit)
    rw [hcompanion] at hnone
    cases hnone

end Rules

namespace Group

variable {rules : Rules} {ctx : Context} {spec : RoleSpec} {role : Nat} {g g' : Group}

theorem placed_seed {anchor : Nat} (h : anchor ∈ rules.anchors ctx (rules.reverseTable ctx))
    (roleCount : Nat) : (seed anchor roleCount).Placed rules ctx where
  anchor := h
  candidates _ id hid := by
    rw [candidates_seed] at hid
    cases hid

namespace Placed

theorem available_anchor (h : g.Placed rules ctx) :
    ctx.snapshot.Available rules.anchor.kind g.anchor :=
  (Rules.mem_anchors_iff.1 h.anchor).1.toAvailable

theorem available_of_single? (h : g.Placed rules ctx) (spec : RoleSpec)
    (hspec : rules.roles[role]? = some spec) {id : Nat} (hid : g.single? role = some id) :
    ctx.snapshot.Available spec.kind id :=
  h.candidates hspec id (by rw [single?_eq_some_iff.1 hid]; exact List.mem_singleton_self id)

theorem addAll (h : g.Placed rules ctx) (hspec : rules.roles[role]? = some spec) {cs : List Nat}
    (hcs : ∀ id ∈ cs, ctx.snapshot.Available spec.kind id) : (g.addAll role cs).Placed rules ctx := by
  refine ⟨by rw [anchor_addAll]; exact h.anchor, ?_⟩
  intro other otherSpec hother id hid
  rcases mem_candidates_addAll hid with hold | ⟨rfl, hnew⟩
  · exact h.candidates hother id hold
  · obtain rfl : spec = otherSpec := Option.some.inj (hspec.symm.trans hother)
    exact hcs id hnew

theorem linkRole (h : g.Placed rules ctx) (hspec : rules.roles[role]? = some spec) :
    (rules.linkRole ctx (rules.reverseTable ctx) spec role g).Placed rules ctx := by
  unfold Rules.linkRole
  split
  · exact h.addAll hspec fun id hid => Rules.available_of_mem_found hspec hid
  · exact h

theorem explode (h : g.Placed rules ctx) (hg : g' ∈ g.explode role) : g'.Placed rules ctx where
  anchor := anchor_explode hg ▸ h.anchor
  candidates hother id hid := h.candidates hother id (mem_candidates_explode hg hid)

theorem attach (h : g.Placed rules ctx) (hfit : rules.CompanionsFit) (hspec : spec ∈ rules.roles)
    {links : List ReverseLink} (hlinks : ∀ r ∈ links, r ∈ rules.reverseLinks ctx spec) (role : Nat) :
    (g.attach role links).Placed rules ctx := by
  refine ⟨by rw [anchor_attach]; exact h.anchor, ?_⟩
  intro other otherSpec hother id hid
  rcases mem_candidates_attach hid with hid | ⟨r, hr, hcompanion⟩
  · exact h.candidates hother id hid
  · obtain ⟨⟨c, hc, rfl⟩, havailable⟩ := Rules.available_of_companion_eq (hlinks r hr) hcompanion
    rw [hfit spec hspec c hc otherSpec hother]
    exact havailable

/-- The companions of a role are those of its reverse links. -/
theorem attach_table (h : g.Placed rules ctx) (hfit : rules.CompanionsFit)
    (hspec : rules.roles[role]? = some spec) :
    (g.attach role ((rules.reverseTable ctx)[role]?.getD [])).Placed rules ctx := by
  rw [Rules.getElem?_reverseTable hspec]
  exact h.attach hfit (List.mem_of_getElem? hspec) (fun _ hr => hr) role

/-- One step keeps members where they belong. -/
theorem grow (h : g.Placed rules ctx) (hfit : rules.CompanionsFit)
    (hspec : rules.roles[role]? = some spec)
    (hg : g' ∈ rules.grow ctx (rules.reverseTable ctx) (spec, role) g) : g'.Placed rules ctx := by
  have hlinked := h.linkRole hspec
  cases hexplodes : spec.explodes with
  | false =>
    rw [Rules.grow_of_not_explodes _ _ _ hexplodes] at hg
    rw [List.mem_singleton.1 hg]
    exact hlinked.attach_table hfit hspec
  | true =>
    rw [Rules.grow_of_explodes _ _ _ hexplodes] at hg
    obtain ⟨split, hsplit, rfl⟩ := List.mem_map.1 hg
    exact (hlinked.explode hsplit).attach_table hfit hspec

theorem descendants {entries : List (RoleSpec × Nat)} (h : g.Placed rules ctx)
    (hfit : rules.CompanionsFit)
    (hentries : ∀ entry ∈ entries, rules.roles[entry.2]? = some entry.1)
    (hg : g' ∈ rules.descendants ctx (rules.reverseTable ctx) entries g) : g'.Placed rules ctx := by
  induction entries generalizing g with
  | nil => exact List.mem_singleton.1 hg ▸ h
  | cons entry entries ih =>
    obtain ⟨child, hchild, hg⟩ := List.mem_flatMap.1 hg
    have hplaced := h.grow hfit (hentries entry List.mem_cons_self) hchild
    exact ih hplaced (fun other hother => hentries other (List.mem_cons_of_mem _ hother)) hg

end Placed

theorem placed_of_mem_block (hfit : rules.CompanionsFit) {anchor : Nat}
    (hanchor : anchor ∈ rules.anchors ctx (rules.reverseTable ctx))
    (hg : g ∈ rules.block ctx (rules.reverseTable ctx) anchor) : g.Placed rules ctx :=
  (placed_seed hanchor _).descendants hfit (Rules.getElem?_of_mem_zipIdx rules) hg

/-- All groups of a run hold members that their places ask for. -/
theorem placed_of_mem_run (hfit : rules.CompanionsFit)
    (hg : g ∈ (rules.run ctx (rules.reverseTable ctx)).groups) : g.Placed rules ctx := by
  rw [Rules.groups_run] at hg
  obtain ⟨anchor, hanchor, hg⟩ := List.mem_flatMap.1 hg
  exact placed_of_mem_block hfit hanchor hg

theorem placed_of_resolve_eq_ok (hfit : rules.CompanionsFit) {groups : List Group}
    (h : rules.resolve ctx = .ok groups) (hg : g ∈ groups) : g.Placed rules ctx := by
  obtain ⟨-, rfl⟩ := Diagnostics.finish_ofList_eq_ok_iff.1 h
  exact placed_of_mem_run hfit hg

end Group

theorem FieldBinding.Profile.companionsFit_rules (profile : Profile) :
    profile.rules.CompanionsFit := by
  intro spec hspec c hc
  rw [companion_eq_none hspec] at hc
  cases hc

theorem Command.companionsFit_rules : Command.rules.CompanionsFit := by
  intro spec hspec c hc other hother
  obtain ⟨rfl, rfl⟩ := eq_of_companion hspec hc
  obtain rfl : canExecuteSpec = other := Option.some.inj hother
  rfl

theorem BindingKind.companionsFit_rules (kind : BindingKind) : kind.rules.CompanionsFit := by
  cases kind with
  | property => exact FieldBinding.Profile.companionsFit_rules Property.profile
  | command => exact Command.companionsFit_rules
  | dependency => exact FieldBinding.Profile.companionsFit_rules Dependency.profile

end MemberBinding
