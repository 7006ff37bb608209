import Mathlib.Data.List.ReduceOption
import MemberBinding.Proofs.Command.Consistent
import MemberBinding.Proofs.FieldBinding.Exact
import MemberBinding.Proofs.Reports.Independence
import MemberBinding.Proofs.Resolution.Placement
import MemberBinding.Proofs.Resolution.Pruning

/-!
# Excluded members are invisible

They are bound nowhere, and may be taken out of a snapshot that resolves, or put into any snapshot
whose links do not name them. Main statement: `Bindings.excluded_invisible`.
-/

namespace MemberBinding

/-! ## Positions in bindings -/

namespace Placement

def map (φ : Nat → Nat) (p : Placement) : Placement := ⟨φ p.anchor, p.members.map (·.map φ)⟩

/-- The members of a binding, in any role. -/
def positions (p : Placement) : List Nat := p.anchor :: p.members.reduceOption

theorem map_map (φ ψ : Nat → Nat) (p : Placement) : (p.map φ).map ψ = p.map (ψ ∘ φ) := by
  simp [map]

theorem map_of_forall_eq {φ : Nat → Nat} (h : ∀ id, φ id = id) (p : Placement) : p.map φ = p := by
  have hid : φ = id := funext h
  simp [map, hid]

end Placement

theorem Group.placement_map (φ : Nat → Nat) (roleCount : Nat) (g : Group) :
    (g.map φ).placement roleCount = (g.placement roleCount).map φ := by
  simp [placement, Placement.map]

theorem FieldBinding.Profile.not_excluded_of_mem {profile : Profile} {law : Law} {config : Config}
    {s : Snapshot} {mode : Mode} {bs : List (FieldBinding Nat)} (hlaw : profile.Obeys law)
    (h : profile.positions config s mode = .ok bs) {b : FieldBinding Nat} (hb : b ∈ bs) {id : Nat}
    (hid : id ∈ b.placement.positions) : (s.member id).isExcluded = false := by
  have hbs := outcome_of_positions_eq_ok hlaw h
  rcases List.mem_cons.1 hid with rfl | hfield
  · exact (hbs.selected hb).1.not_excluded
  · have hsome : b.field = some id := by
      simpa [FieldBinding.placement, List.reduceOption_mem_iff, eq_comm] using hfield
    exact (FieldCandidate.available ((hbs.field_iff b hb id).1 hsome)).not_excluded

theorem Command.not_excluded_of_mem {config : Config} {s : Snapshot} {mode : Mode}
    {bs : List (CommandBinding Nat)} (h : positions config s mode = .ok bs)
    {b : CommandBinding Nat} (hb : b ∈ bs) {id : Nat} (hid : id ∈ b.placement.positions) :
    (s.member id).isExcluded = false := by
  have hjustified := justified_of_mem h hb
  rcases List.mem_cons.1 hid with rfl | hother
  · exact hjustified.selected.not_excluded
  · have hsome : b.canExecute = some id ∨ b.property = some id ∨ b.field = some id := by
      simpa [CommandBinding.placement, List.reduceOption_mem_iff, eq_comm] using hother
    rcases hsome with hcanExecute | hproperty | hfield
    · exact ((hjustified.canExecute_iff id).1 hcanExecute).available.not_excluded
    · have hexposure := hjustified.exposure
      rw [hproperty, exposure_some_iff] at hexposure
      exact hexposure.available.not_excluded
    · obtain ⟨p, -, hcandidate⟩ := (hjustified.field_iff id).1 hfield
      exact (FieldCandidate.available hcandidate).not_excluded

/-- No excluded member is bound, in any role. -/
theorem BindingKind.not_excluded_of_mem {kind : BindingKind} {config : Config} {s : Snapshot}
    {mode : Mode} {ps : List Placement} (h : kind.placements config s mode = .ok ps)
    {p : Placement} (hp : p ∈ ps) {id : Nat} (hid : id ∈ p.positions) :
    (s.member id).isExcluded = false := by
  cases kind with
  | property =>
    obtain ⟨bs, hbs, rfl⟩ := map_eq_ok_iff.1 h
    obtain ⟨b, hb, rfl⟩ := List.mem_map.1 hp
    exact FieldBinding.Profile.not_excluded_of_mem FieldBinding.Profile.obeys_ofProperty hbs hb hid
  | dependency =>
    obtain ⟨bs, hbs, rfl⟩ := map_eq_ok_iff.1 h
    obtain ⟨b, hb, rfl⟩ := List.mem_map.1 hp
    exact FieldBinding.Profile.not_excluded_of_mem FieldBinding.Profile.obeys_ofDependency hbs hb
      hid
  | command =>
    obtain ⟨bs, hbs, rfl⟩ := map_eq_ok_iff.1 h
    obtain ⟨b, hb, rfl⟩ := List.mem_map.1 hp
    exact Command.not_excluded_of_mem hbs hb hid

namespace Bindings

variable {kind : BindingKind} {config : Config} {mode : Mode} {s t : Snapshot} {φ : Nat → Nat}

/-! ## Bindings of groups that were moved -/

theorem resolve_eq_of_map (hmember : ∀ id, t.member (φ id) = s.member id)
    (h : kind.rules.resolve (.of config t mode) =
      (kind.rules.resolve (.of config s mode)).map (·.map (·.map φ))) :
    resolve kind config t mode = resolve kind config s mode := by
  rw [resolve_eq, resolve_eq, h, map_map_eq]
  congr 1
  funext groups
  exact ofGroups_map hmember kind groups

theorem placements_eq_of_map (h : kind.rules.resolve (.of config t mode) =
      (kind.rules.resolve (.of config s mode)).map (·.map (·.map φ))) :
    kind.placements config t mode = (kind.placements config s mode).map (·.map (·.map φ)) := by
  rw [BindingKind.placements_eq, BindingKind.placements_eq, h, map_map_eq, map_map_eq]
  congr 1
  funext groups
  simp only [Function.comp_apply, List.map_map]
  exact List.map_congr_left fun g _ => g.placement_map φ _

/-! ## Members taken out and put in -/

theorem resolve_without (kind : BindingKind) {deleted : Nat → Bool}
    (hdeleted : ∀ id, deleted id = true → (s.member id).isExcluded = true) {groups : List Group}
    (h : kind.rules.resolve (.of config s mode) = .ok groups) :
    kind.rules.resolve (.of config s mode) =
      (kind.rules.resolve (.of config (s.without deleted) mode)).map
        (·.map (·.map (Nat.nth fun id => deleted id = false))) := by
  have hpruned := Snapshot.pruned_without hdeleted
  have hthinned : kind.rules.Thinned (.of config (s.without deleted) mode) (.of config s mode)
      deleted (Nat.nth fun id => deleted id = false) :=
    ⟨hpruned.toThinned, rfl, rfl, fun _ _ _ hid => hpruned.not_available hid⟩
  obtain ⟨hnil, -⟩ := Diagnostics.finish_ofList_eq_ok_iff.1 h
  apply hthinned.resolve_eq kind.local_rules ?_ (.inr hnil)
  intro id hid
  have hlt := Snapshot.lt_length_of_isExcluded (hdeleted id hid)
  simp only [Rules.reports, List.append_eq_nil_iff, Rules.markFaults,
    List.flatMap_eq_nil_iff] at hnil
  exact hnil.1.1.1.1 _ (Snapshot.member_mem hlt)

theorem resolve_insertMember (kind : BindingKind) (config : Config) (mode : Mode) {n : Nat}
    (hn : n ≤ s.members.length) {m : Member} (hexcluded : m.isExcluded = true)
    (hincluded : m.isIncluded = false) (hlinks : m.links = [])
    (hnamed : ∀ other ∈ s.members, ∀ l ∈ other.links, m.name ∉ l.names) :
    kind.rules.resolve (.of config (s.insertMember n m) mode) =
      (kind.rules.resolve (.of config s mode)).map
        (·.map (·.map (Snapshot.placeAround n))) := by
  have hpruned := Snapshot.pruned_insertMember hn hexcluded
  have hthinned : kind.rules.Thinned (.of config s mode) (.of config (s.insertMember n m) mode)
      (· == n) (Snapshot.placeAround n) :=
    ⟨hpruned.toThinned, rfl, rfl, fun _ _ _ hid => hpruned.not_available hid⟩
  apply hthinned.resolve_eq kind.local_rules
  · intro id hid
    obtain rfl := beq_iff_eq.1 hid
    rw [Context.snapshot_of, Snapshot.member_insertMember_self hn]
    apply Rules.markFaultsOf_eq_nil_iff.2
    intro _ _
    exact ⟨hincluded, fun kind _ => by rw [Member.linksOf, hlinks, List.filter_nil]⟩
  · left
    intro id l hl name hname kind _
    apply hthinned.places.target_map
    apply Snapshot.named_insertMember hn hexcluded
    rintro rfl
    rcases s.member_mem_or id with hmem | hdefault
    · exact hnamed _ hmem l hl hname
    · rw [Context.snapshot_of, hdefault] at hl
      cases hl

/-- Excluded members that are taken out of a snapshot that resolves leave the bindings, none of
which has an excluded member, as they are. One that is put into a snapshot, with nothing to report
about it and no link that names it, changes nothing. Other members only move up or down. -/
theorem excluded_invisible (kind : BindingKind) (config : Config) (mode : Mode) :
    (∀ (s : Snapshot) (deleted : Nat → Bool),
      (∀ id, deleted id = true → (s.member id).isExcluded = true) →
      ∀ bs, resolve kind config s mode = .ok bs →
        resolve kind config (s.without deleted) mode = .ok bs ∧
        ∃ ps, kind.placements config s mode = .ok ps ∧
          kind.placements config (s.without deleted) mode =
            .ok (ps.map (·.map (Snapshot.placeWithout deleted))) ∧
          ∀ p ∈ ps, ∀ id ∈ p.positions, (s.member id).isExcluded = false) ∧
    ∀ (s : Snapshot) (n : Nat) (m : Member), n ≤ s.members.length → m.isExcluded = true →
      m.isIncluded = false → m.links = [] →
      (∀ other ∈ s.members, ∀ l ∈ other.links, m.name ∉ l.names) →
        resolve kind config (s.insertMember n m) mode = resolve kind config s mode ∧
        kind.placements config (s.insertMember n m) mode =
          (kind.placements config s mode).map (·.map (·.map (Snapshot.placeAround n))) := by
  constructor
  · intro s deleted hdeleted bs h
    have hresolve := h
    rw [resolve_eq] at hresolve
    obtain ⟨groups, hgroups, -⟩ := map_eq_ok_iff.1 hresolve
    have hmap := resolve_without kind hdeleted hgroups
    have hmember := (Snapshot.pruned_without hdeleted).member_eq
    have hps : kind.placements config s mode =
        .ok (groups.map (Group.placement kind.rules.roles.length)) := by
      rw [BindingKind.placements_eq, hgroups]
      rfl
    refine ⟨(resolve_eq_of_map hmember hmap).symm.trans h, _, hps, ?_, ?_⟩
    · rw [placements_eq_of_map hmap] at hps
      obtain ⟨qs, hqs, heq⟩ := map_eq_ok_iff.1 hps
      have hback : (qs.map (·.map (Nat.nth fun id => deleted id = false))).map
          (·.map (Snapshot.placeWithout deleted)) = qs := by
        rw [List.map_map]
        refine (List.map_congr_left fun q _ => ?_).trans (List.map_id qs)
        exact (q.map_map _ _).trans
          (Placement.map_of_forall_eq (Snapshot.placeWithout_nth hdeleted) q)
      rw [hqs, ← heq, hback]
    · intro p hp id hid
      exact BindingKind.not_excluded_of_mem hps hp hid
  · intro s n m hn hexcluded hincluded hlinks hnamed
    have hmap := resolve_insertMember kind config mode hn hexcluded hincluded hlinks hnamed
    exact ⟨resolve_eq_of_map (Snapshot.member_insertMember hn m) hmap, placements_eq_of_map hmap⟩

/-- The field that has the name for the property is excluded. Another one names the property. -/
def archivedSnapshot : Snapshot where
  name := "Document"
  members := [
    (Member.field "title" "System.String").withMark .excluded,
    .property "Title" "System.String",
    (Member.field "text" "System.String").withLink ⟨.property, "Title", none⟩]

def archivedField : Member := (Member.field "heading" "System.String").withMark .excluded

theorem excluded_invisible_archivedSnapshot :
    let bs := Bindings.property
      [⟨archivedSnapshot.member 1, some (archivedSnapshot.member 2)⟩]
    resolve .property {} archivedSnapshot .all = .ok bs ∧
      resolve .property {} (archivedSnapshot.without (· == 0)) .all = .ok bs ∧
      BindingKind.placements .property {} (archivedSnapshot.without (· == 0)) .all =
        .ok [⟨0, [some 1]⟩] ∧
      resolve .property {} (archivedSnapshot.insertMember 2 archivedField) .all = .ok bs ∧
      BindingKind.placements .property {} (archivedSnapshot.insertMember 2 archivedField) .all =
        .ok [⟨1, [some 3]⟩] := by
  intro bs
  have hbs : resolve .property {} archivedSnapshot .all = .ok bs := rfl
  have hplacements : BindingKind.placements .property {} archivedSnapshot .all =
      .ok [⟨1, [some 2]⟩] := rfl
  obtain ⟨hwithout, hinsert⟩ := excluded_invisible .property {} .all
  have hdeleted : ∀ id, (id == 0) = true → (archivedSnapshot.member id).isExcluded = true := by
    intro id hid
    obtain rfl := beq_iff_eq.1 hid
    rfl
  obtain ⟨htaken, ps, hps, hmoved, -⟩ := hwithout archivedSnapshot (· == 0) hdeleted bs hbs
  obtain rfl := Except.ok.inj (hplacements.symm.trans hps)
  have hnamed : ∀ other ∈ archivedSnapshot.members, ∀ l ∈ other.links,
      archivedField.name ∉ l.names := by decide
  obtain ⟨hput, hplaced⟩ := hinsert archivedSnapshot 2 archivedField (by decide) rfl rfl rfl hnamed
  rw [hplacements] at hplaced
  exact ⟨hbs, htaken, hmoved, hput.trans hbs, hplaced⟩

end Bindings
end MemberBinding
