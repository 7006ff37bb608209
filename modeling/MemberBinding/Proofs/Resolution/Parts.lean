import MemberBinding.Proofs.Resolution.EmbeddedRun
import MemberBinding.Proofs.Snapshot.Parts

/-!
# Two parts that do not look each other up

What each pass gives for the whole is what it gives for the first part, followed by what it gives
for the second. Main statements: `Splits.groups_run_eq` and `Splits.mem_reports_iff`.
-/

namespace MemberBinding

/-- The whole is the one part followed by the other, and each name that a part can look up stands
for members of that part only. -/
structure Rules.Splits (rules : Rules) (left right whole : Context) (φ ψ : Nat → Nat) : Prop where
  joined : left.snapshot.Joined right.snapshot whole.snapshot φ ψ
  left : left.Embeds whole (rules.lookups left.config.conventions left.snapshot) φ
  right : right.Embeds whole (rules.lookups right.config.conventions right.snapshot) ψ

namespace Rules

variable {rules : Rules}

theorem exists_splits {left right whole : Context}
    (hmembers : whole.snapshot.members = left.snapshot.members ++ right.snapshot.members)
    (hleft : whole.config = left.config ∧ whole.mode = left.mode)
    (hright : whole.config = right.config ∧ whole.mode = right.mode)
    (left_unknown : ∀ name ∈ rules.lookups left.config.conventions left.snapshot,
      name ∉ right.snapshot.members.map Member.name)
    (right_unknown : ∀ name ∈ rules.lookups right.config.conventions right.snapshot,
      name ∉ left.snapshot.members.map Member.name) :
    ∃ φ ψ, rules.Splits left right whole φ ψ := by
  obtain ⟨φ, ψ, hjoined⟩ := Snapshot.exists_joined hmembers
  refine ⟨φ, ψ, hjoined, ?_, ?_⟩
  · exact ⟨hleft.1, hleft.2, hjoined.left_injective, hjoined.left_member_eq,
      fun name hname kind => hjoined.named_left_eq (left_unknown name hname)⟩
  · exact ⟨hright.1, hright.2, hjoined.right_injective, hjoined.right_member_eq,
      fun name hname kind => hjoined.named_right_eq (right_unknown name hname)⟩

/-- What becomes of the links of one owner. -/
theorem map_reverseLink_map {part whole : Context} {φ : Nat → Nat}
    (e : part.Embeds whole (rules.lookups part.config.conventions part.snapshot) φ)
    (spec : RoleSpec) {owner : Member × Nat} {kind : MemberKind}
    (howner : owner ∈ part.snapshot.ofKind kind) :
    (owner.1.linksOf spec.reverse).map (rules.reverseLink whole spec (Prod.map id φ owner)) =
      ((owner.1.linksOf spec.reverse).map (rules.reverseLink part spec owner)).map
        (·.map (ReverseLink.map φ)) := by
  rw [List.map_map]
  apply List.map_congr_left
  intro l hl
  apply e.places.reverseLink_map
  intro name hname
  obtain ⟨m, id⟩ := owner
  obtain rfl := Snapshot.member_of_mem_ofKind howner
  exact e.target_map _ (mem_lookups_of_link hl hname)

namespace Splits

variable {left right whole : Context} {φ ψ : Nat → Nat}

theorem reverseOutcomes_eq (s : rules.Splits left right whole φ ψ) (spec : RoleSpec) :
    rules.reverseOutcomes whole spec =
      (rules.reverseOutcomes left spec).map (·.map (ReverseLink.map φ)) ++
        (rules.reverseOutcomes right spec).map (·.map (ReverseLink.map ψ)) := by
  unfold reverseOutcomes
  rw [s.joined.ofKind_eq, List.filter_append, List.flatMap_append, List.filter_map,
    List.filter_map, List.flatMap_map, List.flatMap_map, List.map_flatMap, List.map_flatMap]
  congr 1
  · exact List.flatMap_congr fun owner howner =>
      map_reverseLink_map s.left spec (List.mem_filter.1 howner).1
  · exact List.flatMap_congr fun owner howner =>
      map_reverseLink_map s.right spec (List.mem_filter.1 howner).1

theorem reverseLinks_eq (s : rules.Splits left right whole φ ψ) (spec : RoleSpec) :
    rules.reverseLinks whole spec =
      (rules.reverseLinks left spec).map (·.map φ) ++
        (rules.reverseLinks right spec).map (·.map ψ) := by
  unfold reverseLinks
  rw [s.reverseOutcomes_eq, List.filterMap_append]
  exact congrArg₂ (· ++ ·) (filterMap_toOption_map _ _) (filterMap_toOption_map _ _)

theorem embeds_left (s : rules.Splits left right whole φ ψ) : rules.Embeds left whole φ where
  toEmbeds := s.left
  links_eq spec source := by
    rw [s.reverseLinks_eq, List.filter_append,
      ReverseLink.filter_source_map s.left.injective,
      ReverseLink.filter_source_eq_nil fun id => s.joined.ne source id, List.append_nil]

theorem embeds_right (s : rules.Splits left right whole φ ψ) : rules.Embeds right whole ψ where
  toEmbeds := s.right
  links_eq spec source := by
    rw [s.reverseLinks_eq, List.filter_append,
      ReverseLink.filter_source_map s.right.injective,
      ReverseLink.filter_source_eq_nil fun id => (s.joined.ne id source).symm, List.nil_append]

/-! ## Anchors and their groups -/

theorem anchors_eq (s : rules.Splits left right whole φ ψ) (hlocal : rules.Local) :
    rules.anchors whole (rules.reverseTable whole) =
      (rules.anchors left (rules.reverseTable left)).map φ ++
        (rules.anchors right (rules.reverseTable right)).map ψ := by
  unfold anchors
  rw [s.joined.ofKind_eq, List.filter_append, List.map_append, List.filter_map, List.filter_map,
    List.map_map, List.map_map, List.map_map, List.map_map]
  congr 1
  · exact congrArg (List.map (φ ∘ Prod.snd)) (List.filter_congr fun entry h =>
      congrArg (· == Verdict.selected) (s.embeds_left.tracks.verdict_map hlocal h))
  · exact congrArg (List.map (ψ ∘ Prod.snd)) (List.filter_congr fun entry h =>
      congrArg (· == Verdict.selected) (s.embeds_right.tracks.verdict_map hlocal h))

theorem groups_run_eq (s : rules.Splits left right whole φ ψ) (hlocal : rules.Local) :
    (rules.run whole (rules.reverseTable whole)).groups =
      (rules.run left (rules.reverseTable left)).groups.map (·.map φ) ++
        (rules.run right (rules.reverseTable right)).groups.map (·.map ψ) := by
  rw [groups_run, groups_run, groups_run, s.anchors_eq hlocal, List.flatMap_append,
    List.flatMap_map, List.flatMap_map, List.map_flatMap, List.map_flatMap]
  congr 1
  · exact List.flatMap_congr fun a _ => s.embeds_left.block_map a
  · exact List.flatMap_congr fun a _ => s.embeds_right.block_map a

/-! ## Reports -/

theorem markFaults_eq (s : rules.Splits left right whole φ ψ) :
    rules.markFaults whole = rules.markFaults left ++ rules.markFaults right := by
  unfold markFaults
  rw [s.joined.members_eq, List.flatMap_append]

theorem reverseFaults_eq (s : rules.Splits left right whole φ ψ) (spec : RoleSpec) :
    rules.reverseFaults whole spec =
      rules.reverseFaults left spec ++ rules.reverseFaults right spec := by
  unfold reverseFaults
  rw [s.reverseOutcomes_eq, List.flatMap_append, List.flatMap_map, List.flatMap_map]
  simp only [reported_map]

theorem anchorFaults_eq (s : rules.Splits left right whole φ ψ) (hlocal : rules.Local) :
    rules.anchorFaults whole (rules.reverseTable whole) =
      rules.anchorFaults left (rules.reverseTable left) ++
        rules.anchorFaults right (rules.reverseTable right) := by
  unfold anchorFaults
  rw [s.joined.ofKind_eq, List.filterMap_append, List.filterMap_map, List.filterMap_map]
  congr 1
  · exact List.filterMap_congr fun entry h =>
      congrArg Verdict.violation? (s.embeds_left.tracks.verdict_map hlocal h)
  · exact List.filterMap_congr fun entry h =>
      congrArg Verdict.violation? (s.embeds_right.tracks.verdict_map hlocal h)

theorem groupFaults_eq (s : rules.Splits left right whole φ ψ) (hlocal : rules.Local) :
    (rules.run whole (rules.reverseTable whole)).groups.flatMap (rules.groupFaults whole) =
      (rules.run left (rules.reverseTable left)).groups.flatMap (rules.groupFaults left) ++
        (rules.run right (rules.reverseTable right)).groups.flatMap (rules.groupFaults right) := by
  rw [s.groups_run_eq hlocal, List.flatMap_append, List.flatMap_map, List.flatMap_map]
  congr 1
  · exact List.flatMap_congr fun g _ => s.embeds_left.tracks.groupFaults_map hlocal g
  · exact List.flatMap_congr fun g _ => s.embeds_right.tracks.groupFaults_map hlocal g

/-- What is reported of forward links comes step by step, those of both parts by turns. -/
theorem mem_faults_iff (s : rules.Splits left right whole φ ψ) (hlocal : rules.Local)
    {v : Violation} :
    v ∈ (rules.run whole (rules.reverseTable whole)).faults ↔
      v ∈ (rules.run left (rules.reverseTable left)).faults ∨
        v ∈ (rules.run right (rules.reverseTable right)).faults := by
  have hleft : ∀ a, rules.descentFaults whole (rules.reverseTable whole) rules.roles.zipIdx
      (.seed (φ a) rules.roles.length) = rules.descentFaults left (rules.reverseTable left)
        rules.roles.zipIdx (.seed a rules.roles.length) := by
    intro a
    rw [← Group.seed_map]
    exact s.embeds_left.descentFaults_map (getElem?_of_mem_zipIdx rules) _
  have hright : ∀ a, rules.descentFaults whole (rules.reverseTable whole) rules.roles.zipIdx
      (.seed (ψ a) rules.roles.length) = rules.descentFaults right (rules.reverseTable right)
        rules.roles.zipIdx (.seed a rules.roles.length) := by
    intro a
    rw [← Group.seed_map]
    exact s.embeds_right.descentFaults_map (getElem?_of_mem_zipIdx rules) _
  rw [mem_faults_run_iff, mem_faults_run_iff, mem_faults_run_iff, s.anchors_eq hlocal]
  simp only [List.mem_append, List.mem_map, or_and_right, exists_or, exists_exists_and_eq_and,
    hleft, hright]

/-- The parts report what the whole reports. -/
theorem mem_reports_iff (s : rules.Splits left right whole φ ψ) (hlocal : rules.Local)
    {v : Violation} :
    v ∈ rules.reports whole (rules.reverseTable whole)
        (rules.run whole (rules.reverseTable whole)) ↔
      v ∈ rules.reports left (rules.reverseTable left)
        (rules.run left (rules.reverseTable left)) ∨
      v ∈ rules.reports right (rules.reverseTable right)
        (rules.run right (rules.reverseTable right)) := by
  have hreverse : v ∈ rules.roles.flatMap (rules.reverseFaults whole) ↔
      v ∈ rules.roles.flatMap (rules.reverseFaults left) ∨
        v ∈ rules.roles.flatMap (rules.reverseFaults right) := by
    simp only [List.mem_flatMap, s.reverseFaults_eq, List.mem_append, and_or_left, exists_or]
  unfold reports
  rw [s.groupFaults_eq hlocal, s.markFaults_eq, s.anchorFaults_eq hlocal]
  simp only [List.mem_append, hreverse, s.mem_faults_iff hlocal]
  exact iff_of_eq (by ac_rfl)

end Splits
end Rules
end MemberBinding
