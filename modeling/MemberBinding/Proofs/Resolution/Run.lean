import MemberBinding.Proofs.Reports.Collection
import MemberBinding.Proofs.Resolution.Candidates
import MemberBinding.Proofs.Resolution.Linking
import MemberBinding.Resolution.Run

/-!
# A run, anchor by anchor

A step treats every group on its own, so a run gives, for each anchor in order, the groups that
descend from its seed. Main statement: `resolve_eq_ok_iff`, by which a resolution succeeds exactly
when nothing is wrong with the marks, the reverse links, the names, the forward links and the
finished groups.
-/

namespace MemberBinding

namespace Rules

variable (rules : Rules) (ctx : Context) (table : List (List ReverseLink))

/-- What one step makes of one group. -/
def grow (entry : RoleSpec × Nat) (g : Group) : List Group :=
  (rules.splitGroups ctx table entry.1 entry.2 [g]).map
    (·.attach entry.2 (table[entry.2]?.getD []))

/-- The groups that further steps make of one group. -/
def descendants : List (RoleSpec × Nat) → Group → List Group
  | [], g => [g]
  | entry :: entries, g => (rules.grow ctx table entry g).flatMap (descendants entries)

/-- What further steps report on one group and its descendants. -/
def descentFaults : List (RoleSpec × Nat) → Group → List Violation
  | [], _ => []
  | entry :: entries, g =>
    rules.linkFaults ctx entry.1 g ++ (rules.grow ctx table entry g).flatMap (descentFaults entries)

theorem grow_of_not_explodes {spec : RoleSpec} (h : spec.explodes = false) (role : Nat)
    (g : Group) :
    rules.grow ctx table (spec, role) g =
      [(rules.linkRole ctx table spec role g).attach role (table[role]?.getD [])] := by
  simp [grow, splitGroups, h]

theorem grow_of_explodes {spec : RoleSpec} (h : spec.explodes = true) (role : Nat) (g : Group) :
    rules.grow ctx table (spec, role) g =
      ((rules.linkRole ctx table spec role g).explode role).map
        (·.attach role (table[role]?.getD [])) := by
  simp [grow, splitGroups, h]

theorem groups_step (run : Run) (entry : RoleSpec × Nat) :
    (rules.step ctx table run entry).groups = run.groups.flatMap (rules.grow ctx table entry) := by
  obtain ⟨spec, role⟩ := entry
  unfold step grow splitGroups
  dsimp only
  split
  · simp [List.flatMap_map, List.map_flatMap]
  · rw [List.map_map, List.map_eq_flatMap]
    rfl

theorem groups_foldl_step (entries : List (RoleSpec × Nat)) (run : Run) :
    (entries.foldl (rules.step ctx table) run).groups =
      run.groups.flatMap (rules.descendants ctx table entries) := by
  induction entries generalizing run with
  | nil => simp [descendants]
  | cons entry entries ih =>
    rw [List.foldl_cons, ih, groups_step, List.flatMap_assoc]
    rfl

theorem mem_faults_foldl_step_iff {v : Violation} (entries : List (RoleSpec × Nat)) (run : Run) :
    v ∈ (entries.foldl (rules.step ctx table) run).faults ↔
      v ∈ run.faults ∨ ∃ g ∈ run.groups, v ∈ rules.descentFaults ctx table entries g := by
  induction entries generalizing run with
  | nil => simp [descentFaults]
  | cons entry entries ih =>
    obtain ⟨spec, role⟩ := entry
    have hfaults : v ∈ (rules.step ctx table run (spec, role)).faults ↔
        v ∈ run.faults ∨ ∃ g ∈ run.groups, v ∈ rules.linkFaults ctx spec g := by
      simp [step]
    rw [List.foldl_cons, ih, hfaults, groups_step]
    simp only [descentFaults, List.mem_append, List.mem_flatMap]
    constructor
    · intro h
      rcases h with (hr | ⟨g, hg, hv⟩) | ⟨g', ⟨g, hg, hg'⟩, hv⟩
      · exact .inl hr
      · exact .inr ⟨g, hg, .inl hv⟩
      · exact .inr ⟨g, hg, .inr ⟨g', hg', hv⟩⟩
    · intro h
      rcases h with hr | ⟨g, hg, hv | ⟨g', hg', hv⟩⟩
      · exact .inl (.inl hr)
      · exact .inl (.inr ⟨g, hg, hv⟩)
      · exact .inr ⟨g', ⟨g, hg, hg'⟩, hv⟩

theorem exists_linkFaults_of_mem_descentFaults {v : Violation} {entries : List (RoleSpec × Nat)}
    {g : Group} (hv : v ∈ rules.descentFaults ctx table entries g) :
    ∃ entry ∈ entries, ∃ g', v ∈ rules.linkFaults ctx entry.1 g' := by
  induction entries generalizing g with
  | nil => cases hv
  | cons entry entries ih =>
    rcases List.mem_append.1 hv with hlink | hrest
    · exact ⟨entry, List.mem_cons_self, g, hlink⟩
    · obtain ⟨g', -, hrest⟩ := List.mem_flatMap.1 hrest
      obtain ⟨other, hother, hlink⟩ := ih hrest
      exact ⟨other, List.mem_cons_of_mem _ hother, hlink⟩

theorem getElem?_of_mem_zipIdx :
    ∀ entry ∈ rules.roles.zipIdx, rules.roles[entry.2]? = some entry.1 :=
  fun _ hentry => List.mk_mem_zipIdx_iff_getElem?.1 hentry

/-- The groups that an anchor ends up with. -/
def block (anchor : Nat) : List Group :=
  rules.descendants ctx table rules.roles.zipIdx (.seed anchor rules.roles.length)

theorem groups_run : (rules.run ctx table).groups =
    (rules.anchors ctx table).flatMap (rules.block ctx table) := by
  rw [run, groups_foldl_step, seeds, List.flatMap_map]
  rfl

theorem mem_faults_run_iff {v : Violation} : v ∈ (rules.run ctx table).faults ↔
    ∃ a ∈ rules.anchors ctx table,
      v ∈ rules.descentFaults ctx table rules.roles.zipIdx (.seed a rules.roles.length) := by
  rw [run, mem_faults_foldl_step_iff, seeds]
  simp only [List.not_mem_nil, false_or, List.mem_map]
  constructor
  · intro h
    obtain ⟨_, ⟨a, ha, rfl⟩, hv⟩ := h
    exact ⟨a, ha, hv⟩
  · intro h
    obtain ⟨a, ha, hv⟩ := h
    exact ⟨_, ⟨a, ha, rfl⟩, hv⟩

variable {rules ctx table}

/-- While groups grow, only forward links are reported. -/
theorem exists_linkFaults_of_mem_faults_run {v : Violation}
    (hv : v ∈ (rules.run ctx table).faults) :
    ∃ spec ∈ rules.roles, ∃ g, v ∈ rules.linkFaults ctx spec g := by
  obtain ⟨a, -, hv⟩ := (rules.mem_faults_run_iff ctx table).1 hv
  obtain ⟨entry, hentry, g, hv⟩ := rules.exists_linkFaults_of_mem_descentFaults ctx table hv
  exact ⟨entry.1, List.fst_mem_of_mem_zipIdx hentry, g, hv⟩

/-- All that a run reports, pass by pass and anchor by anchor. -/
theorem mem_reports_iff {v : Violation} :
    v ∈ rules.reports ctx table (rules.run ctx table) ↔
      v ∈ rules.markFaults ctx ∨ (∃ spec ∈ rules.roles, v ∈ rules.reverseFaults ctx spec) ∨
      v ∈ rules.anchorFaults ctx table ∨
      (∃ a ∈ rules.anchors ctx table,
        v ∈ rules.descentFaults ctx table rules.roles.zipIdx (.seed a rules.roles.length)) ∨
      ∃ a ∈ rules.anchors ctx table, ∃ g ∈ rules.block ctx table a,
        v ∈ rules.groupFaults ctx g := by
  have hgroups : (∃ g ∈ (rules.run ctx table).groups, v ∈ rules.groupFaults ctx g) ↔
      ∃ a ∈ rules.anchors ctx table, ∃ g ∈ rules.block ctx table a,
        v ∈ rules.groupFaults ctx g := by
    simp only [groups_run, List.mem_flatMap]
    constructor
    · intro h
      obtain ⟨g, ⟨a, ha, hg⟩, hv⟩ := h
      exact ⟨a, ha, g, hg, hv⟩
    · intro h
      obtain ⟨a, ha, g, hg, hv⟩ := h
      exact ⟨g, ⟨a, ha, hg⟩, hv⟩
  simp only [reports, List.mem_append, List.mem_flatMap, mem_faults_run_iff, hgroups, or_assoc]

theorem resolve_eq_ok_iff {groups : List Group} :
    rules.resolve ctx = .ok groups ↔
      rules.markFaults ctx = [] ∧ (∀ spec ∈ rules.roles, rules.reverseFaults ctx spec = []) ∧
      rules.anchorFaults ctx (rules.reverseTable ctx) = [] ∧
      (∀ a ∈ rules.anchors ctx (rules.reverseTable ctx), rules.descentFaults ctx
        (rules.reverseTable ctx) rules.roles.zipIdx (.seed a rules.roles.length) = []) ∧
      (∀ a ∈ rules.anchors ctx (rules.reverseTable ctx),
        ∀ g ∈ rules.block ctx (rules.reverseTable ctx) a, rules.groupFaults ctx g = []) ∧
      groups = (rules.anchors ctx (rules.reverseTable ctx)).flatMap
        (rules.block ctx (rules.reverseTable ctx)) := by
  have hgroups : (∀ g ∈ (rules.run ctx (rules.reverseTable ctx)).groups,
      rules.groupFaults ctx g = []) ↔ ∀ a ∈ rules.anchors ctx (rules.reverseTable ctx),
        ∀ g ∈ rules.block ctx (rules.reverseTable ctx) a, rules.groupFaults ctx g = [] := by
    simp only [groups_run, List.mem_flatMap]
    exact ⟨fun h a ha g hg => h g ⟨a, ha, hg⟩, fun h g ⟨a, ha, hg⟩ => h a ha g hg⟩
  have hfaults : (rules.run ctx (rules.reverseTable ctx)).faults = [] ↔
      ∀ a ∈ rules.anchors ctx (rules.reverseTable ctx), rules.descentFaults ctx
        (rules.reverseTable ctx) rules.roles.zipIdx (.seed a rules.roles.length) = [] := by
    simp only [List.eq_nil_iff_forall_not_mem, mem_faults_run_iff, not_exists, not_and]
    exact ⟨fun h a ha v => h v a ha, fun h v a ha => h a ha v⟩
  simp only [resolve, Diagnostics.finish_ofList_eq_ok_iff, reports, List.append_eq_nil_iff,
    List.flatMap_eq_nil_iff, hfaults, hgroups, and_assoc]
  rw [groups_run]
  simp only [eq_comm (a := groups)]

/-! ## Marks -/

theorem markFaultsOf_eq_nil_iff {m : Member} :
    rules.markFaultsOf m = [] ↔ (m.kind ∈ rules.memberKinds → m.isExcluded = true →
      m.isIncluded = false ∧ ∀ kind ∈ rules.linkKinds, m.linksOf kind = []) := by
  have hlinks : (m.links.filter fun l => rules.linkKinds.contains l.kind) = [] ↔
      ∀ kind ∈ rules.linkKinds, m.linksOf kind = [] := by
    simp only [Member.linksOf, List.filter_eq_nil_iff, List.contains_iff_mem, beq_iff_eq]
    constructor
    · rintro h kind hk l hl rfl
      exact h l hl hk
    · intro h l hl hk
      exact h l.kind hk l hl rfl
  unfold markFaultsOf
  split
  · rename_i h
    rw [Bool.and_eq_true, List.contains_iff_mem] at h
    rw [List.append_eq_nil_iff, List.map_eq_nil_iff, hlinks]
    cases hi : m.isIncluded <;> simp [h.1, h.2]
  · rename_i h
    rw [Bool.and_eq_true, List.contains_iff_mem] at h
    simp only [true_iff]
    exact fun hk hx => absurd ⟨hk, hx⟩ h

theorem markFaults_eq_nil_iff :
    rules.markFaults ctx = [] ↔ ∀ id < ctx.snapshot.members.length,
      (ctx.snapshot.member id).kind ∈ rules.memberKinds →
      (ctx.snapshot.member id).isExcluded = true →
      (ctx.snapshot.member id).isIncluded = false ∧
        ∀ kind ∈ rules.linkKinds, (ctx.snapshot.member id).linksOf kind = [] := by
  simp only [markFaults, List.flatMap_eq_nil_iff, markFaultsOf_eq_nil_iff]
  constructor
  · exact fun h id hlt => h _ (Snapshot.member_mem hlt)
  · intro h m hm
    obtain ⟨id, hlt, rfl⟩ := Snapshot.exists_member_eq hm
    exact h id hlt

/-! ## Checks of a finished group -/

theorem mem_multiplicityFaults_iff {g : Group} {v : Violation} :
    v ∈ rules.multiplicityFaults ctx g ↔ ∃ spec role, rules.roles[role]? = some spec ∧
      ∃ source, g.sourceOf spec = some source ∧ 2 ≤ (g.candidates role).length ∧
        v = .multiConnect (rules.source spec).label (ctx.snapshot.member source).name spec.label
          ((g.candidates role).map fun id => (ctx.snapshot.member id).name) := by
  simp only [multiplicityFaults, List.mem_flatMap, Prod.exists, List.mk_mem_zipIdx_iff_getElem?]
  refine exists_congr fun spec => exists_congr fun role => and_congr_right fun _ => ?_
  cases g.sourceOf spec with
  | none => simp
  | some source =>
    simp only [Option.some.injEq, exists_eq_left']
    by_cases hlen : (g.candidates role).length < 2
    · simp [hlen, Nat.not_le.2 hlen]
    · simp [hlen, Nat.not_lt.1 hlen]

theorem multiplicityFaults_eq_nil_iff {g : Group} :
    rules.multiplicityFaults ctx g = [] ↔ ∀ spec role, rules.roles[role]? = some spec →
      ∀ source, g.sourceOf spec = some source → (g.candidates role).length < 2 := by
  simp only [List.eq_nil_iff_forall_not_mem, mem_multiplicityFaults_iff]
  constructor
  · intro h spec role hspec source hsource
    apply Nat.lt_of_not_le
    intro hlen
    exact h _ ⟨spec, role, hspec, source, hsource, hlen, rfl⟩
  · intro h v hv
    obtain ⟨spec, role, hspec, source, hsource, hlen, -⟩ := hv
    exact Nat.not_le.2 (h spec role hspec source hsource) hlen

theorem mem_requiredFaults_iff {g : Group} {v : Violation} :
    v ∈ rules.requiredFaults ctx g ↔ ∃ spec role, rules.roles[role]? = some spec ∧
      ∃ source, g.sourceOf spec = some source ∧ spec.required = true ∧ g.candidates role = [] ∧
        (ctx.snapshot.member source).requiresExplicitLink = true ∧
        v = .missingRequiredLink spec.label (rules.source spec).label
          (ctx.snapshot.member source).name := by
  simp only [requiredFaults, List.mem_flatMap, Prod.exists, List.mk_mem_zipIdx_iff_getElem?]
  refine exists_congr fun spec => exists_congr fun role => and_congr_right fun _ => ?_
  cases g.sourceOf spec with
  | none => simp
  | some source => simp [and_assoc]

theorem requiredFaults_eq_nil_iff {g : Group} :
    rules.requiredFaults ctx g = [] ↔ ∀ spec role, rules.roles[role]? = some spec →
      ∀ source, g.sourceOf spec = some source → spec.required = true →
      (ctx.snapshot.member source).requiresExplicitLink = true → g.candidates role ≠ [] := by
  simp only [List.eq_nil_iff_forall_not_mem (l := rules.requiredFaults ctx g),
    mem_requiredFaults_iff]
  constructor
  · intro h spec role hspec source hsource hrequired hx hnil
    exact h _ ⟨spec, role, hspec, source, hsource, hrequired, hnil, hx, rfl⟩
  · intro h v hv
    obtain ⟨spec, role, hspec, source, hsource, hrequired, hnil, hx, -⟩ := hv
    exact h spec role hspec source hsource hrequired hx hnil

end Rules
end MemberBinding
