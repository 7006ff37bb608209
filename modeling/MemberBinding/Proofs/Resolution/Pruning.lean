import MemberBinding.Proofs.Resolution.EmbeddedRun
import MemberBinding.Proofs.Snapshot.Pruning

/-!
# Resolution without members that are not available

Members that are excluded, or of a kind that the rules do not ask for, own no reverse links that
count, are no anchors, and are found by no name. They only bear on a link that names them, which is
then reported. As long as no link names a member that is missing, or nothing was reported, a
resolution takes the same steps without them. Main statements: `foldl_step_map` and `resolve_eq`.
-/

namespace MemberBinding

/-- Two resolutions that are alike, but that the second is of a snapshot with more members, none of
them available for any place in a binding. -/
structure Rules.Thinned (rules : Rules) (part whole : Context) (deleted : Nat → Bool)
    (φ : Nat → Nat) : Prop extends part.snapshot.Thinned whole.snapshot deleted φ where
  config_eq : whole.config = part.config
  mode_eq : whole.mode = part.mode
  unavailable : ∀ kind ∈ rules.memberKinds, ∀ id, deleted id = true →
    ¬whole.snapshot.Available kind id

/-- The name leads to the same member, or is reported alike. -/
def Context.SameTarget (part whole : Context) (φ : Nat → Nat) (kind : MemberKind) (name : String) :
    Prop :=
  whole.target kind name = (part.target kind name).map φ

/-- No link of the part names a member that it lacks. -/
def Rules.LinksKnown (rules : Rules) (part whole : Context) (φ : Nat → Nat) : Prop :=
  ∀ id, ∀ l ∈ (part.snapshot.member id).links, ∀ name ∈ l.names, ∀ kind ∈ rules.memberKinds,
    part.SameTarget whole φ kind name

namespace Rules

theorem kind_mem_memberKinds {rules : Rules} {spec : RoleSpec} (h : spec ∈ rules.roles) :
    spec.kind ∈ rules.memberKinds :=
  List.mem_cons_of_mem _ (List.mem_map_of_mem h)

theorem source_kind_mem_memberKinds (rules : Rules) (spec : RoleSpec) :
    (rules.source spec).kind ∈ rules.memberKinds := by
  unfold source
  split
  · exact List.mem_cons_self
  · rename_i i _
    cases hother : rules.roles[i]? with
    | none => exact List.mem_cons_self
    | some other => exact kind_mem_memberKinds (List.mem_of_getElem? hother)

end Rules

namespace Rules.Thinned

variable {part whole : Context} {deleted : Nat → Bool} {φ : Nat → Nat} {rules : Rules}
  {spec : RoleSpec}

theorem places (h : rules.Thinned part whole deleted φ) : part.Places whole φ :=
  ⟨h.config_eq, h.mode_eq, h.injective, h.member_eq⟩

/-- Only a member that is not available can have shared the name. -/
theorem sameTarget_of_designates (h : rules.Thinned part whole deleted φ) {kind : MemberKind}
    (hkind : kind ∈ rules.memberKinds) {name : String} {id : Nat}
    (hid : whole.snapshot.Designates kind name id) : part.SameTarget whole φ kind name := by
  have hkept : deleted id = false :=
    Bool.eq_false_of_not_eq_true fun hdeleted =>
      h.unavailable kind hkind id hdeleted hid.toAvailable
  obtain ⟨hnamed, -⟩ := Snapshot.designates_iff.1 hid
  apply h.places.target_map
  rw [h.named_map, hnamed]
  simp [hkept]

theorem namedCandidates_eq (h : rules.Thinned part whole deleted φ) (hspec : spec ∈ rules.roles)
    (source : Nat) :
    rules.namedCandidates whole spec (φ source) =
      (rules.namedCandidates part spec source).map φ := by
  unfold Rules.namedCandidates
  rw [Context.member_eq, Context.member_eq, h.member_eq, h.config_eq]
  cases part.config.conventions.convert (part.snapshot.member source).name
      (rules.source spec).naming spec.naming with
  | error fault => rfl
  | ok name =>
    dsimp only
    rw [Context.lookup_index, Context.lookup_index]
    exact h.available_named_eq (h.unavailable _ (kind_mem_memberKinds hspec)) name

/-! ## Reverse links -/

theorem sameTarget_of_reverse (h : rules.Thinned part whole deleted φ)
    (hsafe : rules.LinksKnown part whole φ ∨ rules.reverseFaults whole spec = []) {id : Nat}
    (hid : part.snapshot.Available spec.kind id) {l : Link}
    (hl : l ∈ (part.snapshot.member id).linksOf spec.reverse) {name : String}
    (hname : name ∈ l.names) : part.SameTarget whole φ (rules.source spec).kind name := by
  rcases hsafe with hknown | hnil
  · exact hknown id l (List.mem_filter.1 hl).1 name hname _ (rules.source_kind_mem_memberKinds spec)
  · have hl' : l ∈ (whole.snapshot.member (φ id)).linksOf spec.reverse := by rwa [h.member_eq]
    obtain ⟨first, second, -, hresolves, -⟩ :=
      Rules.reverseFaults_eq_nil_iff.1 hnil (φ id) (h.available hid) l hl'
    obtain ⟨target, htarget⟩ :=
      (Snapshot.exists_resolves_iff.1 ⟨second, hresolves⟩).2 name hname
    exact h.sameTarget_of_designates (rules.source_kind_mem_memberKinds spec) htarget

theorem reverseOutcomes_eq (h : rules.Thinned part whole deleted φ) (hspec : spec ∈ rules.roles)
    (hsafe : rules.LinksKnown part whole φ ∨ rules.reverseFaults whole spec = []) :
    rules.reverseOutcomes whole spec =
      (rules.reverseOutcomes part spec).map (·.map (ReverseLink.map φ)) := by
  unfold Rules.reverseOutcomes
  rw [h.available_ofKind_eq (h.unavailable _ (kind_mem_memberKinds hspec)), List.flatMap_map,
    List.map_flatMap]
  apply List.flatMap_congr
  intro owner howner
  obtain ⟨m, id⟩ := owner
  obtain ⟨hof, hexcluded⟩ := List.mem_filter.1 howner
  obtain ⟨hlt, rfl, hkind⟩ := Snapshot.mem_ofKind_iff_member.1 hof
  rw [List.map_map]
  apply List.map_congr_left
  intro l hl
  apply h.places.reverseLink_map
  intro name hname
  exact h.sameTarget_of_reverse hsafe ⟨hlt, hkind, by simpa using hexcluded⟩ hl hname

theorem reverseFaults_eq (h : rules.Thinned part whole deleted φ) (hspec : spec ∈ rules.roles)
    (hsafe : rules.LinksKnown part whole φ ∨ rules.reverseFaults whole spec = []) :
    rules.reverseFaults whole spec = rules.reverseFaults part spec := by
  unfold Rules.reverseFaults
  rw [h.reverseOutcomes_eq hspec hsafe, List.flatMap_map]
  exact List.flatMap_congr fun o _ => congrArg List.flatten (reported_map _ o)

theorem tracks (h : rules.Thinned part whole deleted φ) (hsafe : rules.LinksKnown part whole φ ∨
    ∀ spec ∈ rules.roles, rules.reverseFaults whole spec = []) :
    rules.Tracks part whole φ where
  toPlaces := h.places
  namedCandidates_eq _ hspec source := h.namedCandidates_eq hspec source
  links_eq spec hspec source := by
    unfold Rules.reverseLinks
    rw [h.reverseOutcomes_eq hspec (hsafe.imp_right fun hnil => hnil spec hspec),
      filterMap_toOption_map, ReverseLink.filter_source_map h.injective]

/-! ## Forward links -/

theorem forwardAgree (h : rules.Thinned part whole deleted φ) (hspec : spec ∈ rules.roles)
    {g : Group}
    (hsafe : rules.LinksKnown part whole φ ∨ rules.linkFaults whole spec (g.map φ) = []) :
    rules.ForwardAgree part whole φ spec g := by
  intro source hsource
  apply h.places.forwardOutcomes_map
  intro l hl
  rcases hsafe with hknown | hnil
  · exact hknown source l (List.mem_filter.1 hl).1 l.name (by simp [Link.names]) _
      (kind_mem_memberKinds hspec)
  · have hsource' : (g.map φ).sourceOf spec = some (φ source) := by
      rw [Group.sourceOf_map, hsource]
      rfl
    have hl' : l ∈ (whole.snapshot.member (φ source)).linksOf spec.forward := by
      rwa [h.member_eq]
    obtain ⟨target, htarget⟩ :=
      Rules.linkFaults_eq_nil_iff.1 hnil (φ source) hsource' l hl'
    exact h.sameTarget_of_designates (kind_mem_memberKinds hspec) htarget

end Rules.Thinned

/-! ## Anchors -/

namespace Rules

variable {rules : Rules} {part whole : Context} {deleted : Nat → Bool} {φ : Nat → Nat}

theorem verdict_of_isExcluded {ctx : Context} {table : List (List ReverseLink)} {e : Member × Nat}
    (h : e.1.isExcluded = true) : rules.verdict ctx table e = .ignored := by
  simp [verdict, h]

theorem anchors_eq_available (rules : Rules) (ctx : Context) (table : List (List ReverseLink)) :
    rules.anchors ctx table =
      (((ctx.snapshot.ofKind rules.anchor.kind).filter fun e => !e.1.isExcluded).filter fun e =>
        rules.verdict ctx table e == .selected).map (·.2) := by
  unfold anchors
  rw [List.filter_filter]
  congr 1
  apply List.filter_congr
  intro e _
  cases he : e.1.isExcluded with
  | false => simp
  | true => simp [verdict_of_isExcluded he]

theorem anchorFaults_eq_available (rules : Rules) (ctx : Context)
    (table : List (List ReverseLink)) :
    rules.anchorFaults ctx table =
      ((ctx.snapshot.ofKind rules.anchor.kind).filter fun e => !e.1.isExcluded).filterMap fun e =>
        (rules.verdict ctx table e).violation? := by
  unfold anchorFaults
  rw [List.filterMap_filter]
  apply List.filterMap_congr
  intro e _
  cases he : e.1.isExcluded with
  | false => simp
  | true => simp [verdict_of_isExcluded he, Verdict.violation?]

theorem Tracks.anchors_eq (t : rules.Tracks part whole φ) (h : rules.Thinned part whole deleted φ)
    (hlocal : rules.Local) :
    rules.anchors whole (rules.reverseTable whole) =
      (rules.anchors part (rules.reverseTable part)).map φ := by
  rw [anchors_eq_available, anchors_eq_available,
    h.available_ofKind_eq (h.unavailable _ List.mem_cons_self), List.filter_map, List.map_map,
    List.map_map]
  exact congrArg (List.map (φ ∘ Prod.snd)) (List.filter_congr fun e he =>
    congrArg (· == Verdict.selected) (t.verdict_map hlocal (List.mem_filter.1 he).1))

theorem Tracks.anchorFaults_eq (t : rules.Tracks part whole φ)
    (h : rules.Thinned part whole deleted φ) (hlocal : rules.Local) :
    rules.anchorFaults whole (rules.reverseTable whole) =
      rules.anchorFaults part (rules.reverseTable part) := by
  rw [anchorFaults_eq_available, anchorFaults_eq_available,
    h.available_ofKind_eq (h.unavailable _ List.mem_cons_self), List.filterMap_map]
  exact List.filterMap_congr fun e he =>
    congrArg Verdict.violation? (t.verdict_map hlocal (List.mem_filter.1 he).1)

/-! ## Runs -/

/-- As far as nothing is reported, or no link names a missing member, every step does the same. -/
theorem Tracks.foldl_step_map (t : rules.Tracks part whole φ)
    (h : rules.Thinned part whole deleted φ) {entries : List (RoleSpec × Nat)}
    (hentries : ∀ entry ∈ entries, rules.roles[entry.2]? = some entry.1) {run run' : Run}
    (hgroups : run'.groups = run.groups.map (·.map φ)) (hfaults : run'.faults = run.faults)
    (hsafe : rules.LinksKnown part whole φ ∨
      (entries.foldl (rules.step whole (rules.reverseTable whole)) run').faults = []) :
    (entries.foldl (rules.step whole (rules.reverseTable whole)) run').groups =
        (entries.foldl (rules.step part (rules.reverseTable part)) run).groups.map (·.map φ) ∧
      (entries.foldl (rules.step whole (rules.reverseTable whole)) run').faults =
        (entries.foldl (rules.step part (rules.reverseTable part)) run).faults := by
  induction entries generalizing run run' with
  | nil => exact ⟨hgroups, hfaults⟩
  | cons entry entries ih =>
    obtain ⟨spec, role⟩ := entry
    -- Faults are never taken back, so where the run ends with none this step has none either.
    have hagree : ∀ g ∈ run.groups, rules.ForwardAgree part whole φ spec g := by
      intro g hg
      apply h.forwardAgree (List.mem_of_getElem? (hentries _ List.mem_cons_self))
      refine hsafe.imp_right fun hnil => ?_
      rw [List.eq_nil_iff_forall_not_mem] at hnil ⊢
      intro v hv
      refine hnil v ((mem_faults_foldl_step_iff _ _ _ _ _).2 (.inr ⟨g.map φ, ?_, ?_⟩))
      · rw [hgroups]
        exact List.mem_map_of_mem hg
      · exact List.mem_append_left _ hv
    apply ih (fun entry hentry => hentries entry (List.mem_cons_of_mem _ hentry)) ?_ ?_ hsafe
    · rw [groups_step, groups_step, hgroups, List.flatMap_map, List.map_flatMap]
      exact List.flatMap_congr fun g hg => t.grow_map (hentries _ List.mem_cons_self) (hagree g hg)
    · change run'.faults ++ run'.groups.flatMap (rules.linkFaults whole spec) =
        run.faults ++ run.groups.flatMap (rules.linkFaults part spec)
      rw [hfaults, hgroups, List.flatMap_map]
      congr 1
      exact List.flatMap_congr fun g hg => linkFaults_map (hagree g hg)

theorem Tracks.run_map (t : rules.Tracks part whole φ) (h : rules.Thinned part whole deleted φ)
    (hlocal : rules.Local) (hsafe : rules.LinksKnown part whole φ ∨
      (rules.run whole (rules.reverseTable whole)).faults = []) :
    (rules.run whole (rules.reverseTable whole)).groups =
        (rules.run part (rules.reverseTable part)).groups.map (·.map φ) ∧
      (rules.run whole (rules.reverseTable whole)).faults =
        (rules.run part (rules.reverseTable part)).faults := by
  refine t.foldl_step_map h (getElem?_of_mem_zipIdx rules) ?_ rfl hsafe
  unfold seeds
  rw [t.anchors_eq h hlocal, List.map_map, List.map_map]
  exact List.map_congr_left fun anchor _ => (Group.seed_map φ anchor _).symm

end Rules

/-! ## Outcomes -/

theorem Diagnostics.finish_map {α β : Type} (f : α → β) (d : Diagnostics) (kind : BindingKind)
    (result : α) : (d.finish kind result).map f = d.finish kind (f result) := by
  unfold finish
  split <;> rfl

namespace Rules.Thinned

variable {part whole : Context} {deleted : Nat → Bool} {φ : Nat → Nat} {rules : Rules}

theorem reports_eq (h : rules.Thinned part whole deleted φ) (hlocal : rules.Local)
    (hmarks : ∀ id, deleted id = true → rules.markFaultsOf (whole.snapshot.member id) = [])
    (hsafe : rules.LinksKnown part whole φ ∨ rules.reports whole (rules.reverseTable whole)
      (rules.run whole (rules.reverseTable whole)) = []) :
    (rules.run whole (rules.reverseTable whole)).groups =
        (rules.run part (rules.reverseTable part)).groups.map (·.map φ) ∧
      rules.reports whole (rules.reverseTable whole) (rules.run whole (rules.reverseTable whole)) =
        rules.reports part (rules.reverseTable part)
          (rules.run part (rules.reverseTable part)) := by
  simp only [Rules.reports, List.append_eq_nil_iff, List.flatMap_eq_nil_iff, and_assoc] at hsafe
  have hreverse : rules.LinksKnown part whole φ ∨
      ∀ spec ∈ rules.roles, rules.reverseFaults whole spec = [] := hsafe.imp_right (·.2.1)
  have t := h.tracks hreverse
  obtain ⟨hgroups, hfaults⟩ := t.run_map h hlocal (hsafe.imp_right (·.2.2.2.1))
  refine ⟨hgroups, ?_⟩
  have hmarkFaults : rules.markFaults whole = rules.markFaults part :=
    h.flatMap_members_eq hmarks
  have hreverseFaults : rules.roles.flatMap (rules.reverseFaults whole) =
      rules.roles.flatMap (rules.reverseFaults part) :=
    List.flatMap_congr fun spec hspec =>
      h.reverseFaults_eq hspec (hreverse.imp_right fun hnil => hnil spec hspec)
  have hgroupFaults : (rules.run whole (rules.reverseTable whole)).groups.flatMap
      (rules.groupFaults whole) = (rules.run part (rules.reverseTable part)).groups.flatMap
        (rules.groupFaults part) := by
    rw [hgroups, List.flatMap_map]
    exact List.flatMap_congr fun g _ => t.groupFaults_map hlocal g
  unfold Rules.reports
  rw [hmarkFaults, hreverseFaults, t.anchorFaults_eq h hlocal, hfaults, hgroupFaults]

theorem resolve_eq (h : rules.Thinned part whole deleted φ) (hlocal : rules.Local)
    (hmarks : ∀ id, deleted id = true → rules.markFaultsOf (whole.snapshot.member id) = [])
    (hsafe : rules.LinksKnown part whole φ ∨ rules.reports whole (rules.reverseTable whole)
      (rules.run whole (rules.reverseTable whole)) = []) :
    rules.resolve whole = (rules.resolve part).map (·.map (·.map φ)) := by
  obtain ⟨hgroups, hreports⟩ := h.reports_eq hlocal hmarks hsafe
  unfold Rules.resolve
  dsimp only
  rw [Diagnostics.finish_map, hreports, hgroups]

end Rules.Thinned
end MemberBinding
