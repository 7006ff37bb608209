import MemberBinding.Proofs.Resolution.Embedding
import MemberBinding.Proofs.Resolution.Run

/-!
# The groups of an embedded anchor

Where names and reverse links lead to the same members, an anchor of a part finds the same
candidates in the whole as in the part, as far as its forward links agree. A step then makes of its
group what it makes of it in the part, and so does a run. Main statements: `found_map`, `grow_map`,
`block_map` and `descentFaults_map`.
-/

namespace MemberBinding

/-- Rules that judge members by what they are, wherever they stand. -/
structure Rules.Local (rules : Rules) : Prop where
  isCandidate_eq : ∀ {ctx ctx' : Context}, ctx'.config = ctx.config → ctx'.mode = ctx.mode →
    rules.isCandidate ctx' = rules.isCandidate ctx
  check_map : ∀ {ctx ctx' : Context} {φ : Nat → Nat}, ctx'.config = ctx.config →
    (∀ id, ctx'.snapshot.member (φ id) = ctx.snapshot.member id) →
    ∀ g : Group, rules.check ctx' (g.map φ) = rules.check ctx g

/-- The links of the whole that point into the part are the links of the part. -/
structure Rules.Embeds (rules : Rules) (part whole : Context) (φ : Nat → Nat) : Prop
    extends part.Embeds whole (rules.lookups part.config.conventions part.snapshot) φ where
  links_eq : ∀ spec source,
    (rules.reverseLinks whole spec).filter (·.source == φ source) =
      ((rules.reverseLinks part spec).filter (·.source == source)).map (·.map φ)

/-- What the names of the part and its reverse links lead to is the same in the whole. -/
structure Rules.Tracks (rules : Rules) (part whole : Context) (φ : Nat → Nat) : Prop
    extends part.Places whole φ where
  namedCandidates_eq : ∀ spec ∈ rules.roles, ∀ source,
    rules.namedCandidates whole spec (φ source) = (rules.namedCandidates part spec source).map φ
  links_eq : ∀ spec ∈ rules.roles, ∀ source,
    (rules.reverseLinks whole spec).filter (·.source == φ source) =
      ((rules.reverseLinks part spec).filter (·.source == source)).map (·.map φ)

/-- What the forward links of the source of a group lead to is the same in the whole. -/
def Rules.ForwardAgree (rules : Rules) (part whole : Context) (φ : Nat → Nat) (spec : RoleSpec)
    (g : Group) : Prop :=
  ∀ source, g.sourceOf spec = some source → rules.forwardOutcomes whole spec (φ source) =
    (rules.forwardOutcomes part spec source).map (·.map φ)

namespace Rules.Tracks

variable {rules : Rules} {part whole : Context} {φ : Nat → Nat} {spec : RoleSpec}
  {role source : Nat}

theorem exists_link_iff (t : rules.Tracks part whole φ) (hspec : spec ∈ rules.roles)
    {P : ReverseLink → Prop} (hP : ∀ r, P (r.map φ) ↔ P r) :
    (∃ r ∈ rules.reverseLinks whole spec, r.source = φ source ∧ P r) ↔
      ∃ r ∈ rules.reverseLinks part spec, r.source = source ∧ P r := by
  have hmem : ∀ r, r ∈ rules.reverseLinks whole spec ∧ r.source = φ source ↔
      ∃ q, (q ∈ rules.reverseLinks part spec ∧ q.source = source) ∧ q.map φ = r := by
    intro r
    have hfilter : r ∈ (rules.reverseLinks whole spec).filter (·.source == φ source) ↔
        r ∈ ((rules.reverseLinks part spec).filter (·.source == source)).map (·.map φ) := by
      rw [t.links_eq spec hspec]
    simpa only [List.mem_filter, List.mem_map, beq_iff_eq] using hfilter
  constructor
  · intro h
    obtain ⟨r, hr, hsource, h⟩ := h
    obtain ⟨q, hq, rfl⟩ := (hmem r).1 ⟨hr, hsource⟩
    exact ⟨q, hq.1, hq.2, (hP q).1 h⟩
  · intro h
    obtain ⟨q, hq, hsource, h⟩ := h
    obtain ⟨hr, hsource⟩ := (hmem _).2 ⟨q, ⟨hq, hsource⟩, rfl⟩
    exact ⟨_, hr, hsource, (hP q).2 h⟩

theorem exists_source_iff (t : rules.Tracks part whole φ) (hspec : spec ∈ rules.roles) :
    (∃ r ∈ rules.reverseLinks whole spec, r.source = φ source) ↔
      ∃ r ∈ rules.reverseLinks part spec, r.source = source := by
  have h : (∃ r ∈ rules.reverseLinks whole spec, r.source = φ source ∧ True) ↔
      ∃ r ∈ rules.reverseLinks part spec, r.source = source ∧ True :=
    t.exists_link_iff hspec fun _ => Iff.rfl
  simpa only [and_true] using h

theorem linked_iff (t : rules.Tracks part whole φ) (anchor : Nat) :
    rules.Linked whole (φ anchor) ↔ rules.Linked part anchor := by
  unfold Linked
  rw [t.member_eq]
  refine exists_congr fun spec => and_congr_right fun hspec => and_congr_right fun _ => ?_
  rw [t.exists_source_iff hspec]

theorem explicit_iff (t : rules.Tracks part whole φ) (hspec : spec ∈ rules.roles) :
    rules.Explicit whole spec role (φ source) ↔ rules.Explicit part spec role source := by
  have hcompanion : ∀ r : ReverseLink, (r.map φ).companion.map (·.1) = some role ↔
      r.companion.map (·.1) = some role := by
    intro r
    rw [ReverseLink.companion_map]
    cases r.companion <;> rfl
  have hlinks : (∃ other ∈ rules.roles, ∃ r ∈ rules.reverseLinks whole other,
      r.source = φ source ∧ r.companion.map (·.1) = some role) ↔
      ∃ other ∈ rules.roles, ∃ r ∈ rules.reverseLinks part other, r.source = source ∧
        r.companion.map (·.1) = some role :=
    exists_congr fun other => and_congr_right fun hother =>
      t.exists_link_iff hother (P := fun r => r.companion.map (·.1) = some role) hcompanion
  unfold Explicit
  rw [t.member_eq, t.exists_source_iff hspec, hlinks]

theorem verdict_map (t : rules.Tracks part whole φ) (hlocal : rules.Local) {kind : MemberKind}
    {entry : Member × Nat} (h : entry ∈ part.snapshot.ofKind kind) :
    rules.verdict whole (rules.reverseTable whole) (Prod.map id φ entry) =
      rules.verdict part (rules.reverseTable part) entry := by
  obtain ⟨m, anchor⟩ := entry
  obtain rfl := Snapshot.member_of_mem_ofKind h
  have hlinked : rules.isLinked (rules.reverseTable whole)
        (part.snapshot.member anchor, φ anchor) =
      rules.isLinked (rules.reverseTable part) (part.snapshot.member anchor, anchor) := by
    rw [Bool.eq_iff_iff, isLinked_iff, ← t.member_eq, isLinked_iff]
    exact t.linked_iff anchor
  unfold verdict
  dsimp only [Prod.map, id]
  rw [hlinked, hlocal.isCandidate_eq t.config_eq t.mode_eq, t.mode_eq, t.config_eq]

/-! ## Candidates -/

theorem searchesByName_map (t : rules.Tracks part whole φ) (h : rules.roles[role]? = some spec)
    (source : Nat) :
    searchesByName whole (rules.reverseTable whole) spec role (φ source) =
      searchesByName part (rules.reverseTable part) spec role source := by
  rw [Bool.eq_iff_iff, searchesByName_iff h, searchesByName_iff h, t.member_eq, t.config_eq]
  unfold Config.Searches
  rw [t.explicit_iff (List.mem_of_getElem? h)]

theorem reverseOwners_map (t : rules.Tracks part whole φ) (h : rules.roles[role]? = some spec)
    (source : Nat) :
    reverseOwners (rules.reverseTable whole) role (φ source) =
      (reverseOwners (rules.reverseTable part) role source).map φ := by
  unfold reverseOwners
  rw [getElem?_reverseTable h, getElem?_reverseTable h, t.links_eq spec (List.mem_of_getElem? h),
    List.map_map, List.map_map]
  rfl

theorem found_map (t : rules.Tracks part whole φ) (h : rules.roles[role]? = some spec)
    (hforward : rules.forwardOutcomes whole spec (φ source) =
      (rules.forwardOutcomes part spec source).map (·.map φ)) :
    rules.found whole (rules.reverseTable whole) spec role (φ source) =
      (rules.found part (rules.reverseTable part) spec role source).map φ := by
  unfold found
  rw [t.searchesByName_map h, t.reverseOwners_map h, hforward,
    t.namedCandidates_eq spec (List.mem_of_getElem? h), filterMap_toOption_map]
  split <;> simp

/-! ## Steps -/

theorem linkRole_map (t : rules.Tracks part whole φ) (h : rules.roles[role]? = some spec)
    {g : Group} (hg : rules.ForwardAgree part whole φ spec g) :
    rules.linkRole whole (rules.reverseTable whole) spec role (g.map φ) =
      (rules.linkRole part (rules.reverseTable part) spec role g).map φ := by
  unfold linkRole
  rw [Group.sourceOf_map]
  cases hsource : g.sourceOf spec with
  | none => rfl
  | some source =>
    dsimp only [Option.map]
    rw [t.found_map h (hg source hsource), Group.addAll_map t.injective]

theorem attach_map (t : rules.Tracks part whole φ) (h : rules.roles[role]? = some spec)
    (g : Group) :
    (g.map φ).attach role ((rules.reverseTable whole)[role]?.getD []) =
      (g.attach role ((rules.reverseTable part)[role]?.getD [])).map φ := by
  -- Only links to the group's own anchor count, and in the whole these are the links of the part.
  rw [getElem?_reverseTable h, getElem?_reverseTable h, ← Group.attach_filter, Group.anchor_map,
    t.links_eq spec (List.mem_of_getElem? h), Group.attach_map t.injective, Group.attach_filter]

theorem grow_map (t : rules.Tracks part whole φ) (h : rules.roles[role]? = some spec)
    {g : Group} (hg : rules.ForwardAgree part whole φ spec g) :
    rules.grow whole (rules.reverseTable whole) (spec, role) (g.map φ) =
      (rules.grow part (rules.reverseTable part) (spec, role) g).map (·.map φ) := by
  cases hexplodes : spec.explodes with
  | false =>
    rw [grow_of_not_explodes rules whole _ hexplodes, grow_of_not_explodes rules part _ hexplodes,
      t.linkRole_map h hg, t.attach_map h]
    rfl
  | true =>
    rw [grow_of_explodes rules whole _ hexplodes, grow_of_explodes rules part _ hexplodes,
      t.linkRole_map h hg, Group.explode_map, List.map_map, List.map_map]
    exact List.map_congr_left fun g _ => t.attach_map h g

/-! ## Checks of a finished group -/

theorem multiplicityFaults_map (t : rules.Tracks part whole φ) (g : Group) :
    rules.multiplicityFaults whole (g.map φ) = rules.multiplicityFaults part g := by
  unfold multiplicityFaults
  apply List.flatMap_congr
  intro entry _
  dsimp only
  rw [Group.sourceOf_map, Group.candidates_map, List.length_map, List.map_map]
  cases g.sourceOf entry.1 with
  | none => rfl
  | some source =>
    have hnames : (fun id => (whole.member id).name) ∘ φ = fun id => (part.member id).name :=
      funext fun id => congrArg Member.name (t.member_eq id)
    dsimp only [Option.map]
    rw [hnames, Context.member_eq, t.member_eq, Context.member_eq]

theorem requiredFaults_map (t : rules.Tracks part whole φ) (g : Group) :
    rules.requiredFaults whole (g.map φ) = rules.requiredFaults part g := by
  unfold requiredFaults
  apply List.flatMap_congr
  intro entry _
  dsimp only
  rw [Group.sourceOf_map, Group.candidates_map, List.isEmpty_map]
  cases g.sourceOf entry.1 with
  | none => rfl
  | some source =>
    dsimp only [Option.map]
    rw [Context.member_eq, t.member_eq, Context.member_eq]

theorem groupFaults_map (t : rules.Tracks part whole φ) (hlocal : rules.Local) (g : Group) :
    rules.groupFaults whole (g.map φ) = rules.groupFaults part g := by
  unfold groupFaults
  rw [t.multiplicityFaults_map, t.requiredFaults_map, hlocal.check_map t.config_eq t.member_eq]

end Rules.Tracks

namespace Rules

variable {rules : Rules} {part whole : Context} {φ : Nat → Nat}

theorem linkFaults_map {spec : RoleSpec} {g : Group}
    (hg : rules.ForwardAgree part whole φ spec g) :
    rules.linkFaults whole spec (g.map φ) = rules.linkFaults part spec g := by
  unfold linkFaults
  rw [Group.sourceOf_map]
  cases hsource : g.sourceOf spec with
  | none => rfl
  | some source =>
    dsimp only [Option.map]
    rw [hg source hsource, List.flatMap_map]
    exact List.flatMap_congr fun o _ => reported_map φ o

end Rules

/-! ## Runs -/

namespace Rules.Embeds

variable {rules : Rules} {part whole : Context} {φ : Nat → Nat}

theorem tracks (e : rules.Embeds part whole φ) : rules.Tracks part whole φ where
  toPlaces := e.places
  namedCandidates_eq _ hspec source := e.namedCandidates_map hspec source
  links_eq spec _ source := e.links_eq spec source

theorem forwardAgree (e : rules.Embeds part whole φ) (spec : RoleSpec) (g : Group) :
    rules.ForwardAgree part whole φ spec g :=
  fun source _ => e.forwardOutcomes_map spec source

theorem descendants_map (e : rules.Embeds part whole φ) {entries : List (RoleSpec × Nat)}
    (h : ∀ entry ∈ entries, rules.roles[entry.2]? = some entry.1) (g : Group) :
    rules.descendants whole (rules.reverseTable whole) entries (g.map φ) =
      (rules.descendants part (rules.reverseTable part) entries g).map (·.map φ) := by
  induction entries generalizing g with
  | nil => rfl
  | cons entry entries ih =>
    have hrest : ∀ entry ∈ entries, rules.roles[entry.2]? = some entry.1 :=
      fun entry hentry => h entry (List.mem_cons_of_mem _ hentry)
    unfold descendants
    rw [e.tracks.grow_map (h entry (by simp)) (e.forwardAgree _ g), List.flatMap_map,
      List.map_flatMap]
    exact List.flatMap_congr fun g _ => ih hrest g

theorem descentFaults_map (e : rules.Embeds part whole φ) {entries : List (RoleSpec × Nat)}
    (h : ∀ entry ∈ entries, rules.roles[entry.2]? = some entry.1) (g : Group) :
    rules.descentFaults whole (rules.reverseTable whole) entries (g.map φ) =
      rules.descentFaults part (rules.reverseTable part) entries g := by
  induction entries generalizing g with
  | nil => rfl
  | cons entry entries ih =>
    have hrest : ∀ entry ∈ entries, rules.roles[entry.2]? = some entry.1 :=
      fun entry hentry => h entry (List.mem_cons_of_mem _ hentry)
    unfold descentFaults
    rw [linkFaults_map (e.forwardAgree _ g),
      e.tracks.grow_map (h entry (by simp)) (e.forwardAgree _ g), List.flatMap_map]
    congr 1
    exact List.flatMap_congr fun g _ => ih hrest g

theorem block_map (e : rules.Embeds part whole φ) (anchor : Nat) :
    rules.block whole (rules.reverseTable whole) (φ anchor) =
      (rules.block part (rules.reverseTable part) anchor).map (·.map φ) := by
  unfold block
  rw [← Group.seed_map]
  exact e.descendants_map (getElem?_of_mem_zipIdx rules) _

end Rules.Embeds
end MemberBinding
