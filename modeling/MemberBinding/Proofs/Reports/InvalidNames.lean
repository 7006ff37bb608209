import Mathlib.Data.List.Sort
import MemberBinding.Proofs.Command.Reports
import MemberBinding.Proofs.Reports.Independence
import MemberBinding.Proofs.Reports.Messages
import MemberBinding.Proofs.Reports.Passes
import MemberBinding.Proofs.Resolution.Placed
import MemberBinding.Proofs.Resolution.Placement
import MemberBinding.Proofs.Resolution.SameSteps

/-!
# Skipping invalid names

An anchor whose name breaks its convention is dropped, with a report or without one. Either way the
rest of the run is the same, and no other pass reports names. Main statement:
`Bindings.skipping_drops_names`.
-/

namespace MemberBinding

/-- The same options, but for what becomes of invalid names. -/
def Config.skipping (config : Config) (skip : Bool) : Config :=
  { config with options.skipInvalidNames := skip }

namespace Violation

def isInvalidName : Violation → Bool
  | invalidName .. => true
  | _ => false

theorem isInvalidName_iff_category {v : Violation} :
    v.isInvalidName = true ↔ v.category = .nameFormat := by
  cases v <;> simp [isInvalidName, category]

theorem isInvalidName_eq_of_message_eq (v w : Violation) (h : v.message = w.message) :
    v.isInvalidName = w.isInvalidName := by
  rw [Bool.eq_iff_iff, isInvalidName_iff_category, isInvalidName_iff_category,
    category_eq_of_message_eq h]

end Violation

theorem Snapshot.Undesignated.isInvalidName_eq {s : Snapshot} {kind : MemberKind}
    {label name : String} {site : LinkSite} {v : Violation}
    (h : s.Undesignated kind label name site v) : v.isInvalidName = false := by
  cases h <;> rfl

namespace Rules

/-- Rules that themselves ask neither how names are treated nor whether they are valid. -/
structure NameBlind (rules : Rules) : Prop where
  isCandidate_eq : ∀ config s mode skip, rules.isCandidate (.of (config.skipping skip) s mode) =
    rules.isCandidate (.of config s mode)
  check_eq : ∀ config s mode skip, rules.check (.of (config.skipping skip) s mode) =
    rules.check (.of config s mode)
  check_names : ∀ ctx g, ∀ v ∈ rules.check ctx g, v.isInvalidName = false
  order_names : ∀ spec ∈ rules.roles, ∀ c, spec.companion = some c → ∀ types site m n v,
    c.order types site m n = .error v → v.isInvalidName = false

/-! ## Passes that do not report names -/

section

variable {rules : Rules} {ctx : Context} {spec : RoleSpec} {v : Violation}

theorem isInvalidName_of_mem_markFaults (hv : v ∈ rules.markFaults ctx) :
    v.isInvalidName = false := by
  cases mem_markFaults_iff.1 hv <;> rfl

theorem NameBlind.isInvalidName_of_splitTargets (h : rules.NameBlind) (hspec : spec ∈ rules.roles)
    {site : LinkSite} {first : Nat} {second : Option Nat}
    (hv : spec.splitTargets ctx site first second = .error v) : v.isInvalidName = false := by
  unfold RoleSpec.splitTargets at hv
  split at hv
  · rename_i second c hc
    exact h.order_names spec hspec c hc _ _ _ _ v (map_eq_error_iff.1 hv)
  · cases hv

theorem NameBlind.isInvalidName_of_mem_reverseFaults (h : rules.NameBlind)
    (hspec : spec ∈ rules.roles) (hv : v ∈ rules.reverseFaults ctx spec) :
    v.isInvalidName = false := by
  obtain ⟨id, -, l, -, hbad⟩ := mem_reverseFaults_iff.1 hv
  cases hbad with
  | first undesignated => exact undesignated.isInvalidName_eq
  | second _ undesignated => exact undesignated.isInvalidName_eq
  | pair _ conflict => exact h.isInvalidName_of_splitTargets hspec conflict

theorem isInvalidName_of_mem_faults_run {table : List (List ReverseLink)}
    (hv : v ∈ (rules.run ctx table).faults) : v.isInvalidName = false := by
  obtain ⟨spec, -, g, hv⟩ := exists_linkFaults_of_mem_faults_run hv
  obtain ⟨source, -, l, -, undesignated⟩ := mem_linkFaults_iff.1 hv
  exact undesignated.isInvalidName_eq

theorem NameBlind.isInvalidName_of_mem_groupFaults (h : rules.NameBlind) {g : Group}
    (hv : v ∈ rules.groupFaults ctx g) : v.isInvalidName = false := by
  rw [groupFaults, List.mem_append, List.mem_append, mem_multiplicityFaults_iff,
    mem_requiredFaults_iff] at hv
  rcases hv with (⟨_, _, _, _, _, _, rfl⟩ | ⟨_, _, _, _, _, _, _, _, rfl⟩) | hv
  · rfl
  · rfl
  · exact h.check_names ctx g v hv

theorem isInvalidName_of_mem_anchorFaults
    (hv : v ∈ rules.anchorFaults ctx (rules.reverseTable ctx)) : v.isInvalidName = true := by
  obtain ⟨id, -, -, -, rfl⟩ := mem_anchorFaults_iff.1 hv
  rfl

end

/-! ## Two runs -/

namespace NameBlind

variable {rules : Rules} {config : Config} {s : Snapshot} {mode : Mode} {skip : Bool}

theorem eligible_iff (h : rules.NameBlind) {id : Nat} :
    rules.Eligible (.of (config.skipping skip) s mode) id ↔
      rules.Eligible (.of config s mode) id := by
  rw [Rules.eligible_iff, Rules.eligible_iff, h.isCandidate_eq]
  rfl

theorem anchors_eq (h : rules.NameBlind) :
    rules.anchors (.of (config.skipping skip) s mode)
        (rules.reverseTable (.of (config.skipping skip) s mode)) =
      rules.anchors (.of config s mode) (rules.reverseTable (.of config s mode)) := by
  apply (pairwise_lt_anchors _ _ _).eq_of_mem_iff (pairwise_lt_anchors _ _ _)
  intro id
  rw [mem_anchors_iff, mem_anchors_iff, h.eligible_iff]
  rfl

/-- A dropped anchor leaves nothing behind in the run. -/
theorem sameSteps (h : rules.NameBlind) (config : Config) (s : Snapshot) (mode : Mode)
    (skip : Bool) : rules.SameSteps (.of config s mode) (.of (config.skipping skip) s mode) where
  reverse_eq _ _ := rfl
  anchors_eq := h.anchors_eq
  found_eq _ _ _ _ _ := rfl
  forward_eq _ _ _ := rfl

theorem anchorFaults_skipping (rules : Rules) (config : Config) (s : Snapshot) (mode : Mode) :
    rules.anchorFaults (.of (config.skipping true) s mode)
      (rules.reverseTable (.of (config.skipping true) s mode)) = [] :=
  anchorFaults_eq_nil_iff.2 fun _ _ => .inl rfl

theorem groupFaults_eq (h : rules.NameBlind) :
    rules.groupFaults (.of (config.skipping skip) s mode) =
      rules.groupFaults (.of config s mode) := by
  funext g
  exact congrArg (_ ++ ·) (congrFun (h.check_eq config s mode skip) g)

/-- With names skipped, a run reports what it reports otherwise, less the names. -/
theorem reports_eq_filter (h : rules.NameBlind) {on off : Context}
    (hon : on = .of (config.skipping true) s mode)
    (hoff : off = .of (config.skipping false) s mode) :
    rules.reports on (rules.reverseTable on) (rules.run on (rules.reverseTable on)) =
      (rules.reports off (rules.reverseTable off) (rules.run off (rules.reverseTable off))).filter
        fun v => !v.isInvalidName := by
  have hkeep : ∀ vs : List Violation, (∀ v ∈ vs, v.isInvalidName = false) →
      vs.filter (fun v => !v.isInvalidName) = vs := by
    intro vs hvs
    rw [List.filter_eq_self]
    intro v hv
    simp [hvs v hv]
  have hnames : (rules.anchorFaults off (rules.reverseTable off)).filter
      (fun v => !v.isInvalidName) = [] := by
    rw [List.filter_eq_nil_iff]
    intro v hv
    simp [isInvalidName_of_mem_anchorFaults hv]
  have hreverse : ∀ v ∈ rules.roles.flatMap (rules.reverseFaults off), v.isInvalidName = false := by
    intro v hv
    obtain ⟨spec, hspec, hv⟩ := List.mem_flatMap.1 hv
    exact h.isInvalidName_of_mem_reverseFaults hspec hv
  have hgroups : ∀ groups : List Group, ∀ v ∈ groups.flatMap (rules.groupFaults off),
      v.isInvalidName = false := by
    intro groups v hv
    obtain ⟨g, -, hv⟩ := List.mem_flatMap.1 hv
    exact h.isInvalidName_of_mem_groupFaults hv
  have hsteps : rules.SameSteps off on := by
    rw [hoff, hon]
    exact h.sameSteps (config.skipping false) s mode true
  have hanchorFaults : rules.anchorFaults on (rules.reverseTable on) = [] := by
    rw [hon, anchorFaults_skipping]
  have hsame : rules.groupFaults on = rules.groupFaults off := by
    rw [hon, hoff, h.groupFaults_eq, h.groupFaults_eq]
  have hmarks : rules.markFaults on = rules.markFaults off := by rw [hon, hoff]; rfl
  unfold reports
  rw [hsteps.run_eq, hsteps.flatMap_reverseFaults_eq, hanchorFaults, hsame, hmarks]
  simp only [List.filter_append, hnames, List.append_nil]
  rw [hkeep _ fun v => isInvalidName_of_mem_markFaults, hkeep _ hreverse,
    hkeep _ fun v => isInvalidName_of_mem_faults_run, hkeep _ (hgroups _)]

/-- The violations with names skipped, in order. -/
theorem violationsOf_resolve (h : rules.NameBlind) :
    violationsOf (rules.resolve (.of (config.skipping true) s mode)) =
      (violationsOf (rules.resolve (.of (config.skipping false) s mode))).filter
        fun v => !v.isInvalidName := by
  have hmessages : ∀ v w : Violation, v.message = w.message →
      (!v.isInvalidName) = !w.isInvalidName := by
    intro v w hvw
    rw [v.isInvalidName_eq_of_message_eq w hvw]
  unfold resolve
  dsimp only
  rw [Diagnostics.violationsOf_finish, Diagnostics.violationsOf_finish,
    h.reports_eq_filter rfl rfl, Diagnostics.kept_ofList_filter hmessages]

theorem resolve_eq_ok (h : rules.NameBlind) {groups : List Group}
    (hoff : rules.resolve (.of (config.skipping false) s mode) = .ok groups) :
    rules.resolve (.of (config.skipping true) s mode) = .ok groups := by
  obtain ⟨hnil, rfl⟩ := Diagnostics.finish_ofList_eq_ok_iff.1 hoff
  refine Diagnostics.finish_ofList_eq_ok_iff.2 ⟨?_, ?_⟩
  · rw [h.reports_eq_filter rfl rfl, hnil]
    rfl
  · exact congrArg Run.groups (h.sameSteps (config.skipping false) s mode true).run_eq

/-- With names skipped, nothing is left to fail for when nothing but names was wrong. -/
theorem exists_resolve_eq_ok (h : rules.NameBlind)
    (hnames : ∀ v ∈ violationsOf (rules.resolve (.of (config.skipping false) s mode)),
      v.isInvalidName = true) :
    ∃ groups, rules.resolve (.of (config.skipping true) s mode) = .ok groups := by
  have hnil : violationsOf (rules.resolve (.of (config.skipping true) s mode)) = [] := by
    rw [h.violationsOf_resolve, List.filter_eq_nil_iff]
    intro v hv
    simp [hnames v hv]
  exact ⟨_, Diagnostics.finish_eq_ok_of_violationsOf_eq_nil hnil⟩

end NameBlind

theorem wellNamed_of_resolve_eq_ok {rules : Rules} (hfit : rules.CompanionsFit) {ctx : Context}
    {groups : List Group} (h : rules.resolve ctx = .ok groups) {g : Group} (hg : g ∈ groups) :
    rules.WellNamed ctx g.anchor :=
  (mem_anchors_iff.1 (Group.placed_of_resolve_eq_ok hfit h hg).anchor).2

end Rules

/-! ## The kinds of binding -/

theorem isInvalidName_of_mem_sameTypeFaults {leftRole rightRole : String} {left right : Member}
    {v : Violation} (hv : v ∈ sameTypeFaults leftRole left rightRole right) :
    v.isInvalidName = false := by
  unfold sameTypeFaults at hv
  split at hv
  · cases hv
  · rw [List.mem_singleton.1 hv]
    rfl

theorem isInvalidName_of_mem_shapes {c : Bool} {role name requirement : String} {v : Violation}
    (hv : v ∈ if c then [] else [Violation.shape role name requirement]) :
    v.isInvalidName = false := by
  split at hv
  · cases hv
  · rw [List.mem_singleton.1 hv]
    rfl

theorem FieldBinding.Profile.nameBlind_rules {profile : Profile}
    (h : ∀ types m n, ∀ v ∈ profile.faults types m n, v.isInvalidName = false) :
    profile.rules.NameBlind where
  isCandidate_eq _ _ _ _ := rfl
  check_eq _ _ _ _ := rfl
  check_names ctx g v hv := by
    dsimp only [Profile.rules] at hv
    split at hv
    · exact h _ _ _ v hv
    · cases hv
  order_names spec hspec c hc := by
    rw [companion_eq_none hspec] at hc
    cases hc

theorem isInvalidName_of_mem_methodFaults {role type : String} {m : Member} {v : Violation}
    (hv : v ∈ methodFaults role m type) : v.isInvalidName = false := by
  rcases List.mem_append.1 hv with hv | hv
  · exact isInvalidName_of_mem_shapes hv
  · exact isInvalidName_of_mem_shapes hv

theorem Command.nameBlind_rules : Command.rules.NameBlind where
  isCandidate_eq _ _ _ _ := rfl
  check_eq _ _ _ _ := rfl
  check_names ctx g v hv := by
    dsimp only [Command.rules, Command.check] at hv
    rw [List.mem_append, List.mem_append] at hv
    rcases hv with (hv | hv) | hv
    · exact isInvalidName_of_mem_methodFaults hv
    · split at hv
      · exact isInvalidName_of_mem_methodFaults hv
      · cases hv
    · split at hv
      · rcases List.mem_append.1 hv with hv | hv
        · exact isInvalidName_of_mem_shapes hv
        · split at hv
          · exact isInvalidName_of_mem_sameTypeFaults hv
          · cases hv
      · cases hv
  order_names spec hspec c hc types site m n v hv := by
    obtain ⟨-, rfl⟩ := eq_of_companion hspec hc
    cases pairOrder_eq_error_iff.1 hv <;> rfl

theorem BindingKind.nameBlind_rules (kind : BindingKind) : kind.rules.NameBlind := by
  cases kind with
  | property =>
    have hfaults : ∀ types m n, ∀ v ∈ Property.profile.faults types m n,
        v.isInvalidName = false := by
      intro types m n v hv
      exact isInvalidName_of_mem_sameTypeFaults hv
    exact FieldBinding.Profile.nameBlind_rules hfaults
  | command => exact Command.nameBlind_rules
  | dependency =>
    have hfaults : ∀ types m n, ∀ v ∈ Dependency.profile.faults types m n,
        v.isInvalidName = false := by
      intro types m n v hv
      rcases List.mem_append.1 hv with hv | hv
      · exact isInvalidName_of_mem_shapes hv
      · exact isInvalidName_of_mem_shapes hv
    exact FieldBinding.Profile.nameBlind_rules hfaults

namespace Bindings

/-- Skipping invalid names takes their reports away, in place, and changes nothing else: what is
bound without it is bound with it, and when only names were wrong, the rest is bound. -/
theorem skipping_drops_names (kind : BindingKind) (config : Config) (s : Snapshot) (mode : Mode) :
    violationsOf (resolve kind (config.skipping true) s mode) =
      (violationsOf (resolve kind (config.skipping false) s mode)).filter
        (fun v => !v.isInvalidName) ∧
    (∀ bs ps, resolve kind (config.skipping false) s mode = .ok bs →
      kind.placements (config.skipping false) s mode = .ok ps →
      resolve kind (config.skipping true) s mode = .ok bs ∧
        kind.placements (config.skipping true) s mode = .ok ps) ∧
    ((∀ v ∈ violationsOf (resolve kind (config.skipping false) s mode), v.isInvalidName = true) →
      ∃ bs ps, resolve kind (config.skipping true) s mode = .ok bs ∧
        kind.placements (config.skipping true) s mode = .ok ps ∧
        ∀ p ∈ ps, (s.member p.anchor).requiresExplicitLink = true ∨
          (config.conventions.of kind.rules.anchor.naming).accepts (s.member p.anchor).name =
            true) := by
  have hblind := kind.nameBlind_rules
  simp only [resolve_eq, BindingKind.placements_eq, violationsOf_map]
  refine ⟨hblind.violationsOf_resolve, ?_, ?_⟩
  · intro bs ps hbs hps
    obtain ⟨groups, hgroups, rfl⟩ := map_eq_ok_iff.1 hbs
    rw [hgroups] at hps
    rw [hblind.resolve_eq_ok hgroups]
    exact ⟨rfl, hps⟩
  · intro hnames
    obtain ⟨groups, hgroups⟩ := hblind.exists_resolve_eq_ok hnames
    rw [hgroups]
    refine ⟨_, _, rfl, rfl, ?_⟩
    intro p hp
    obtain ⟨g, hg, rfl⟩ := List.mem_map.1 hp
    exact Rules.wellNamed_of_resolve_eq_ok kind.companionsFit_rules hgroups hg

/-- A property with an invalid name, beside one that need not have a valid name. -/
def lowercased : Snapshot where
  name := "Document"
  members := [
    .property "Title" "System.String",
    .field "title" "System.String",
    ((Member.property "subject" "System.String").withMark .requireExplicitLink).withLink
      ⟨.field, "text", none⟩,
    .field "text" "System.String",
    .property "heading" "System.String"]

/-- The same without the property whose name is reported. -/
def titled : Snapshot := { lowercased with members := lowercased.members.take 4 }

def titledBindings : List (FieldBinding Nat) := [⟨0, some 1⟩, ⟨2, some 3⟩]

theorem skipping_drops_names_lowercased :
    resolve .property (Config.skipping {} false) lowercased .all =
      .error ⟨.property, [.invalidName "property" "heading"]⟩ ∧
    BindingKind.property.placements (Config.skipping {} true) lowercased .all =
      .ok (titledBindings.map FieldBinding.placement) ∧
    (∀ p ∈ titledBindings.map FieldBinding.placement,
      (lowercased.member p.anchor).requiresExplicitLink = true ∨
        (Conventions.standard.of .property).accepts (lowercased.member p.anchor).name = true) ∧
    resolve .property (Config.skipping {} false) titled .all =
      .ok (.property (titledBindings.map (·.map titled.member))) ∧
    resolve .property (Config.skipping {} true) titled .all =
      .ok (.property (titledBindings.map (·.map titled.member))) := by
  have hoff : resolve .property (Config.skipping {} false) lowercased .all =
      .error ⟨.property, [.invalidName "property" "heading"]⟩ := rfl
  have hon : BindingKind.property.placements (Config.skipping {} true) lowercased .all =
      .ok (titledBindings.map FieldBinding.placement) := rfl
  have htitled : resolve .property (Config.skipping {} false) titled .all =
      .ok (.property (titledBindings.map (·.map titled.member))) := rfl
  have hplaced : BindingKind.property.placements (Config.skipping {} false) titled .all =
      .ok (titledBindings.map FieldBinding.placement) := rfl
  obtain ⟨-, -, hnamed⟩ := skipping_drops_names .property {} lowercased .all
  obtain ⟨-, hsame, -⟩ := skipping_drops_names .property {} titled .all
  have hnames : ∀ v ∈ violationsOf (resolve .property (Config.skipping {} false) lowercased .all),
      v.isInvalidName = true := by
    rw [hoff]
    decide
  obtain ⟨_, ps, -, hps, hanchors⟩ := hnamed hnames
  rw [hon, Except.ok.injEq] at hps
  rw [← hps] at hanchors
  exact ⟨hoff, hon, hanchors, htitled, (hsame _ _ htitled hplaced).1⟩

end Bindings
end MemberBinding
