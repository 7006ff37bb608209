import MemberBinding.Proofs.Resolution.Agreement
import MemberBinding.Proofs.Resolution.Placed
import MemberBinding.Proofs.Resolution.Placement

/-!
# Names of types

Types are compared and never looked into, so other names for them make no difference as long as
different types keep different names. Only reports show the names. Main statement:
`Rules.TypeBlind.resolve_eq_ok_iff`, by which a resolution comes to the same groups.
-/

namespace MemberBinding

variable {f : String → String}

/-! ## Renaming -/

namespace Member

def renameTypes (f : String → String) (m : Member) : Member :=
  { m with
    valueType := m.valueType.map f
    returnType := m.returnType.map f
    parameters := m.parameters.map f }

@[simp] theorem name_renameTypes (f : String → String) (m : Member) :
    (m.renameTypes f).name = m.name := rfl

@[simp] theorem isEmpty_parameters_renameTypes (f : String → String) (m : Member) :
    (m.renameTypes f).parameters.isEmpty = m.parameters.isEmpty :=
  List.isEmpty_map

theorem declaredType_renameTypes (f : String → String) (m : Member) :
    (m.renameTypes f).declaredType = m.declaredType.map f := by
  unfold declaredType renameTypes
  dsimp only
  cases m.kind <;> rfl

theorem map_beq_map (hf : Function.Injective f) (a b : Option String) :
    (a.map f == b.map f) = (a == b) := by
  rw [Bool.eq_iff_iff, beq_iff_eq, beq_iff_eq, (Option.map_injective hf).eq_iff]

theorem returns_renameTypes (hf : Function.Injective f) (m : Member) (type : String) :
    (m.renameTypes f).returns (f type) = m.returns type :=
  map_beq_map hf m.returnType (some type)

end Member

def TypeNames.rename (f : String → String) (t : TypeNames) : TypeNames where
  void := f t.void
  boolean := f t.boolean
  command := f t.command
  commandAssignable := t.commandAssignable.map f
  dependencyProperty := f t.dependencyProperty

theorem TypeNames.isCommandAssignable_rename (hf : Function.Injective f) (t : TypeNames)
    (type : String) : (t.rename f).isCommandAssignable (f type) = t.isCommandAssignable type := by
  rw [isCommandAssignable, isCommandAssignable, rename, Bool.eq_iff_iff, List.contains_iff_mem,
    List.contains_iff_mem, List.mem_map_of_injective hf]

def Config.renameTypes (f : String → String) (config : Config) : Config :=
  { config with types := config.types.rename f }

namespace Snapshot

def renameTypes (f : String → String) (s : Snapshot) : Snapshot :=
  { s with members := s.members.map (·.renameTypes f) }

variable {s : Snapshot} {id : Nat}

@[simp] theorem length_members_renameTypes (f : String → String) (s : Snapshot) :
    (s.renameTypes f).members.length = s.members.length :=
  List.length_map _

theorem member_renameTypes (f : String → String) (h : id < s.members.length) :
    (s.renameTypes f).member id = (s.member id).renameTypes f := by
  simp [member, member?, renameTypes, h]

/-- Past the last position there is no type to rename. -/
theorem member_renameTypes_of_le (f : String → String) (h : s.members.length ≤ id) :
    (s.renameTypes f).member id = s.member id := by
  rw [member_of_length_le h, member_of_length_le (by simpa using h)]

/-- What does not depend on types is the same at every position. -/
theorem eq_at_renameTypes {α : Type} (read : Member → α)
    (h : ∀ m : Member, read (m.renameTypes f) = read m) (s : Snapshot) (id : Nat) :
    read ((s.renameTypes f).member id) = read (s.member id) := by
  by_cases hid : id < s.members.length
  · rw [member_renameTypes f hid, h]
  · rw [member_renameTypes_of_le f (Nat.le_of_not_lt hid)]

theorem sameNames_renameTypes (f : String → String) (s : Snapshot) :
    s.SameNames (s.renameTypes f) where
  length_eq := length_members_renameTypes f s
  name_eq := eq_at_renameTypes Member.name (fun _ => rfl) s
  kind_eq := eq_at_renameTypes Member.kind (fun _ => rfl) s
  isExcluded_eq := eq_at_renameTypes Member.isExcluded (fun _ => rfl) s

end Snapshot

/-! ## Rules -/

/-- The resolution with the types renamed everywhere. -/
def Context.renameTypes (f : String → String) (ctx : Context) : Context :=
  .of (ctx.config.renameTypes f) (ctx.snapshot.renameTypes f) ctx.mode

theorem Context.sameNames_renameTypes (f : String → String) (ctx : Context) :
    ctx.SameNames (ctx.renameTypes f) :=
  ⟨ctx.snapshot.sameNames_renameTypes f, rfl⟩

namespace Rules

/-- Rules that judge members alike when types are renamed. -/
structure TypeBlind (rules : Rules) (f : String → String) : Prop where
  isCandidate_eq : ∀ ctx m linked, rules.isCandidate (ctx.renameTypes f) (m.renameTypes f) linked =
    rules.isCandidate ctx m linked
  order_eq : ∀ spec ∈ rules.roles, ∀ c, spec.companion = some c → ∀ types site m n,
    c.order (types.rename f) site (m.renameTypes f) (n.renameTypes f) = c.order types site m n
  check_iff : ∀ ctx g, g.Placed rules ctx →
    (rules.check (ctx.renameTypes f) g = [] ↔ rules.check ctx g = [])

namespace TypeBlind

variable {rules : Rules} {ctx : Context} {spec : RoleSpec}

theorem splitTargets_eq (h : rules.TypeBlind f) (hspec : spec ∈ rules.roles) (site : LinkSite)
    {first : Nat} {second : Option Nat} (hfirst : first < ctx.snapshot.members.length)
    (hsecond : ∀ id ∈ second, id < ctx.snapshot.members.length) :
    spec.splitTargets (ctx.renameTypes f) site first second =
      spec.splitTargets ctx site first second := by
  unfold RoleSpec.splitTargets
  cases second with
  | none => rfl
  | some second =>
    cases hc : spec.companion with
    | none => rfl
    | some c =>
      have hm : (ctx.renameTypes f).member first = (ctx.member first).renameTypes f :=
        Snapshot.member_renameTypes f hfirst
      have hn : (ctx.renameTypes f).member second = (ctx.member second).renameTypes f :=
        Snapshot.member_renameTypes f (hsecond second rfl)
      have htypes : (ctx.renameTypes f).config.types = ctx.config.types.rename f := rfl
      dsimp only
      rw [hm, hn, htypes, h.order_eq spec hspec c hc]

theorem reverseLink_eq (h : rules.TypeBlind f) (hspec : spec ∈ rules.roles) (id : Nat) (l : Link) :
    rules.reverseLink (ctx.renameTypes f) spec ((ctx.renameTypes f).snapshot.member id, id) l =
      rules.reverseLink ctx spec (ctx.snapshot.member id, id) l := by
  have hnames := ctx.sameNames_renameTypes f
  have hsite : spec.reverseSite ((ctx.renameTypes f).snapshot.member id) l =
      spec.reverseSite (ctx.snapshot.member id) l := by
    rw [RoleSpec.reverseSite, RoleSpec.reverseSite, hnames.name_eq]
  have hlt {kind label name site target}
      (htarget : ctx.linkTarget kind label name site = .ok target) :
      target < ctx.snapshot.members.length :=
    (Context.linkTarget_eq_ok_iff.1 htarget).lt
  unfold reverseLink
  dsimp only
  rw [hsite]
  simp only [hnames.linkTarget_eq]
  cases l.secondName with
  | none =>
    dsimp only
    split
    · rename_i first hfirst
      rw [h.splitTargets_eq hspec _ (hlt hfirst) (fun _ hid => by cases hid)]
    · rfl
  | some name =>
    dsimp only
    split
    · rename_i first second hfirst hsecond
      rw [h.splitTargets_eq hspec _ (hlt hfirst)
        (fun _ hid => Option.some.inj hid ▸ hlt hsecond)]
    · rfl

theorem linksOf_eq (f : String → String) (ctx : Context) (kind : LinkKind) (id : Nat) :
    ((ctx.renameTypes f).member id).linksOf kind = (ctx.member id).linksOf kind :=
  Snapshot.eq_at_renameTypes (Member.linksOf · kind) (fun _ => rfl) ctx.snapshot id

theorem requiresExplicitLink_eq (f : String → String) (ctx : Context) (id : Nat) :
    ((ctx.renameTypes f).member id).requiresExplicitLink = (ctx.member id).requiresExplicitLink :=
  Snapshot.eq_at_renameTypes Member.requiresExplicitLink (fun _ => rfl) ctx.snapshot id

theorem reverseOutcomes_eq (h : rules.TypeBlind f) (hspec : spec ∈ rules.roles) :
    rules.reverseOutcomes (ctx.renameTypes f) spec = rules.reverseOutcomes ctx spec := by
  apply Rules.reverseOutcomes_eq (ctx.sameNames_renameTypes f).toSnapshot
  intro id _
  have hlinks := linksOf_eq f ctx spec.reverse id
  rw [Context.member_eq, Context.member_eq] at hlinks
  rw [hlinks]
  apply List.map_congr_left
  intro l _
  exact h.reverseLink_eq hspec id l

theorem forwardOutcomes_eq (f : String → String) (ctx : Context) (spec : RoleSpec) (source : Nat) :
    rules.forwardOutcomes (ctx.renameTypes f) spec source =
      rules.forwardOutcomes ctx spec source := by
  have hnames := ctx.sameNames_renameTypes f
  unfold forwardOutcomes
  dsimp only
  rw [linksOf_eq]
  simp only [hnames.linkTarget_eq, Context.member_eq, hnames.name_eq]

theorem found_eq (f : String → String) (ctx : Context) (table : List (List ReverseLink))
    (spec : RoleSpec) (role source : Nat) :
    rules.found (ctx.renameTypes f) table spec role source =
      rules.found ctx table spec role source := by
  have hsearches : searchesByName (ctx.renameTypes f) table spec role source =
      searchesByName ctx table spec role source := by
    rw [searchesByName, searchesByName, hasExplicit, hasExplicit, linksOf_eq,
      requiresExplicitLink_eq]
    rfl
  rw [found, found, hsearches, namedCandidates_eq (ctx.sameNames_renameTypes f),
    forwardOutcomes_eq]

theorem reverseTable_eq (h : rules.TypeBlind f) :
    rules.reverseTable (ctx.renameTypes f) = rules.reverseTable ctx := by
  apply List.map_congr_left
  intro spec hspec
  rw [reverseLinks, reverseLinks, h.reverseOutcomes_eq hspec]

theorem verdict_ofKind_eq (h : rules.TypeBlind f) {kind : MemberKind} {e : Member × Nat}
    (he : e ∈ ctx.snapshot.ofKind kind) :
    rules.verdict (ctx.renameTypes f) (rules.reverseTable (ctx.renameTypes f))
        ((ctx.renameTypes f).snapshot.member e.2, e.2) =
      rules.verdict ctx (rules.reverseTable ctx) e := by
  obtain ⟨m, id⟩ := e
  obtain ⟨hlt, rfl, -⟩ := Snapshot.mem_ofKind_iff_member.1 he
  have hm : (ctx.renameTypes f).snapshot.member id = (ctx.snapshot.member id).renameTypes f :=
    Snapshot.member_renameTypes f hlt
  unfold verdict
  dsimp only
  rw [h.reverseTable_eq, hm, h.isCandidate_eq]
  rfl

theorem sameSteps (h : rules.TypeBlind f) (ctx : Context) :
    rules.SameSteps ctx (ctx.renameTypes f) where
  reverse_eq _ hspec := h.reverseOutcomes_eq hspec
  anchors_eq := anchors_eq (ctx.sameNames_renameTypes f).toSnapshot fun _ he =>
    h.verdict_ofKind_eq he
  found_eq spec _ table := found_eq f ctx table spec
  forward_eq spec _ := forwardOutcomes_eq f ctx spec

theorem markFaults_eq (f : String → String) (ctx : Context) :
    rules.markFaults (ctx.renameTypes f) = rules.markFaults ctx := by
  have hmember (m : Member) : rules.markFaultsOf (m.renameTypes f) = rules.markFaultsOf m := rfl
  have hmembers : (ctx.renameTypes f).snapshot.members =
      ctx.snapshot.members.map (·.renameTypes f) := rfl
  unfold markFaults
  rw [hmembers, List.flatMap_map]
  simp only [hmember]

theorem groupFaults_eq_nil_iff (h : rules.TypeBlind f) {g : Group} (hg : g.Placed rules ctx) :
    rules.groupFaults (ctx.renameTypes f) g = [] ↔ rules.groupFaults ctx g = [] := by
  have hnames := (ctx.sameNames_renameTypes f).toSnapshot
  rw [groupFaults, groupFaults, multiplicityFaults_eq hnames,
    requiredFaults_eq hnames (requiresExplicitLink_eq f ctx), List.append_eq_nil_iff,
    List.append_eq_nil_iff (q := rules.check ctx g), h.check_iff ctx g hg]

/-- The groups are the same as long as different types keep different names. -/
theorem resolve_eq_ok_iff (ctx : Context) (h : rules.TypeBlind f) (hfit : rules.CompanionsFit)
    {groups : List Group} :
    rules.resolve (ctx.renameTypes f) = .ok groups ↔ rules.resolve ctx = .ok groups := by
  have hsteps := h.sameSteps ctx
  have hanchorFaults : rules.anchorFaults (ctx.renameTypes f)
      (rules.reverseTable (ctx.renameTypes f)) = rules.anchorFaults ctx (rules.reverseTable ctx) :=
    anchorFaults_eq (ctx.sameNames_renameTypes f).toSnapshot fun _ he => h.verdict_ofKind_eq he
  have hgroups : (∀ g ∈ (rules.run ctx (rules.reverseTable ctx)).groups,
      rules.groupFaults (ctx.renameTypes f) g = []) ↔
      ∀ g ∈ (rules.run ctx (rules.reverseTable ctx)).groups, rules.groupFaults ctx g = [] :=
    forall₂_congr fun g hg => h.groupFaults_eq_nil_iff (Group.placed_of_mem_run hfit hg)
  unfold resolve
  dsimp only
  rw [Diagnostics.finish_ofList_eq_ok_iff, Diagnostics.finish_ofList_eq_ok_iff, hsteps.run_eq]
  simp only [reports, markFaults_eq, hsteps.flatMap_reverseFaults_eq, hanchorFaults,
    List.append_eq_nil_iff, List.flatMap_eq_nil_iff, hgroups]

end TypeBlind
end Rules

/-! ## The kinds of binding -/

theorem sameTypeFaults_renameTypes (hf : Function.Injective f) (leftRole rightRole : String)
    (m n : Member) :
    sameTypeFaults leftRole (m.renameTypes f) rightRole (n.renameTypes f) =
      sameTypeFaults leftRole m rightRole n := by
  rw [sameTypeFaults, sameTypeFaults, Member.declaredType_renameTypes,
    Member.declaredType_renameTypes, Member.map_beq_map hf]
  rfl

/-- The report of a wrong return type shows its name, so only whether there is one is the same. -/
theorem methodFaults_renameTypes_eq_nil_iff (hf : Function.Injective f) (role type : String)
    (m : Member) :
    methodFaults role (m.renameTypes f) (f type) = [] ↔ methodFaults role m type = [] := by
  unfold methodFaults
  rw [Member.isEmpty_parameters_renameTypes, Member.returns_renameTypes hf, Member.name_renameTypes]
  simp

theorem FieldBinding.Profile.typeBlind_rules {profile : Profile}
    (hadmits : ∀ types m, profile.admits (types.rename f) (m.renameTypes f) =
      profile.admits types m)
    (hfaults : ∀ types m n,
      (profile.faults (types.rename f) (m.renameTypes f) (n.renameTypes f) = [] ↔
        profile.faults types m n = [])) : profile.rules.TypeBlind f where
  isCandidate_eq ctx m _ := hadmits ctx.config.types m
  order_eq spec hspec c hc := by
    rw [companion_eq_none hspec] at hc
    cases hc
  check_iff ctx g hg := by
    dsimp only [Profile.rules]
    cases hsingle : g.single? 0 with
    | none => rfl
    | some id =>
      have hfield := hg.available_of_single? profile.fieldSpec rfl hsingle
      have hm : (ctx.renameTypes f).member g.anchor = (ctx.member g.anchor).renameTypes f :=
        Snapshot.member_renameTypes f hg.available_anchor.lt
      have hn : (ctx.renameTypes f).member id = (ctx.member id).renameTypes f :=
        Snapshot.member_renameTypes f hfield.lt
      dsimp only
      rw [hm, hn]
      exact hfaults ctx.config.types _ _

theorem Property.typeBlind_rules (hf : Function.Injective f) : Property.rules.TypeBlind f := by
  apply FieldBinding.Profile.typeBlind_rules
  · intro types m
    exact congrArg (!·) (Member.map_beq_map hf m.valueType (some types.command))
  · intro types m n
    dsimp only [profile]
    rw [sameTypeFaults_renameTypes hf]

theorem Dependency.typeBlind_rules (hf : Function.Injective f) :
    Dependency.rules.TypeBlind f := by
  apply FieldBinding.Profile.typeBlind_rules
  · intro types m
    rfl
  · intro types m n
    dsimp only [profile]
    rw [descriptorFaults_eq_nil_iff, descriptorFaults_eq_nil_iff, Member.declaredType_renameTypes]
    exact and_congr_right fun _ =>
      (Option.map_injective hf).eq_iff (b := some types.dependencyProperty)

theorem Command.propertyFaults_renameTypes_eq_nil_iff (hf : Function.Injective f)
    (types : TypeNames) (m : Member) :
    propertyFaults (types.rename f) (m.renameTypes f) = [] ↔ propertyFaults types m = [] := by
  have hany : (m.renameTypes f).declaredType.any (types.rename f).isCommandAssignable =
      m.declaredType.any types.isCommandAssignable := by
    rw [Member.declaredType_renameTypes]
    cases m.declaredType with
    | none => rfl
    | some type => exact types.isCommandAssignable_rename hf type
  unfold propertyFaults
  rw [hany]
  simp

theorem Command.typeBlind_rules (hf : Function.Injective f) : Command.rules.TypeBlind f where
  isCandidate_eq ctx m linked := by
    have hreturns := m.returns_renameTypes hf ctx.config.types.void
    dsimp only [Command.rules, Command.isCandidate, Context.renameTypes, Context.of,
      Config.renameTypes, TypeNames.rename]
    rw [Member.isEmpty_parameters_renameTypes, hreturns]
    rfl
  order_eq spec hspec c hc types site m n := by
    obtain ⟨-, rfl⟩ := eq_of_companion hspec hc
    dsimp only [pairOrder, TypeNames.rename]
    rw [m.returns_renameTypes hf, n.returns_renameTypes hf, m.returns_renameTypes hf,
      n.returns_renameTypes hf, Member.name_renameTypes, Member.name_renameTypes]
  check_iff ctx g hg := by
    have hmember {id : Nat} (hid : id < ctx.snapshot.members.length) :
        (ctx.renameTypes f).member id = (ctx.member id).renameTypes f :=
      Snapshot.member_renameTypes f hid
    have htypes : (ctx.renameTypes f).config.types = ctx.config.types.rename f := rfl
    dsimp only [Command.rules, check]
    simp only [List.append_eq_nil_iff]
    rw [htypes, hmember hg.available_anchor.lt]
    refine and_congr (and_congr (methodFaults_renameTypes_eq_nil_iff hf _ _ _) ?_) ?_
    · cases hcan : g.single? canExecuteRole with
      | none => rfl
      | some id =>
        have hid := hg.available_of_single? canExecuteSpec rfl hcan
        dsimp only
        rw [hmember hid.lt]
        exact methodFaults_renameTypes_eq_nil_iff hf _ _ _
    · cases hproperty : g.single? propertyRole with
      | none => rfl
      | some p =>
        have hp := hg.available_of_single? propertySpec rfl hproperty
        dsimp only
        rw [hmember hp.lt, List.append_eq_nil_iff, List.append_eq_nil_iff]
        refine and_congr (propertyFaults_renameTypes_eq_nil_iff hf _ _) ?_
        cases hfield : g.single? fieldRole with
        | none => rfl
        | some id =>
          have hid := hg.available_of_single? fieldSpec rfl hfield
          dsimp only
          rw [hmember hid.lt, sameTypeFaults_renameTypes hf]

theorem BindingKind.typeBlind_rules (hf : Function.Injective f) (kind : BindingKind) :
    kind.rules.TypeBlind f := by
  cases kind with
  | property => exact Property.typeBlind_rules hf
  | command => exact Command.typeBlind_rules hf
  | dependency => exact Dependency.typeBlind_rules hf

/-- Other names for the types, the same bindings: as long as different types keep different names,
a resolution succeeds as before, with the same members in the same places. -/
theorem BindingKind.placements_renameTypes (hf : Function.Injective f) (kind : BindingKind)
    (config : Config) (s : Snapshot) (mode : Mode) (ps : List Placement) :
    kind.placements (config.renameTypes f) (s.renameTypes f) mode = .ok ps ↔
      kind.placements config s mode = .ok ps := by
  have hresolve {groups : List Group} :
      kind.rules.resolve (.of (config.renameTypes f) (s.renameTypes f) mode) = .ok groups ↔
        kind.rules.resolve (.of config s mode) = .ok groups :=
    Rules.TypeBlind.resolve_eq_ok_iff (.of config s mode) (kind.typeBlind_rules hf)
      kind.companionsFit_rules
  rw [placements_eq, placements_eq, map_eq_ok_iff, map_eq_ok_iff]
  simp only [hresolve]

/-- A command with all that belongs to it. -/
def guardedSave : Snapshot where
  name := "Document"
  members := [
    .method "ExecuteSaveMethod" "System.Void",
    .method "CanExecuteSaveMethod" "System.Boolean",
    .property "SaveCommand" "System.Windows.Input.ICommand",
    .field "saveCommand" "System.Windows.Input.ICommand"]

def inPackage (type : String) : String := "Acme." ++ type

theorem placements_renameTypes_guardedSave :
    Function.Injective inPackage ∧
    BindingKind.command.placements {} guardedSave .all = .ok [⟨0, [some 1, some 2, some 3]⟩] ∧
    BindingKind.command.placements (Config.renameTypes inPackage {})
      (guardedSave.renameTypes inPackage) .all = .ok [⟨0, [some 1, some 2, some 3]⟩] := by
  have hinjective : Function.Injective inPackage := fun _ _ h => (String.append_right_inj _).1 h
  have hplaced : BindingKind.command.placements {} guardedSave .all =
      .ok [⟨0, [some 1, some 2, some 3]⟩] := rfl
  exact ⟨hinjective, hplaced,
    (BindingKind.placements_renameTypes hinjective .command {} guardedSave .all _).2 hplaced⟩

end MemberBinding
