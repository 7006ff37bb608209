import MemberBinding.Proofs.Resolution.Checked
import MemberBinding.Proofs.Resolution.Placement

/-!
# Resolutions stay in bounds

For every kind of binding, the links and the groups of a run speak of members that exist and belong
where they are, no member and no role that is read is missing, and a role with several candidates is
always reported. Main statement: `BindingKind.resolution_inBounds`.
-/

namespace MemberBinding

/-! ## The bindings of a kind, looked up -/

namespace Checked

/-- What is wrong with the only member of a role, if there is just one. -/
def ofSingle (ctx : Context) (g : Group) (role : Nat) (faults : Member → Option (List Violation)) :
    Option (List Violation) := do
  match ← single? g role with
  | some id =>
    let m ← ctx.snapshot.member? id
    faults m
  | none => return []

def fieldCheck (profile : FieldBinding.Profile) (ctx : Context) (g : Group) :
    Option (List Violation) :=
  ofSingle ctx g 0 fun field => do
    let property ← ctx.snapshot.member? g.anchor
    return profile.faults ctx.config.types property field

def commandCheck (ctx : Context) (g : Group) : Option (List Violation) := do
  let types := ctx.config.types
  let execute ← ctx.snapshot.member? g.anchor
  let canExecuteFaults ← ofSingle ctx g Command.canExecuteRole fun canExecute =>
    some (methodFaults "can execute method" canExecute types.boolean)
  let propertyFaults ← ofSingle ctx g Command.propertyRole fun property =>
    (ofSingle ctx g Command.fieldRole fun field =>
      some (sameTypeFaults "property" property "field" field)).map
        (Command.propertyFaults types property ++ ·)
  return methodFaults "execute method" execute types.void ++ canExecuteFaults ++ propertyFaults

def check : BindingKind → Context → Group → Option (List Violation)
  | .property => fieldCheck Property.profile
  | .command => commandCheck
  | .dependency => fieldCheck Dependency.profile

def fieldBinding (s : Snapshot) (g : Group) : Option (FieldBinding Member) := do
  let property ← s.member? g.anchor
  let field ← (← single? g 0).mapM s.member?
  return ⟨property, field⟩

def commandBinding (s : Snapshot) (g : Group) : Option (CommandBinding Member) := do
  let execute ← s.member? g.anchor
  let canExecute ← (← single? g Command.canExecuteRole).mapM s.member?
  let property ← (← single? g Command.propertyRole).mapM s.member?
  let field ← (← single? g Command.fieldRole).mapM s.member?
  return ⟨execute, canExecute, property, field⟩

/-- The members of finished groups. -/
def ofGroups (kind : BindingKind) (s : Snapshot) (groups : List Group) : Option Bindings :=
  match kind with
  | .property => (groups.mapM (fieldBinding s)).map .property
  | .command => (groups.mapM (commandBinding s)).map .command
  | .dependency => (groups.mapM (fieldBinding s)).map .dependency

/-- As `Bindings.resolve`. -/
def bindings (kind : BindingKind) (config : Config) (s : Snapshot) (mode : Mode) :
    Option (Except Failure Bindings) := do
  let ctx := Context.of config s mode
  match ← resolve kind.rules (check kind ctx) ctx with
  | .ok groups => (ofGroups kind s groups).map .ok
  | .error failure => return .error failure

section

variable {rules : Rules} {ctx : Context} {spec : RoleSpec} {g : Group} {role : Nat}

theorem mapM_single?_eq (hg : g.Sound rules ctx) (hspec : rules.roles[role]? = some spec) :
    (g.single? role).mapM ctx.snapshot.member? = some ((g.single? role).map ctx.snapshot.member) := by
  cases hsingle : g.single? role with
  | none => rfl
  | some id =>
    have hmember := Snapshot.member?_eq_of_lt (hg.available_of_single? spec hspec hsingle).lt
    simp [hmember]

theorem ofSingle_eq (hg : g.Sound rules ctx) (hspec : rules.roles[role]? = some spec)
    {faults : Member → Option (List Violation)} {faults' : Member → List Violation}
    (h : ∀ m, faults m = some (faults' m)) :
    ofSingle ctx g role faults = some (match g.single? role with
      | some id => faults' (ctx.member id)
      | none => []) := by
  rw [ofSingle, single?_eq (hg.role_lt hspec)]
  cases hsingle : g.single? role with
  | none => rfl
  | some id =>
    have hmember := Snapshot.member?_eq_of_lt (hg.available_of_single? spec hspec hsingle).lt
    simp only [Option.bind_eq_bind, Option.bind_some, hmember, h, Context.member_eq]

theorem fieldCheck_eq {profile : FieldBinding.Profile} (hg : g.Sound profile.rules ctx) :
    fieldCheck profile ctx g = some (profile.rules.check ctx g) := by
  have hspec : profile.rules.roles[0]? = some profile.fieldSpec := rfl
  refine ofSingle_eq hg hspec ?_
  intro field
  rw [Snapshot.member?_eq_of_lt hg.available_anchor.lt]
  rfl

theorem commandCheck_eq (hg : g.Sound Command.rules ctx) :
    commandCheck ctx g = some (Command.rules.check ctx g) := by
  have hcanExecute : Command.rules.roles[Command.canExecuteRole]? = some Command.canExecuteSpec := rfl
  have hproperty : Command.rules.roles[Command.propertyRole]? = some Command.propertySpec := rfl
  have hfield : Command.rules.roles[Command.fieldRole]? = some Command.fieldSpec := rfl
  have hfieldFaults (property : Member) := ofSingle_eq hg hfield
    fun field => Eq.refl (some (sameTypeFaults "property" property "field" field))
  have hpropertyFaults := ofSingle_eq hg hproperty fun property =>
    congrArg (Option.map (Command.propertyFaults ctx.config.types property ++ ·))
      (hfieldFaults property)
  have hcanExecuteFaults := ofSingle_eq hg hcanExecute fun m =>
    Eq.refl (some (methodFaults "can execute method" m ctx.config.types.boolean))
  simp only [commandCheck, Snapshot.member?_eq_of_lt hg.available_anchor.lt, hcanExecuteFaults,
    hpropertyFaults, Option.bind_eq_bind, Option.bind_some]
  rfl

theorem check_eq (kind : BindingKind) (hg : g.Sound kind.rules ctx) :
    check kind ctx g = some (kind.rules.check ctx g) := by
  cases kind with
  | property | dependency => exact fieldCheck_eq hg
  | command => exact commandCheck_eq hg

theorem fieldBinding_eq {profile : FieldBinding.Profile} (hg : g.Sound profile.rules ctx) :
    fieldBinding ctx.snapshot g = some ((FieldBinding.ofGroup g).map ctx.snapshot.member) := by
  have hspec : profile.rules.roles[0]? = some profile.fieldSpec := rfl
  rw [fieldBinding, Snapshot.member?_eq_of_lt hg.available_anchor.lt, single?_eq (hg.role_lt hspec)]
  simp only [Option.bind_eq_bind, Option.bind_some, mapM_single?_eq hg hspec]
  rfl

theorem commandBinding_eq (hg : g.Sound Command.rules ctx) :
    commandBinding ctx.snapshot g = some ((CommandBinding.ofGroup g).map ctx.snapshot.member) := by
  have hcanExecute : Command.rules.roles[Command.canExecuteRole]? = some Command.canExecuteSpec := rfl
  have hproperty : Command.rules.roles[Command.propertyRole]? = some Command.propertySpec := rfl
  have hfield : Command.rules.roles[Command.fieldRole]? = some Command.fieldSpec := rfl
  rw [commandBinding, Snapshot.member?_eq_of_lt hg.available_anchor.lt,
    single?_eq (hg.role_lt hcanExecute), single?_eq (hg.role_lt hproperty),
    single?_eq (hg.role_lt hfield)]
  simp only [Option.bind_eq_bind, Option.bind_some, mapM_single?_eq hg hcanExecute,
    mapM_single?_eq hg hproperty, mapM_single?_eq hg hfield]
  rfl

end

theorem ofGroups_eq {kind : BindingKind} {ctx : Context} {groups : List Group}
    (h : ∀ g ∈ groups, g.Sound kind.rules ctx) :
    ofGroups kind ctx.snapshot groups = some (Bindings.ofGroups kind ctx.snapshot groups) := by
  cases kind with
  | property | dependency =>
    rw [ofGroups, mapM_eq_some_map fun g hg => fieldBinding_eq (h g hg), Bindings.ofGroups,
      List.map_map]
    rfl
  | command =>
    rw [ofGroups, mapM_eq_some_map fun g hg => commandBinding_eq (h g hg), Bindings.ofGroups,
      List.map_map]
    rfl

/-- The bindings of a kind are found without a member or a role missing. -/
theorem bindings_eq (kind : BindingKind) (config : Config) (s : Snapshot) (mode : Mode) :
    bindings kind config s mode = some (Bindings.resolve kind config s mode) := by
  have hresolve : resolve kind.rules (check kind (.of config s mode)) (.of config s mode) =
      some (kind.rules.resolve (.of config s mode)) :=
    resolve_eq kind.wellFormed_rules fun g hg => check_eq kind hg
  rw [Bindings.resolve_eq, bindings]
  simp only [hresolve, Option.bind_eq_bind, Option.bind_some]
  cases hgroups : kind.rules.resolve (.of config s mode) with
  | error failure => rfl
  | ok groups =>
    obtain ⟨-, rfl⟩ := Diagnostics.finish_ofList_eq_ok_iff.1 hgroups
    have hsound : ∀ g ∈ (kind.rules.run (.of config s mode)
        (kind.rules.reverseTable (.of config s mode))).groups,
        g.Sound kind.rules (.of config s mode) := fun g hg =>
      Rules.sound_of_holds kind.wellFormed_rules (Rules.holds_of_mem_run hg)
    exact congrArg (Option.map Except.ok) (ofGroups_eq hsound)

end Checked
/-! ## The whole of a resolution -/

/-- The members of an entry exist, are not excluded, and are of the kinds that their roles ask for. -/
structure ReverseLink.Sound (rules : Rules) (ctx : Context) (spec : RoleSpec) (r : ReverseLink) :
    Prop where
  owner : ctx.snapshot.Available spec.kind r.owner
  source : ctx.snapshot.Available (rules.source spec).kind r.source
  companion : ∀ role id, r.companion = some (role, id) → ∃ other,
    rules.roles[role]? = some other ∧ ctx.snapshot.Available other.kind id

/-- What a run keeps to while it fills the roles, and what it reports in the end. -/
structure Rules.InBounds (rules : Rules) (ctx : Context) : Prop where
  tables : ∀ (role : Nat) (spec : RoleSpec), rules.roles[role]? = some spec →
    ∃ links : List ReverseLink, (rules.reverseTable ctx)[role]? = some links ∧
      ∀ r ∈ links, r.Sound rules ctx spec
  anchors : ∀ (point : Point) (g : Group), rules.Holds ctx point g →
    ctx.snapshot.Available rules.anchor.kind g.anchor
  candidates : ∀ (point : Point) (g : Group), rules.Holds ctx point g →
    ∀ (role : Nat) (spec : RoleSpec), rules.roles[role]? = some spec →
      ∀ id ∈ g.candidates role, ctx.snapshot.Available spec.kind id
  length_eq : ∀ (point : Point) (g : Group), rules.Holds ctx point g →
    g.roles.length = rules.roles.length
  noRepeats : ∀ (point : Point) (g : Group), rules.Holds ctx point g → g.NoRepeats
  linking : ∀ (spec : RoleSpec) (role : Nat) (g : Group),
    g.Appends (rules.linkRole ctx (rules.reverseTable ctx) spec role g) role
  attaching : ∀ (role : Nat) (spec : RoleSpec), rules.roles[role]? = some spec → ∀ g : Group,
    (spec.companion = none → g.attach role ((rules.reverseTable ctx)[role]?.getD []) = g) ∧
    ∀ c, spec.companion = some c →
      g.Appends (g.attach role ((rules.reverseTable ctx)[role]?.getD [])) c.role
  roleNumbers : rules.resolve? ctx = some (rules.resolve ctx)
  /-- The groups of a run are those that it has come to once all roles are filled. -/
  finished : ∀ g : Group, g ∈ (rules.run ctx (rules.reverseTable ctx)).groups ↔
    rules.Holds ctx (.filled rules.roles.length) g
  multiplicity : ∀ g ∈ (rules.run ctx (rules.reverseTable ctx)).groups,
    ∀ (role : Nat) (spec : RoleSpec), rules.roles[role]? = some spec →
      2 ≤ (g.candidates role).length → ∃ source, g.sourceOf spec = some source ∧
        .multiConnect (rules.source spec).label (ctx.snapshot.member source).name spec.label
            ((g.candidates role).map fun id => (ctx.snapshot.member id).name) ∈
          rules.multiplicityFaults ctx g

namespace Rules

variable {rules : Rules} {ctx : Context} {spec : RoleSpec} {role : Nat} {g : Group}

theorem available_source {r : ReverseLink} (hr : r ∈ rules.reverseLinks ctx spec) :
    ctx.snapshot.Available (rules.source spec).kind r.source := by
  obtain ⟨-, l, -, first, second, hresolves, hsplit⟩ := mem_reverseLinks_iff.1 hr
  unfold RoleSpec.splitTargets at hsplit
  split at hsplit
  · obtain ⟨name, -, hsecond⟩ := hresolves.exists_secondName
    obtain ⟨order, -, htarget⟩ := map_eq_ok_iff.1 hsplit
    cases order with
    | asWritten =>
      rw [← congrArg ReverseTarget.source htarget]
      exact hresolves.first.toAvailable
    | swapped =>
      rw [← congrArg ReverseTarget.source htarget]
      exact hsecond.toAvailable
  · rw [← congrArg ReverseTarget.source (Except.ok.inj hsplit)]
    exact hresolves.first.toAvailable

theorem WellFormed.sound_of_mem_reverseLinks (hrules : rules.WellFormed) (hspec : spec ∈ rules.roles)
    {r : ReverseLink} (hr : r ∈ rules.reverseLinks ctx spec) : r.Sound rules ctx spec := by
  refine ⟨(mem_reverseLinks_iff.1 hr).1, available_source hr, ?_⟩
  intro role id hcompanion
  obtain ⟨⟨c, hc, rfl⟩, havailable⟩ := available_of_companion_eq hr hcompanion
  have hother := List.getElem?_eq_getElem (hrules.companion_lt spec hspec c hc)
  refine ⟨_, hother, ?_⟩
  rwa [hrules.companionsFit spec hspec c hc _ hother]

theorem attach_reverseLinks (g : Group) (role : Nat) :
    (spec.companion = none → g.attach role (rules.reverseLinks ctx spec) = g) ∧
    ∀ c, spec.companion = some c →
      g.Appends (g.attach role (rules.reverseLinks ctx spec)) c.role := by
  constructor
  · intro hnone
    exact Group.attach_of_companion_none fun r hr => companion_eq_none hnone hr
  · intro c hc
    refine g.appends_attach role ?_
    intro link hlink r id hcompanion
    exact companion_role_eq hc hlink hcompanion

theorem WellFormed.inBounds (hrules : rules.WellFormed) (ctx : Context) : rules.InBounds ctx where
  tables role spec hspec := by
    refine ⟨rules.reverseLinks ctx spec, by simp [reverseTable, hspec], ?_⟩
    exact fun r hr => hrules.sound_of_mem_reverseLinks (List.mem_of_getElem? hspec) hr
  anchors point g hg := (sound_of_holds hrules hg).available_anchor
  candidates point g hg role spec hspec := (sound_of_holds hrules hg).candidates hspec
  length_eq point g hg := (sound_of_holds hrules hg).length_eq
  noRepeats point g hg := (sound_of_holds hrules hg).reachable.noRepeats
  linking spec role g := by
    rw [linkRole_eq_addAll]
    exact g.appends_addAll role _
  attaching role spec hspec g := by
    rw [getElem?_reverseTable hspec]
    exact attach_reverseLinks g role
  roleNumbers := resolve?_eq_some hrules
  finished g := by
    refine ⟨holds_of_mem_run, ?_⟩
    rintro ⟨-, hmem⟩
    rwa [runAfter_length] at hmem
  multiplicity g hg role spec hspec hlength := by
    have hne : g.candidates role ≠ [] := List.ne_nil_of_length_pos (by omega)
    obtain ⟨source, hsource⟩ := exists_sourceOf_of_holds hrules hspec (holds_of_mem_run hg) hne
    exact ⟨source, hsource,
      mem_multiplicityFaults_iff.2 ⟨spec, role, hspec, source, hsource, hlength, rfl⟩⟩

theorem message_mem_of_mem_multiplicityFaults {v : Violation}
    (hg : g ∈ (rules.run ctx (rules.reverseTable ctx)).groups)
    (hv : v ∈ rules.multiplicityFaults ctx g) : v.message ∈ messagesOf (rules.resolve ctx) := by
  refine Diagnostics.mem_messagesOf_finish_iff.2 ⟨v, ?_, rfl⟩
  refine List.mem_append_right _ (List.mem_flatMap.2 ⟨g, hg, ?_⟩)
  exact List.mem_append_left _ (List.mem_append_left _ hv)

end Rules

/-- For every kind of binding a run stays within the members and the roles that there are. The
property of a command is one at most once it is split, and its field has one to start from. Looking
up all members and roles, nothing is ever missing. A role with several candidates has a source, and
what is wrong with it is among the messages. -/
theorem BindingKind.resolution_inBounds (kind : BindingKind) (config : Config) (s : Snapshot)
    (mode : Mode) :
    kind.rules.InBounds (.of config s mode) ∧
    (∀ point g, Command.rules.Holds (.of config s mode) point g →
      (Command.propertyRole < point.splitRoles → (g.candidates Command.propertyRole).length ≤ 1) ∧
      (g.candidates Command.fieldRole ≠ [] → ∃ p, g.candidates Command.propertyRole = [p])) ∧
    Checked.bindings kind config s mode = some (Bindings.resolve kind config s mode) ∧
    ∀ g ∈ (kind.rules.run (.of config s mode) (kind.rules.reverseTable (.of config s mode))).groups,
      ∀ v ∈ kind.rules.multiplicityFaults (.of config s mode) g,
        v.message ∈ messagesOf (Bindings.resolve kind config s mode) := by
  refine ⟨kind.wellFormed_rules.inBounds _, ?_, Checked.bindings_eq kind config s mode, ?_⟩
  · intro point g hg
    have hspec : Command.rules.roles[Command.fieldRole]? = some Command.fieldSpec := rfl
    have hfed : g.Fed Command.propertyRole Command.fieldRole point.linkedRoles point.splitRoles :=
      Rules.fed_of_holds Command.wellFormed_rules hspec rfl hg
    exact ⟨hfed.settled, hfed.fed⟩
  · intro g hg v hv
    rw [Bindings.resolve_eq, messagesOf_map]
    exact Rules.message_mem_of_mem_multiplicityFaults hg hv

/-- A command with two properties, one of which names a second method that tells whether it can
execute. -/
def sharedSave : Snapshot where
  name := "Document"
  members := [
    .method "ExecuteSaveMethod" "System.Void",
    .method "CanExecuteSaveMethod" "System.Boolean",
    .method "MaySave" "System.Boolean",
    (Member.property "SaveCommand" "System.Windows.Input.ICommand").withLink
      ⟨.commandMethods, "ExecuteSaveMethod", some "MaySave"⟩,
    (Member.property "SaveNow" "System.Windows.Input.ICommand").withLink
      ⟨.commandMethods, "ExecuteSaveMethod", none⟩,
    .field "saveCommand" "System.Windows.Input.ICommand"]

theorem BindingKind.resolution_inBounds_sharedSave :
    Command.rules.Holds (.of {} sharedSave .all) (.filled 3) ⟨0, [[1, 2], [3], [5]]⟩ ∧
    sharedSave.Available .method 2 ∧
    (∃ source, Group.sourceOf ⟨0, [[1, 2], [3], [5]]⟩ Command.canExecuteSpec = some source) ∧
    Checked.bindings .command {} sharedSave .all =
      some (Bindings.resolve .command {} sharedSave .all) ∧
    (Violation.multiConnect "execute method" "ExecuteSaveMethod" "can execute method"
        ["CanExecuteSaveMethod", "MaySave"]).message ∈
      messagesOf (Bindings.resolve .command {} sharedSave .all) := by
  obtain ⟨hbounds, -, hchecked, hmessages⟩ :=
    BindingKind.resolution_inBounds .command {} sharedSave .all
  have hgroups : (Command.rules.run (.of {} sharedSave .all)
      (Command.rules.reverseTable (.of {} sharedSave .all))).groups =
      [⟨0, [[1, 2], [3], [5]]⟩, ⟨0, [[1], [4], []]⟩] := rfl
  have hmem : (⟨0, [[1, 2], [3], [5]]⟩ : Group) ∈ (Command.rules.run (.of {} sharedSave .all)
      (Command.rules.reverseTable (.of {} sharedSave .all))).groups := by
    rw [hgroups]
    exact List.mem_cons_self
  have hholds := (hbounds.finished _).1 hmem
  have hspec : command.rules.roles[0]? = some Command.canExecuteSpec := rfl
  obtain ⟨source, hsource, hfault⟩ := hbounds.multiplicity _ hmem 0 _ hspec (by decide)
  have hlast : 2 ∈ Group.candidates ⟨0, [[1, 2], [3], [5]]⟩ 0 := by decide
  refine ⟨hholds, hbounds.candidates _ _ hholds 0 _ hspec 2 hlast, ⟨source, hsource⟩, hchecked, ?_⟩
  obtain rfl : 0 = source := Option.some.inj hsource
  exact hmessages _ hmem _ hfault

end MemberBinding
