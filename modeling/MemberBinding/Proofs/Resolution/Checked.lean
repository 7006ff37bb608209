import MemberBinding.Proofs.Resolution.Invariants

/-!
# A run that looks before it reads

The same resolution once more, except that every member is looked up by its position and every role
by its number, and that nothing comes of it as soon as one of them does not exist. Main statement:
`Checked.resolve_eq`, by which something always does.
-/

namespace MemberBinding

theorem mapM_eq_some_map {α β : Type} {f : α → Option β} {g : α → β} {xs : List α}
    (h : ∀ x ∈ xs, f x = some (g x)) : xs.mapM f = some (xs.map g) := by
  induction xs with
  | nil => rfl
  | cons x xs ih =>
    rw [List.mapM_cons, h x List.mem_cons_self, ih fun y hy => h y (List.mem_cons_of_mem _ hy)]
    rfl

/-- All the lists that a function gives, one after the other. -/
def Checked.collect {α β : Type} (f : α → Option (List β)) (xs : List α) : Option (List β) :=
  (xs.mapM f).map List.flatten

theorem Checked.collect_eq {α β : Type} {f : α → Option (List β)} {g : α → List β} {xs : List α}
    (h : ∀ x ∈ xs, f x = some (g x)) : collect f xs = some (xs.flatMap g) := by
  rw [collect, mapM_eq_some_map h, Option.map_some, List.flatMap_def]

theorem Snapshot.member?_eq_of_lt {s : Snapshot} {id : Nat} (h : id < s.members.length) :
    s.member? id = some (s.member id) :=
  member?_eq_some_iff_member.2 ⟨h, rfl⟩

theorem Group.getElem?_roles {g : Group} {role : Nat} (h : role < g.roles.length) :
    g.roles[role]? = some (g.candidates role) := by
  rw [candidates, List.getElem?_eq_getElem h]
  rfl

theorem NameIndex.lt_of_mem_lookup {s : Snapshot} {kind : MemberKind} {name : String} {id : Nat}
    (h : id ∈ (ofSnapshot s).lookup kind name) : id < s.members.length := by
  rw [lookup_ofSnapshot] at h
  exact (Snapshot.mem_named_iff_member.1 h).1

namespace Checked

variable (rules : Rules) (ctx : Context) (table : List (List ReverseLink)) (spec : RoleSpec)

/-! ## Targets of links -/

def target (kind : MemberKind) (name : String) : Option (Except TargetFault Nat) :=
  match ctx.index.lookup kind name with
  | [] => some (.error .notFound)
  | [id] => do
    let m ← ctx.snapshot.member? id
    return if m.isExcluded then .error .excluded else .ok id
  | _ => some (.error .ambiguous)

def linkTarget (kind : MemberKind) (label name : String) (site : LinkSite) :
    Option (Except Violation Nat) := do
  let found ← target ctx kind name
  return found.mapError (·.violation label name site)

theorem target_eq (kind : MemberKind) (name : String) :
    target ctx kind name = some (ctx.target kind name) := by
  unfold target Context.target
  cases hids : ctx.index.lookup kind name with
  | nil => rfl
  | cons id rest =>
    cases rest with
    | nil =>
      have hlt : id < ctx.snapshot.members.length := by
        rw [ctx.index_eq] at hids
        exact NameIndex.lt_of_mem_lookup (hids ▸ List.mem_singleton_self id)
      simp only [Snapshot.member?_eq_of_lt hlt]
      rfl
    | cons other rest => rfl

@[simp] theorem linkTarget_eq (kind : MemberKind) (label name : String) (site : LinkSite) :
    linkTarget ctx kind label name site = some (ctx.linkTarget kind label name site) := by
  rw [linkTarget, target_eq]
  rfl

def source : Option Slot :=
  match spec.origin with
  | .anchor => some rules.anchor
  | .role i => do
    let other ← rules.roles[i]?
    return other.toSlot

variable {rules ctx table spec}

theorem source_eq (hrules : rules.WellFormed) (hspec : spec ∈ rules.roles) :
    source rules spec = some (rules.source spec) := by
  unfold source Rules.source
  cases horigin : spec.origin with
  | anchor => rfl
  | role i =>
    simp only [List.getElem?_eq_getElem (hrules.lt_of_origin hspec horigin)]
    rfl

/-! ## Reverse links -/

def reverseLink (rules : Rules) (ctx : Context) (role : Nat) (owner : Member × Nat) (link : Link) :
    Option (Except (List Violation) ReverseLink) := do
  let spec ← rules.roles[role]?
  let slot ← source rules spec
  let site := spec.reverseSite owner.1 link
  let first ← linkTarget ctx slot.kind slot.label link.name site
  match link.secondName with
  | none =>
    match first with
    | .ok first =>
      let split ← rules.splitTargets? ctx role owner.1 link first none
      return ReverseLink.ofTarget owner.2 split
    | .error v => return .error [v]
  | some name =>
    let second ← linkTarget ctx slot.kind (spec.secondLabel.getD slot.label) name site
    match first, second with
    | .ok first, .ok second =>
      let split ← rules.splitTargets? ctx role owner.1 link first (some second)
      return ReverseLink.ofTarget owner.2 split
    | first, second => return .error (reported first ++ reported second)

def reverseOutcomes (rules : Rules) (ctx : Context) (role : Nat) :
    Option (List (Except (List Violation) ReverseLink)) := do
  let spec ← rules.roles[role]?
  let owners := (ctx.snapshot.ofKind spec.kind).filter fun e => !e.1.isExcluded
  collect (fun owner => (owner.1.linksOf spec.reverse).mapM (reverseLink rules ctx role owner)) owners

section

variable {role : Nat} (hspec : rules.roles[role]? = some spec)
include hspec

theorem splitTargets?_eq {first : Nat} {second : Option Nat}
    (hfirst : first < ctx.snapshot.members.length)
    (hsecond : ∀ id, second = some id → id < ctx.snapshot.members.length) (owner : Member)
    (link : Link) : rules.splitTargets? ctx role owner link first second =
      some (spec.splitTargets ctx (spec.reverseSite owner link) first second) := by
  have hknown : second.all (fun id => (ctx.snapshot.member? first).isSome &&
      (ctx.snapshot.member? id).isSome) = true := by
    cases second with
    | none => rfl
    | some id =>
      rw [Option.all_some, Snapshot.member?_eq_of_lt hfirst,
        Snapshot.member?_eq_of_lt (hsecond id rfl)]
      rfl
  unfold Rules.splitTargets?
  rw [hspec]
  exact if_pos (Bool.or_eq_true_iff.2 (.inr hknown))

theorem reverseLink_eq (hrules : rules.WellFormed) (owner : Member × Nat) (link : Link) :
    reverseLink rules ctx role owner link = some (rules.reverseLink ctx spec owner link) := by
  have hlt {kind label name site id} (h : ctx.linkTarget kind label name site = .ok id) :
      id < ctx.snapshot.members.length := (Context.linkTarget_eq_ok_iff.1 h).lt
  unfold reverseLink Rules.reverseLink
  simp only [hspec, source_eq hrules (List.mem_of_getElem? hspec), linkTarget_eq,
    Option.bind_eq_bind, Option.bind_some]
  generalize hfirst : ctx.linkTarget _ (rules.source spec).label _ _ = first
  cases link.secondName with
  | none =>
    cases first with
    | ok first =>
      dsimp only
      rw [splitTargets?_eq hspec (hlt hfirst) (by simp)]
      rfl
    | error v => rfl
  | some name =>
    dsimp only
    generalize hsecond : ctx.linkTarget _ (spec.secondLabel.getD _) _ _ = second
    cases first with
    | ok first =>
      cases second with
      | ok second =>
        dsimp only
        rw [splitTargets?_eq hspec (hlt hfirst) fun id hid => Option.some.inj hid ▸ hlt hsecond]
        rfl
      | error v => rfl
    | error v => rfl

theorem reverseOutcomes_eq (hrules : rules.WellFormed) :
    reverseOutcomes rules ctx role = some (rules.reverseOutcomes ctx spec) := by
  have hlinks (owner : Member × Nat) : (owner.1.linksOf spec.reverse).mapM
      (reverseLink rules ctx role owner) =
      some ((owner.1.linksOf spec.reverse).map (rules.reverseLink ctx spec owner)) :=
    mapM_eq_some_map fun link _ => reverseLink_eq hspec hrules owner link
  rw [reverseOutcomes, hspec]
  exact collect_eq fun owner _ => hlinks owner

end

/-! ## Groups -/

/-- The only candidate of a role, if it has just one. -/
def single? (g : Group) (role : Nat) : Option (Option Nat) := do
  let cs ← g.roles[role]?
  return match cs with
    | [c] => some c
    | _ => none

def sourceOf (g : Group) (spec : RoleSpec) : Option (Option Nat) :=
  match spec.origin with
  | .anchor => some (some g.anchor)
  | .role i => single? g i

def add (g : Group) (role c : Nat) : Option Group := do
  let cs ← g.roles[role]?
  return { g with roles := g.roles.set role (Group.insertNew cs c) }

def addAll (g : Group) (role : Nat) (cs : List Nat) : Option Group := cs.foldlM (add · role ·) g

def explode (g : Group) (role : Nat) : Option (List Group) := do
  let cs ← g.roles[role]?
  return if cs.length ≤ 1 then [g] else cs.map (g.choose role)

def attachOne (g : Group) (role : Nat) (link : ReverseLink) : Option Group :=
  match link.companion with
  | none => some g
  | some (r, c) => do
    let cs ← g.roles[role]?
    if link.source == g.anchor && cs.contains link.owner then add g r c else return g

def attach (g : Group) (role : Nat) (links : List ReverseLink) : Option Group :=
  links.foldlM (attachOne · role ·) g

section

variable {g : Group} {role : Nat}

theorem single?_eq (hrole : role < g.roles.length) : single? g role = some (g.single? role) := by
  simp only [single?, Group.getElem?_roles hrole, Option.bind_eq_bind, Option.bind_some,
    Option.pure_def]
  rfl

theorem sourceOf_eq (hrules : rules.WellFormed) (hspec : spec ∈ rules.roles)
    (hlength : g.roles.length = rules.roles.length) : sourceOf g spec = some (g.sourceOf spec) := by
  unfold sourceOf Group.sourceOf
  cases horigin : spec.origin with
  | anchor => rfl
  | role i =>
    refine single?_eq ?_
    rw [hlength]
    exact hrules.lt_of_origin hspec horigin

theorem add_eq (hrole : role < g.roles.length) (c : Nat) : add g role c = some (g.add role c) := by
  simp only [add, Group.getElem?_roles hrole, Option.bind_eq_bind, Option.bind_some, Option.pure_def,
    Group.add, List.modify_eq_set_getElem?]
  rfl

theorem addAll_eq (hrole : role < g.roles.length) (cs : List Nat) :
    addAll g role cs = some (g.addAll role cs) := by
  induction cs generalizing g with
  | nil => rfl
  | cons c cs ih =>
    have hrole' : role < (g.add role c).roles.length := by
      rwa [(g.sameBut_add role c).length_eq]
    rw [addAll, List.foldlM_cons, add_eq hrole]
    exact ih hrole'

theorem explode_eq (hrole : role < g.roles.length) : explode g role = some (g.explode role) := by
  simp only [explode, Group.getElem?_roles hrole, Option.bind_eq_bind, Option.bind_some,
    Option.pure_def]
  rfl

theorem attachOne_eq (hrole : role < g.roles.length) {link : ReverseLink}
    (hlink : ∀ r c, link.companion = some (r, c) → r < g.roles.length) :
    attachOne g role link = some (g.attachOne role link) := by
  unfold attachOne Group.attachOne Group.carried
  cases hcompanion : link.companion with
  | none => simp
  | some e =>
    obtain ⟨r, c⟩ := e
    simp only [Group.getElem?_roles hrole, add_eq (hlink r c hcompanion) c, Option.bind_eq_bind,
      Option.bind_some, Option.pure_def]
    split <;> rfl

theorem attach_eq {links : List ReverseLink} (hrole : role < g.roles.length)
    (hlinks : ∀ link ∈ links, ∀ r c, link.companion = some (r, c) → r < g.roles.length) :
    attach g role links = some (g.attach role links) := by
  induction links generalizing g with
  | nil => rfl
  | cons link links ih =>
    have hlength : (g.attachOne role link).roles.length = g.roles.length :=
      g.length_attach role [link]
    rw [attach, List.foldlM_cons, attachOne_eq hrole (hlinks link List.mem_cons_self)]
    refine ih (by rwa [hlength]) ?_
    rw [hlength]
    exact fun l hl => hlinks l (List.mem_cons_of_mem _ hl)

end

/-! ## Filling a role -/

def namedCandidates (ctx : Context) (spec : RoleSpec) (slot : Slot) (m : Member) :
    Option (List Nat) :=
  match ctx.config.conventions.convert m.name slot.naming spec.naming with
  | .ok name => do
    let entries ← (ctx.index.lookup spec.kind name).mapM fun id =>
      (ctx.snapshot.member? id).map (·, id)
    return (entries.filter fun e => !e.1.isExcluded).map (·.2)
  | .error _ => some []

/-- What is found for a role, and what is reported on the way. -/
def found (rules : Rules) (ctx : Context) (table : List (List ReverseLink)) (spec : RoleSpec)
    (role source : Nat) : Option (List Nat × List Violation) := do
  let m ← ctx.snapshot.member? source
  let slot ← Checked.source rules spec
  let links ← table[role]?
  let owners := (links.filter (·.source == source)).map (·.owner)
  let carried := table.flatten.any fun l => l.source == source && (l.companion.map (·.1)) == some role
  let explicit := !(m.linksOf spec.forward).isEmpty || !owners.isEmpty || carried
  let searches := !m.requiresExplicitLink && !(ctx.config.options.preferExplicit && explicit)
  let named ← if searches then namedCandidates ctx spec slot m else some []
  let forward ← (m.linksOf spec.forward).mapM fun link =>
    linkTarget ctx spec.kind spec.label link.name ⟨link.kind, slot.label, m.name⟩
  return (named ++ forward.filterMap Except.toOption ++ owners, forward.flatMap reported)

def linkRole (rules : Rules) (ctx : Context) (table : List (List ReverseLink)) (spec : RoleSpec)
    (role : Nat) (g : Group) : Option (Group × List Violation) := do
  match ← sourceOf g spec with
  | some source =>
    let (ids, faults) ← found rules ctx table spec role source
    let g ← addAll g role ids
    return (g, faults)
  | none => return (g, [])

/-- The groups once a role has been split, if it is one to be split. -/
def splitGroups (spec : RoleSpec) (role : Nat) (groups : List Group) : Option (List Group) :=
  if spec.explodes then collect (explode · role) groups else some groups

/-- The groups and the reports once a role is filled. -/
def step (rules : Rules) (ctx : Context) (table : List (List ReverseLink))
    (run : List Group × List Violation) (entry : RoleSpec × Nat) :
    Option (List Group × List Violation) := do
  let (spec, role) := entry
  let linked ← run.1.mapM (linkRole rules ctx table spec role)
  let split ← splitGroups spec role (linked.map (·.1))
  let links ← table[role]?
  let attached ← split.mapM (attach · role links)
  return (attached, run.2 ++ linked.flatMap (·.2))

section

variable {role source : Nat} {g : Group} (hrules : rules.WellFormed)
  (hspec : rules.roles[role]? = some spec)

theorem namedCandidates_eq :
    namedCandidates ctx spec (rules.source spec) (ctx.snapshot.member source) =
      some (rules.namedCandidates ctx spec source) := by
  unfold namedCandidates Rules.namedCandidates
  rw [Context.member_eq]
  cases ctx.config.conventions.convert (ctx.snapshot.member source).name _ _ with
  | error e => rfl
  | ok name =>
    have hentries : (ctx.index.lookup spec.kind name).mapM
        (fun id => (ctx.snapshot.member? id).map (·, id)) =
        some ((ctx.index.lookup spec.kind name).map fun id => (ctx.snapshot.member id, id)) := by
      refine mapM_eq_some_map ?_
      intro id hid
      rw [ctx.index_eq] at hid
      rw [Snapshot.member?_eq_of_lt (NameIndex.lt_of_mem_lookup hid)]
      rfl
    simp only [hentries, Option.bind_eq_bind, Option.bind_some, Option.pure_def, List.filter_map,
      List.map_map, Function.comp_def, List.map_id', Context.member_eq]

include hrules hspec

theorem found_eq (hsource : source < ctx.snapshot.members.length) :
    found rules ctx (rules.reverseTable ctx) spec role source =
      some (rules.found ctx (rules.reverseTable ctx) spec role source,
        (rules.forwardOutcomes ctx spec source).flatMap reported) := by
  have htable : (rules.reverseTable ctx)[role]? = some (rules.reverseLinks ctx spec) := by
    simp [Rules.reverseTable, hspec]
  have hforward : ((ctx.snapshot.member source).linksOf spec.forward).mapM (fun link =>
      linkTarget ctx spec.kind spec.label link.name
        ⟨link.kind, (rules.source spec).label, (ctx.snapshot.member source).name⟩) =
      some (rules.forwardOutcomes ctx spec source) :=
    mapM_eq_some_map fun link _ => linkTarget_eq ..
  have howners : Rules.reverseOwners (rules.reverseTable ctx) role source =
      ((rules.reverseLinks ctx spec).filter (·.source == source)).map (·.owner) := by
    rw [Rules.reverseOwners, htable]
    rfl
  simp only [found, Snapshot.member?_eq_of_lt hsource, source_eq hrules (List.mem_of_getElem? hspec),
    htable, namedCandidates_eq, hforward, Option.bind_eq_bind, Option.bind_some, Option.pure_def]
  simp only [Rules.found, Rules.searchesByName, Rules.hasExplicit, howners, Context.member_eq]
  split <;> rfl

theorem linkRole_eq (hg : g.Sound rules ctx) :
    linkRole rules ctx (rules.reverseTable ctx) spec role g =
      some (rules.linkRole ctx (rules.reverseTable ctx) spec role g, rules.linkFaults ctx spec g) := by
  have hmem := List.mem_of_getElem? hspec
  have hrole := hg.role_lt hspec
  simp only [linkRole, sourceOf_eq hrules hmem hg.length_eq, Option.bind_eq_bind, Option.bind_some]
  unfold Rules.linkRole Rules.linkFaults
  cases hsource : g.sourceOf spec with
  | none => rfl
  | some source =>
    have hfound := found_eq hrules hspec (hg.source_lt hrules hmem hsource)
    simp only [hfound, addAll_eq hrole, Option.bind_some, Option.pure_def]

theorem attach_links_eq (hg : g.Sound rules ctx) :
    attach g role (rules.reverseLinks ctx spec) =
      some (g.attach role (rules.reverseLinks ctx spec)) := by
  refine attach_eq (hg.role_lt hspec) ?_
  intro link hlink r c hcompanion
  exact hg.companion_lt hrules (List.mem_of_getElem? hspec) hlink hcompanion

theorem splitGroups_eq {groups : List Group} (hgroups : ∀ g ∈ groups, g.Sound rules ctx) :
    splitGroups spec role (groups.map (rules.linkRole ctx (rules.reverseTable ctx) spec role)) =
      some (rules.splitGroups ctx (rules.reverseTable ctx) spec role groups) := by
  unfold splitGroups Rules.splitGroups
  cases spec.explodes with
  | false => rfl
  | true =>
    refine collect_eq ?_
    intro linked hmem
    obtain ⟨g, hg, rfl⟩ := List.mem_map.1 hmem
    exact explode_eq ((Rules.sound_linkRole hrules hspec (hgroups g hg)).role_lt hspec)

/-- Whatever a step looks up is there. -/
theorem step_eq {run : Run} (hrun : ∀ g ∈ run.groups, g.Sound rules ctx) :
    step rules ctx (rules.reverseTable ctx) (run.groups, run.faults) (spec, role) =
      some ((rules.step ctx (rules.reverseTable ctx) run (spec, role)).groups,
        (rules.step ctx (rules.reverseTable ctx) run (spec, role)).faults) := by
  have htable : (rules.reverseTable ctx)[role]? = some (rules.reverseLinks ctx spec) := by
    simp [Rules.reverseTable, hspec]
  have hlinked := mapM_eq_some_map fun g hg => linkRole_eq hrules hspec (hrun g hg)
  have hattached := mapM_eq_some_map fun g hg =>
    attach_links_eq hrules hspec (Rules.sound_of_mem_splitGroups hrules hspec hrun hg)
  simp only [step, hlinked, List.map_map, Function.comp_def, splitGroups_eq hrules hspec hrun, htable,
    hattached, Option.bind_eq_bind, Option.bind_some, Option.pure_def, Rules.step,
    Option.getD_some, List.flatMap_map]

omit hspec in
theorem foldlM_step_eq {entries : List (RoleSpec × Nat)}
    (hentries : ∀ e ∈ entries, rules.roles[e.2]? = some e.1) {run : Run}
    (hrun : ∀ g ∈ run.groups, g.Sound rules ctx) :
    entries.foldlM (step rules ctx (rules.reverseTable ctx)) (run.groups, run.faults) =
      some ((entries.foldl (rules.step ctx (rules.reverseTable ctx)) run).groups,
        (entries.foldl (rules.step ctx (rules.reverseTable ctx)) run).faults) := by
  induction entries generalizing run with
  | nil => rfl
  | cons entry entries ih =>
    have hentry := hentries entry List.mem_cons_self
    rw [List.foldlM_cons, step_eq hrules hentry hrun]
    exact ih (fun e he => hentries e (List.mem_cons_of_mem _ he))
      fun g hg => Rules.sound_of_mem_step hrules hentry hrun hg

end

/-! ## Checks -/

def multiplicityFaults (rules : Rules) (ctx : Context) (g : Group) : Option (List Violation) :=
  rules.roles.zipIdx |> collect fun (spec, role) => do
    let candidates ← g.roles[role]?
    match ← sourceOf g spec with
    | some source =>
      if candidates.length < 2 then return []
      else
        let slot ← Checked.source rules spec
        let m ← ctx.snapshot.member? source
        let members ← candidates.mapM ctx.snapshot.member?
        return [.multiConnect slot.label m.name spec.label (members.map Member.name)]
    | none => return []

def requiredFaults (rules : Rules) (ctx : Context) (g : Group) : Option (List Violation) :=
  rules.roles.zipIdx |> collect fun (spec, role) => do
    let candidates ← g.roles[role]?
    match ← sourceOf g spec with
    | some source =>
      let slot ← Checked.source rules spec
      let m ← ctx.snapshot.member? source
      return if spec.required && candidates.isEmpty && m.requiresExplicitLink then
        [.missingRequiredLink spec.label slot.label m.name] else []
    | none => return []

section

variable {g : Group} (hrules : rules.WellFormed) (hg : g.Sound rules ctx)
include hrules hg

theorem multiplicityFaults_eq :
    multiplicityFaults rules ctx g = some (rules.multiplicityFaults ctx g) := by
  refine collect_eq ?_
  rintro ⟨spec, role⟩ hentry
  have hspec := rules.getElem?_of_mem_zipIdx (spec, role) hentry
  have hmem := List.mem_of_getElem? hspec
  have hrole := hg.role_lt hspec
  have hmembers : (g.candidates role).mapM ctx.snapshot.member? =
      some ((g.candidates role).map ctx.snapshot.member) :=
    mapM_eq_some_map fun id hid => Snapshot.member?_eq_of_lt (hg.candidates hspec id hid).lt
  simp only [Group.getElem?_roles hrole, sourceOf_eq hrules hmem hg.length_eq, hmembers,
    source_eq hrules hmem, Option.bind_eq_bind, Option.bind_some, Option.pure_def]
  cases hsource : g.sourceOf spec with
  | none => rfl
  | some source =>
    simp only [Snapshot.member?_eq_of_lt (hg.source_lt hrules hmem hsource), Option.bind_some,
      List.map_map]
    split <;> rfl

theorem requiredFaults_eq :
    requiredFaults rules ctx g = some (rules.requiredFaults ctx g) := by
  refine collect_eq ?_
  rintro ⟨spec, role⟩ hentry
  have hspec := rules.getElem?_of_mem_zipIdx (spec, role) hentry
  have hmem := List.mem_of_getElem? hspec
  have hrole := hg.role_lt hspec
  simp only [Group.getElem?_roles hrole, sourceOf_eq hrules hmem hg.length_eq,
    source_eq hrules hmem, Option.bind_eq_bind, Option.bind_some, Option.pure_def]
  cases hsource : g.sourceOf spec with
  | none => rfl
  | some source =>
    simp only [Snapshot.member?_eq_of_lt (hg.source_lt hrules hmem hsource), Option.bind_some]
    rfl

end

/-- What is wrong with a group, given the checks of the kind of binding. -/
def groupFaults (rules : Rules) (check : Group → Option (List Violation)) (ctx : Context)
    (g : Group) : Option (List Violation) := do
  let multiplicity ← multiplicityFaults rules ctx g
  let required ← requiredFaults rules ctx g
  let shape ← check g
  return multiplicity ++ required ++ shape

theorem groupFaults_eq (hrules : rules.WellFormed) {check : Group → Option (List Violation)}
    (hcheck : ∀ g, g.Sound rules ctx → check g = some (rules.check ctx g)) {g : Group}
    (hg : g.Sound rules ctx) : groupFaults rules check ctx g = some (rules.groupFaults ctx g) := by
  rw [groupFaults, multiplicityFaults_eq hrules hg, requiredFaults_eq hrules hg, hcheck g hg]
  rfl

/-! ## A whole run -/

/-- As `Rules.resolve`, given the checks of the kind of binding. -/
def resolve (rules : Rules) (check : Group → Option (List Violation)) (ctx : Context) :
    Option (Except Failure (List Group)) := do
  let outcomes ← rules.roles.zipIdx.mapM fun e => reverseOutcomes rules ctx e.2
  let table := outcomes.map (·.filterMap Except.toOption)
  let tables ← rules.roles.zipIdx.mapM fun e => table[e.2]?
  let (groups, linkFaults) ←
    rules.roles.zipIdx.foldlM (step rules ctx table) (rules.seeds ctx tables, [])
  let faults ← collect (groupFaults rules check ctx) groups
  let reverseFaults := outcomes.flatMap (·.flatMap fun outcome => (reported outcome).flatten)
  let reports := rules.markFaults ctx ++ reverseFaults ++ rules.anchorFaults ctx tables ++
    linkFaults ++ faults
  return (Diagnostics.ofList reports).finish rules.kind groups

theorem map_zipIdx {β : Type} (f : RoleSpec → β) :
    rules.roles.zipIdx.map (fun e => f e.1) = rules.roles.map f := by
  conv_rhs => rw [← List.zipIdx_map_fst 0 rules.roles, List.map_map]
  rfl

theorem foldlM_run_eq (hrules : rules.WellFormed) :
    rules.roles.zipIdx.foldlM (step rules ctx (rules.reverseTable ctx))
        (rules.seeds ctx (rules.reverseTable ctx), []) =
      some ((rules.run ctx (rules.reverseTable ctx)).groups,
        (rules.run ctx (rules.reverseTable ctx)).faults) := by
  have hseeds : ∀ g ∈ ({ groups := rules.seeds ctx (rules.reverseTable ctx) } : Run).groups,
      g.Sound rules ctx := fun _ hg => .of_mem_seeds hg
  exact foldlM_step_eq hrules rules.getElem?_of_mem_zipIdx hseeds

/-- Whatever a run looks up is there, if that holds of the checks. -/
theorem resolve_eq (hrules : rules.WellFormed) {check : Group → Option (List Violation)}
    (hcheck : ∀ g, g.Sound rules ctx → check g = some (rules.check ctx g)) :
    resolve rules check ctx = some (rules.resolve ctx) := by
  have hentries := rules.getElem?_of_mem_zipIdx
  have houtcomes : rules.roles.zipIdx.mapM (fun e => reverseOutcomes rules ctx e.2) =
      some (rules.roles.map (rules.reverseOutcomes ctx)) := by
    rw [mapM_eq_some_map fun e he => reverseOutcomes_eq (hentries e he) hrules, map_zipIdx]
  have htable : (rules.roles.map (rules.reverseOutcomes ctx)).map (·.filterMap Except.toOption) =
      rules.reverseTable ctx := List.map_map
  have htables : rules.roles.zipIdx.mapM (fun e => (rules.reverseTable ctx)[e.2]?) =
      some (rules.reverseTable ctx) := by
    have hlookup : ∀ e ∈ rules.roles.zipIdx,
        (rules.reverseTable ctx)[e.2]? = some (rules.reverseLinks ctx e.1) := by
      intro e he
      simp [Rules.reverseTable, hentries e he]
    rw [mapM_eq_some_map hlookup, map_zipIdx]
    rfl
  have hfaults := collect_eq fun g hg => groupFaults_eq hrules hcheck
    (Rules.sound_of_holds hrules (Rules.holds_of_mem_run hg))
  simp only [resolve, houtcomes, htable, htables, foldlM_run_eq hrules, hfaults, Option.bind_eq_bind,
    Option.bind_some, Option.pure_def, List.flatMap_map]
  rfl

end Checked
end MemberBinding
