import MemberBinding.Proofs.Resolution.Groups
import MemberBinding.Proofs.Resolution.Placed
import MemberBinding.Proofs.Resolution.Points

/-!
# What every group of a run satisfies

At every point of a run the members of a group belong where they are, without repeats; a role that
starts from another one has candidates only where that one has a single member. Main statements:
`Rules.sound_of_holds` and `Rules.fed_of_holds`.
-/

namespace MemberBinding

/-! ## Rules without gaps -/

/-- A companion goes to a role that exists and asks for its members. A role that starts from another
one starts from an earlier one, which is split, and companions go to neither of the two. -/
structure Rules.WellFormed (rules : Rules) : Prop where
  companionsFit : rules.CompanionsFit
  companion_lt : ∀ spec ∈ rules.roles, ∀ c, spec.companion = some c → c.role < rules.roles.length
  origin_lt : ∀ {role : Nat} {spec : RoleSpec} {source : Nat}, rules.roles[role]? = some spec →
    spec.origin = .role source → source < role
  explodes_origin : ∀ {role : Nat} {spec : RoleSpec} {source : Nat} {other : RoleSpec},
    rules.roles[role]? = some spec → spec.origin = .role source →
    rules.roles[source]? = some other → other.explodes = true
  companion_ne : ∀ {role : Nat} {spec : RoleSpec} {source : Nat}, rules.roles[role]? = some spec →
    spec.origin = .role source → ∀ other ∈ rules.roles, ∀ c, other.companion = some c →
    c.role ≠ source ∧ c.role ≠ role

theorem Rules.WellFormed.lt_of_origin {rules : Rules} (h : rules.WellFormed) {spec : RoleSpec}
    {source : Nat} (hspec : spec ∈ rules.roles) (horigin : spec.origin = .role source) :
    source < rules.roles.length := by
  obtain ⟨role, hrole⟩ := List.mem_iff_getElem?.1 hspec
  exact (h.origin_lt hrole horigin).trans (List.getElem?_eq_some_iff.1 hrole).1

theorem FieldBinding.Profile.wellFormed_rules (profile : Profile) : profile.rules.WellFormed where
  companionsFit := profile.companionsFit_rules
  companion_lt spec hspec c hc := by
    rw [companion_eq_none hspec] at hc
    cases hc
  origin_lt hspec horigin := by
    rw [List.mem_singleton.1 (List.mem_of_getElem? hspec)] at horigin
    cases horigin
  explodes_origin hspec horigin := by
    rw [List.mem_singleton.1 (List.mem_of_getElem? hspec)] at horigin
    cases horigin
  companion_ne _ _ other hother c hc := by
    rw [companion_eq_none hother] at hc
    cases hc

/-- Of the roles of a command, only the field starts from another one. -/
theorem Command.eq_of_origin {role source : Nat} {spec : RoleSpec}
    (hspec : rules.roles[role]? = some spec) (horigin : spec.origin = .role source) :
    role = fieldRole ∧ source = propertyRole := by
  match role, hspec with
  | 0, hspec | 1, hspec =>
    obtain rfl := Option.some.inj hspec
    cases horigin
  | 2, hspec =>
    obtain rfl := Option.some.inj hspec
    cases horigin
    exact ⟨rfl, rfl⟩

theorem Command.wellFormed_rules : rules.WellFormed where
  companionsFit := companionsFit_rules
  companion_lt spec hspec c hc := by
    obtain ⟨-, rfl⟩ := eq_of_companion hspec hc
    decide
  origin_lt hspec horigin := by
    obtain ⟨rfl, rfl⟩ := eq_of_origin hspec horigin
    decide
  explodes_origin hspec horigin hother := by
    obtain ⟨rfl, rfl⟩ := eq_of_origin hspec horigin
    obtain rfl := Option.some.inj hother
    rfl
  companion_ne hspec horigin other hother c hc := by
    obtain ⟨rfl, rfl⟩ := eq_of_origin hspec horigin
    obtain ⟨-, rfl⟩ := eq_of_companion hother hc
    decide

theorem BindingKind.wellFormed_rules (kind : BindingKind) : kind.rules.WellFormed := by
  cases kind with
  | property => exact Property.profile.wellFormed_rules
  | command => exact Command.wellFormed_rules
  | dependency => exact Dependency.profile.wellFormed_rules

/-! ## Additions and companions -/

namespace Group

variable {g g' g'' : Group} {role other : Nat} {links : List ReverseLink}

/-- The role has got further candidates, and nothing else has changed. -/
structure Appends (g g' : Group) (role : Nat) : Prop extends g.SameBut g' role where
  isPrefix : g.candidates role <+: g'.candidates role

theorem appends_refl (g : Group) (role : Nat) : g.Appends g role :=
  ⟨g.sameBut_refl role, List.prefix_rfl⟩

theorem Appends.trans (h : g.Appends g' role) (h' : g'.Appends g'' role) : g.Appends g'' role where
  anchor_eq := h'.anchor_eq.trans h.anchor_eq
  length_eq := h'.length_eq.trans h.length_eq
  candidates_eq other hne := (h'.candidates_eq other hne).trans (h.candidates_eq other hne)
  isPrefix := h.isPrefix.trans h'.isPrefix

theorem prefix_insertNew (cs : List Nat) (c : Nat) : cs <+: insertNew cs c := by
  unfold insertNew
  split
  · exact List.prefix_rfl
  · exact List.prefix_append cs [c]

theorem appends_add (g : Group) (role c : Nat) : g.Appends (g.add role c) role where
  toSameBut := g.sameBut_add role c
  isPrefix := by
    rw [candidates_add]
    split
    · exact prefix_insertNew _ c
    · exact List.prefix_rfl

theorem appends_addAll (g : Group) (role : Nat) (cs : List Nat) :
    g.Appends (g.addAll role cs) role := by
  induction cs generalizing g with
  | nil => exact g.appends_refl role
  | cons c cs ih => exact (g.appends_add role c).trans (ih (g.add role c))

/-- One link adds its companion, or nothing. -/
theorem attachOne_cases (g : Group) (role : Nat) (link : ReverseLink) :
    g.attachOne role link = g ∨ ∃ r c, link.companion = some (r, c) ∧
      g.attachOne role link = g.add r c := by
  unfold attachOne carried
  split
  · rename_i r c hcarried
    split at hcarried
    · exact .inr ⟨r, c, hcarried, rfl⟩
    · cases hcarried
  · exact .inl rfl

theorem appends_attach (g : Group) (role : Nat)
    (h : ∀ link ∈ links, ∀ r c, link.companion = some (r, c) → r = other) :
    g.Appends (g.attach role links) other := by
  induction links generalizing g with
  | nil => exact g.appends_refl other
  | cons link links ih =>
    have hrest := ih (g.attachOne role link) fun l hl => h l (List.mem_cons_of_mem _ hl)
    rcases g.attachOne_cases role link with hsame | ⟨r, c, hcompanion, hadd⟩
    · rw [hsame] at hrest
      rwa [attach_cons, hsame]
    · obtain rfl := h link List.mem_cons_self r c hcompanion
      rw [hadd] at hrest
      rw [attach_cons, hadd]
      exact (g.appends_add r c).trans hrest

theorem candidates_attach_of_ne (g : Group) (role : Nat)
    (h : ∀ link ∈ links, ∀ r c, link.companion = some (r, c) → r ≠ other) :
    (g.attach role links).candidates other = g.candidates other := by
  induction links generalizing g with
  | nil => rfl
  | cons link links ih =>
    rw [attach_cons, ih _ fun l hl => h l (List.mem_cons_of_mem _ hl)]
    rcases g.attachOne_cases role link with hsame | ⟨r, c, hcompanion, hadd⟩
    · rw [hsame]
    · rw [hadd, candidates_add_of_ne c (h link List.mem_cons_self r c hcompanion).symm]

theorem length_candidates_explode_le {part : Group} (hpart : part ∈ g.explode role) :
    (part.candidates role).length ≤ 1 := by
  by_cases hone : (g.candidates role).length ≤ 1
  · rw [explode_of_length_le_one hone, List.mem_singleton] at hpart
    exact hpart ▸ hone
  · have hmany := Nat.lt_of_not_le hone
    have hrole : g.hasRole role = true :=
      hasRole_of_candidates_ne_nil (List.ne_nil_of_length_pos (Nat.zero_lt_of_lt hmany))
    rw [explode_of_one_lt_length hmany] at hpart
    obtain ⟨c, -, rfl⟩ := List.mem_map.1 hpart
    rw [candidates_choose_self c hrole]
    exact le_rfl

theorem length_attach (g : Group) (role : Nat) (links : List ReverseLink) :
    (g.attach role links).roles.length = g.roles.length := by
  induction links generalizing g with
  | nil => rfl
  | cons link links ih =>
    rw [attach_cons, ih]
    rcases g.attachOne_cases role link with hsame | ⟨r, c, -, hadd⟩
    · rw [hsame]
    · rw [hadd, (g.sameBut_add r c).length_eq]

theorem attachInRange_of_hasRole (role : Nat)
    (hlinks : ∀ link ∈ links, ∀ r c, link.companion = some (r, c) → g.hasRole r = true) :
    g.attachInRange role links = true := by
  induction links generalizing g with
  | nil => rfl
  | cons link links ih =>
    have hlength : (g.attachOne role link).roles.length = g.roles.length :=
      g.length_attach role [link]
    rw [attachInRange, Bool.and_eq_true]
    constructor
    · rw [Option.all_eq_true]
      intro e he
      unfold carried at he
      split at he
      · exact hlinks link List.mem_cons_self e.1 e.2 he
      · cases he
    · refine ih fun l hl r c hcompanion => ?_
      rw [hasRole, hlength]
      exact hlinks l (List.mem_cons_of_mem _ hl) r c hcompanion

theorem Reachable.addAll (h : g.Reachable) (hrole : g.hasRole role = true) (cs : List Nat) :
    (g.addAll role cs).Reachable := by
  induction cs generalizing g with
  | nil => exact h
  | cons c cs ih => exact ih (.add h hrole c) (by rwa [hasRole_add])

theorem Reachable.attach (h : g.Reachable) (role : Nat)
    (hlinks : ∀ link ∈ links, ∀ r c, link.companion = some (r, c) → g.hasRole r = true) :
    (g.attach role links).Reachable := by
  induction links generalizing g with
  | nil => exact h
  | cons link links ih =>
    have hrest : ∀ l ∈ links, ∀ r c, l.companion = some (r, c) → g.hasRole r = true :=
      fun l hl => hlinks l (List.mem_cons_of_mem _ hl)
    rw [attach_cons]
    rcases g.attachOne_cases role link with hsame | ⟨r, c, hcompanion, hadd⟩
    · rw [hsame]
      exact ih h hrest
    · rw [hadd]
      have hrole := hlinks link List.mem_cons_self r c hcompanion
      refine ih (.add h hrole c) ?_
      simpa only [hasRole_add] using hrest

end Group

/-! ## What holds at every point -/

namespace Rules

variable {rules : Rules} {ctx : Context} {spec : RoleSpec} {role : Nat} {point : Point} {g : Group}

theorem available_of_mem_additions (hspec : rules.roles[role]? = some spec) {id : Nat}
    (hid : id ∈ rules.additions ctx (rules.reverseTable ctx) spec role g) :
    ctx.snapshot.Available spec.kind id := by
  unfold additions at hid
  split at hid
  · exact available_of_mem_found hspec hid
  · cases hid

/-- The companions of a role's links go to the role that the spec names. -/
theorem companion_role_eq {c : Companion} (hc : spec.companion = some c) {link : ReverseLink}
    (hlink : link ∈ rules.reverseLinks ctx spec) {r id : Nat}
    (hcompanion : link.companion = some (r, id)) : r = c.role := by
  obtain ⟨⟨c', hc', rfl⟩, -⟩ := available_of_companion_eq hlink hcompanion
  rw [Option.some.inj (hc'.symm.trans hc)]

end Rules

/-- A group of candidates that belong where they are, with one list for each role, made by adding
and exploding alone. -/
structure Group.Sound (rules : Rules) (ctx : Context) (g : Group) : Prop
    extends g.Placed rules ctx where
  length_eq : g.roles.length = rules.roles.length
  reachable : g.Reachable

namespace Group.Sound

variable {rules : Rules} {ctx : Context} {spec : RoleSpec} {role : Nat} {g part : Group}

theorem seed {anchor : Nat} (h : anchor ∈ rules.anchors ctx (rules.reverseTable ctx)) :
    (Group.seed anchor rules.roles.length).Sound rules ctx :=
  ⟨placed_seed h _, List.length_replicate, .seed anchor _⟩

theorem of_mem_seeds (hg : g ∈ rules.seeds ctx (rules.reverseTable ctx)) : g.Sound rules ctx := by
  obtain ⟨anchor, hanchor, rfl⟩ := List.mem_map.1 hg
  exact .seed hanchor

theorem role_lt (h : g.Sound rules ctx) (hspec : rules.roles[role]? = some spec) :
    role < g.roles.length := by
  rw [h.length_eq]
  exact (List.getElem?_eq_some_iff.1 hspec).1

/-- Every companion has a role to be added to. -/
theorem companion_lt (h : g.Sound rules ctx) (hrules : rules.WellFormed) (hspec : spec ∈ rules.roles)
    {link : ReverseLink} (hlink : link ∈ rules.reverseLinks ctx spec) {r id : Nat}
    (hcompanion : link.companion = some (r, id)) : r < g.roles.length := by
  obtain ⟨⟨c, hc, rfl⟩, -⟩ := Rules.available_of_companion_eq hlink hcompanion
  rw [h.length_eq]
  exact hrules.companion_lt spec hspec c hc

theorem addAll (h : g.Sound rules ctx) (hspec : rules.roles[role]? = some spec) {cs : List Nat}
    (hcs : ∀ id ∈ cs, ctx.snapshot.Available spec.kind id) : (g.addAll role cs).Sound rules ctx where
  toPlaced := h.toPlaced.addAll hspec hcs
  length_eq := (g.length_addAll role cs).trans h.length_eq
  reachable := h.reachable.addAll (decide_eq_true (h.role_lt hspec)) cs

theorem explode (h : g.Sound rules ctx) (hspec : rules.roles[role]? = some spec)
    (hpart : part ∈ g.explode role) : part.Sound rules ctx where
  toPlaced := h.toPlaced.explode hpart
  length_eq := (sameBut_of_mem_explode hpart).length_eq.trans h.length_eq
  reachable := .explode h.reachable (decide_eq_true (h.role_lt hspec)) hpart

theorem attach (h : g.Sound rules ctx) (hrules : rules.WellFormed) (hspec : spec ∈ rules.roles)
    {links : List ReverseLink} (hlinks : ∀ r ∈ links, r ∈ rules.reverseLinks ctx spec) (role : Nat) :
    (g.attach role links).Sound rules ctx := by
  refine ⟨h.toPlaced.attach hrules.companionsFit hspec hlinks role, ?_, ?_⟩
  · rw [length_attach, h.length_eq]
  · exact h.reachable.attach role fun link hlink _ _ hcompanion =>
      decide_eq_true (h.companion_lt hrules hspec (hlinks link hlink) hcompanion)

/-- The member that a role starts from exists. -/
theorem source_lt (h : g.Sound rules ctx) (hrules : rules.WellFormed) (hspec : spec ∈ rules.roles)
    {source : Nat} (hsource : g.sourceOf spec = some source) :
    source < ctx.snapshot.members.length := by
  unfold sourceOf at hsource
  split at hsource
  · obtain rfl := Option.some.inj hsource
    exact h.available_anchor.lt
  · rename_i i horigin
    have hlt := hrules.lt_of_origin hspec horigin
    exact (h.available_of_single? _ (List.getElem?_eq_getElem hlt) hsource).lt

end Group.Sound

/-- The candidates of one role, which starts from another, while so many roles are linked and
split: none before its turn, and none without a single member to start from. -/
structure Group.Fed (g : Group) (source role linked split : Nat) : Prop where
  pending : linked ≤ role → g.candidates role = []
  settled : source < split → (g.candidates source).length ≤ 1
  fed : g.candidates role ≠ [] → ∃ p, g.candidates source = [p]

namespace Group.Fed

variable {g part : Group} {source role k : Nat}

theorem seed (anchor roleCount source role : Nat) :
    (Group.seed anchor roleCount).Fed source role 0 0 := by
  constructor <;> simp

theorem addAll (h : g.Fed source role k k) (hlt : source < role) {cs : List Nat}
    (hcs : k = role → cs ≠ [] → ∃ p, g.candidates source = [p]) :
    (g.addAll k cs).Fed source role (k + 1) k := by
  have happends := g.appends_addAll k cs
  have hsource (hne : source ≠ k) : (g.addAll k cs).candidates source = g.candidates source :=
    happends.candidates_eq source hne
  have hrole (hne : role ≠ k) : (g.addAll k cs).candidates role = g.candidates role :=
    happends.candidates_eq role hne
  refine ⟨?_, ?_, ?_⟩
  · intro hle
    rw [hrole (by omega)]
    exact h.pending (by omega)
  · intro hsplit
    rw [hsource hsplit.ne]
    exact h.settled hsplit
  · intro hne
    by_cases hk : k = role
    · subst hk
      rw [hsource hlt.ne]
      apply hcs rfl
      rintro rfl
      exact hne (h.pending le_rfl)
    · rw [hrole (Ne.symm hk)] at hne
      -- Only roles before `k` have candidates, and the source comes before the role.
      have hbefore : role < k := by
        apply Nat.lt_of_not_le
        intro hle
        exact hne (h.pending hle)
      rw [hsource (by omega)]
      exact h.fed hne

theorem pass (h : g.Fed source role (k + 1) k) (hne : source ≠ k) :
    g.Fed source role (k + 1) (k + 1) where
  pending := h.pending
  settled hlt := h.settled (by omega)
  fed := h.fed

theorem explode (h : g.Fed source role (k + 1) k) (hpart : part ∈ g.explode k) :
    part.Fed source role (k + 1) (k + 1) := by
  have hsame := sameBut_of_mem_explode hpart
  refine ⟨?_, ?_, ?_⟩
  · intro hle
    rw [hsame.candidates_eq role (by omega)]
    exact h.pending hle
  · intro hsplit
    by_cases hk : source = k
    · subst hk
      exact length_candidates_explode_le hpart
    · rw [hsame.candidates_eq source hk]
      exact h.settled (by omega)
  · intro hne
    obtain ⟨id, hid⟩ := List.exists_mem_of_ne_nil _ hne
    obtain ⟨p, hp⟩ := h.fed (List.ne_nil_of_mem (mem_candidates_explode hpart hid))
    by_cases hk : source = k
    · subst hk
      rw [explode_of_length_le_one (by simp [hp]), List.mem_singleton] at hpart
      exact ⟨p, hpart ▸ hp⟩
    · exact ⟨p, (hsame.candidates_eq source hk).trans hp⟩

theorem attach {linked split : Nat} (h : g.Fed source role linked split) {links : List ReverseLink}
    (hlinks : ∀ link ∈ links, ∀ r c, link.companion = some (r, c) → r ≠ source ∧ r ≠ role) (k : Nat) :
    (g.attach k links).Fed source role linked split := by
  have hsource := g.candidates_attach_of_ne k fun link hl r c hc => (hlinks link hl r c hc).1
  have hrole := g.candidates_attach_of_ne k fun link hl r c hc => (hlinks link hl r c hc).2
  refine ⟨?_, ?_, ?_⟩
  · rw [hrole]
    exact h.pending
  · rw [hsource]
    exact h.settled
  · rw [hsource, hrole]
    exact h.fed

end Group.Fed

namespace Rules

variable {rules : Rules} {ctx : Context} {spec : RoleSpec} {role : Nat} {point : Point} {g : Group}

theorem keeps_sound (hrules : rules.WellFormed) :
    rules.Keeps ctx fun _ g => g.Sound rules ctx where
  seed _ hanchor := .seed hanchor
  link hspec h _ := h.addAll hspec fun _ hid =>
    available_of_mem_additions hspec (List.mem_of_mem_take hid)
  pass _ _ h := h
  explode hspec _ h _ hpart := h.explode hspec hpart
  attach hspec h _ := h.attach hrules (List.mem_of_getElem? hspec)
    (fun _ hr => List.mem_of_mem_take hr) _
  next h := h

theorem sound_linkRole (hrules : rules.WellFormed) (hspec : rules.roles[role]? = some spec)
    (hg : g.Sound rules ctx) :
    (rules.linkRole ctx (rules.reverseTable ctx) spec role g).Sound rules ctx :=
  (keeps_sound hrules).linkRole hspec hg

theorem sound_of_mem_splitGroups (hrules : rules.WellFormed)
    (hspec : rules.roles[role]? = some spec) {groups : List Group}
    (h : ∀ g ∈ groups, g.Sound rules ctx)
    (hg : g ∈ rules.splitGroups ctx (rules.reverseTable ctx) spec role groups) :
    g.Sound rules ctx :=
  (keeps_sound hrules).of_mem_splitGroups hspec h hg

theorem sound_of_mem_step (hrules : rules.WellFormed) (hspec : rules.roles[role]? = some spec)
    {run : Run} (h : ∀ g ∈ run.groups, g.Sound rules ctx)
    (hg : g ∈ (rules.step ctx (rules.reverseTable ctx) run (spec, role)).groups) :
    g.Sound rules ctx :=
  (keeps_sound hrules).of_mem_step hspec h hg

theorem sound_of_holds (hrules : rules.WellFormed) (hg : rules.Holds ctx point g) :
    g.Sound rules ctx :=
  (keeps_sound hrules).holds hg

theorem exists_candidates_eq_of_additions_ne_nil {source : Nat} (horigin : spec.origin = .role source)
    {table : List (List ReverseLink)} (h : rules.additions ctx table spec role g ≠ []) :
    ∃ p, g.candidates source = [p] := by
  have hsource : g.sourceOf spec = g.single? source := by rw [Group.sourceOf, horigin]
  rw [additions, hsource] at h
  cases hsingle : g.single? source with
  | none => simp [hsingle] at h
  | some p => exact ⟨p, Group.single?_eq_some_iff.1 hsingle⟩

theorem keeps_fed (hrules : rules.WellFormed) (hspec : rules.roles[role]? = some spec) {source : Nat}
    (horigin : spec.origin = .role source) :
    rules.Keeps ctx fun point g => g.Fed source role point.linkedRoles point.splitRoles where
  seed anchor _ := .seed anchor _ source role
  link {k linkedSpec g} hlinked h n := by
    refine h.addAll (hrules.origin_lt hspec horigin) ?_
    intro hk hne
    obtain rfl : spec = linkedSpec := Option.some.inj (hspec.symm.trans (hk ▸ hlinked))
    have hadded : rules.additions ctx (rules.reverseTable ctx) spec k g ≠ [] := by
      intro hnil
      exact hne (by rw [hnil, List.take_nil])
    exact exists_candidates_eq_of_additions_ne_nil horigin hadded
  pass {k passed g} hpassed hexplodes h := by
    refine h.pass ?_
    rintro rfl
    rw [hrules.explodes_origin hspec horigin hpassed] at hexplodes
    cases hexplodes
  explode _ _ h _ hpart := h.explode hpart
  attach {k attached g} hattached h n := by
    refine h.attach ?_ k
    intro link hlink r id hcompanion
    have hmem : attached ∈ rules.roles := List.mem_of_getElem? hattached
    obtain ⟨⟨c, hc, rfl⟩, -⟩ := available_of_companion_eq (List.mem_of_mem_take hlink) hcompanion
    exact hrules.companion_ne hspec horigin attached hmem c hc
  next h := h

theorem fed_of_holds (hrules : rules.WellFormed) (hspec : rules.roles[role]? = some spec)
    {source : Nat} (horigin : spec.origin = .role source) (hg : rules.Holds ctx point g) :
    g.Fed source role point.linkedRoles point.splitRoles :=
  (keeps_fed hrules hspec horigin).holds hg

/-- A role with candidates has a source. -/
theorem exists_sourceOf_of_holds (hrules : rules.WellFormed) (hspec : rules.roles[role]? = some spec)
    (hg : rules.Holds ctx point g) (hne : g.candidates role ≠ []) :
    ∃ source, g.sourceOf spec = some source := by
  unfold Group.sourceOf
  cases horigin : spec.origin with
  | anchor => exact ⟨g.anchor, rfl⟩
  | role source =>
    obtain ⟨p, hp⟩ := (fed_of_holds hrules hspec horigin hg).fed hne
    exact ⟨p, Group.single?_eq_some_iff.2 hp⟩

/-! ## Role numbers -/

theorem inRange_foldl_step (hrules : rules.WellFormed) {entries : List (RoleSpec × Nat)}
    (hentries : ∀ e ∈ entries, rules.roles[e.2]? = some e.1) {run : Run}
    (hrun : ∀ g ∈ run.groups, g.Sound rules ctx) (hrange : run.inRange = true) :
    (entries.foldl (rules.step ctx (rules.reverseTable ctx)) run).inRange = true := by
  induction entries generalizing run with
  | nil => exact hrange
  | cons entry entries ih =>
    obtain ⟨spec, role⟩ := entry
    have hspec := hentries (spec, role) List.mem_cons_self
    have hattached : ∀ g ∈ rules.splitGroups ctx (rules.reverseTable ctx) spec role run.groups,
        g.attachInRange role ((rules.reverseTable ctx)[role]?.getD []) = true := by
      intro g hg
      rw [getElem?_reverseTable hspec]
      have hsound := sound_of_mem_splitGroups hrules hspec hrun hg
      exact Group.attachInRange_of_hasRole role fun link hlink _ _ hcompanion =>
        decide_eq_true (hsound.companion_lt hrules (List.mem_of_getElem? hspec) hlink hcompanion)
    rw [List.foldl_cons]
    refine ih (fun e he => hentries e (List.mem_cons_of_mem _ he))
      (fun g hg => sound_of_mem_step hrules hspec hrun hg) ?_
    exact Bool.and_eq_true_iff.2 ⟨hrange, List.all_eq_true.2 hattached⟩

/-- A run meets no role that does not exist. -/
theorem resolve?_eq_some (hrules : rules.WellFormed) :
    rules.resolve? ctx = some (rules.resolve ctx) := by
  have hsources : rules.sourcesInRange = true := by
    rw [sourcesInRange, List.all_eq_true]
    intro spec hspec
    split
    · rfl
    · rename_i i horigin
      exact decide_eq_true (hrules.lt_of_origin hspec horigin)
  have hseeds : ∀ g ∈ ({ groups := rules.seeds ctx (rules.reverseTable ctx) } : Run).groups,
      g.Sound rules ctx := fun _ hg => .of_mem_seeds hg
  have hrange := inRange_foldl_step hrules rules.getElem?_of_mem_zipIdx hseeds rfl
  exact if_pos (Bool.and_eq_true_iff.2 ⟨hsources, hrange⟩)

end Rules

end MemberBinding
