import MemberBinding.Proofs.Command.Consistent
import MemberBinding.Proofs.Reports.Passes

/-!
# What is reported when commands are bound

The reports are read off the members, with no mention of a run. Main statements: `Arises`, which
lists them, and `reports_of_resolve_eq_error`, by which a failed resolution reports exactly these.
-/

namespace MemberBinding.Command

/-- Neither of two methods can be told to be the executed one: both return nothing, or neither does
and both return a truth value. -/
inductive Conflict (types : TypeNames) (site : LinkSite) (first second : Member) : Violation → Prop
  | execute (first_void : first.returns types.void = true)
      (second_void : second.returns types.void = true) :
      Conflict types site first second
        (.conflictingMethods "execute method" first.name second.name site)
  | canExecute (first_other : first.returns types.void = false)
      (second_other : second.returns types.void = false)
      (first_boolean : first.returns types.boolean = true)
      (second_boolean : second.returns types.boolean = true) :
      Conflict types site first second
        (.conflictingMethods "can execute method" first.name second.name site)

/-- What is reported of a link from a property to its methods. -/
inductive BadMethodsLink (types : TypeNames) (s : Snapshot) (l : Link) (site : LinkSite) :
    Violation → Prop
  | first {v} (undesignated : s.Undesignated .method "execute method" l.name site v) :
      BadMethodsLink types s l site v
  | second {name v} (second : l.secondName = some name)
      (undesignated : s.Undesignated .method "can execute method" name site v) :
      BadMethodsLink types s l site v
  | conflict {name i j v} (second : l.secondName = some name)
      (designates : s.Designates .method l.name i) (other : s.Designates .method name j)
      (conflict : Conflict types site (s.member i) (s.member j) v) :
      BadMethodsLink types s l site v

/-- What is wrong with a method as a handler that returns `type`. -/
inductive MethodFault (role type : String) (m : Member) : Violation → Prop
  | parameters (ne : m.parameters ≠ []) :
      MethodFault role type m (.shape role m.name "can not have parameters")
  | returnType (ne : m.returnType ≠ some type) :
      MethodFault role type m (.shape role m.name s!"must return '{type}'")

/-- What is wrong with a method and the property it is bound with. -/
inductive Misfit (config : Config) (s : Snapshot) (e : Nat) (p : Option Nat) : Violation → Prop
  | canExecutes {names} (several : s.Several (CanExecuteCandidate config s e p) names) :
      Misfit config s e p
        (.multiConnect "execute method" (s.member e).name "can execute method" names)
  | fields {q names} (bound : p = some q) (several : s.Several (BackingCandidate config s q) names) :
      Misfit config s e p (.multiConnect "property" (s.member q).name "field" names)
  | required (requires : (s.member e).requiresExplicitLink = true) (unbound : p = none) :
      Misfit config s e p (.missingRequiredLink "property" "execute method" (s.member e).name)
  | execute {v} (fault : MethodFault "execute method" config.types.void (s.member e) v) :
      Misfit config s e p v
  | canExecute {c v} (sole : Sole (CanExecuteCandidate config s e p) c)
      (fault : MethodFault "can execute method" config.types.boolean (s.member c) v) :
      Misfit config s e p v
  | property {q} (bound : p = some q)
      (unassignable : ∀ type ∈ config.types.commandAssignable, (s.member q).valueType ≠ some type) :
      Misfit config s e p (.shape "property" (s.member q).name
        s!"must be assignable from '{config.types.command}'")
  | field {q f v} (bound : p = some q) (sole : Sole (BackingCandidate config s q) f)
      (fault : TypeFault (s.member q) (s.member f) v) : Misfit config s e p v

/-- Everything that is wrong with the members of a snapshot. -/
inductive Arises (config : Config) (s : Snapshot) (mode : Mode) : Violation → Prop
  | marks {v} (clash : s.MarkClash [.field, .property, .method] LinkKind.all v) :
      Arises config s mode v
  | guardLink {c l name v} (owner : s.Available .method c)
      (carried : l ∈ (s.member c).linksOf .executeMethod) (listed : name ∈ l.names)
      (undesignated : s.Undesignated .method "execute method" name
        ⟨l.kind, "can execute method", (s.member c).name⟩ v) : Arises config s mode v
  | methodsLink {p l v} (owner : s.Available .property p)
      (carried : l ∈ (s.member p).linksOf .commandMethods)
      (bad : BadMethodsLink config.types s l ⟨l.kind, "property", (s.member p).name⟩ v) :
      Arises config s mode v
  | backLink {f l name v} (owner : s.Available .field f)
      (carried : l ∈ (s.member f).linksOf .property) (listed : name ∈ l.names)
      (undesignated : s.Undesignated .property "property" name
        ⟨l.kind, "field", (s.member f).name⟩ v) : Arises config s mode v
  | invalidName {e} (available : s.Available .method e) (marked : Marked config s mode e)
      (illNamed : ¬WellNamed config s e) (reported : config.options.skipInvalidNames = false) :
      Arises config s mode (.invalidName "execute method" (s.member e).name)
  | canExecuteLink {e l v} (selected : Selected config s mode e)
      (carried : l ∈ (s.member e).linksOf .canExecuteMethod)
      (undesignated : s.Undesignated .method "can execute method" l.name
        ⟨l.kind, "execute method", (s.member e).name⟩ v) : Arises config s mode v
  | commandLink {e l v} (selected : Selected config s mode e)
      (carried : l ∈ (s.member e).linksOf .command)
      (undesignated : s.Undesignated .property "property" l.name
        ⟨l.kind, "execute method", (s.member e).name⟩ v) : Arises config s mode v
  | fieldLink {e p l v} (selected : Selected config s mode e)
      (candidate : PropertyCandidate config s e p) (carried : l ∈ (s.member p).linksOf .field)
      (undesignated : s.Undesignated .field "field" l.name
        ⟨l.kind, "property", (s.member p).name⟩ v) : Arises config s mode v
  | misfit {e p v} (selected : Selected config s mode e) (exposure : Exposure config s e p)
      (misfit : Misfit config s e p v) : Arises config s mode v

theorem pairOrder_eq_error_iff {types : TypeNames} {site : LinkSite} {first second : Member}
    {v : Violation} :
    pairOrder types site first second = .error v ↔ Conflict types site first second v := by
  have hconflict : Conflict types site first second v ↔
      (first.returns types.void = true ∧ second.returns types.void = true ∧
        v = .conflictingMethods "execute method" first.name second.name site) ∨
      (first.returns types.void = false ∧ second.returns types.void = false ∧
        first.returns types.boolean = true ∧ second.returns types.boolean = true ∧
          v = .conflictingMethods "can execute method" first.name second.name site) := by
    constructor
    · intro h
      cases h with
      | execute h₁ h₂ => exact .inl ⟨h₁, h₂, rfl⟩
      | canExecute h₁ h₂ h₃ h₄ => exact .inr ⟨h₁, h₂, h₃, h₄, rfl⟩
    · intro h
      rcases h with ⟨h₁, h₂, rfl⟩ | ⟨h₁, h₂, h₃, h₄, rfl⟩
      · exact .execute h₁ h₂
      · exact .canExecute h₁ h₂ h₃ h₄
  rw [hconflict, pairOrder]
  cases first.returns types.void <;> cases second.returns types.void <;>
    cases first.returns types.boolean <;> cases second.returns types.boolean <;> simp [eq_comm]

theorem mem_methodFaults_iff {role type : String} {m : Member} {v : Violation} :
    v ∈ methodFaults role m type ↔ MethodFault role type m v := by
  unfold methodFaults
  rw [List.mem_append]
  constructor
  · intro h
    rcases h with h | h
    · split at h
      · cases h
      · rename_i hparameters
        rw [List.mem_singleton.1 h]
        exact .parameters (by simpa using hparameters)
    · split at h
      · cases h
      · rename_i hreturns
        rw [List.mem_singleton.1 h]
        exact .returnType (by simpa [Member.returns] using hreturns)
  · intro h
    cases h with
    | parameters ne => simp [ne]
    | returnType ne => simp [Member.returns, ne]

theorem mem_propertyFaults_iff {types : TypeNames} {m : Member} (h : m.kind = .property)
    {v : Violation} :
    v ∈ propertyFaults types m ↔ (∀ type ∈ types.commandAssignable, m.valueType ≠ some type) ∧
      v = .shape "property" m.name s!"must be assignable from '{types.command}'" := by
  have hnil : propertyFaults types m = [] ↔ _ := propertyFaults_eq_nil_iff h
  have hfaults : propertyFaults types m = [] ∨ propertyFaults types m =
      [.shape "property" m.name s!"must be assignable from '{types.command}'"] := by
    unfold propertyFaults
    split
    · exact .inl rfl
    · exact .inr rfl
  rcases hfaults with hfaults | hfaults
  · obtain ⟨type, htype, hm⟩ := hnil.1 hfaults
    rw [hfaults]
    exact ⟨nofun, fun hv => absurd hm (hv.1 type htype)⟩
  · rw [hfaults, List.mem_singleton]
    refine ⟨fun hv => ⟨?_, hv⟩, fun hv => hv.2⟩
    intro type htype hm
    have hempty := hnil.2 ⟨type, htype, hm⟩
    rw [hfaults] at hempty
    cases hempty

variable {ctx : Context} {e : Nat} {p : Option Nat} {v : Violation}

/-! ## Links -/

theorem badReverseLink_propertySpec_iff {owner : Member} {l : Link} :
    rules.BadReverseLink ctx propertySpec owner l v ↔
      BadMethodsLink ctx.config.types ctx.snapshot l ⟨l.kind, "property", owner.name⟩ v := by
  constructor
  · intro h
    cases h with
    | first undesignated => exact .first undesignated
    | second second undesignated => exact .second second undesignated
    | pair resolves conflict =>
      rename_i i j
      cases j with
      | none => cases conflict
      | some j =>
        obtain ⟨name, hname, hsecond⟩ := resolves.exists_secondName
        have hconflict := map_eq_error_iff.1 conflict
        exact .conflict hname resolves.first hsecond (pairOrder_eq_error_iff.1 hconflict)
  · intro h
    cases h with
    | first undesignated => exact .first undesignated
    | second second undesignated => exact .second second undesignated
    | @conflict name i j _ second designates other conflict =>
      have hresolves : ctx.snapshot.Resolves .method l i (some j) :=
        ⟨designates, second ▸ .some other⟩
      exact .pair hresolves (map_eq_error_iff.2 (pairOrder_eq_error_iff.2 conflict))

theorem mem_reverseFaults_propertySpec_iff :
    v ∈ rules.reverseFaults ctx propertySpec ↔ ∃ p, ctx.snapshot.Available .property p ∧
      ∃ l ∈ (ctx.snapshot.member p).linksOf .commandMethods,
        BadMethodsLink ctx.config.types ctx.snapshot l
          ⟨l.kind, "property", (ctx.snapshot.member p).name⟩ v := by
  simp only [Rules.mem_reverseFaults_iff, badReverseLink_propertySpec_iff]
  rfl

/-- What is reported of the forward links of a method and its properties. -/
theorem mem_descentFaults_iff :
    v ∈ rules.descentFaults ctx (rules.reverseTable ctx) rules.roles.zipIdx
        (.seed e rules.roles.length) ↔
      (∃ l ∈ (ctx.snapshot.member e).linksOf .canExecuteMethod,
        ctx.snapshot.Undesignated .method "can execute method" l.name
          ⟨l.kind, "execute method", (ctx.snapshot.member e).name⟩ v) ∨
      (∃ l ∈ (ctx.snapshot.member e).linksOf .command,
        ctx.snapshot.Undesignated .property "property" l.name
          ⟨l.kind, "execute method", (ctx.snapshot.member e).name⟩ v) ∨
      ∃ p, PropertyCandidate ctx.config ctx.snapshot e p ∧
        ∃ l ∈ (ctx.snapshot.member p).linksOf .field,
          ctx.snapshot.Undesignated .field "field" l.name
            ⟨l.kind, "property", (ctx.snapshot.member p).name⟩ v := by
  have hseed : Group.seed e rules.roles.length = .seed e 3 := rfl
  have hroles : rules.roles.zipIdx = [(canExecuteSpec, 0), (propertySpec, 1), (fieldSpec, 2)] := rfl
  have hcanExecute : (Group.seed e 3).sourceOf canExecuteSpec = some e := rfl
  have hproperty : Group.sourceOf ⟨e, [canExecutes ctx e, [], []]⟩ propertySpec = some e := rfl
  have hchoices : ∀ C : Nat → Prop, (∃ p ∈ choices (properties ctx e), ∃ q, p = some q ∧ C q) ↔
      ∃ q, PropertyCandidate ctx.config ctx.snapshot e q ∧ C q := by
    intro C
    simp only [mem_choices_properties_iff]
    constructor
    · intro h
      obtain ⟨_, hq, q, rfl, hC⟩ := h
      exact ⟨q, exposure_some_iff.1 hq, hC⟩
    · intro h
      obtain ⟨q, hq, hC⟩ := h
      exact ⟨some q, exposure_some_iff.2 hq, q, rfl, hC⟩
  rw [hseed, hroles]
  simp only [Rules.descentFaults, grow_canExecute, List.flatMap_cons, List.flatMap_nil,
    List.append_nil, grow_property, List.flatMap_map, grow_field, List.mem_append]
  simp only [List.mem_flatMap, Rules.mem_linkFaults_iff, hcanExecute, hproperty,
    sourceOf_fieldSpec, hchoices, Option.some.injEq, exists_eq_left']
  rfl

/-! ## The checks of one group -/

theorem exists_roles_iff {C : RoleSpec → Nat → Prop} :
    (∃ spec role, rules.roles[role]? = some spec ∧ C spec role) ↔
      C canExecuteSpec canExecuteRole ∨ C propertySpec propertyRole ∨ C fieldSpec fieldRole := by
  constructor
  · intro h
    obtain ⟨spec, role, hspec, h⟩ := h
    match role, hspec with
    | 0, hspec => exact .inl (Option.some.inj hspec ▸ h)
    | 1, hspec => exact .inr (.inl (Option.some.inj hspec ▸ h))
    | 2, hspec => exact .inr (.inr (Option.some.inj hspec ▸ h))
  · intro h
    rcases h with h | h | h
    · exact ⟨canExecuteSpec, 0, rfl, h⟩
    · exact ⟨propertySpec, 1, rfl, h⟩
    · exact ⟨fieldSpec, 2, rfl, h⟩

theorem nodup_canExecutes_group (ctx : Context) (e : Nat) (p : Option Nat) :
    ((group ctx e p).candidates canExecuteRole).Nodup :=
  Group.nodup_insertAll (nodup_canExecutes ctx e) (companions ctx e p)

theorem mem_canExecutes_group_iff (c : Nat) :
    c ∈ (group ctx e p).candidates canExecuteRole ↔
      CanExecuteCandidate ctx.config ctx.snapshot e p c := mem_canExecutes_iff

theorem mem_fields_some_iff {q : Nat} (f : Nat) :
    f ∈ fields ctx (some q) ↔ BackingCandidate ctx.config ctx.snapshot q f := by
  simp [mem_fields_iff]

theorem mem_multiplicityFaults_group_iff :
    v ∈ rules.multiplicityFaults ctx (group ctx e p) ↔
      (2 ≤ ((group ctx e p).candidates canExecuteRole).length ∧
        v = .multiConnect "execute method" (ctx.snapshot.member e).name "can execute method"
          (((group ctx e p).candidates canExecuteRole).map fun id =>
            (ctx.snapshot.member id).name)) ∨
      ∃ q, p = some q ∧ 2 ≤ (fields ctx (some q)).length ∧
        v = .multiConnect "property" (ctx.snapshot.member q).name "field"
          ((fields ctx (some q)).map fun id => (ctx.snapshot.member id).name) := by
  have hcanExecute : (group ctx e p).sourceOf canExecuteSpec = some e := rfl
  have hproperty : ¬2 ≤ ((group ctx e p).candidates propertyRole).length := by
    cases p <;> simp [group, Group.candidates, propertyRole]
  have hfield : (group ctx e p).sourceOf fieldSpec = p := sourceOf_fieldSpec _ _ _ _
  have hfields : (group ctx e p).candidates fieldRole = fields ctx p := rfl
  rw [Rules.mem_multiplicityFaults_iff, exists_roles_iff, hcanExecute, hfield, hfields]
  simp only [hproperty, false_and, and_false, exists_false, false_or, Option.some.injEq,
    exists_eq_left']
  refine or_congr_right (exists_congr fun q => and_congr_right fun hq => ?_)
  rw [hq]
  rfl

theorem mem_requiredFaults_group_iff :
    v ∈ rules.requiredFaults ctx (group ctx e p) ↔
      p = none ∧ (ctx.snapshot.member e).requiresExplicitLink = true ∧
        v = .missingRequiredLink "property" "execute method" (ctx.snapshot.member e).name := by
  have hproperty : (group ctx e p).sourceOf propertySpec = some e := rfl
  have hnil : (group ctx e p).candidates propertyRole = [] ↔ p = none := by
    cases p <;> simp [group, Group.candidates, propertyRole]
  have hcanExecute : canExecuteSpec.required = false := rfl
  have hrequired : propertySpec.required = true := rfl
  have hfield : fieldSpec.required = false := rfl
  rw [Rules.mem_requiredFaults_iff, exists_roles_iff, hproperty, hnil, hcanExecute, hrequired,
    hfield]
  simp only [Bool.false_eq_true, false_and, and_false, exists_false, false_or, or_false, true_and,
    Option.some.injEq, exists_eq_left']
  rfl

theorem mem_check_iff {g : Group} : v ∈ check ctx g ↔
    MethodFault "execute method" ctx.config.types.void (ctx.snapshot.member g.anchor) v ∨
    (∃ c, g.single? canExecuteRole = some c ∧
      MethodFault "can execute method" ctx.config.types.boolean (ctx.snapshot.member c) v) ∨
    ∃ q, g.single? propertyRole = some q ∧
      (v ∈ propertyFaults ctx.config.types (ctx.snapshot.member q) ∨
        ∃ f, g.single? fieldRole = some f ∧
          TypeFault (ctx.snapshot.member q) (ctx.snapshot.member f) v) := by
  simp only [check, List.mem_append, mem_methodFaults_iff, Context.member_eq, or_assoc]
  cases g.single? canExecuteRole <;> cases g.single? propertyRole <;>
    cases g.single? fieldRole <;> simp [mem_methodFaults_iff, mem_sameTypeFaults_iff]

/-- What is reported of a finished group. -/
theorem misfit_of_mem_groupFaults (hp : ∀ q, p = some q → ctx.snapshot.Available .property q)
    (hv : v ∈ rules.groupFaults ctx (group ctx e p)) :
    Misfit ctx.config ctx.snapshot e p v := by
  have hcheck : rules.check ctx (group ctx e p) = check ctx (group ctx e p) := rfl
  have hanchor : (group ctx e p).anchor = e := rfl
  rw [Rules.groupFaults, List.mem_append, List.mem_append, mem_multiplicityFaults_group_iff,
    mem_requiredFaults_group_iff, hcheck, mem_check_iff, hanchor, single?_property] at hv
  rcases hv with ((⟨hlen, rfl⟩ | ⟨q, rfl, hlen, rfl⟩) | ⟨hnone, hx, rfl⟩) |
    hv | ⟨c, hc, hv⟩ | ⟨q, rfl, hv | ⟨f, hf, hv⟩⟩
  · exact .canExecutes (several_of_nodup (nodup_canExecutes_group ctx e p)
      mem_canExecutes_group_iff hlen)
  · exact .fields rfl (several_of_nodup (nodup_fields ctx (some q)) mem_fields_some_iff hlen)
  · exact .required hx hnone
  · exact .execute hv
  · rw [Group.single?_eq_some_iff] at hc
    exact .canExecute ((eq_singleton_iff_sole (nodup_canExecutes_group ctx e p)
      mem_canExecutes_group_iff).1 hc) hv
  · obtain ⟨hunassignable, rfl⟩ := (mem_propertyFaults_iff (hp q rfl).kind_eq).1 hv
    exact .property rfl hunassignable
  · have hfields : fields ctx (some q) = [f] := Group.single?_eq_some_iff.1 hf
    exact .field rfl ((eq_singleton_iff_sole (nodup_fields ctx (some q))
      mem_fields_some_iff).1 hfields) hv

theorem exists_mem_groupFaults_of_misfit
    (hp : ∀ q, p = some q → ctx.snapshot.Available .property q)
    (hv : Misfit ctx.config ctx.snapshot e p v) :
    ∃ w ∈ rules.groupFaults ctx (group ctx e p), v.Alike w := by
  have hcheck : rules.check ctx (group ctx e p) = check ctx (group ctx e p) := rfl
  have hanchor : (group ctx e p).anchor = e := rfl
  simp only [Rules.groupFaults, List.mem_append, mem_multiplicityFaults_group_iff,
    mem_requiredFaults_group_iff, hcheck, mem_check_iff, hanchor, single?_property]
  cases hv with
  | canExecutes several =>
    obtain ⟨hlen, hperm⟩ := several.perm (nodup_canExecutes_group ctx e p) mem_canExecutes_group_iff
    exact ⟨_, .inl (.inl (.inl ⟨hlen, rfl⟩)), .multiConnect hperm⟩
  | @fields q _ bound several =>
    obtain ⟨hlen, hperm⟩ := several.perm (nodup_fields ctx (some q)) mem_fields_some_iff
    exact ⟨_, .inl (.inl (.inr ⟨q, bound, hlen, rfl⟩)), .multiConnect hperm⟩
  | required requires unbound =>
    exact ⟨_, .inl (.inr ⟨unbound, requires, rfl⟩), .refl _⟩
  | execute fault => exact ⟨v, .inr (.inl fault), .refl v⟩
  | canExecute sole fault =>
    have hc := (eq_singleton_iff_sole (nodup_canExecutes_group ctx e p)
      mem_canExecutes_group_iff).2 sole
    exact ⟨v, .inr (.inr (.inl ⟨_, Group.single?_eq_some_iff.2 hc, fault⟩)), .refl v⟩
  | @property q bound unassignable =>
    have hfault := (mem_propertyFaults_iff (hp q bound).kind_eq).2 ⟨unassignable, rfl⟩
    exact ⟨_, .inr (.inr (.inr ⟨q, bound, .inl hfault⟩)), .refl _⟩
  | @field q f _ bound sole fault =>
    have hf := (eq_singleton_iff_sole (nodup_fields ctx (some q)) mem_fields_some_iff).2 sole
    have hsingle : (group ctx e p).single? fieldRole = some f :=
      Group.single?_eq_some_iff.2 (bound ▸ hf)
    exact ⟨v, .inr (.inr (.inr ⟨q, bound, .inr ⟨f, hsingle, fault⟩⟩)), .refl v⟩

/-! ## The whole run -/

theorem mem_marks_iff : v ∈ rules.markFaults ctx ↔
    ctx.snapshot.MarkClash [.field, .property, .method] LinkKind.all v := by
  rw [Rules.mem_markFaults_iff]
  exact ⟨.mono (by decide) (by decide), .mono (by decide) (by decide)⟩

theorem available_of_exposure {config : Config} {s : Snapshot} (h : Exposure config s e p) :
    ∀ q, p = some q → s.Available .property q := by
  rintro q rfl
  exact (exposure_some_iff.1 h).available

/-- Whatever a run reports arises from the members. -/
theorem arises_of_mem_reports (hv : v ∈ rules.reports ctx (rules.reverseTable ctx)
      (rules.run ctx (rules.reverseTable ctx))) :
    Arises ctx.config ctx.snapshot ctx.mode v := by
  simp only [Rules.mem_reports_iff, mem_marks_iff, mem_anchors_iff, mem_descentFaults_iff,
    block_eq, List.mem_map] at hv
  rcases hv with hv | ⟨spec, hs, hv⟩ | hv | ⟨e, he, hv⟩ | ⟨e, he, _, ⟨p, hp, rfl⟩, hv⟩
  · exact .marks hv
  · simp only [roles_rules, List.mem_cons, List.not_mem_nil, or_false] at hs
    rcases hs with rfl | rfl | rfl
    · obtain ⟨c, hc, l, hl, name, hname, hv⟩ :=
        (Rules.mem_reverseFaults_iff_of_companion_none rfl rfl).1 hv
      exact .guardLink hc hl hname hv
    · obtain ⟨q, hq, l, hl, hv⟩ := mem_reverseFaults_propertySpec_iff.1 hv
      exact .methodsLink hq hl hv
    · obtain ⟨f, hf, l, hl, name, hname, hv⟩ :=
        (Rules.mem_reverseFaults_iff_of_companion_none rfl rfl).1 hv
      exact .backLink hf hl hname hv
  · obtain ⟨e, he, hw, hskip, rfl⟩ := Rules.mem_anchorFaults_iff.1 hv
    rw [wellNamed_iff] at hw
    obtain ⟨ha, hm | ⟨-, hw'⟩⟩ := eligible_iff.1 he
    · exact .invalidName ha hm hw hskip
    · exact absurd hw' hw
  · rcases hv with ⟨l, hl, hv⟩ | ⟨l, hl, hv⟩ | ⟨q, hq, l, hl, hv⟩
    · exact .canExecuteLink he hl hv
    · exact .commandLink he hl hv
    · exact .fieldLink he hq hl hv
  · have hexposure := mem_choices_properties_iff.1 hp
    exact .misfit he hexposure (misfit_of_mem_groupFaults (available_of_exposure hexposure) hv)

/-- Whatever arises from the members is reported by a run. -/
theorem exists_mem_reports_of_arises (hv : Arises ctx.config ctx.snapshot ctx.mode v) :
    ∃ w ∈ rules.reports ctx (rules.reverseTable ctx) (rules.run ctx (rules.reverseTable ctx)),
      v.Alike w := by
  simp only [Rules.mem_reports_iff, mem_marks_iff, mem_anchors_iff, mem_descentFaults_iff,
    block_eq, List.mem_map]
  have hreverse : ∀ {spec}, spec ∈ rules.roles → v ∈ rules.reverseFaults ctx spec →
      ∃ spec ∈ rules.roles, v ∈ rules.reverseFaults ctx spec := fun hs h => ⟨_, hs, h⟩
  cases hv with
  | marks clash => exact ⟨v, .inl clash, .refl v⟩
  | guardLink owner carried listed undesignated =>
    have hv : v ∈ rules.reverseFaults ctx canExecuteSpec :=
      (Rules.mem_reverseFaults_iff_of_companion_none rfl rfl).2
        ⟨_, owner, _, carried, _, listed, undesignated⟩
    exact ⟨v, .inr (.inl (hreverse (by simp) hv)), .refl v⟩
  | methodsLink owner carried bad =>
    have hv := mem_reverseFaults_propertySpec_iff.2 ⟨_, owner, _, carried, bad⟩
    exact ⟨v, .inr (.inl (hreverse (by simp) hv)), .refl v⟩
  | backLink owner carried listed undesignated =>
    have hv : v ∈ rules.reverseFaults ctx fieldSpec :=
      (Rules.mem_reverseFaults_iff_of_companion_none rfl rfl).2
        ⟨_, owner, _, carried, _, listed, undesignated⟩
    exact ⟨v, .inr (.inl (hreverse (by simp) hv)), .refl v⟩
  | invalidName available marked illNamed reported =>
    have hv := Rules.mem_anchorFaults_iff.2 ⟨_, eligible_iff.2 ⟨available, .inl marked⟩,
      mt wellNamed_iff.1 illNamed, reported, rfl⟩
    exact ⟨_, .inr (.inr (.inl hv)), .refl _⟩
  | canExecuteLink selected carried undesignated =>
    exact ⟨v, .inr (.inr (.inr (.inl ⟨_, selected, .inl ⟨_, carried, undesignated⟩⟩))), .refl v⟩
  | commandLink selected carried undesignated =>
    exact ⟨v, .inr (.inr (.inr (.inl ⟨_, selected, .inr (.inl ⟨_, carried, undesignated⟩)⟩))),
      .refl v⟩
  | fieldLink selected candidate carried undesignated =>
    exact ⟨v, .inr (.inr (.inr (.inl
      ⟨_, selected, .inr (.inr ⟨_, candidate, _, carried, undesignated⟩)⟩))), .refl v⟩
  | misfit selected exposure misfit =>
    obtain ⟨w, hw, halike⟩ :=
      exists_mem_groupFaults_of_misfit (available_of_exposure exposure) misfit
    exact ⟨w, .inr (.inr (.inr (.inr
      ⟨_, selected, _, ⟨_, mem_choices_properties_iff.2 exposure, rfl⟩, hw⟩))), halike⟩

variable {config : Config} {s : Snapshot} {mode : Mode}

/-- A failed resolution reports what arises from the members, all of it and nothing else. -/
theorem reports_of_resolve_eq_error {f : Failure}
    (hf : Command.resolve config s mode = .error f) :
    f.kind = .command ∧ f.Reports (Arises config s mode) := by
  simp only [Command.resolve, positions, map_eq_error_iff] at hf
  exact Diagnostics.finish_ofList_eq_error hf (fun v hv => arises_of_mem_reports hv)
    fun v hv => exists_mem_reports_of_arises hv

/-- Nothing arises from the members when a resolution succeeds. -/
theorem not_arises_of_resolve_eq_ok {bs : List (CommandBinding Member)}
    (hbs : Command.resolve config s mode = .ok bs) : ¬Arises config s mode v := by
  simp only [Command.resolve, positions, map_eq_ok_iff] at hbs
  obtain ⟨_, ⟨_, hgroups, -⟩, -⟩ := hbs
  have hnil := (Diagnostics.finish_ofList_eq_ok_iff.1 hgroups).1
  intro hv
  obtain ⟨w, hw, -⟩ := @exists_mem_reports_of_arises (.of config s mode) v hv
  rw [hnil] at hw
  cases hw

end MemberBinding.Command
