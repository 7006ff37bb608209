import MemberBinding.Proofs.Command.Blocks

/-!
# When commands are bound

The requirements on a snapshot are read off its members, with no mention of a run. Main statement:
`positions_eq_ok_iff`, by which a resolution succeeds exactly on the consistent snapshots and then
gives every selected method its block of bindings.
-/

namespace MemberBinding.Command

section

variable (config : Config) (s : Snapshot) (mode : Mode)

/-- The property of one binding of `e`: any candidate, or none when there is no candidate. -/
def Exposure (e : Nat) (p : Option Nat) : Prop :=
  (∃ q, p = some q ∧ PropertyCandidate config s e q) ∨
    (p = none ∧ ∀ q, ¬PropertyCandidate config s e q)

/-- What is asked of a method and the property it is bound with. -/
structure Fit (e : Nat) (p : Option Nat) : Prop where
  canExecute_unique : ∀ c, CanExecuteCandidate config s e p c →
    ∀ d, CanExecuteCandidate config s e p d → c = d
  field_unique : ∀ q, p = some q → ∀ f, BackingCandidate config s q f →
    ∀ g, BackingCandidate config s q g → f = g
  required : (s.member e).requiresExplicitLink = true → p ≠ none
  execute_shape : (s.member e).parameters = [] ∧ (s.member e).returnType = some config.types.void
  canExecute_shape : ∀ c, CanExecuteCandidate config s e p c →
    (s.member c).parameters = [] ∧ (s.member c).returnType = some config.types.boolean
  property_type : ∀ q, p = some q →
    ∃ type ∈ config.types.commandAssignable, (s.member q).valueType = some type
  field_type : ∀ q, p = some q → ∀ f, BackingCandidate config s q f →
    (s.member q).declaredType = (s.member f).declaredType

/-- Nothing about the snapshot is to be reported. -/
structure Consistent : Prop where
  excluded : ∀ id < s.members.length, (s.member id).isExcluded = true →
    (s.member id).isIncluded = false ∧ (s.member id).links = []
  guards : ∀ c, s.Available .method c → ∀ l ∈ (s.member c).linksOf .executeMethod,
    ∀ name ∈ l.names, ∃ e, s.Designates .method name e
  exposes : ∀ p, s.Available .property p → ∀ l ∈ (s.member p).linksOf .commandMethods,
    ∃ e c, Executes config.types s l e c
  backs : ∀ f, s.Available .field f → ∀ l ∈ (s.member f).linksOf .property,
    ∀ name ∈ l.names, ∃ p, s.Designates .property name p
  names : ∀ e, s.Available .method e → Marked config s mode e →
    config.options.skipInvalidNames = true ∨ WellNamed config s e
  canExecuteLinks : ∀ e, Selected config s mode e →
    ∀ l ∈ (s.member e).linksOf .canExecuteMethod, ∃ c, s.Designates .method l.name c
  commandLinks : ∀ e, Selected config s mode e →
    ∀ l ∈ (s.member e).linksOf .command, ∃ p, s.Designates .property l.name p
  fieldLinks : ∀ e, Selected config s mode e → ∀ p, PropertyCandidate config s e p →
    ∀ l ∈ (s.member p).linksOf .field, ∃ f, s.Designates .field l.name f
  fits : ∀ e, Selected config s mode e → ∀ p, Exposure config s e p → Fit config s e p

end

variable {ctx : Context} {e : Nat} {p : Option Nat}

theorem forall_roles_iff {C : RoleSpec → Nat → Prop} :
    (∀ spec role, rules.roles[role]? = some spec → C spec role) ↔
      C canExecuteSpec canExecuteRole ∧ C propertySpec propertyRole ∧ C fieldSpec fieldRole := by
  constructor
  · exact fun h => ⟨h _ _ rfl, h _ _ rfl, h _ _ rfl⟩
  · rintro ⟨h₀, h₁, h₂⟩ spec role hspec
    match role, hspec with
    | 0, hspec => exact Option.some.inj hspec ▸ h₀
    | 1, hspec => exact Option.some.inj hspec ▸ h₁
    | 2, hspec => exact Option.some.inj hspec ▸ h₂

theorem mem_choices_properties_iff :
    p ∈ choices (properties ctx e) ↔ Exposure ctx.config ctx.snapshot e p := by
  have hnil : properties ctx e = [] ↔ ∀ q, ¬PropertyCandidate ctx.config ctx.snapshot e q := by
    simp only [List.eq_nil_iff_forall_not_mem, mem_properties_iff]
  rw [mem_choices_iff, hnil, Exposure]
  simp only [mem_properties_iff, and_comm]

theorem exposure_some_iff {config : Config} {s : Snapshot} {e q : Nat} :
    Exposure config s e (some q) ↔ PropertyCandidate config s e q := by
  simp [Exposure]

/-! ## The checks of one group -/

theorem length_canExecutes_lt_two_iff :
    ((group ctx e p).candidates canExecuteRole).length < 2 ↔
      ∀ c, CanExecuteCandidate ctx.config ctx.snapshot e p c →
        ∀ d, CanExecuteCandidate ctx.config ctx.snapshot e p d → c = d := by
  have hcandidates : (group ctx e p).candidates canExecuteRole =
      Group.insertAll (canExecutes ctx e) (companions ctx e p) := rfl
  have hnodup := Group.nodup_insertAll (nodup_canExecutes ctx e) (companions ctx e p)
  rw [hcandidates, Group.length_lt_two_iff hnodup]
  simp only [mem_canExecutes_iff]

theorem length_fields_lt_two_iff :
    ((group ctx e p).candidates fieldRole).length < 2 ↔
      ∀ q, p = some q → ∀ f, BackingCandidate ctx.config ctx.snapshot q f →
        ∀ g, BackingCandidate ctx.config ctx.snapshot q g → f = g := by
  have hcandidates : (group ctx e p).candidates fieldRole = fields ctx p := rfl
  rw [hcandidates, Group.length_lt_two_iff (nodup_fields ctx p)]
  simp only [mem_fields_iff]
  constructor
  · rintro h q rfl f hf g hg
    exact h f ⟨q, rfl, hf⟩ g ⟨q, rfl, hg⟩
  · rintro h f ⟨q, rfl, hf⟩ g ⟨_, ⟨⟩, hg⟩
    exact h q rfl f hf g hg

theorem single?_canExecute_iff (h : ((group ctx e p).candidates canExecuteRole).length < 2)
    {c : Nat} : (group ctx e p).single? canExecuteRole = some c ↔
      CanExecuteCandidate ctx.config ctx.snapshot e p c := by
  rw [Group.single?_eq_some_iff_mem h, ← mem_canExecutes_iff]
  rfl

theorem single?_property (ctx : Context) (e : Nat) (p : Option Nat) :
    (group ctx e p).single? propertyRole = p := by
  cases p <;> rfl

theorem single?_field_iff (h : ((group ctx e p).candidates fieldRole).length < 2) {f : Nat} :
    (group ctx e p).single? fieldRole = some f ↔
      ∃ q, p = some q ∧ BackingCandidate ctx.config ctx.snapshot q f := by
  rw [Group.single?_eq_some_iff_mem h, ← mem_fields_iff]
  rfl

theorem multiplicityFaults_group_eq_nil_iff :
    rules.multiplicityFaults ctx (group ctx e p) = [] ↔
      ((group ctx e p).candidates canExecuteRole).length < 2 ∧
        ((group ctx e p).candidates fieldRole).length < 2 := by
  have hcanExecute : (group ctx e p).sourceOf canExecuteSpec = some e := rfl
  have hproperty : ((group ctx e p).candidates propertyRole).length < 2 := by
    cases p with
    | none => exact Nat.zero_lt_two
    | some q => exact Nat.one_lt_two
  have hfield : (group ctx e p).sourceOf fieldSpec = p := sourceOf_fieldSpec _ _ _ _
  rw [Rules.multiplicityFaults_eq_nil_iff, forall_roles_iff, hcanExecute, hfield]
  constructor
  · intro h
    obtain ⟨hc, -, hf⟩ := h
    refine ⟨hc e rfl, ?_⟩
    cases p with
    | none => exact Nat.zero_lt_two
    | some q => exact hf q rfl
  · intro h
    obtain ⟨hc, hf⟩ := h
    exact ⟨fun _ _ => hc, fun _ _ => hproperty, fun _ _ => hf⟩

theorem requiredFaults_group_eq_nil_iff :
    rules.requiredFaults ctx (group ctx e p) = [] ↔
      ((ctx.snapshot.member e).requiresExplicitLink = true → p ≠ none) := by
  have hproperty : (group ctx e p).sourceOf propertySpec = some e := rfl
  have hne : (group ctx e p).candidates propertyRole ≠ [] ↔ p ≠ none := by
    cases p <;> simp [group, Group.candidates, propertyRole]
  rw [Rules.requiredFaults_eq_nil_iff, forall_roles_iff, hproperty]
  constructor
  · rintro ⟨-, h, -⟩ hx
    exact hne.1 (h e rfl rfl hx)
  · intro h
    refine ⟨fun _ _ hr => absurd hr (by decide), ?_, fun _ _ hr => absurd hr (by decide)⟩
    rintro _ ⟨⟩ - hx
    exact hne.2 (h hx)

theorem propertyFaults_eq_nil_iff {types : TypeNames} {m : Member} (h : m.kind = .property) :
    propertyFaults types m = [] ↔ ∃ type ∈ types.commandAssignable, m.valueType = some type := by
  have hdeclared : m.declaredType = m.valueType := by simp [Member.declaredType, h]
  rw [propertyFaults, hdeclared]
  cases m.valueType with
  | none => simp
  | some type => simp [TypeNames.isCommandAssignable]

theorem check_eq_nil_iff {g : Group} :
    check ctx g = [] ↔ ((ctx.snapshot.member g.anchor).parameters = [] ∧
        (ctx.snapshot.member g.anchor).returnType = some ctx.config.types.void) ∧
      (∀ c, g.single? canExecuteRole = some c → (ctx.snapshot.member c).parameters = [] ∧
        (ctx.snapshot.member c).returnType = some ctx.config.types.boolean) ∧
      ∀ p, g.single? propertyRole = some p →
        propertyFaults ctx.config.types (ctx.snapshot.member p) = [] ∧
        ∀ f, g.single? fieldRole = some f →
          (ctx.snapshot.member p).declaredType = (ctx.snapshot.member f).declaredType := by
  simp only [check, List.append_eq_nil_iff, methodFaults_eq_nil_iff, Context.member_eq, and_assoc]
  cases g.single? canExecuteRole <;> cases g.single? propertyRole <;>
    cases g.single? fieldRole <;>
    simp [methodFaults_eq_nil_iff, sameTypeFaults_eq_nil_iff, and_assoc]

theorem groupFaults_eq_nil_iff (hp : ∀ q, p = some q → ctx.snapshot.Available .property q) :
    rules.groupFaults ctx (group ctx e p) = [] ↔ Fit ctx.config ctx.snapshot e p := by
  have hcheck : rules.check ctx (group ctx e p) = check ctx (group ctx e p) := rfl
  have hanchor : (group ctx e p).anchor = e := rfl
  rw [Rules.groupFaults, List.append_eq_nil_iff, List.append_eq_nil_iff, and_assoc, hcheck,
    multiplicityFaults_group_eq_nil_iff, requiredFaults_group_eq_nil_iff, check_eq_nil_iff, hanchor,
    single?_property]
  constructor
  · intro h
    obtain ⟨⟨hcan, hfield⟩, hrequired, hexecute, hcanExecute, hproperty⟩ := h
    refine ⟨length_canExecutes_lt_two_iff.1 hcan, length_fields_lt_two_iff.1 hfield, hrequired,
      hexecute, ?_, ?_, ?_⟩
    · intro c hc
      exact hcanExecute c ((single?_canExecute_iff hcan).2 hc)
    · intro q hq
      exact (propertyFaults_eq_nil_iff (hp q hq).kind_eq).1 (hproperty q hq).1
    · intro q hq f hf
      exact (hproperty q hq).2 f ((single?_field_iff hfield).2 ⟨q, hq, hf⟩)
  · intro h
    have hcan := length_canExecutes_lt_two_iff.2 h.canExecute_unique
    have hfield : ((group ctx e p).candidates fieldRole).length < 2 :=
      length_fields_lt_two_iff.2 h.field_unique
    refine ⟨⟨hcan, hfield⟩, h.required, h.execute_shape, ?_, ?_⟩
    · intro c hc
      exact h.canExecute_shape c ((single?_canExecute_iff hcan).1 hc)
    · intro q hq
      refine ⟨(propertyFaults_eq_nil_iff (hp q hq).kind_eq).2 (h.property_type q hq), ?_⟩
      intro f hf
      obtain ⟨_, hq', hf⟩ := (single?_field_iff hfield).1 hf
      obtain rfl := Option.some.inj (hq.symm.trans hq')
      exact h.field_type q hq f hf

/-! ## Marks -/

theorem markFaults_eq_nil_iff : rules.markFaults ctx = [] ↔
    ∀ id < ctx.snapshot.members.length, (ctx.snapshot.member id).isExcluded = true →
      (ctx.snapshot.member id).isIncluded = false ∧ (ctx.snapshot.member id).links = [] := by
  have hmembers : ∀ kind, kind ∈ rules.memberKinds := by
    intro kind
    cases kind <;> decide
  have hlinks : ∀ m : Member, (∀ kind ∈ rules.linkKinds, m.linksOf kind = []) ↔ m.links = [] := by
    intro m
    have hkinds : ∀ kind, kind ∈ rules.linkKinds := by
      intro kind
      cases kind <;> decide
    simp only [Member.linksOf, List.filter_eq_nil_iff, beq_iff_eq]
    constructor
    · intro h
      rw [List.eq_nil_iff_forall_not_mem]
      exact fun l hl => h l.kind (hkinds l.kind) l hl rfl
    · intro h kind _ l hl
      simp [h] at hl
  rw [Rules.markFaults_eq_nil_iff]
  simp only [hmembers, hlinks, true_implies]

/-! ## The whole run -/

theorem forall_group_iff {e : Nat} :
    (∀ g ∈ rules.block ctx (rules.reverseTable ctx) e, rules.groupFaults ctx g = []) ↔
      ∀ p, Exposure ctx.config ctx.snapshot e p → Fit ctx.config ctx.snapshot e p := by
  simp only [block_eq, List.forall_mem_map, mem_choices_properties_iff]
  refine forall_congr' fun p => forall_congr' fun hp => ?_
  apply groupFaults_eq_nil_iff
  rintro q rfl
  exact (exposure_some_iff.1 hp).available

theorem reverseFaults_propertySpec_eq_nil_iff :
    rules.reverseFaults ctx propertySpec = [] ↔ ∀ p, ctx.snapshot.Available .property p →
      ∀ l ∈ (ctx.snapshot.member p).linksOf .commandMethods,
        ∃ e c, Executes ctx.config.types ctx.snapshot l e c := by
  have hresolved : ∀ (l : Link) (site : LinkSite), (∃ first second target,
      ctx.snapshot.Resolves .method l first second ∧
        propertySpec.splitTargets ctx site first second = .ok target) ↔
      ∃ e c, Executes ctx.config.types ctx.snapshot l e c := by
    intro l site
    constructor
    · intro h
      obtain ⟨first, second, target, h⟩ := h
      obtain ⟨c, -, h⟩ := exists_splitTargets_iff.1 ⟨first, second, h⟩
      exact ⟨target.source, c, h⟩
    · intro h
      obtain ⟨e, c, h⟩ := h
      have hsplit : ∃ first second, ctx.snapshot.Resolves .method l first second ∧
          propertySpec.splitTargets ctx site first second =
            .ok ⟨e, c.map (canExecuteRole, ·)⟩ := exists_splitTargets_iff.2 ⟨c, rfl, h⟩
      obtain ⟨first, second, hsplit⟩ := hsplit
      exact ⟨first, second, _, hsplit⟩
  have hsource : (rules.source propertySpec).kind = .method := rfl
  rw [Rules.reverseFaults_eq_nil_iff, hsource]
  simp only [hresolved]
  rfl

theorem reverseFaults_eq_nil_iff :
    (∀ spec ∈ rules.roles, rules.reverseFaults ctx spec = []) ↔
      (∀ c, ctx.snapshot.Available .method c →
        ∀ l ∈ (ctx.snapshot.member c).linksOf .executeMethod, ∀ name ∈ l.names,
          ∃ e, ctx.snapshot.Designates .method name e) ∧
      (∀ p, ctx.snapshot.Available .property p →
        ∀ l ∈ (ctx.snapshot.member p).linksOf .commandMethods,
          ∃ e c, Executes ctx.config.types ctx.snapshot l e c) ∧
      ∀ f, ctx.snapshot.Available .field f →
        ∀ l ∈ (ctx.snapshot.member f).linksOf .property, ∀ name ∈ l.names,
          ∃ p, ctx.snapshot.Designates .property name p := by
  have hcanExecute : canExecuteSpec.companion = none := rfl
  have hfield : fieldSpec.companion = none := rfl
  simp only [roles_rules, List.forall_mem_cons, List.not_mem_nil, false_implies, implies_true,
    and_true, reverseFaults_propertySpec_eq_nil_iff,
    Rules.reverseFaults_eq_nil_iff_of_companion_none hcanExecute,
    Rules.reverseFaults_eq_nil_iff_of_companion_none hfield]
  rfl

theorem resolve_rules_eq_ok_iff {groups : List Group} :
    rules.resolve ctx = .ok groups ↔ Consistent ctx.config ctx.snapshot ctx.mode ∧
      groups = (rules.anchors ctx (rules.reverseTable ctx)).flatMap fun e =>
        (choices (properties ctx e)).map (group ctx e) := by
  have hblock : rules.block ctx (rules.reverseTable ctx) = fun e =>
      (choices (properties ctx e)).map (group ctx e) := funext (block_eq ctx)
  rw [Rules.resolve_eq_ok_iff, markFaults_eq_nil_iff, reverseFaults_eq_nil_iff,
    anchorFaults_eq_nil_iff]
  simp only [descentFaults_eq_nil_iff, mem_anchors_iff, forall_group_iff]
  rw [hblock]
  constructor
  · intro h
    obtain ⟨hx, ⟨hg, he, hb⟩, hn, hd, hf, rfl⟩ := h
    exact ⟨⟨hx, hg, he, hb, hn, fun e hs => (hd e hs).1, fun e hs => (hd e hs).2.1,
      fun e hs => (hd e hs).2.2, hf⟩, rfl⟩
  · intro h
    obtain ⟨hc, rfl⟩ := h
    exact ⟨hc.excluded, ⟨hc.guards, hc.exposes, hc.backs⟩, hc.names,
      fun e hs => ⟨hc.canExecuteLinks e hs, hc.commandLinks e hs, hc.fieldLinks e hs⟩, hc.fits, rfl⟩

/-- The bindings of a method, one for each choice of a property. -/
def bindings (ctx : Context) (e : Nat) : List (CommandBinding Nat) :=
  (choices (properties ctx e)).map fun p => .ofGroup (group ctx e p)

variable {config : Config} {s : Snapshot} {mode : Mode} {bs : List (CommandBinding Nat)}

/-- Commands are bound exactly on the consistent snapshots, each selected method in one block. -/
theorem positions_eq_ok_iff :
    positions config s mode = .ok bs ↔ Consistent config s mode ∧
      bs = (rules.anchors (.of config s mode) (rules.reverseTable (.of config s mode))).flatMap
        (bindings (.of config s mode)) := by
  have hbindings : ∀ es : List Nat,
      (es.flatMap fun e => (choices (properties (.of config s mode) e)).map
        (group (.of config s mode) e)).map .ofGroup =
          es.flatMap (bindings (.of config s mode)) := by
    intro es
    rw [List.map_flatMap]
    simp only [List.map_map]
    rfl
  simp only [positions, map_eq_ok_iff, resolve_rules_eq_ok_iff, Context.config_of,
    Context.snapshot_of, Context.mode_of]
  constructor
  · intro h
    obtain ⟨_, ⟨hc, rfl⟩, rfl⟩ := h
    exact ⟨hc, hbindings _⟩
  · intro h
    obtain ⟨hc, rfl⟩ := h
    exact ⟨_, ⟨hc, rfl⟩, hbindings _⟩

theorem exists_resolve_eq_ok_iff :
    (∃ bs, Command.resolve config s mode = .ok bs) ↔ Consistent config s mode := by
  simp only [Command.resolve, map_eq_ok_iff, positions_eq_ok_iff]
  constructor
  · intro h
    obtain ⟨_, _, ⟨hc, -⟩, -⟩ := h
    exact hc
  · intro hc
    exact ⟨_, _, ⟨hc, rfl⟩, rfl⟩

/-! ## What a binding holds -/

/-- A binding of a selected method with one of its properties, and the only candidates. -/
structure Justified (config : Config) (s : Snapshot) (mode : Mode) (b : CommandBinding Nat) :
    Prop where
  selected : Selected config s mode b.execute
  exposure : Exposure config s b.execute b.property
  canExecute_iff : ∀ c, b.canExecute = some c ↔ CanExecuteCandidate config s b.execute b.property c
  field_iff : ∀ f, b.field = some f ↔ ∃ p, b.property = some p ∧ BackingCandidate config s p f
  fit : Fit config s b.execute b.property

theorem justified_ofGroup (hc : Consistent config s mode) {e : Nat} (he : Selected config s mode e)
    {p : Option Nat} (hp : Exposure config s e p) :
    Justified config s mode (.ofGroup (group (.of config s mode) e p)) := by
  have hfit := hc.fits e he p hp
  have hproperty : (CommandBinding.ofGroup (group (.of config s mode) e p)).property = p :=
    single?_property _ _ _
  refine ⟨he, ?_, ?_, ?_, ?_⟩
  · rwa [hproperty]
  · rw [hproperty]
    intro c
    exact single?_canExecute_iff (length_canExecutes_lt_two_iff.2 hfit.canExecute_unique)
  · rw [hproperty]
    intro f
    exact single?_field_iff (length_fields_lt_two_iff.2 hfit.field_unique)
  · rwa [hproperty]

theorem justified_of_mem (h : positions config s mode = .ok bs) {b : CommandBinding Nat}
    (hb : b ∈ bs) : Justified config s mode b := by
  obtain ⟨hc, rfl⟩ := positions_eq_ok_iff.1 h
  obtain ⟨e, he, hb⟩ := List.mem_flatMap.1 hb
  obtain ⟨p, hp, rfl⟩ := List.mem_map.1 hb
  exact justified_ofGroup hc (mem_anchors_iff.1 he) (mem_choices_properties_iff.1 hp)

/-- Every selected method is bound with each of its properties. -/
theorem exists_binding (h : positions config s mode = .ok bs) {e : Nat}
    (he : Selected config s mode e) {p : Option Nat} (hp : Exposure config s e p) :
    ∃ b ∈ bs, b.execute = e ∧ b.property = p := by
  obtain ⟨-, rfl⟩ := positions_eq_ok_iff.1 h
  refine ⟨.ofGroup (group (.of config s mode) e p), ?_, rfl, single?_property _ _ _⟩
  refine List.mem_flatMap.2 ⟨e, mem_anchors_iff.2 he, ?_⟩
  exact List.mem_map_of_mem (mem_choices_properties_iff.2 hp)

theorem exists_exposure (config : Config) (s : Snapshot) (e : Nat) :
    ∃ p, Exposure config s e p := by
  by_cases h : ∃ q, PropertyCandidate config s e q
  · obtain ⟨q, hq⟩ := h
    exact ⟨some q, .inl ⟨q, rfl, hq⟩⟩
  · exact ⟨none, .inr ⟨rfl, not_exists.1 h⟩⟩

end MemberBinding.Command
