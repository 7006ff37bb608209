import MemberBinding.Proofs.Command.Relations
import MemberBinding.Proofs.Resolution.Candidates
import MemberBinding.Proofs.Resolution.Run

/-!
# The groups of a command

A run gives every anchor one group for each of its properties, or a single group without one. The
can-execute methods of the groups differ only in the companions of their own property. Main
statements: `block_eq`, and the membership lemmas that compare the candidates with the relations.
-/

namespace MemberBinding.Command

@[simp] theorem roles_rules : rules.roles = [canExecuteSpec, propertySpec, fieldSpec] := rfl

/-- Only the links of properties carry a companion, to the can-execute role. -/
theorem companion_eq_some {spec : RoleSpec} (h : spec ∈ rules.roles) {c : Companion}
    (hc : spec.companion = some c) : spec = propertySpec ∧ c.role = canExecuteRole := by
  simp only [roles_rules, List.mem_cons, List.not_mem_nil, or_false] at h
  rcases h with rfl | rfl | rfl
  · cases hc
  · cases hc
    exact ⟨rfl, rfl⟩
  · cases hc

variable {ctx : Context}

/-! ## Reverse links -/

theorem exists_splitTargets_iff {site : LinkSite} {l : Link} {target : ReverseTarget} :
    (∃ first second, ctx.snapshot.Resolves .method l first second ∧
        propertySpec.splitTargets ctx site first second = .ok target) ↔
      ∃ c, target.companion = c.map (canExecuteRole, ·) ∧
        Executes ctx.config.types ctx.snapshot l target.source c := by
  constructor
  · intro h
    obtain ⟨first, second, hres, hsplit⟩ := h
    have hf := hres.first
    cases second with
    | none =>
      have htarget : ⟨first, none⟩ = target := Except.ok.inj hsplit
      subst htarget
      exact ⟨none, rfl, .alone hres.secondName_eq_none hf⟩
    | some second =>
      obtain ⟨name, hname, hsecond⟩ := hres.exists_secondName
      obtain ⟨order, horder, htarget⟩ := map_eq_ok_iff.1 hsplit
      cases order with
      | asWritten =>
        subst htarget
        exact ⟨some second, rfl, .first hname hf hsecond (pairOrder_eq_asWritten_iff.1 horder)⟩
      | swapped =>
        subst htarget
        exact ⟨some first, rfl, .second hname hsecond hf (pairOrder_eq_swapped_iff.1 horder)⟩
  · intro h
    obtain ⟨c, hc, h⟩ := h
    obtain ⟨source, companion⟩ := target
    dsimp only at hc h
    subst hc
    cases h with
    | alone single execute => exact ⟨source, none, ⟨execute, single ▸ .none⟩, rfl⟩
    | first second execute canExecute order =>
      exact ⟨source, some _, ⟨execute, second ▸ .some canExecute⟩,
        map_eq_ok_iff.2 ⟨.asWritten, pairOrder_eq_asWritten_iff.2 order, rfl⟩⟩
    | second second execute canExecute order =>
      exact ⟨_, some source, ⟨canExecute, second ▸ .some execute⟩,
        map_eq_ok_iff.2 ⟨.swapped, pairOrder_eq_swapped_iff.2 order, rfl⟩⟩

theorem mem_reverseLinks_iff {r : ReverseLink} :
    r ∈ rules.reverseLinks ctx propertySpec ↔
      ∃ c, r.companion = c.map (canExecuteRole, ·) ∧
        Exposes ctx.config ctx.snapshot r.owner r.source c := by
  have hsource : (rules.source propertySpec).kind = .method := rfl
  rw [Rules.mem_reverseLinks_iff, hsource]
  simp only [exists_splitTargets_iff]
  constructor
  · intro h
    obtain ⟨ha, l, hl, c, hc, h⟩ := h
    exact ⟨c, hc, ha, l, hl, h⟩
  · intro h
    obtain ⟨c, hc, ha, l, hl, h⟩ := h
    exact ⟨ha, l, hl, c, hc, h⟩

theorem exists_reverseLink_iff {p e : Nat} :
    (∃ r ∈ rules.reverseLinks ctx propertySpec, r.source = e ∧ r.owner = p) ↔
      ∃ c, Exposes ctx.config ctx.snapshot p e c := by
  simp only [mem_reverseLinks_iff]
  constructor
  · intro h
    obtain ⟨r, ⟨c, -, h⟩, rfl, rfl⟩ := h
    exact ⟨c, h⟩
  · intro h
    obtain ⟨c, h⟩ := h
    exact ⟨⟨⟨e, c.map (canExecuteRole, ·)⟩, p⟩, ⟨c, rfl, h⟩, rfl, rfl⟩

theorem exists_source_iff {e : Nat} :
    (∃ r ∈ rules.reverseLinks ctx propertySpec, r.source = e) ↔
      ∃ p c, Exposes ctx.config ctx.snapshot p e c := by
  rw [ReverseLink.exists_source_iff]
  simp only [exists_reverseLink_iff]

/-- The links that carry a can-execute method to `e`. -/
theorem exists_carrier_iff {e : Nat} :
    (∃ other ∈ rules.roles, ∃ r ∈ rules.reverseLinks ctx other,
        r.source = e ∧ r.companion.map (·.1) = some canExecuteRole) ↔
      ∃ p c, Exposes ctx.config ctx.snapshot p e (some c) := by
  constructor
  · intro h
    obtain ⟨other, ho, r, hr, rfl, hc⟩ := h
    obtain ⟨companion, hother, -⟩ := Rules.exists_companion_of_role_eq hr hc
    obtain ⟨rfl, -⟩ := companion_eq_some ho hother
    obtain ⟨c, hrc, h⟩ := mem_reverseLinks_iff.1 hr
    cases c with
    | none => simp [hrc] at hc
    | some c => exact ⟨r.owner, c, h⟩
  · intro h
    obtain ⟨p, c, h⟩ := h
    exact ⟨propertySpec, by simp, ⟨⟨e, some (canExecuteRole, c)⟩, p⟩,
      mem_reverseLinks_iff.2 ⟨some c, rfl, h⟩, rfl, rfl⟩

theorem guards_iff {c e : Nat} :
    (∃ r ∈ rules.reverseLinks ctx canExecuteSpec, r.source = e ∧ r.owner = c) ↔
      Guards ctx.snapshot c e :=
  Rules.exists_reverseLink_iff rfl

theorem exists_guards_iff {e : Nat} :
    (∃ r ∈ rules.reverseLinks ctx canExecuteSpec, r.source = e) ↔ ∃ c, Guards ctx.snapshot c e :=
  Rules.exists_source_iff rfl

/-! ## Anchors -/

theorem linked_iff {e : Nat} :
    rules.Linked ctx e ↔ Linked ctx.config ctx.snapshot e := by
  rw [Linked, ← exists_guards_iff, ← exists_source_iff]
  constructor
  · intro h
    obtain ⟨spec, hs, ho, h⟩ := h
    rw [roles_rules] at hs
    simp only [List.mem_cons, List.not_mem_nil, or_false] at hs
    rcases hs with rfl | rfl | rfl
    · rcases h with h | h
      · exact .inl h
      · exact .inr (.inr (.inl h))
    · rcases h with h | h
      · exact .inr (.inl h)
      · exact .inr (.inr (.inr h))
    · cases ho
  · intro h
    rcases h with h | h | h | h
    · exact ⟨canExecuteSpec, by simp, rfl, .inl h⟩
    · exact ⟨propertySpec, by simp, rfl, .inl h⟩
    · exact ⟨canExecuteSpec, by simp, rfl, .inr h⟩
    · exact ⟨propertySpec, by simp, rfl, .inr h⟩

theorem wellNamed_iff {e : Nat} :
    rules.WellNamed ctx e ↔ WellNamed ctx.config ctx.snapshot e := by
  rw [WellNamed, or_comm]
  rfl

theorem isCandidate_iff {e : Nat} {linked : Bool} :
    isCandidate ctx (ctx.snapshot.member e) linked = true ↔
      ctx.mode = .selectively ∨ linked = true ∨ ((ctx.snapshot.member e).parameters = [] ∧
        (ctx.snapshot.member e).returnType = some ctx.config.types.void ∧
        WellNamed ctx.config ctx.snapshot e) := by
  unfold isCandidate WellNamed
  cases ctx.mode <;> simp [Member.returns, and_assoc, or_comm]

/-- An unfitting name is passed over in silence, unless some mark asks for the method. -/
theorem eligible_iff {e : Nat} :
    rules.Eligible ctx e ↔ ctx.snapshot.Available .method e ∧
      (Marked ctx.config ctx.snapshot ctx.mode e ∨
        (Chosen ctx.config ctx.snapshot ctx.mode e ∧ WellNamed ctx.config ctx.snapshot e)) := by
  have hcandidate : rules.isCandidate = isCandidate := rfl
  have hkind : rules.anchor.kind = .method := rfl
  rw [Rules.eligible_iff, hcandidate, hkind, isCandidate_iff, Rules.isLinked_iff, linked_iff,
    chosen_iff, Marked]
  cases ctx.mode <;> grind

theorem mem_anchors_iff {e : Nat} :
    e ∈ rules.anchors ctx (rules.reverseTable ctx) ↔
      Selected ctx.config ctx.snapshot ctx.mode e := by
  rw [Rules.mem_anchors_iff, eligible_iff, wellNamed_iff]
  constructor
  · intro h
    rcases h with ⟨⟨ha, hm | ⟨hc, -⟩⟩, hw⟩
    · exact ⟨ha, hw, chosen_iff.2 (.inl hm)⟩
    · exact ⟨ha, hw, hc⟩
  · intro h
    obtain ⟨ha, hw, hc⟩ := h
    exact ⟨⟨ha, .inr ⟨hc, hw⟩⟩, hw⟩

theorem anchorFaults_eq_nil_iff :
    rules.anchorFaults ctx (rules.reverseTable ctx) = [] ↔
      ∀ e, ctx.snapshot.Available .method e → Marked ctx.config ctx.snapshot ctx.mode e →
        ctx.config.options.skipInvalidNames = true ∨ WellNamed ctx.config ctx.snapshot e := by
  simp only [Rules.anchorFaults_eq_nil_iff, eligible_iff, wellNamed_iff]
  constructor
  · exact fun h e ha hm => h e ⟨ha, .inl hm⟩
  · rintro h e ⟨ha, hm | ⟨-, hw⟩⟩
    · exact h e ha hm
    · exact .inr hw

/-! ## Candidates -/

theorem explicit_canExecute_iff {e : Nat} :
    rules.Explicit ctx canExecuteSpec canExecuteRole e ↔
      GuardLinked ctx.config ctx.snapshot e := by
  rw [Rules.Explicit, exists_guards_iff, exists_carrier_iff]
  rfl

theorem explicit_property_iff {e : Nat} :
    rules.Explicit ctx propertySpec propertyRole e ↔
      PropertyLinked ctx.config ctx.snapshot e := by
  have hcarried : ¬∃ other ∈ rules.roles, ∃ r ∈ rules.reverseLinks ctx other,
      r.source = e ∧ r.companion.map (·.1) = some propertyRole := by
    intro h
    obtain ⟨other, ho, r, hr, -, hc⟩ := h
    obtain ⟨c, hother, hrole⟩ := Rules.exists_companion_of_role_eq hr hc
    obtain ⟨-, h⟩ := companion_eq_some ho hother
    rw [hrole] at h
    cases h
  rw [Rules.Explicit, exists_source_iff, PropertyLinked]
  simp only [hcarried, or_false]
  rfl

theorem fillsField : rules.FillsField fieldSpec fieldRole where
  getElem?_eq := rfl
  source_kind := rfl
  kind := rfl
  forward := rfl
  reverse := rfl
  companion := rfl
  not_carried other ho c hc := by
    rw [(companion_eq_some ho hc).2]
    decide

/-- The methods that a run finds for `e` before any property is known. -/
def canExecutes (ctx : Context) (e : Nat) : List Nat :=
  Group.insertAll [] (rules.found ctx (rules.reverseTable ctx) canExecuteSpec canExecuteRole e)

def properties (ctx : Context) (e : Nat) : List Nat :=
  Group.insertAll [] (rules.found ctx (rules.reverseTable ctx) propertySpec propertyRole e)

def fields (ctx : Context) : Option Nat → List Nat
  | some p => Group.insertAll [] (rules.found ctx (rules.reverseTable ctx) fieldSpec fieldRole p)
  | none => []

/-- One property for each group. -/
def choices : List Nat → List (Option Nat)
  | [] => [none]
  | ps => ps.map some

/-- A group right after its property is chosen. -/
def split (ctx : Context) (e : Nat) (p : Option Nat) : Group :=
  ⟨e, [canExecutes ctx e, p.toList, []]⟩

def companions (ctx : Context) (e : Nat) (p : Option Nat) : List Nat :=
  ((rules.reverseLinks ctx propertySpec).filterMap ((split ctx e p).carried propertyRole)).map (·.2)

/-- The group of `e` and `p` at the end of a run. -/
def group (ctx : Context) (e : Nat) (p : Option Nat) : Group :=
  ⟨e, [Group.insertAll (canExecutes ctx e) (companions ctx e p), p.toList, fields ctx p]⟩

theorem mem_choices_iff {ps : List Nat} {p : Option Nat} :
    p ∈ choices ps ↔ (∃ q ∈ ps, p = some q) ∨ (p = none ∧ ps = []) := by
  cases ps with
  | nil => simp [choices]
  | cons q ps => simp [choices, eq_comm]

theorem choices_ne_nil (ps : List Nat) : choices ps ≠ [] := by
  cases ps <;> simp [choices]

theorem nodup_choices {ps : List Nat} (h : ps.Nodup) : (choices ps).Nodup := by
  cases ps with
  | nil => simp [choices]
  | cons q ps => exact List.Pairwise.map some (fun _ _ hne h => hne (Option.some.inj h)) h

theorem nodup_canExecutes (ctx : Context) (e : Nat) : (canExecutes ctx e).Nodup :=
  Group.nodup_insertAll List.nodup_nil _

theorem nodup_properties (ctx : Context) (e : Nat) : (properties ctx e).Nodup :=
  Group.nodup_insertAll List.nodup_nil _

theorem nodup_fields (ctx : Context) (p : Option Nat) : (fields ctx p).Nodup := by
  cases p with
  | none => exact List.nodup_nil
  | some q => exact Group.nodup_insertAll List.nodup_nil _

/-! ## Membership -/

theorem mem_properties_iff {e p : Nat} :
    p ∈ properties ctx e ↔ PropertyCandidate ctx.config ctx.snapshot e p := by
  have hrole : rules.roles[propertyRole]? = some propertySpec := rfl
  rw [properties, Group.mem_insertAll, Rules.mem_found_iff hrole, explicit_property_iff,
    exists_reverseLink_iff]
  constructor
  · intro h
    rcases h with h | ⟨hs, hm⟩ | ⟨l, hl, hd⟩ | ⟨c, h⟩
    · cases h
    · exact .named hs hm
    · exact .forward hl hd
    · exact .reverse h
  · intro h
    rcases h with ⟨hs, hm⟩ | ⟨hl, hd⟩ | h
    · exact .inr (.inl ⟨hs, hm⟩)
    · exact .inr (.inr (.inl ⟨_, hl, hd⟩))
    · exact .inr (.inr (.inr ⟨_, h⟩))

theorem mem_fields_iff {p : Option Nat} {f : Nat} :
    f ∈ fields ctx p ↔ ∃ q, p = some q ∧ BackingCandidate ctx.config ctx.snapshot q f := by
  cases p with
  | none => simp [fields]
  | some q =>
    simp only [fields, Group.mem_insertAll, fillsField.mem_found_iff_fieldCandidate,
      List.not_mem_nil, false_or, Option.some.injEq, exists_eq_left']
    rfl

theorem mem_companions_iff {e c : Nat} {p : Option Nat} :
    c ∈ companions ctx e p ↔ ∃ q, p = some q ∧
      Exposes ctx.config ctx.snapshot q e (some c) := by
  have hcarried : ∀ r x, (split ctx e p).carried propertyRole r = some x ↔
      r.source = e ∧ p = some r.owner ∧ r.companion = some x := by
    intro r x
    have hcandidates : (split ctx e p).candidates propertyRole = p.toList := rfl
    have hanchor : (split ctx e p).anchor = e := rfl
    rw [Group.carried, hcandidates, hanchor]
    simp [and_assoc]
  simp only [companions, List.mem_map, List.mem_filterMap, hcarried, mem_reverseLinks_iff]
  constructor
  · intro h
    obtain ⟨x, ⟨r, ⟨d, hd, h⟩, rfl, hp, hx⟩, rfl⟩ := h
    rw [hd] at hx
    cases d with
    | none => cases hx
    | some d =>
      cases hx
      exact ⟨r.owner, hp, h⟩
  · intro h
    obtain ⟨q, rfl, h⟩ := h
    refine ⟨(canExecuteRole, c), ⟨⟨⟨e, some (canExecuteRole, c)⟩, q⟩, ?_, rfl, rfl, rfl⟩, rfl⟩
    exact ⟨some c, rfl, h⟩

theorem mem_canExecutes_iff {e c : Nat} {p : Option Nat} :
    c ∈ Group.insertAll (canExecutes ctx e) (companions ctx e p) ↔
      CanExecuteCandidate ctx.config ctx.snapshot e p c := by
  have hrole : rules.roles[canExecuteRole]? = some canExecuteSpec := rfl
  rw [Group.mem_insertAll, canExecutes, Group.mem_insertAll, Rules.mem_found_iff hrole,
    explicit_canExecute_iff, guards_iff, mem_companions_iff]
  constructor
  · intro h
    rcases h with (h | ⟨hs, hm⟩ | ⟨l, hl, hd⟩ | h) | ⟨q, hp, h⟩
    · cases h
    · exact .named hs hm
    · exact .forward hl hd
    · exact .reverse h
    · exact .companion hp h
  · intro h
    rcases h with ⟨hs, hm⟩ | ⟨hl, hd⟩ | h | ⟨hp, h⟩
    · exact .inl (.inr (.inl ⟨hs, hm⟩))
    · exact .inl (.inr (.inr (.inl ⟨_, hl, hd⟩)))
    · exact .inl (.inr (.inr (.inr h)))
    · exact .inr ⟨_, hp, h⟩

/-! ## The three steps -/

theorem grow_canExecute (ctx : Context) (e : Nat) :
    rules.grow ctx (rules.reverseTable ctx) (canExecuteSpec, 0) (.seed e 3) =
      [⟨e, [canExecutes ctx e, [], []]⟩] := by
  have htable : ((rules.reverseTable ctx)[0]?).getD [] = rules.reverseLinks ctx canExecuteSpec :=
    Rules.getElem?_reverseTable rfl
  have hlink : rules.linkRole ctx (rules.reverseTable ctx) canExecuteSpec 0 (.seed e 3) =
      ⟨e, [canExecutes ctx e, [], []]⟩ := by
    simp only [Rules.linkRole, Group.sourceOf, canExecuteSpec, Group.addAll_eq]
    rfl
  rw [Rules.grow_of_not_explodes _ _ _ rfl, htable, hlink,
    Group.attach_of_companion_none fun l hl => Rules.companion_eq_none rfl hl]

theorem explode_eq (e : Nat) (cs ps fs : List Nat) :
    (Group.mk e [cs, ps, fs]).explode propertyRole =
      (choices ps).map fun p => ⟨e, [cs, p.toList, fs]⟩ := by
  match ps with
  | [] => rfl
  | [p] => rfl
  | p :: q :: ps =>
    simp [Group.explode, Group.candidates, choices, propertyRole, Group.choose, Function.comp_def]

theorem attach_split (ctx : Context) (e : Nat) (p : Option Nat) :
    (split ctx e p).attach propertyRole (rules.reverseLinks ctx propertySpec) =
      ⟨e, [Group.insertAll (canExecutes ctx e) (companions ctx e p), p.toList, []]⟩ := by
  have hrole : ∀ l ∈ rules.reverseLinks ctx propertySpec, ∀ x, l.companion = some x →
      x.1 = canExecuteRole := by
    intro l hl x hx
    obtain ⟨c, hc, -⟩ := mem_reverseLinks_iff.1 hl
    rw [hc] at hx
    cases c with
    | none => cases hx
    | some c =>
      cases hx
      rfl
  rw [Group.attach_eq_addAll (by decide) hrole, Group.addAll_eq]
  rfl

theorem grow_property (ctx : Context) (e : Nat) :
    rules.grow ctx (rules.reverseTable ctx) (propertySpec, 1) ⟨e, [canExecutes ctx e, [], []]⟩ =
      (choices (properties ctx e)).map fun p =>
        ⟨e, [Group.insertAll (canExecutes ctx e) (companions ctx e p), p.toList, []]⟩ := by
  have htable : ((rules.reverseTable ctx)[1]?).getD [] = rules.reverseLinks ctx propertySpec :=
    Rules.getElem?_reverseTable rfl
  have hlink : rules.linkRole ctx (rules.reverseTable ctx) propertySpec 1
      ⟨e, [canExecutes ctx e, [], []]⟩ = ⟨e, [canExecutes ctx e, properties ctx e, []]⟩ := by
    simp only [Rules.linkRole, Group.sourceOf, propertySpec, Group.addAll_eq]
    rfl
  have hexplode : Group.explode ⟨e, [canExecutes ctx e, properties ctx e, []]⟩ 1 =
      (choices (properties ctx e)).map (split ctx e) := explode_eq _ _ _ _
  rw [Rules.grow_of_explodes _ _ _ rfl, htable, hlink, hexplode, List.map_map]
  exact List.map_congr_left fun p _ => attach_split ctx e p

theorem sourceOf_fieldSpec (e : Nat) (cs : List Nat) (p : Option Nat) (fs : List Nat) :
    Group.sourceOf ⟨e, [cs, p.toList, fs]⟩ fieldSpec = p := by
  cases p <;> rfl

theorem grow_field (ctx : Context) (e : Nat) (cs : List Nat) (p : Option Nat) :
    rules.grow ctx (rules.reverseTable ctx) (fieldSpec, 2) ⟨e, [cs, p.toList, []]⟩ =
      [⟨e, [cs, p.toList, fields ctx p]⟩] := by
  have htable : ((rules.reverseTable ctx)[2]?).getD [] = rules.reverseLinks ctx fieldSpec :=
    Rules.getElem?_reverseTable rfl
  have hlink : rules.linkRole ctx (rules.reverseTable ctx) fieldSpec 2 ⟨e, [cs, p.toList, []]⟩ =
      ⟨e, [cs, p.toList, fields ctx p]⟩ := by
    rw [Rules.linkRole, sourceOf_fieldSpec]
    cases p with
    | none => rfl
    | some q =>
      simp only [Group.addAll_eq]
      rfl
  rw [Rules.grow_of_not_explodes _ _ _ rfl, htable, hlink,
    Group.attach_of_companion_none fun l hl => Rules.companion_eq_none rfl hl]

/-- The groups of a method, one for each choice of a property. -/
theorem block_eq (ctx : Context) (e : Nat) :
    rules.block ctx (rules.reverseTable ctx) e =
      (choices (properties ctx e)).map (group ctx e) := by
  have hseed : Group.seed e rules.roles.length = .seed e 3 := rfl
  have hroles : rules.roles.zipIdx = [(canExecuteSpec, 0), (propertySpec, 1), (fieldSpec, 2)] := rfl
  rw [Rules.block, hseed, hroles]
  simp only [Rules.descendants, grow_canExecute, List.flatMap_cons, List.flatMap_nil,
    List.append_nil, grow_property, List.flatMap_map, grow_field]
  rw [List.map_eq_flatMap]
  rfl

/-- Nothing is reported while filling the groups when all forward links find their targets. -/
theorem descentFaults_eq_nil_iff {e : Nat} :
    rules.descentFaults ctx (rules.reverseTable ctx) rules.roles.zipIdx
        (.seed e rules.roles.length) = [] ↔
      (∀ l ∈ (ctx.snapshot.member e).linksOf .canExecuteMethod,
        ∃ c, ctx.snapshot.Designates .method l.name c) ∧
      (∀ l ∈ (ctx.snapshot.member e).linksOf .command,
        ∃ p, ctx.snapshot.Designates .property l.name p) ∧
      ∀ p, PropertyCandidate ctx.config ctx.snapshot e p →
        ∀ l ∈ (ctx.snapshot.member p).linksOf .field,
          ∃ f, ctx.snapshot.Designates .field l.name f := by
  have hseed : Group.seed e rules.roles.length = .seed e 3 := rfl
  have hroles : rules.roles.zipIdx = [(canExecuteSpec, 0), (propertySpec, 1), (fieldSpec, 2)] := rfl
  have hcanExecute : (Group.seed e 3).sourceOf canExecuteSpec = some e := rfl
  have hproperty : Group.sourceOf ⟨e, [canExecutes ctx e, [], []]⟩ propertySpec = some e := rfl
  have hchoices : ∀ C : Nat → Prop, (∀ p ∈ choices (properties ctx e), ∀ q, p = some q → C q) ↔
      ∀ q, PropertyCandidate ctx.config ctx.snapshot e q → C q := by
    intro C
    simp only [mem_choices_iff, ← mem_properties_iff]
    constructor
    · exact fun h q hq => h (some q) (.inl ⟨q, hq, rfl⟩) q rfl
    · rintro h p (⟨q, hq, rfl⟩ | ⟨rfl, -⟩) _ ⟨⟩
      exact h q hq
  rw [hseed, hroles]
  simp only [Rules.descentFaults, grow_canExecute, List.flatMap_cons, List.flatMap_nil,
    List.append_nil, grow_property, List.flatMap_map, grow_field, List.append_eq_nil_iff]
  simp only [List.flatMap_eq_nil_iff, Rules.linkFaults_eq_nil_iff, hcanExecute, hproperty,
    sourceOf_fieldSpec, hchoices, Option.some.injEq, forall_eq']
  rfl

end MemberBinding.Command
