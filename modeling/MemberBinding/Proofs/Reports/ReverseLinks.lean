import MemberBinding.Binding.Bindings
import MemberBinding.Proofs.Command.Reports
import MemberBinding.Proofs.Reports.Calls
import MemberBinding.Proofs.Snapshot.Pruning

/-!
# Reverse links, one by one

Every reverse link of a role either gives one entry or is reported: under each of its names that
designates no member, or as a pair of methods that can not be told apart. Nothing else gives entries
or reports. Main statement: `BindingKind.reverseLinks_settled`.
-/

namespace MemberBinding

namespace Snapshot

/-- The links of a kind on the members of a kind that are not excluded, each with the position of
its owner, in the order of the owners and of each owner's marks. -/
def linkSites (s : Snapshot) (kind : MemberKind) (link : LinkKind) : List (Nat × Link) :=
  ((List.range s.members.length).filter fun id =>
      (s.member id).kind == kind && !(s.member id).isExcluded).flatMap fun id =>
    ((s.member id).linksOf link).map (id, ·)

/-- One violation for each name that designates no member, in the order of the names. Each name
comes with what is looked for. -/
inductive NameFaults (s : Snapshot) (kind : MemberKind) (site : LinkSite) :
    List (String × String) → List Violation → Prop
  | nil : NameFaults s kind site [] []
  | designated {label name id names vs} (designates : s.Designates kind name id)
      (rest : NameFaults s kind site names vs) : NameFaults s kind site ((label, name) :: names) vs
  | undesignated {label name v names vs} (undesignated : s.Undesignated kind label name site v)
      (rest : NameFaults s kind site names vs) :
      NameFaults s kind site ((label, name) :: names) (v :: vs)

/-- What a link gives whose names designate members: the one that it names, or of the two the one
that is executed, with the other for the role of the companion. -/
inductive Draws (s : Snapshot) (types : TypeNames) (spec : RoleSpec) (kind : MemberKind) (l : Link) :
    ReverseTarget → Prop
  | alone {source} (unpaired : l.secondName = none ∨ spec.companion = none)
      (first : s.Designates kind l.name source) : Draws s types spec kind l ⟨source, none⟩
  | asWritten {name source other c} (pairs : spec.companion = some c)
      (hasSecond : l.secondName = some name) (first : s.Designates kind l.name source)
      (second : s.Designates kind name other)
      (order : Command.ExecutesFirst types (s.member source) (s.member other)) :
      Draws s types spec kind l ⟨source, some (c.role, other)⟩
  | swapped {name source other c} (pairs : spec.companion = some c)
      (hasSecond : l.secondName = some name) (first : s.Designates kind l.name other)
      (second : s.Designates kind name source)
      (order : Command.ExecutesSecond types (s.member other) (s.member source)) :
      Draws s types spec kind l ⟨source, some (c.role, other)⟩

end Snapshot

/-- The names of a link, each with what it is looked for. -/
def Rules.soughtNames (rules : Rules) (spec : RoleSpec) (l : Link) : List (String × String) :=
  ((rules.source spec).label, l.name) ::
    l.secondName.toList.map (spec.secondLabel.getD (rules.source spec).label, ·)

/-- What becomes of a link that `owner` carries: an entry, or what is reported in its place. -/
inductive Rules.Settled (rules : Rules) (types : TypeNames) (s : Snapshot) (spec : RoleSpec)
    (owner : Nat) (l : Link) : Option ReverseLink → List Violation → Prop
  | entry {r : ReverseLink} (owner_eq : r.owner = owner)
      (draws : s.Draws types spec (rules.source spec).kind l r.toReverseTarget)
      (designated : ∀ name ∈ l.names, ∃ id, s.Designates (rules.source spec).kind name id) :
      Settled rules types s spec owner l (some r) []
  | undesignated {vs} (ne_nil : vs ≠ [])
      (faults : s.NameFaults (rules.source spec).kind (spec.reverseSite (s.member owner) l)
        (rules.soughtNames spec l) vs) :
      Settled rules types s spec owner l none vs
  | conflict {name i j v} (pairs : spec.companion ≠ none) (hasSecond : l.secondName = some name)
      (first : s.Designates (rules.source spec).kind l.name i)
      (second : s.Designates (rules.source spec).kind name j)
      (conflict : Command.Conflict types (spec.reverseSite (s.member owner) l) (s.member i)
        (s.member j) v) :
      Settled rules types s spec owner l none [v]

namespace Rules

variable {rules : Rules} {ctx : Context} {spec : RoleSpec} {owner : Nat} {l : Link}

/-- The outcomes stand in the order of the links. -/
theorem reverseOutcomes_eq_map : rules.reverseOutcomes ctx spec =
    (ctx.snapshot.linkSites spec.kind spec.reverse).map fun site =>
      rules.reverseLink ctx spec (ctx.snapshot.member site.1, site.1) site.2 := by
  rw [reverseOutcomes, Snapshot.ofKind, Snapshot.zipIdx_eq_map_range, List.filter_filter,
    List.filter_map, List.flatMap_map, Snapshot.linkSites, List.map_flatMap]
  simp only [Function.comp_def, List.map_map, Bool.and_comm]

theorem nameFaults_cons {kind : MemberKind} {site : LinkSite} (label name : String)
    {names : List (String × String)} {vs : List Violation}
    (h : ctx.snapshot.NameFaults kind site names vs) :
    ctx.snapshot.NameFaults kind site ((label, name) :: names)
      (reported (ctx.linkTarget kind label name site) ++ vs) := by
  cases htarget : ctx.linkTarget kind label name site with
  | ok id => exact .designated (Context.linkTarget_eq_ok_iff.1 htarget) h
  | error v => exact .undesignated (Context.linkTarget_eq_error_iff.1 htarget) h

/-- A link with two names is reported under those that designate no member. -/
theorem nameFaults_pair {kind : MemberKind} {site : LinkSite} (label₁ name₁ label₂ name₂ : String) :
    ctx.snapshot.NameFaults kind site [(label₁, name₁), (label₂, name₂)]
      (reported (ctx.linkTarget kind label₁ name₁ site) ++
        reported (ctx.linkTarget kind label₂ name₂ site)) := by
  have hsecond : ctx.snapshot.NameFaults kind site [(label₂, name₂)]
      (reported (ctx.linkTarget kind label₂ name₂ site) ++ []) := nameFaults_cons label₂ name₂ .nil
  rw [List.append_nil] at hsecond
  exact nameFaults_cons label₁ name₁ hsecond

/-- A link fails by its names, each of them looked up, or by the members that they designate. -/
theorem reverseLink_eq_error_cases {vs : List Violation}
    (h : rules.reverseLink ctx spec (ctx.snapshot.member owner, owner) l = .error vs) :
    ctx.snapshot.NameFaults (rules.source spec).kind
        (spec.reverseSite (ctx.snapshot.member owner) l) (rules.soughtNames spec l) vs ∨
      ∃ first second v, ctx.snapshot.Resolves (rules.source spec).kind l first second ∧
        spec.splitTargets ctx (spec.reverseSite (ctx.snapshot.member owner) l) first second =
          .error v ∧ vs = [v] := by
  unfold reverseLink at h
  dsimp only at h
  split at h
  · rename_i hnone
    split at h
    · rename_i first hfirst
      obtain ⟨v, hsplit, rfl⟩ := ReverseLink.ofTarget_eq_error_iff.1 h
      exact .inr ⟨first, none, v, ⟨Context.linkTarget_eq_ok_iff.1 hfirst, hnone ▸ .none⟩, hsplit, rfl⟩
    · rename_i v hv
      cases h
      refine .inl ?_
      rw [soughtNames, hnone]
      exact .undesignated (Context.linkTarget_eq_error_iff.1 hv) .nil
  · rename_i name hname
    split at h
    · rename_i first second hfirst hsecond
      obtain ⟨v, hsplit, rfl⟩ := ReverseLink.ofTarget_eq_error_iff.1 h
      exact .inr ⟨first, some second, v, ⟨Context.linkTarget_eq_ok_iff.1 hfirst,
        hname ▸ .some (Context.linkTarget_eq_ok_iff.1 hsecond)⟩, hsplit, rfl⟩
    · cases h
      refine .inl ?_
      rw [soughtNames, hname]
      exact nameFaults_pair ..

section

variable (horder : ∀ c, spec.companion = some c → c.order = Command.pairOrder)
include horder

theorem draws_of_splitTargets {site : LinkSite} {first : Nat} {second : Option Nat}
    {target : ReverseTarget}
    (hresolves : ctx.snapshot.Resolves (rules.source spec).kind l first second)
    (h : spec.splitTargets ctx site first second = .ok target) :
    ctx.snapshot.Draws ctx.config.types spec (rules.source spec).kind l target := by
  unfold RoleSpec.splitTargets at h
  split at h
  · rename_i second c hc
    obtain ⟨name, hname, hsecond⟩ := hresolves.exists_secondName
    obtain ⟨order, ho, rfl⟩ := map_eq_ok_iff.1 h
    rw [horder c hc] at ho
    cases order with
    | asWritten =>
      exact .asWritten hc hname hresolves.first hsecond (Command.pairOrder_eq_asWritten_iff.1 ho)
    | swapped =>
      exact .swapped hc hname hresolves.first hsecond (Command.pairOrder_eq_swapped_iff.1 ho)
  · rename_i second _ _ hunpaired
    obtain rfl := Except.ok.inj h
    refine .alone ?_ hresolves.first
    cases second with
    | none => exact .inl hresolves.secondName_eq_none
    | some second => exact .inr (Option.eq_none_iff_forall_ne_some.2 fun c hc => hunpaired _ c rfl hc)

theorem settled_of_eq_ok {r : ReverseLink}
    (h : rules.reverseLink ctx spec (ctx.snapshot.member owner, owner) l = .ok r) :
    rules.Settled ctx.config.types ctx.snapshot spec owner l (some r) [] := by
  obtain ⟨howner, first, second, hresolves, hsplit⟩ := reverseLink_eq_ok_iff.1 h
  exact .entry howner (draws_of_splitTargets horder hresolves hsplit)
    (Snapshot.exists_resolves_iff.1 ⟨second, hresolves⟩).2

/-- Two targets that can not be told apart are reported where the second name has a role of its
own. -/
theorem settled_of_splitTargets_eq_error {first : Nat} {second : Option Nat} {v : Violation}
    (hresolves : ctx.snapshot.Resolves (rules.source spec).kind l first second)
    (h : spec.splitTargets ctx (spec.reverseSite (ctx.snapshot.member owner) l) first second =
      .error v) :
    rules.Settled ctx.config.types ctx.snapshot spec owner l none [v] := by
  unfold RoleSpec.splitTargets at h
  split at h
  · rename_i second c hc
    obtain ⟨name, hname, hsecond⟩ := hresolves.exists_secondName
    have hconflict := map_eq_error_iff.1 h
    rw [horder c hc] at hconflict
    exact .conflict (by simp [hc]) hname hresolves.first hsecond
      (Command.pairOrder_eq_error_iff.1 hconflict)
  · cases h

theorem settled_of_eq_error {vs : List Violation}
    (h : rules.reverseLink ctx spec (ctx.snapshot.member owner, owner) l = .error vs) :
    rules.Settled ctx.config.types ctx.snapshot spec owner l none vs := by
  rcases reverseLink_eq_error_cases h with hfaults | ⟨first, second, v, hresolves, hsplit, rfl⟩
  · exact .undesignated (ne_nil_of_reverseLink_eq_error h) hfaults
  · exact settled_of_splitTargets_eq_error horder hresolves hsplit

/-- Every link of the role comes to an entry or to reports. -/
theorem forall₂_settled :
    List.Forall₂ (fun site o => rules.Settled ctx.config.types ctx.snapshot spec site.1 site.2
        (Except.toOption o) (reported o).flatten)
      (ctx.snapshot.linkSites spec.kind spec.reverse) (rules.reverseOutcomes ctx spec) := by
  rw [reverseOutcomes_eq_map, List.forall₂_map_right_iff, List.forall₂_same]
  intro site _
  cases h : rules.reverseLink ctx spec (ctx.snapshot.member site.1, site.1) site.2 with
  | ok r => exact settled_of_eq_ok horder h
  | error vs =>
    have hsettled := settled_of_eq_error horder h
    simpa [Except.toOption] using hsettled

end

end Rules

/-- Wherever a second name has a role of its own, return types tell the two methods apart. -/
theorem BindingKind.order_eq_of_companion {kind : BindingKind} {spec : RoleSpec}
    (hspec : spec ∈ kind.rules.roles) {c : Companion} (hc : spec.companion = some c) :
    c.order = Command.pairOrder := by
  cases kind with
  | property => cases (FieldBinding.Profile.companion_eq_none hspec).symm.trans hc
  | command => rw [(Command.eq_of_companion hspec hc).2]
  | dependency => cases (FieldBinding.Profile.companion_eq_none hspec).symm.trans hc

/-- What is reported of a role is among the messages of any collection that it is added to. -/
theorem Rules.message_mem_of_mem_reverseFaults {rules : Rules} {ctx : Context} {spec : RoleSpec}
    (calls : List Diagnostics.Call) {v : Violation} (hv : v ∈ rules.reverseFaults ctx spec) :
    v.message ∈ ((Diagnostics.ofCalls calls).extend (rules.reverseFaults ctx spec)).kept.map
      Violation.message := by
  have hcollects := Diagnostics.collects_ofList (calls.flatMap Diagnostics.Call.violations)
  rw [← Diagnostics.ofCalls_eq_ofList] at hcollects
  have hextended := hcollects.extend (rules.reverseFaults ctx spec)
  rw [← hextended.seen_eq]
  exact hextended.mem_seen_iff.2 ⟨v, List.mem_append_right _ hv, rfl⟩

namespace BindingKind

/-- The links of a role, by owner and then as declared, settle one by one: each gives one entry and
no report, or no entry and the reports that it deserves. The entries and the reports of the role are
theirs, in their order, and all of these reports are collected. -/
theorem reverseLinks_settled (kind : BindingKind) (config : Config) (s : Snapshot) (mode : Mode)
    {spec : RoleSpec} (hspec : spec ∈ kind.rules.roles) :
    ∃ outcomes : List (Option ReverseLink × List Violation),
      List.Forall₂
        (fun site o => kind.rules.Settled config.types s spec site.1 site.2 o.1 o.2)
        (s.linkSites spec.kind spec.reverse) outcomes ∧
      kind.rules.reverseLinks (.of config s mode) spec = outcomes.filterMap (·.1) ∧
      kind.rules.reverseFaults (.of config s mode) spec = outcomes.flatMap (·.2) ∧
      ∀ calls, ∀ o ∈ outcomes, ∀ v ∈ o.2, v.message ∈
        ((Diagnostics.ofCalls calls).extend
          (kind.rules.reverseFaults (.of config s mode) spec)).kept.map Violation.message := by
  have hsettled := @Rules.forall₂_settled kind.rules (.of config s mode) spec
    fun _ hc => order_eq_of_companion hspec hc
  have hfaults : kind.rules.reverseFaults (.of config s mode) spec =
      ((kind.rules.reverseOutcomes (.of config s mode) spec).map
        fun o => (o.toOption, (reported o).flatten)).flatMap (·.2) := by
    rw [List.flatMap_map, Rules.reverseFaults]
  refine ⟨_, List.forall₂_map_right_iff.2 hsettled, ?_, hfaults, ?_⟩
  · rw [Rules.reverseLinks, List.filterMap_map]
    rfl
  · intro calls o ho v hv
    refine Rules.message_mem_of_mem_reverseFaults calls ?_
    rw [hfaults]
    exact List.mem_flatMap.2 ⟨o, ho, hv⟩

/-- A property with a link that resolves, one with two names of no method, and one with two methods
to be executed; next to it, links that no role reads. -/
def linkedMethods : Snapshot where
  name := "Document"
  members := [
    .method "Save" "System.Void",
    .method "CanSave" "System.Boolean",
    .method "Load" "System.Void",
    ((((Member.property "SaveCommand" "System.Windows.Input.ICommand").withLink
      ⟨.commandMethods, "CanSave", some "Save"⟩).withLink
      ⟨.commandMethods, "Lost", some "Gone"⟩).withLink ⟨.property, "Lost", none⟩).withLink
      ⟨.commandMethods, "Save", some "Load"⟩,
    ((Member.property "OldCommand" "System.Windows.Input.ICommand").withLink
      ⟨.commandMethods, "Lost", none⟩).withMark .excluded,
    (Member.field "saveCommand" "System.Windows.Input.ICommand").withLink
      ⟨.commandMethods, "Lost", none⟩]

theorem reverseLinks_settled_linkedMethods :
    Command.propertySpec ∈ command.rules.roles ∧
    (∃ outcomes : List (Option ReverseLink × List Violation),
      List.Forall₂ (fun site o =>
          command.rules.Settled .standard linkedMethods Command.propertySpec site.1 site.2 o.1 o.2)
        (linkedMethods.linkSites .property .commandMethods) outcomes ∧
      command.rules.reverseLinks (.of {} linkedMethods .all) Command.propertySpec =
        outcomes.filterMap (·.1) ∧
      command.rules.reverseFaults (.of {} linkedMethods .all) Command.propertySpec =
        outcomes.flatMap (·.2) ∧
      ∀ calls, ∀ o ∈ outcomes, ∀ v ∈ o.2, v.message ∈
        ((Diagnostics.ofCalls calls).extend (command.rules.reverseFaults
          (.of {} linkedMethods .all) Command.propertySpec)).kept.map Violation.message) ∧
    (linkedMethods.linkSites .property .commandMethods).length = 3 ∧
    command.rules.reverseLinks (.of {} linkedMethods .all) Command.propertySpec =
      [⟨⟨0, some (Command.canExecuteRole, 1)⟩, 3⟩] ∧
    command.rules.reverseFaults (.of {} linkedMethods .all) Command.propertySpec =
      [.linkNotFound "execute method" "Lost" ⟨.commandMethods, "property", "SaveCommand"⟩,
        .linkNotFound "can execute method" "Gone" ⟨.commandMethods, "property", "SaveCommand"⟩,
        .conflictingMethods "execute method" "Save" "Load"
          ⟨.commandMethods, "property", "SaveCommand"⟩] := by
  have hspec : Command.propertySpec ∈ command.rules.roles := .tail _ (.head _)
  exact ⟨hspec, reverseLinks_settled command {} linkedMethods .all hspec, rfl, rfl, rfl⟩

end BindingKind
end MemberBinding
