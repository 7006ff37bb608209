import MemberBinding.Proofs.Reports.Links
import MemberBinding.Proofs.Resolution.Agreement
import MemberBinding.Proofs.Resolution.Placement

/-!
# Second names of links that have one target

Only a link of command methods is about two members. The second name of any other link is looked up
all the same where the link is read in reverse: it has no effect where it designates a member, and
is reported where it does not. Main statement: `placements_clearSeconds`.
-/

namespace MemberBinding

/-! ## Links without stray second names -/

def Link.clearSecond (l : Link) : Link :=
  if l.kind = .commandMethods then l else { l with secondName := none }

def Mark.clearSecond : Mark → Mark
  | .link l => .link l.clearSecond
  | mark => mark

def Member.clearSeconds (m : Member) : Member := { m with marks := m.marks.map Mark.clearSecond }

def Snapshot.clearSeconds (s : Snapshot) : Snapshot :=
  { s with members := s.members.map Member.clearSeconds }

@[simp] theorem Link.kind_clearSecond (l : Link) : l.clearSecond.kind = l.kind := by
  unfold clearSecond
  split <;> rfl

@[simp] theorem Link.name_clearSecond (l : Link) : l.clearSecond.name = l.name := by
  unfold clearSecond
  split <;> rfl

theorem Link.clearSecond_eq_self_iff {l : Link} :
    l.clearSecond = l ↔ l.kind = .commandMethods ∨ l.secondName = none := by
  obtain ⟨kind, name, second⟩ := l
  unfold clearSecond
  split
  · simp_all
  · rename_i h
    simp [h, eq_comm]

namespace Member

theorem sameButLinks_clearSeconds (m : Member) : m.SameButLinks m.clearSeconds := by
  apply SameButLinks.of_marks
  intro mark hmark
  rw [List.mem_map]
  constructor
  · rintro ⟨other, hother, rfl⟩
    cases other with
    | link l => cases hmark
    | included | excluded | requireExplicitLink | suppressAutoField => exact hother
  · intro hmem
    refine ⟨mark, hmem, ?_⟩
    cases mark with
    | link l => cases hmark
    | included | excluded | requireExplicitLink | suppressAutoField => rfl

theorem links_clearSeconds (m : Member) : m.clearSeconds.links = m.links.map Link.clearSecond := by
  unfold links clearSeconds
  rw [List.filterMap_map, List.map_filterMap]
  apply List.filterMap_congr
  intro mark _
  cases mark <;> rfl

theorem linksOf_clearSeconds (m : Member) (kind : LinkKind) :
    m.clearSeconds.linksOf kind = (m.linksOf kind).map Link.clearSecond := by
  unfold linksOf
  rw [links_clearSeconds, List.filter_map]
  simp [Function.comp_def]

end Member

namespace Snapshot

theorem member_clearSeconds (s : Snapshot) (id : Nat) :
    s.clearSeconds.member id = (s.member id).clearSeconds := by
  unfold member member? clearSeconds
  rw [List.getElem?_map]
  cases s.members[id]? <;> rfl

theorem sameButLinks_clearSeconds (s : Snapshot) : s.SameButLinks s.clearSeconds where
  length_eq := List.length_map _
  member id := by
    rw [member_clearSeconds]
    exact (s.member id).sameButLinks_clearSeconds

end Snapshot

/-! ## Resolution -/

namespace Rules

/-- `name` stands second in a reverse link of a role whose links name one source. -/
structure StrayName (rules : Rules) (s : Snapshot) (spec : RoleSpec) (owner : Nat) (l : Link)
    (name : String) : Prop where
  mem : spec ∈ rules.roles
  single : spec.reverse ≠ .commandMethods
  available : s.Available spec.kind owner
  link_mem : l ∈ (s.member owner).linksOf spec.reverse
  second : l.secondName = some name

/-- Two names are read only from links of command methods. -/
def SecondsApart (rules : Rules) : Prop :=
  ∀ spec ∈ rules.roles, spec.reverse ≠ .commandMethods → spec.companion = none

variable {rules : Rules} {config : Config} {s : Snapshot} {mode : Mode} {spec : RoleSpec}

theorem sameButLinks_clearSeconds (config : Config) (s : Snapshot) (mode : Mode) :
    (Context.of config s mode).SameButLinks (.of config s.clearSeconds mode) :=
  ⟨s.sameButLinks_clearSeconds, rfl, rfl⟩

theorem forwardOutcomes_clearSeconds (spec : RoleSpec) (source : Nat) :
    rules.forwardOutcomes (.of config s.clearSeconds mode) spec source =
      rules.forwardOutcomes (.of config s mode) spec source := by
  unfold forwardOutcomes
  dsimp only
  rw [Context.member_eq, Context.member_eq, Context.snapshot_of, Context.snapshot_of,
    Snapshot.member_clearSeconds, Member.linksOf_clearSeconds, List.map_map]
  apply List.map_congr_left
  intro l _
  rw [Function.comp_apply, Link.kind_clearSecond, Link.name_clearSecond,
    (sameButLinks_clearSeconds config s mode).linkTarget_eq]
  rfl

/-- A stray second name that designates a member makes no difference. -/
theorem reverseLink_clearSecond (hapart : rules.SecondsApart) (hspec : spec ∈ rules.roles)
    {ctx : Context} {owner : Member × Nat} {l : Link} (hkind : l.kind = spec.reverse)
    (hsecond : ∀ name, l.secondName = some name → spec.reverse ≠ .commandMethods →
      ∃ target, ctx.snapshot.Designates (rules.source spec).kind name target) :
    rules.reverseLink ctx spec owner l.clearSecond = rules.reverseLink ctx spec owner l := by
  have hsite : spec.reverseSite owner.1 l.clearSecond = spec.reverseSite owner.1 l := by
    rw [RoleSpec.reverseSite, RoleSpec.reverseSite, Link.kind_clearSecond]
  by_cases hclear : l.clearSecond = l
  · rw [hclear]
  · rw [Link.clearSecond_eq_self_iff, not_or] at hclear
    obtain ⟨hmethods, hsome⟩ := hclear
    obtain ⟨name, hname⟩ := Option.ne_none_iff_exists'.1 hsome
    rw [hkind] at hmethods
    obtain ⟨target, htarget⟩ := hsecond name hname hmethods
    have hok : ctx.linkTarget (rules.source spec).kind
        (spec.secondLabel.getD (rules.source spec).label) name (spec.reverseSite owner.1 l) =
        .ok target := Context.linkTarget_eq_ok_iff.2 htarget
    have hcleared : l.clearSecond.secondName = none := by
      rw [Link.clearSecond, if_neg (hkind ▸ hmethods)]
    unfold reverseLink
    dsimp only
    rw [hsite, Link.name_clearSecond, hcleared, hname]
    dsimp only
    rw [hok]
    cases ctx.linkTarget (rules.source spec).kind (rules.source spec).label l.name
        (spec.reverseSite owner.1 l) with
    | error v => rfl
    | ok first =>
      dsimp only
      rw [RoleSpec.splitTargets_of_companion_none (hapart spec hspec hmethods),
        RoleSpec.splitTargets_of_companion_none (hapart spec hspec hmethods)]

theorem agree_clearSeconds (hblind : rules.LinkBlind) (hapart : rules.SecondsApart)
    (hstray : ∀ spec owner l name, rules.StrayName s spec owner l name →
      ∃ target, s.Designates (rules.source spec).kind name target) :
    rules.Agree (.of config s mode) (.of config s.clearSeconds mode) where
  toSameButLinks := sameButLinks_clearSeconds config s mode
  forward_eq spec _ source := forwardOutcomes_clearSeconds spec source
  reverse_eq spec hspec := by
    have h := sameButLinks_clearSeconds config s mode
    apply reverseOutcomes_eq h.sameNames.toSnapshot
    intro id ha
    have hlinks : (s.clearSeconds.member id).linksOf spec.reverse =
        ((s.member id).linksOf spec.reverse).map Link.clearSecond := by
      rw [Snapshot.member_clearSeconds, Member.linksOf_clearSeconds]
    rw [Context.snapshot_of, Context.snapshot_of, hlinks, List.map_map]
    apply List.map_congr_left
    intro l hl
    refine (reverseLink_eq hblind h hspec id l.clearSecond).trans
      (reverseLink_clearSecond hapart hspec (Member.mem_linksOf.1 hl).2 ?_)
    intro name hname hsingle
    exact hstray spec id l name ⟨hspec, hsingle, ha, hl, hname⟩
  markFaults_eq := by
    apply Rules.markFaults_eq (sameButLinks_clearSeconds config s mode)
    intro id
    rw [Context.snapshot_of, Context.snapshot_of, Snapshot.member_clearSeconds,
      Member.links_clearSeconds, List.map_map]
    simp [Function.comp_def]

/-- A stray second name that designates nothing is reported. -/
theorem StrayName.mem_messagesOf {owner : Nat} {l : Link} {name : String} {v : Violation}
    (h : rules.StrayName s spec owner l name)
    (hname : s.Undesignated (rules.source spec).kind
      (spec.secondLabel.getD (rules.source spec).label) name
      (spec.reverseSite (s.member owner) l) v) :
    v.message ∈ messagesOf (rules.resolve (.of config s mode)) := by
  have hfault : v ∈ rules.reverseFaults (.of config s mode) spec :=
    mem_reverseFaults_iff.2 ⟨owner, h.available, l, h.link_mem, .second h.second hname⟩
  unfold resolve
  rw [Diagnostics.mem_messagesOf_finish_iff]
  exact ⟨v, mem_reports_iff.2 (.inr (.inl ⟨spec, h.mem, hfault⟩)), rfl⟩

end Rules

theorem FieldBinding.Profile.secondsApart_rules (profile : Profile) :
    profile.rules.SecondsApart := by
  intro spec hspec _
  obtain rfl := List.mem_singleton.1 hspec
  rfl

theorem BindingKind.secondsApart_rules (kind : BindingKind) : kind.rules.SecondsApart := by
  cases kind with
  | property => exact Property.profile.secondsApart_rules
  | dependency => exact Dependency.profile.secondsApart_rules
  | command =>
    intro spec hspec hsingle
    obtain rfl | rfl | rfl : spec = Command.canExecuteSpec ∨ spec = Command.propertySpec ∨
        spec = Command.fieldSpec := by
      simpa [BindingKind.rules, Command.rules] using hspec
    · rfl
    · exact absurd rfl hsingle
    · rfl

namespace BindingKind

/-- Second names of links other than those of command methods can be cleared, as long as they
designate a member; one that does not is reported. -/
theorem placements_clearSeconds (kind : BindingKind) (config : Config) (s : Snapshot)
    (mode : Mode) :
    ((∀ spec owner l name, kind.rules.StrayName s spec owner l name →
        ∃ target, s.Designates (kind.rules.source spec).kind name target) →
      kind.placements config s.clearSeconds mode = kind.placements config s mode) ∧
    ∀ spec owner l name v, kind.rules.StrayName s spec owner l name →
      s.Undesignated (kind.rules.source spec).kind
        (spec.secondLabel.getD (kind.rules.source spec).label) name
        (spec.reverseSite (s.member owner) l) v →
      v.message ∈ messagesOf (kind.placements config s mode) := by
  constructor
  · intro hstray
    rw [placements_eq, placements_eq, (Rules.agree_clearSeconds kind.linkBlind_rules
      kind.secondsApart_rules hstray).resolve_eq kind.linkBlind_rules]
  · intro spec owner l name v h hname
    rw [placements_eq, messagesOf_map]
    exact h.mem_messagesOf hname

/-- A property and its field, whose link to the property has a second name for no member. -/
def strayName : Snapshot where
  name := "Document"
  members := [.property "Title" "System.String",
    (Member.field "text" "System.String").withLink ⟨.property, "Title", some "Heading"⟩]

/-- The same, with a second name that is the name of another property. -/
def knownName : Snapshot where
  name := "Document"
  members := [.property "Title" "System.String",
    (Member.field "text" "System.String").withLink ⟨.property, "Title", some "Heading"⟩,
    .property "Heading" "System.String"]

theorem placements_clearSeconds_names :
    property.placements {} knownName.clearSeconds .all = property.placements {} knownName .all ∧
      (Violation.linkNotFound "property" "Heading" ⟨.property, "field", "text"⟩).message ∈
        messagesOf (property.placements {} strayName .all) := by
  have hspec : property.rules.roles = [Property.profile.fieldSpec] := rfl
  constructor
  · apply (placements_clearSeconds property {} knownName .all).1
    intro spec owner l name h
    obtain rfl : spec = Property.profile.fieldSpec := by simpa [hspec] using h.mem
    have howner : ∀ owner < 3, (knownName.member owner).kind = .field → owner = 1 := by decide
    obtain rfl := howner owner h.available.lt h.available.kind_eq
    obtain rfl : l = ⟨.property, "Title", some "Heading"⟩ := List.mem_singleton.1 h.link_mem
    obtain rfl : "Heading" = name := Option.some.inj h.second
    have htarget : (Context.of {} knownName .all).target .property "Heading" = .ok 2 := rfl
    exact ⟨2, Context.target_eq_ok_iff.1 htarget⟩
  · refine (placements_clearSeconds property {} strayName .all).2 Property.profile.fieldSpec 1
      ⟨.property, "Title", some "Heading"⟩ "Heading" _ ?_ ?_
    · have havailable : strayName.Available .field 1 := ⟨by decide, rfl, rfl⟩
      exact ⟨List.mem_singleton_self _, nofun, havailable, List.mem_singleton_self _, rfl⟩
    · have htarget : (Context.of {} strayName .all).linkTarget .property "property" "Heading"
          ⟨.property, "field", "text"⟩ = .error (.linkNotFound "property" "Heading" _) := rfl
      exact Context.linkTarget_eq_error_iff.1 htarget

/-- Of a link with one target a second name does count, where it designates nothing. -/
theorem not_forall_placements_clearSeconds :
    ¬∀ (kind : BindingKind) (config : Config) (s : Snapshot) (mode : Mode),
      (kind.placements config s.clearSeconds mode).mapError Failure.messages =
        (kind.placements config s mode).mapError Failure.messages := by
  intro h
  have hcleared : property.placements {} strayName.clearSeconds .all = .ok [⟨0, [some 1]⟩] := rfl
  have hstray : property.placements {} strayName .all = .error ⟨.property,
      [.linkNotFound "property" "Heading" ⟨.property, "field", "text"⟩]⟩ := rfl
  have heq := h .property {} strayName .all
  rw [hcleared, hstray] at heq
  cases heq

end BindingKind
end MemberBinding
