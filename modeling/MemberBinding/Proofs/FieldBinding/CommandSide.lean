import Mathlib.Data.List.Forall2
import MemberBinding.Proofs.Reports.Independence
import MemberBinding.Proofs.Resolution.Agreement
import MemberBinding.Proofs.Resolution.Placed
import MemberBinding.Proofs.Resolution.Pruning

/-!
# What belongs to commands

Methods, the links that are read for commands, and the mark for the field of a command have no part
in the binding of properties to fields. Main statement: `FieldBinding.commandSide_unread`.
-/

namespace MemberBinding

/-! ## Without what belongs to commands -/

def LinkKind.isCommandSide : LinkKind → Bool
  | field | property => false
  | canExecuteMethod | executeMethod | command | commandMethods => true

def Mark.isCommandSide : Mark → Bool
  | link l => l.kind.isCommandSide
  | suppressAutoField => true
  | included | excluded | requireExplicitLink => false

namespace Member

def fieldSide (m : Member) : Member := { m with marks := m.marks.filter (!·.isCommandSide) }

variable {m : Member}

theorem contains_marks_fieldSide {mark : Mark} (h : mark.isCommandSide = false) :
    m.fieldSide.marks.contains mark = m.marks.contains mark := by
  rw [Bool.eq_iff_iff, List.contains_iff_mem, List.contains_iff_mem, fieldSide, List.mem_filter, h]
  simp

theorem sameButLinks_fieldSide (m : Member) : m.SameButLinks m.fieldSide where
  name_eq := rfl
  kind_eq := rfl
  valueType_eq := rfl
  returnType_eq := rfl
  parameters_eq := rfl
  isStatic_eq := rfl
  isIncluded_eq := contains_marks_fieldSide rfl
  isExcluded_eq := contains_marks_fieldSide rfl
  requiresExplicitLink_eq := contains_marks_fieldSide rfl

theorem links_fieldSide (m : Member) :
    m.fieldSide.links = m.links.filter fun l => !l.kind.isCommandSide := by
  unfold links fieldSide
  rw [List.filterMap_filter, List.filter_filterMap]
  apply List.filterMap_congr
  intro mark _
  cases mark with
  | link l =>
    cases hl : l.kind.isCommandSide <;> simp [Mark.isCommandSide, Mark.link?, Option.filter, hl]
  | included | excluded | requireExplicitLink | suppressAutoField => rfl

end Member

namespace Snapshot

def isMethod (s : Snapshot) (id : Nat) : Bool := (s.member id).kind == .method

/-- The properties and the fields, without the marks that belong to commands. -/
def fieldSide (s : Snapshot) : Snapshot :=
  { s with members := (s.members.filter (·.kind != .method)).map Member.fieldSide }

/-- Where the properties and the fields stand. -/
def fieldSidePositions (s : Snapshot) : List Nat :=
  (List.range s.members.length).filter (!s.isMethod ·)

/-- The same place among the properties and the fields of two snapshots. -/
def Corresponds (s t : Snapshot) (i j : Nat) : Prop :=
  ∃ n : Nat, s.fieldSidePositions[n]? = some i ∧ t.fieldSidePositions[n]? = some j

/-- Where a property or a field stands, given its number among these. -/
noncomputable def fieldSidePlace (s : Snapshot) : Nat → Nat :=
  Nat.nth fun id => s.isMethod id = false

variable {s : Snapshot} {id : Nat}

theorem lt_length_of_isMethod (h : s.isMethod id = true) : id < s.members.length := by
  by_contra hge
  rw [isMethod, member_of_length_le (Nat.le_of_not_lt hge)] at h
  cases h

theorem thinned_isMethod (s : Snapshot) :
    (s.without s.isMethod).Thinned s s.isMethod s.fieldSidePlace :=
  thinned_without fun _ => lt_length_of_isMethod

theorem members_without_isMethod (s : Snapshot) :
    (s.without s.isMethod).members = s.members.filter (·.kind != .method) := by
  conv_rhs => rw [← s.map_member_range, List.filter_map]
  rfl

theorem member_fieldSide (s : Snapshot) (id : Nat) :
    s.fieldSide.member id = ((s.without s.isMethod).member id).fieldSide := by
  unfold member member? fieldSide
  rw [members_without_isMethod, List.getElem?_map]
  cases (s.members.filter (·.kind != .method))[id]? <;> rfl

theorem sameButLinks_fieldSide (s : Snapshot) :
    (s.without s.isMethod).SameButLinks s.fieldSide where
  length_eq := by rw [members_without_isMethod, fieldSide, List.length_map]
  member id := by
    rw [member_fieldSide]
    exact Member.sameButLinks_fieldSide _

theorem getElem?_fieldSidePositions (h : id < s.fieldSide.members.length) :
    s.fieldSidePositions[id]? = some (s.fieldSidePlace id) := by
  rw [s.sameButLinks_fieldSide.length_eq] at h
  have hpositions : s.fieldSidePositions =
      (List.range (s.without s.isMethod).members.length).map s.fieldSidePlace :=
    s.thinned_isMethod.range_eq
  rw [hpositions, List.getElem?_map, List.getElem?_range h]
  rfl

theorem corresponds_fieldSidePlace {t : Snapshot} (h : t.fieldSide = s.fieldSide)
    (hid : id < s.fieldSide.members.length) :
    s.Corresponds t (s.fieldSidePlace id) (t.fieldSidePlace id) :=
  ⟨id, getElem?_fieldSidePositions hid, getElem?_fieldSidePositions (h ▸ hid)⟩

end Snapshot

/-! ## Rules of fields and properties -/

/-- Rules that ask for properties and fields only, and read links between these. -/
structure Rules.FieldSide (rules : Rules) : Prop where
  memberKinds : .method ∉ rules.memberKinds
  linkKinds : ∀ kind ∈ rules.linkKinds, kind.isCommandSide = false

theorem FieldBinding.Profile.fieldSide_rules (profile : Profile) : profile.rules.FieldSide where
  memberKinds := by
    change MemberKind.method ∉ [MemberKind.property, MemberKind.field]
    decide
  linkKinds := by
    change ∀ kind ∈ [LinkKind.field, LinkKind.property], kind.isCommandSide = false
    decide

namespace Rules.FieldSide

variable {rules : Rules}

theorem agree (h : rules.FieldSide) (hblind : rules.LinkBlind) (config : Config) (s : Snapshot)
    (mode : Mode) :
    rules.Agree (.of config (s.without s.isMethod) mode) (.of config s.fieldSide mode) := by
  have hsame : (Context.of config (s.without s.isMethod) mode).SameButLinks
      (.of config s.fieldSide mode) := ⟨s.sameButLinks_fieldSide, rfl, rfl⟩
  apply agree_of_links_eq hblind hsame
  intro id
  rw [Context.snapshot_of, Context.snapshot_of, Snapshot.member_fieldSide, Member.links_fieldSide,
    List.filter_filter]
  apply List.filter_congr
  intro l _
  cases hl : rules.linkKinds.contains l.kind with
  | false => rfl
  | true => simp [h.linkKinds l.kind (List.contains_iff_mem.1 hl)]

theorem thinned (h : rules.FieldSide) (config : Config) (s : Snapshot) (mode : Mode) :
    rules.Thinned (.of config (s.without s.isMethod) mode) (.of config s mode) s.isMethod
      s.fieldSidePlace where
  toThinned := s.thinned_isMethod
  config_eq := rfl
  mode_eq := rfl
  unavailable kind hkind id hid ha := by
    obtain rfl : kind = .method := ha.kind_eq.symm.trans (beq_iff_eq.1 hid)
    exact h.memberKinds hkind

/-- A resolution is that of the properties and the fields, as they stand in the snapshot. -/
theorem resolve_eq (h : rules.FieldSide) (hblind : rules.LinkBlind) (hlocal : rules.Local)
    (config : Config) (s : Snapshot) (mode : Mode) :
    rules.resolve (.of config s mode) =
      (rules.resolve (.of config s.fieldSide mode)).map (·.map (·.map s.fieldSidePlace)) := by
  rw [(h.agree hblind config s mode).resolve_eq hblind]
  apply (h.thinned config s mode).resolve_eq hlocal
  · intro id hid
    apply markFaultsOf_eq_nil_iff.2
    intro hkind
    rw [Context.snapshot_of, beq_iff_eq.1 hid] at hkind
    exact absurd hkind h.memberKinds
  · left
    intro id l _ name _ kind hkind
    -- A link is never for a method, so none has lost its target with them.
    apply (h.thinned config s mode).places.target_map
    rw [(h.thinned config s mode).named_map, eq_comm, List.filter_eq_self]
    intro target htarget
    obtain ⟨-, rfl, -⟩ := Snapshot.mem_named_iff_member.1 htarget
    have hne : (s.member target).kind ≠ .method := fun heq => h.memberKinds (heq ▸ hkind)
    simpa [Snapshot.isMethod] using hne

end Rules.FieldSide

namespace FieldBinding

/-- Bindings of corresponding properties to corresponding fields. -/
structure Corresponds (s t : Snapshot) (b c : FieldBinding Nat) : Prop where
  property : s.Corresponds t b.property c.property
  field : Option.Rel (s.Corresponds t) b.field c.field

variable {profile : Profile} {config : Config} {s t : Snapshot} {mode : Mode}

theorem Profile.positions_eq_map (hblind : profile.LinkBlind) (config : Config) (s : Snapshot)
    (mode : Mode) :
    profile.positions config s mode =
      (profile.positions config s.fieldSide mode).map (·.map (·.map s.fieldSidePlace)) := by
  unfold Profile.positions
  rw [profile.fieldSide_rules.resolve_eq hblind.rules profile.local_rules, map_map_eq, map_map_eq]
  congr 1
  funext groups
  simp [Bindings.ofGroup_map_field]

/-- Only members of the snapshot are bound. -/
theorem Profile.lt_length_of_mem {bs : List (FieldBinding Nat)} {b : FieldBinding Nat}
    (h : profile.positions config s mode = .ok bs) (hb : b ∈ bs) :
    b.property < s.members.length ∧ ∀ f ∈ b.field, f < s.members.length := by
  obtain ⟨groups, hgroups, rfl⟩ := map_eq_ok_iff.1 h
  obtain ⟨g, hg, rfl⟩ := List.mem_map.1 hb
  have hplaced := Group.placed_of_resolve_eq_ok profile.companionsFit_rules hgroups hg
  refine ⟨hplaced.available_anchor.lt, ?_⟩
  intro f hf
  exact (hplaced.available_of_single? profile.fieldSpec rfl hf).lt

theorem corresponds_map (h : t.fieldSide = s.fieldSide) {b : FieldBinding Nat}
    (hproperty : b.property < s.fieldSide.members.length)
    (hfield : ∀ f ∈ b.field, f < s.fieldSide.members.length) :
    Corresponds s t (b.map s.fieldSidePlace) (b.map t.fieldSidePlace) where
  property := Snapshot.corresponds_fieldSidePlace h hproperty
  field := by
    obtain ⟨p, f⟩ := b
    cases f with
    | none => exact .none
    | some f => exact .some (Snapshot.corresponds_fieldSidePlace h (hfield f rfl))

/-- Two snapshots with the same properties and fields, but for what belongs to commands, have the
same outcome: corresponding properties are bound to corresponding fields, in the same order, or the
same is reported. -/
theorem commandSide_unread (h : t.fieldSide = s.fieldSide) (config : Config) (mode : Mode) :
    ∀ profile ∈ [Property.profile, Dependency.profile],
      match profile.positions config s mode, profile.positions config t mode with
      | .ok bs, .ok cs => List.Forall₂ (Corresponds s t) bs cs
      | .error f, .error g => f = g
      | _, _ => False := by
  intro profile hprofile
  have hblind : profile.LinkBlind := by
    rcases List.mem_pair.1 hprofile with rfl | rfl
    · exact Property.linkBlind_profile
    · exact Dependency.linkBlind_profile
  rw [Profile.positions_eq_map hblind config s, Profile.positions_eq_map hblind config t, h]
  cases hbs : profile.positions config s.fieldSide mode with
  | error f => rfl
  | ok bs =>
    simp only [Except.map, List.forall₂_map_left_iff, List.forall₂_map_right_iff]
    apply List.forall₂_same.2
    intro b hb
    obtain ⟨hproperty, hfield⟩ := Profile.lt_length_of_mem hbs hb
    exact corresponds_map h hproperty hfield

/-- A property with its field, and with a descriptor of the wrong shape. -/
def describedTitle : Snapshot where
  name := "Document"
  members := [
    .property "Title" "System.String",
    .method "ExecuteSaveMethod" "System.Void",
    .field "title" "System.String",
    .field "TitleProperty" "System.Windows.DependencyProperty"]

/-- The same properties and fields among other methods, with links and a mark for commands. -/
def describedTitleWithCommands : Snapshot where
  name := "Document"
  members := [
    (Member.method "ExecuteLoadMethod" "System.Void").withLink ⟨.command, "Title", none⟩,
    (Member.property "Title" "System.String").withLink ⟨.commandMethods, "Missing", none⟩,
    .method "title" "System.String",
    (Member.field "title" "System.String").withMark .suppressAutoField,
    .field "TitleProperty" "System.Windows.DependencyProperty"]

def descriptorFailure : Failure where
  kind := .dependency
  violations := [.shape "field" "TitleProperty" "can not be non static"]

theorem commandSide_unread_describedTitle :
    describedTitleWithCommands.fieldSide = describedTitle.fieldSide ∧
    Property.positions {} describedTitle .all = .ok [⟨0, some 2⟩] ∧
    Property.positions {} describedTitleWithCommands .all = .ok [⟨1, some 3⟩] ∧
    List.Forall₂ (Corresponds describedTitle describedTitleWithCommands)
      [⟨0, some 2⟩] [⟨1, some 3⟩] ∧
    Dependency.positions {} describedTitle .all = .error descriptorFailure ∧
    Dependency.positions {} describedTitleWithCommands .all = .error descriptorFailure := by
  have hside : describedTitleWithCommands.fieldSide = describedTitle.fieldSide := rfl
  have hs : Property.profile.positions {} describedTitle .all = .ok [⟨0, some 2⟩] := rfl
  have ht : Property.profile.positions {} describedTitleWithCommands .all =
      .ok [⟨1, some 3⟩] := rfl
  have hf : Dependency.profile.positions {} describedTitle .all = .error descriptorFailure := rfl
  have hproperty := commandSide_unread hside {} .all Property.profile (by simp)
  have hdependency := commandSide_unread hside {} .all Dependency.profile (by simp)
  rw [hs, ht] at hproperty
  rw [hf] at hdependency
  cases hg : Dependency.profile.positions {} describedTitleWithCommands .all with
  | ok cs =>
    rw [hg] at hdependency
    cases hdependency
  | error g =>
    rw [hg] at hdependency
    exact ⟨hside, hs, ht, hproperty, hf, hdependency ▸ hg⟩

end FieldBinding
end MemberBinding
