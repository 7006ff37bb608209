import MemberBinding.Binding.Bindings
import MemberBinding.Proofs.Reports.Collection
import MemberBinding.Proofs.Resolution.Parts
import MemberBinding.Proofs.Resolution.Placement

/-!
# Parts that do not look each other up

Members none of whose links and names lead to the other members are resolved as if they were alone.
Main statement: `Bindings.resolve_append`.
-/

namespace MemberBinding

/-! ## Rules are local -/

theorem FieldBinding.Profile.local_rules (profile : Profile) : profile.rules.Local where
  isCandidate_eq hconfig _ := by
    funext m linked
    exact congrArg (fun config : Config => profile.admits config.types m) hconfig
  check_map := by
    intro ctx ctx' φ hconfig hmember g
    dsimp only [Profile.rules]
    rw [Group.single?_map, Group.anchor_map, hconfig]
    cases g.single? 0 with
    | none => rfl
    | some f =>
      dsimp only [Option.map]
      rw [Context.member_eq, Context.member_eq, hmember, hmember]
      rfl

theorem Command.local_rules : Command.rules.Local where
  isCandidate_eq hconfig hmode := by
    funext m linked
    dsimp only [Command.rules, Command.isCandidate]
    rw [hmode, hconfig]
  check_map := by
    intro ctx ctx' φ hconfig hmember g
    have hplaced : ∀ id, ctx'.member (φ id) = ctx.member id := hmember
    dsimp only [Command.rules, Command.check]
    rw [Group.single?_map, Group.single?_map, Group.single?_map, Group.anchor_map, hconfig,
      hplaced]
    cases g.single? canExecuteRole <;> cases g.single? propertyRole <;>
      cases g.single? fieldRole <;> simp only [Option.map, hplaced]

theorem BindingKind.local_rules (kind : BindingKind) : kind.rules.Local := by
  cases kind with
  | property => exact FieldBinding.Profile.local_rules Property.profile
  | command => exact Command.local_rules
  | dependency => exact FieldBinding.Profile.local_rules Dependency.profile

/-! ## Groups -/

namespace Rules.Splits

variable {rules : Rules} {left right whole : Context} {φ ψ : Nat → Nat}

theorem reports_eq_nil_iff (s : rules.Splits left right whole φ ψ) (hlocal : rules.Local) :
    rules.reports whole (rules.reverseTable whole)
        (rules.run whole (rules.reverseTable whole)) = [] ↔
      rules.reports left (rules.reverseTable left)
        (rules.run left (rules.reverseTable left)) = [] ∧
      rules.reports right (rules.reverseTable right)
        (rules.run right (rules.reverseTable right)) = [] := by
  simp only [List.eq_nil_iff_forall_not_mem, s.mem_reports_iff hlocal, not_or, forall_and]

theorem resolve_eq_ok (s : rules.Splits left right whole φ ψ) (hlocal : rules.Local)
    {xs ys : List Group} (hxs : rules.resolve left = .ok xs) (hys : rules.resolve right = .ok ys) :
    rules.resolve whole = .ok (xs.map (·.map φ) ++ ys.map (·.map ψ)) := by
  obtain ⟨hleft, rfl⟩ := Diagnostics.finish_ofList_eq_ok_iff.1 hxs
  obtain ⟨hright, rfl⟩ := Diagnostics.finish_ofList_eq_ok_iff.1 hys
  exact Diagnostics.finish_ofList_eq_ok_iff.2
    ⟨(s.reports_eq_nil_iff hlocal).2 ⟨hleft, hright⟩, s.groups_run_eq hlocal⟩

theorem mem_messagesOf_resolve_iff (s : rules.Splits left right whole φ ψ) (hlocal : rules.Local)
    (text : String) : text ∈ messagesOf (rules.resolve whole) ↔
      text ∈ messagesOf (rules.resolve left) ∨ text ∈ messagesOf (rules.resolve right) := by
  unfold resolve
  dsimp only
  simp only [Diagnostics.mem_messagesOf_finish_iff, s.mem_reports_iff hlocal, or_and_right,
    exists_or]

theorem exists_resolve_eq_error (s : rules.Splits left right whole φ ψ) (hlocal : rules.Local)
    (h : (∃ f, rules.resolve left = .error f) ∨ ∃ f, rules.resolve right = .error f) :
    ∃ f, rules.resolve whole = .error f := by
  cases hwhole : rules.resolve whole with
  | error f => exact ⟨f, rfl⟩
  | ok zs =>
    obtain ⟨hnil, -⟩ := Diagnostics.finish_ofList_eq_ok_iff.1 hwhole
    obtain ⟨hleft, hright⟩ := (s.reports_eq_nil_iff hlocal).1 hnil
    rcases h with ⟨f, hf⟩ | ⟨f, hf⟩
    · have hok : rules.resolve left = .ok _ :=
        Diagnostics.finish_ofList_eq_ok_iff.2 ⟨hleft, rfl⟩
      rw [hok] at hf
      cases hf
    · have hok : rules.resolve right = .ok _ :=
        Diagnostics.finish_ofList_eq_ok_iff.2 ⟨hright, rfl⟩
      rw [hok] at hf
      cases hf

end Rules.Splits

/-! ## Bindings -/

namespace Bindings

/-- The bindings of the first and then those of the second, all of one kind. -/
inductive Joined : Bindings → Bindings → Bindings → Prop
  | property (bs cs) : Joined (.property bs) (.property cs) (.property (bs ++ cs))
  | command (bs cs) : Joined (.command bs) (.command cs) (.command (bs ++ cs))
  | dependency (bs cs) : Joined (.dependency bs) (.dependency cs) (.dependency (bs ++ cs))

theorem ofGroup_map_field (φ : Nat → Nat) (g : Group) :
    FieldBinding.ofGroup (g.map φ) = (FieldBinding.ofGroup g).map φ := by
  simp [FieldBinding.ofGroup, FieldBinding.map]

theorem ofGroup_map_command (φ : Nat → Nat) (g : Group) :
    CommandBinding.ofGroup (g.map φ) = (CommandBinding.ofGroup g).map φ := by
  simp [CommandBinding.ofGroup, CommandBinding.map]

theorem ofGroups_map {part whole : Snapshot} {φ : Nat → Nat}
    (h : ∀ id, whole.member (φ id) = part.member id) (kind : BindingKind) (groups : List Group) :
    ofGroups kind whole (groups.map (·.map φ)) = ofGroups kind part groups := by
  have hmember : whole.member ∘ φ = part.member := funext h
  cases kind <;> simp [ofGroups, ofGroup_map_field, ofGroup_map_command, hmember]

theorem joined_ofGroups (kind : BindingKind) (s : Snapshot) (xs ys : List Group) :
    Joined (ofGroups kind s xs) (ofGroups kind s ys) (ofGroups kind s (xs ++ ys)) := by
  cases kind with
  | property =>
    simp only [ofGroups, List.map_append]
    exact .property _ _
  | command =>
    simp only [ofGroups, List.map_append]
    exact .command _ _
  | dependency =>
    simp only [ofGroups, List.map_append]
    exact .dependency _ _

/-- Members none of whose links and names lead to the other members are resolved as if they were
alone: both parts are bound as before, one after the other, or else all that is wrong in either is
reported. -/
theorem resolve_append {a b ab : Snapshot} {kind : BindingKind} {config : Config}
    (hab : ab.members = a.members ++ b.members)
    (ha : ∀ name ∈ kind.rules.lookups config.conventions a, name ∉ b.members.map Member.name)
    (hb : ∀ name ∈ kind.rules.lookups config.conventions b, name ∉ a.members.map Member.name)
    (mode : Mode) :
    match resolve kind config a mode, resolve kind config b mode with
    | .ok xs, .ok ys => ∃ zs, resolve kind config ab mode = .ok zs ∧ Joined xs ys zs
    | x, y => ∃ f, resolve kind config ab mode = .error f ∧
        ∀ text, text ∈ f.messages ↔ text ∈ messagesOf x ∨ text ∈ messagesOf y := by
  obtain ⟨φ, ψ, s⟩ : ∃ φ ψ, kind.rules.Splits (.of config a mode) (.of config b mode)
      (.of config ab mode) φ ψ := Rules.exists_splits hab ⟨rfl, rfl⟩ ⟨rfl, rfl⟩ ha hb
  have hlocal := kind.local_rules
  have hmessages := s.mem_messagesOf_resolve_iff hlocal
  rw [resolve_eq kind config a, resolve_eq kind config b, resolve_eq kind config ab]
  cases hx : kind.rules.resolve (.of config a mode) with
  | ok xs =>
    cases hy : kind.rules.resolve (.of config b mode) with
    | ok ys =>
      have hφ : ∀ id, ab.member (φ id) = a.member id := s.joined.left_member_eq
      have hψ : ∀ id, ab.member (ψ id) = b.member id := s.joined.right_member_eq
      rw [s.resolve_eq_ok hlocal hx hy]
      refine ⟨_, rfl, ?_⟩
      rw [← ofGroups_map hφ, ← ofGroups_map hψ]
      exact joined_ofGroups kind ab _ _
    | error g =>
      obtain ⟨f, hf⟩ := s.exists_resolve_eq_error hlocal (.inr ⟨g, hy⟩)
      rw [hx, hy, hf] at hmessages
      rw [hf]
      exact ⟨f, rfl, hmessages⟩
  | error g =>
    obtain ⟨f, hf⟩ := s.exists_resolve_eq_error hlocal (.inl ⟨g, hx⟩)
    rw [hx, hf] at hmessages
    rw [hf]
    cases hy : kind.rules.resolve (.of config b mode) with
    | ok ys =>
      rw [hy] at hmessages
      exact ⟨f, rfl, hmessages⟩
    | error h =>
      rw [hy] at hmessages
      exact ⟨f, rfl, hmessages⟩

/-- A command that two properties expose, one found by its name and one by a link. -/
def savePart : Snapshot where
  name := "Document"
  members := [
    (Member.method "ExecuteSaveMethod" "System.Void").withLink ⟨.command, "StoreCommand", none⟩,
    .property "SaveCommand" "System.Windows.Input.ICommand",
    .property "StoreCommand" "System.Windows.Input.ICommand"]

def saveBindings : List (CommandBinding Nat) :=
  [⟨0, none, some 1, none⟩, ⟨0, none, some 2, none⟩]

/-- A command whose field has another type, beside a method with marks that clash. -/
def loadPart : Snapshot where
  name := "Document"
  members := [
    .method "ExecuteLoadMethod" "System.Void",
    .property "LoadCommand" "System.Windows.Input.ICommand",
    .field "loadCommand" "System.Object",
    ((Member.method "Load" "System.Void").withMark .included).withMark .excluded]

def loadFailure : Failure where
  kind := .command
  violations := [.includeAndExclude "method" "Load",
    .typeMismatch "property" "LoadCommand" "field" "loadCommand"]

def saveAndLoad : Snapshot := { savePart with members := savePart.members ++ loadPart.members }

theorem resolve_append_saveAndLoad :
    (∀ name ∈ Command.rules.lookups .standard savePart,
      name ∉ loadPart.members.map Member.name) ∧
    (∀ name ∈ Command.rules.lookups .standard loadPart,
      name ∉ savePart.members.map Member.name) ∧
    resolve .command {} savePart .all =
      .ok (.command (saveBindings.map (·.map savePart.member))) ∧
    resolve .command {} loadPart .all = .error loadFailure ∧
    ∃ f, resolve .command {} saveAndLoad .all = .error f ∧
      ∀ text, text ∈ f.messages ↔ text ∈ loadFailure.messages := by
  have hsave : ∀ name ∈ Command.rules.lookups .standard savePart,
      name ∉ loadPart.members.map Member.name := by decide +kernel
  have hload : ∀ name ∈ Command.rules.lookups .standard loadPart,
      name ∉ savePart.members.map Member.name := by decide +kernel
  have hfirst : resolve .command {} savePart .all =
      .ok (.command (saveBindings.map (·.map savePart.member))) := rfl
  have hsecond : resolve .command {} loadPart .all = .error loadFailure := rfl
  have h := @resolve_append savePart loadPart saveAndLoad .command {} rfl hsave hload .all
  rw [hfirst, hsecond] at h
  obtain ⟨f, hf, hmessages⟩ := h
  refine ⟨hsave, hload, hfirst, hsecond, f, hf, ?_⟩
  intro text
  simpa [messagesOf] using hmessages text

end Bindings
end MemberBinding
