import MemberBinding.Proofs.Command.Reports
import MemberBinding.Proofs.Resolution.Agreement
import MemberBinding.Proofs.Snapshot.SwappedNames

/-!
# The two names of a link of command methods

Which of two methods is executed is told by their return types alone. Where these tell them apart,
the names may be written in either order. Main statement: `either_order`.
-/

namespace MemberBinding.Command

/-- Both methods return nothing, or neither does and both return a truth value. -/
def Alike (types : TypeNames) (a b : Member) : Prop :=
  a.returns types.void = true ∧ b.returns types.void = true ∨
    (a.returns types.void = false ∧ b.returns types.void = false) ∧
      a.returns types.boolean = true ∧ b.returns types.boolean = true

/-- Exactly one of the methods returns nothing, or neither does and exactly one returns a truth
value. -/
def ToldApart (types : TypeNames) (a b : Member) : Prop :=
  a.returns types.void ≠ b.returns types.void ∨
    (a.returns types.void = false ∧ b.returns types.void = false) ∧
      a.returns types.boolean ≠ b.returns types.boolean

/-- What a link from a property makes of the methods that its two names stand for. -/
structure SplitByReturnType (ctx : Context) (site : LinkSite) (a b : Nat) : Prop where
  error_iff : (∃ v, propertySpec.splitTargets ctx site a (some b) = .error v) ↔
    Alike ctx.config.types (ctx.member a) (ctx.member b)
  error_swapped_iff : (∃ v, propertySpec.splitTargets ctx site b (some a) = .error v) ↔
    Alike ctx.config.types (ctx.member a) (ctx.member b)
  conflict : ∀ v, propertySpec.splitTargets ctx site a (some b) = .error v →
    Conflict ctx.config.types site (ctx.member a) (ctx.member b) v
  pair : ∀ target, propertySpec.splitTargets ctx site a (some b) = .ok target →
    target = ⟨a, some (canExecuteRole, b)⟩ ∨ target = ⟨b, some (canExecuteRole, a)⟩
  eq_swapped : ToldApart ctx.config.types (ctx.member a) (ctx.member b) → ∃ target,
    propertySpec.splitTargets ctx site a (some b) = .ok target ∧
      propertySpec.splitTargets ctx site b (some a) = .ok target

/-- A link of command methods whose names designate methods that their return types tell apart. -/
structure Interchangeable (types : TypeNames) (s : Snapshot) (l : Link) : Prop where
  kind_eq : l.kind = .commandMethods
  designates : ∃ name a b, l.secondName = some name ∧ s.Designates .method l.name a ∧
    s.Designates .method name b ∧ ToldApart types (s.member a) (s.member b)

/-! ## Two methods -/

section

variable {types : TypeNames} {site : LinkSite} {a b : Member}

theorem alike_comm : Alike types a b ↔ Alike types b a := by
  unfold Alike
  cases a.returns types.void <;> cases b.returns types.void <;> simp [and_comm]

theorem exists_conflict_iff : (∃ v, Conflict types site a b v) ↔ Alike types a b := by
  constructor
  · rintro ⟨v, hv⟩
    cases hv with
    | execute ha hb => exact .inl ⟨ha, hb⟩
    | canExecute ha hb ha' hb' => exact .inr ⟨⟨ha, hb⟩, ha', hb'⟩
  · rintro (⟨ha, hb⟩ | ⟨⟨ha, hb⟩, ha', hb'⟩)
    · exact ⟨_, .execute ha hb⟩
    · exact ⟨_, .canExecute ha hb ha' hb'⟩

/-- Whichever is written first, the same one of the two is executed. -/
theorem ToldApart.executes (h : ToldApart types a b) :
    (ExecutesFirst types a b ∧ ExecutesSecond types b a) ∨
      (ExecutesSecond types a b ∧ ExecutesFirst types b a) := by
  revert h
  unfold ToldApart ExecutesFirst ExecutesSecond
  cases a.returns types.void <;> cases b.returns types.void <;>
    cases a.returns types.boolean <;> cases b.returns types.boolean <;> simp

end

section

variable {ctx : Context} {site : LinkSite} {a b : Nat}

theorem splitTargets_eq_error_iff {v : Violation} :
    propertySpec.splitTargets ctx site a (some b) = .error v ↔
      Conflict ctx.config.types site (ctx.member a) (ctx.member b) v :=
  map_eq_error_iff.trans pairOrder_eq_error_iff

theorem splitTargets_of_executesFirst
    (h : ExecutesFirst ctx.config.types (ctx.member a) (ctx.member b)) :
    propertySpec.splitTargets ctx site a (some b) = .ok ⟨a, some (canExecuteRole, b)⟩ :=
  map_eq_ok_iff.2 ⟨.asWritten, pairOrder_eq_asWritten_iff.2 h, rfl⟩

theorem splitTargets_of_executesSecond
    (h : ExecutesSecond ctx.config.types (ctx.member a) (ctx.member b)) :
    propertySpec.splitTargets ctx site a (some b) = .ok ⟨b, some (canExecuteRole, a)⟩ :=
  map_eq_ok_iff.2 ⟨.swapped, pairOrder_eq_swapped_iff.2 h, rfl⟩

theorem splitTargets_eq_swapped
    (h : ToldApart ctx.config.types (ctx.member a) (ctx.member b)) : ∃ target,
    propertySpec.splitTargets ctx site a (some b) = .ok target ∧
      propertySpec.splitTargets ctx site b (some a) = .ok target := by
  rcases h.executes with ⟨hfirst, hsecond⟩ | ⟨hsecond, hfirst⟩
  · exact ⟨_, splitTargets_of_executesFirst hfirst, splitTargets_of_executesSecond hsecond⟩
  · exact ⟨_, splitTargets_of_executesSecond hsecond, splitTargets_of_executesFirst hfirst⟩

theorem splitByReturnType (ctx : Context) (site : LinkSite) (a b : Nat) :
    SplitByReturnType ctx site a b where
  error_iff := by simp only [splitTargets_eq_error_iff, exists_conflict_iff]
  error_swapped_iff := by
    simp only [splitTargets_eq_error_iff, exists_conflict_iff]
    exact alike_comm
  conflict _ := splitTargets_eq_error_iff.1
  pair target h := by
    obtain ⟨order, -, rfl⟩ := map_eq_ok_iff.1 h
    cases order with
    | asWritten => exact .inl rfl
    | swapped => exact .inr rfl
  eq_swapped := splitTargets_eq_swapped

end

/-! ## Whole resolutions -/

section

variable {ctx ctx' : Context} {spec : RoleSpec} {l : Link}

/-- Only properties are read for links of command methods. -/
theorem reverse_eq_commandMethods (h : spec ∈ rules.roles)
    (hkind : spec.reverse = .commandMethods) : spec = propertySpec := by
  simp only [roles_rules, List.mem_cons, List.not_mem_nil, or_false] at h
  rcases h with rfl | rfl | rfl
  · cases hkind
  · rfl
  · cases hkind

theorem forward_ne_commandMethods (h : spec ∈ rules.roles) : spec.forward ≠ .commandMethods := by
  simp only [roles_rules, List.mem_cons, List.not_mem_nil, or_false] at h
  rcases h with rfl | rfl | rfl <;> decide

/-- The link leads to the same entry either way, for all that its names are looked up for. -/
theorem reverseLink_swapNames (h : Interchangeable ctx.config.types ctx.snapshot l)
    (owner : Member × Nat) :
    rules.reverseLink ctx propertySpec owner l.swapNames =
      rules.reverseLink ctx propertySpec owner l := by
  obtain ⟨kind, name, second⟩ := l
  obtain ⟨rfl, other, a, b, rfl, ha, hb, htold⟩ := h
  obtain ⟨target, hwritten, hswapped⟩ := (splitByReturnType ctx
    (propertySpec.reverseSite owner.1 ⟨.commandMethods, name, some other⟩) a b).eq_swapped htold
  have hok : rules.reverseLink ctx propertySpec owner ⟨.commandMethods, name, some other⟩ =
      .ok { target with owner := owner.2 } :=
    Rules.reverseLink_eq_ok_iff.2 ⟨rfl, a, some b, ⟨ha, .some hb⟩, hwritten⟩
  have hok' : rules.reverseLink ctx propertySpec owner ⟨.commandMethods, other, some name⟩ =
      .ok { target with owner := owner.2 } :=
    Rules.reverseLink_eq_ok_iff.2 ⟨rfl, b, some a, ⟨hb, .some ha⟩, hswapped⟩
  exact hok'.trans hok.symm

theorem agree_of_swappedNames (hconfig : ctx'.config = ctx.config) (hmode : ctx'.mode = ctx.mode)
    (h : ctx.snapshot.SwappedNames (Interchangeable ctx.config.types ctx.snapshot) ctx'.snapshot) :
    rules.Agree ctx ctx' := by
  have hsame : ctx.SameButLinks ctx' := ⟨h.sameButLinks, hconfig, hmode⟩
  refine ⟨hsame, ?_, ?_, ?_⟩
  · intro spec hspec source
    unfold Rules.forwardOutcomes
    simp only [hsame.linkTarget_eq, Context.member_eq, (hsame.member source).name_eq]
    refine (h.member source).map_linksOf_eq ?_
    intro l hl hkind
    exact absurd (hkind.symm.trans hl.kind_eq) (forward_ne_commandMethods hspec)
  · intro spec hspec
    refine Rules.reverseOutcomes_eq hsame.sameNames.toSnapshot ?_
    intro id ha
    have hlink (l : Link) : rules.reverseLink ctx' spec (ctx'.snapshot.member id, id) l =
        rules.reverseLink ctx spec (ctx.snapshot.member id, id) l :=
      Rules.reverseLink_eq linkBlind_rules hsame hspec id l
    rw [funext hlink]
    refine (h.member id).map_linksOf_eq ?_
    intro l hl hkind
    obtain rfl := reverse_eq_commandMethods hspec (hkind.symm.trans hl.kind_eq)
    exact reverseLink_swapNames hl _
  · exact Rules.markFaults_eq hsame fun id => by rw [(h.member id).map_kind_links]

end

/-- Return types alone decide what a link makes of its two methods, in either order. So any links
whose methods they tell apart can have their names swapped, and the whole resolution stays. -/
theorem either_order :
    (∀ (ctx : Context) (site : LinkSite) (a b : Nat), SplitByReturnType ctx site a b) ∧
    ∀ (config : Config) (s t : Snapshot) (mode : Mode),
      s.SwappedNames (Interchangeable config.types s) t →
      positions config t mode = positions config s mode := by
  refine ⟨splitByReturnType, ?_⟩
  intro config s t mode h
  have hagree : rules.Agree (.of config s mode) (.of config t mode) :=
    agree_of_swappedNames rfl rfl h
  unfold positions
  rw [hagree.resolve_eq linkBlind_rules]

/-- A command whose property names both of its methods. -/
def pairedCommand (first second : String) : Snapshot where
  name := "Document"
  members := [
    .method "ExecuteSaveMethod" "System.Void",
    .method "MaySave" "System.Boolean",
    (Member.property "SaveCommand" "System.Windows.Input.ICommand").withLink
      ⟨.commandMethods, first, some second⟩,
    .field "saveCommand" "System.Windows.Input.ICommand"]

theorem either_order_pairedCommand :
    (pairedCommand "ExecuteSaveMethod" "MaySave").SwappedNames
      (Interchangeable .standard (pairedCommand "ExecuteSaveMethod" "MaySave"))
      (pairedCommand "MaySave" "ExecuteSaveMethod") ∧
    positions {} (pairedCommand "MaySave" "ExecuteSaveMethod") .all =
      positions {} (pairedCommand "ExecuteSaveMethod" "MaySave") .all ∧
    positions {} (pairedCommand "MaySave" "ExecuteSaveMethod") .all =
      .ok [⟨0, some 1, some 2, some 3⟩] := by
  have htarget {name : String} {id : Nat}
      (h : (Context.of {} (pairedCommand "ExecuteSaveMethod" "MaySave") .all).target .method name =
        .ok id) : (pairedCommand "ExecuteSaveMethod" "MaySave").Designates .method name id :=
    Context.target_eq_ok_iff.1 h
  have hlink : Interchangeable .standard (pairedCommand "ExecuteSaveMethod" "MaySave")
      ⟨.commandMethods, "ExecuteSaveMethod", some "MaySave"⟩ :=
    ⟨rfl, "MaySave", 0, 1, rfl, htarget rfl, htarget rfl, .inl (by decide)⟩
  have hswapped : (pairedCommand "ExecuteSaveMethod" "MaySave").SwappedNames
      (Interchangeable .standard (pairedCommand "ExecuteSaveMethod" "MaySave"))
      (pairedCommand "MaySave" "ExecuteSaveMethod") :=
    .cons (.refl _) (.cons (.refl _) (.cons ⟨rfl, .cons (.swapped hlink) .nil⟩
      (.cons (.refl _) .nil)))
  exact ⟨hswapped, either_order.2 {} _ _ .all hswapped, rfl⟩

end MemberBinding.Command
