import MemberBinding.Proofs.Snapshot.SameNames

/-!
# Snapshots that differ in links only

Names lead to the same members, whatever links the members carry. Main statements:
`Member.SameButLinks.of_marks` and `SameButLinks.designates_iff`.
-/

namespace MemberBinding

/-- What bears on the bindings of a member, other than its links. -/
structure Member.SameButLinks (m n : Member) : Prop where
  name_eq : n.name = m.name
  kind_eq : n.kind = m.kind
  valueType_eq : n.valueType = m.valueType
  returnType_eq : n.returnType = m.returnType
  parameters_eq : n.parameters = m.parameters
  isStatic_eq : n.isStatic = m.isStatic
  isIncluded_eq : n.isIncluded = m.isIncluded
  isExcluded_eq : n.isExcluded = m.isExcluded
  requiresExplicitLink_eq : n.requiresExplicitLink = m.requiresExplicitLink

namespace Member.SameButLinks

variable {m n : Member}

theorem symm (h : m.SameButLinks n) : n.SameButLinks m where
  name_eq := h.name_eq.symm
  kind_eq := h.kind_eq.symm
  valueType_eq := h.valueType_eq.symm
  returnType_eq := h.returnType_eq.symm
  parameters_eq := h.parameters_eq.symm
  isStatic_eq := h.isStatic_eq.symm
  isIncluded_eq := h.isIncluded_eq.symm
  isExcluded_eq := h.isExcluded_eq.symm
  requiresExplicitLink_eq := h.requiresExplicitLink_eq.symm

theorem trans {k : Member} (h : m.SameButLinks n) (h' : n.SameButLinks k) : m.SameButLinks k where
  name_eq := h'.name_eq.trans h.name_eq
  kind_eq := h'.kind_eq.trans h.kind_eq
  valueType_eq := h'.valueType_eq.trans h.valueType_eq
  returnType_eq := h'.returnType_eq.trans h.returnType_eq
  parameters_eq := h'.parameters_eq.trans h.parameters_eq
  isStatic_eq := h'.isStatic_eq.trans h.isStatic_eq
  isIncluded_eq := h'.isIncluded_eq.trans h.isIncluded_eq
  isExcluded_eq := h'.isExcluded_eq.trans h.isExcluded_eq
  requiresExplicitLink_eq := h'.requiresExplicitLink_eq.trans h.requiresExplicitLink_eq

/-- Marks of which only the links differ. -/
theorem of_marks {marks : List Mark}
    (h : ∀ mark : Mark, mark.link? = none → (mark ∈ marks ↔ mark ∈ m.marks)) :
    m.SameButLinks { m with marks } := by
  have hcontains (mark : Mark) (hmark : mark.link? = none) :
      marks.contains mark = m.marks.contains mark := by
    rw [Bool.eq_iff_iff, List.contains_iff_mem, List.contains_iff_mem, h mark hmark]
  exact ⟨rfl, rfl, rfl, rfl, rfl, rfl, hcontains .included rfl, hcontains .excluded rfl,
    hcontains .requireExplicitLink rfl⟩

theorem returns_eq (h : m.SameButLinks n) (type : String) : n.returns type = m.returns type := by
  rw [returns, returns, h.returnType_eq]

theorem declaredType_eq (h : m.SameButLinks n) : n.declaredType = m.declaredType := by
  rw [declaredType, declaredType, h.kind_eq, h.returnType_eq, h.valueType_eq]

end Member.SameButLinks

/-- The same members at the same positions, but for their links. -/
structure Snapshot.SameButLinks (s t : Snapshot) : Prop where
  length_eq : t.members.length = s.members.length
  member : ∀ id, (s.member id).SameButLinks (t.member id)

namespace Snapshot.SameButLinks

variable {s t : Snapshot} {kind : MemberKind} {name : String} {id : Nat}

theorem symm (h : s.SameButLinks t) : t.SameButLinks s :=
  ⟨h.length_eq.symm, fun id => (h.member id).symm⟩

theorem trans {u : Snapshot} (h : s.SameButLinks t) (h' : t.SameButLinks u) : s.SameButLinks u :=
  ⟨h'.length_eq.trans h.length_eq, fun id => (h.member id).trans (h'.member id)⟩

theorem sameNames (h : s.SameButLinks t) : s.SameNames t :=
  ⟨h.length_eq, fun id => (h.member id).name_eq, fun id => (h.member id).kind_eq,
    fun id => (h.member id).isExcluded_eq⟩

theorem available_iff (h : s.SameButLinks t) : t.Available kind id ↔ s.Available kind id :=
  h.sameNames.available_iff

theorem designates_iff (h : s.SameButLinks t) :
    t.Designates kind name id ↔ s.Designates kind name id :=
  h.sameNames.designates_iff

theorem matchesName_iff (h : s.SameButLinks t) {conventions : Conventions} {given sought : Role}
    {source : Nat} : t.MatchesName conventions given sought kind source id ↔
      s.MatchesName conventions given sought kind source id :=
  h.sameNames.matchesName_iff

end Snapshot.SameButLinks

/-- Two resolutions of the same members, but for their links. -/
structure Context.SameButLinks (ctx ctx' : Context) : Prop
    extends toSnapshot : ctx.snapshot.SameButLinks ctx'.snapshot where
  config_eq : ctx'.config = ctx.config
  mode_eq : ctx'.mode = ctx.mode

namespace Context.SameButLinks

variable {ctx ctx' : Context}

theorem symm (h : ctx.SameButLinks ctx') : ctx'.SameButLinks ctx :=
  ⟨h.toSnapshot.symm, h.config_eq.symm, h.mode_eq.symm⟩

theorem trans {ctx'' : Context} (h : ctx.SameButLinks ctx') (h' : ctx'.SameButLinks ctx'') :
    ctx.SameButLinks ctx'' :=
  ⟨h.toSnapshot.trans h'.toSnapshot, h'.config_eq.trans h.config_eq, h'.mode_eq.trans h.mode_eq⟩

theorem sameNames (h : ctx.SameButLinks ctx') : ctx.SameNames ctx' :=
  ⟨h.toSnapshot.sameNames, congrArg Config.conventions h.config_eq⟩

theorem linkTarget_eq (h : ctx.SameButLinks ctx') (kind : MemberKind) (label name : String)
    (site : LinkSite) :
    ctx'.linkTarget kind label name site = ctx.linkTarget kind label name site :=
  h.sameNames.linkTarget_eq kind label name site

end Context.SameButLinks
end MemberBinding
