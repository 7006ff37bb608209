import Mathlib.Data.List.Sort
import MemberBinding.Proofs.Snapshot.Designation

/-!
# Snapshots with the same names

Names, kinds and exclusions decide where a name leads, whatever else the members carry. Main
statements: `Snapshot.SameNames.designates_iff`, `Snapshot.SameNames.named_eq` and
`Context.SameNames.linkTarget_eq`.
-/

namespace MemberBinding

/-- The same names at the same positions, with the same ones excluded. -/
structure Snapshot.SameNames (s t : Snapshot) : Prop where
  length_eq : t.members.length = s.members.length
  name_eq : ∀ id, (t.member id).name = (s.member id).name
  kind_eq : ∀ id, (t.member id).kind = (s.member id).kind
  isExcluded_eq : ∀ id, (t.member id).isExcluded = (s.member id).isExcluded

namespace Snapshot.SameNames

variable {s t : Snapshot} {kind : MemberKind} {name : String} {id : Nat}

theorem symm (h : s.SameNames t) : t.SameNames s :=
  ⟨h.length_eq.symm, fun id => (h.name_eq id).symm, fun id => (h.kind_eq id).symm,
    fun id => (h.isExcluded_eq id).symm⟩

theorem available (h : s.SameNames t) (ha : s.Available kind id) : t.Available kind id where
  lt := h.length_eq ▸ ha.lt
  kind_eq := (h.kind_eq id).trans ha.kind_eq
  not_excluded := (h.isExcluded_eq id).trans ha.not_excluded

theorem available_iff (h : s.SameNames t) : t.Available kind id ↔ s.Available kind id :=
  ⟨h.symm.available, h.available⟩

theorem designates (h : s.SameNames t) (hd : s.Designates kind name id) :
    t.Designates kind name id where
  toAvailable := h.available hd.toAvailable
  name_eq := (h.name_eq id).trans hd.name_eq
  unique j hlt hkind hname := by
    rw [h.length_eq] at hlt
    rw [h.kind_eq] at hkind
    rw [h.name_eq] at hname
    exact hd.unique j hlt hkind hname

theorem designates_iff (h : s.SameNames t) :
    t.Designates kind name id ↔ s.Designates kind name id :=
  ⟨h.symm.designates, h.designates⟩

theorem matchesName_iff (h : s.SameNames t) {conventions : Conventions} {given sought : Role}
    {source : Nat} : t.MatchesName conventions given sought kind source id ↔
      s.MatchesName conventions given sought kind source id := by
  rw [MatchesName, MatchesName, h.available_iff, h.name_eq, h.name_eq]

theorem pointsAt_iff (h : s.SameNames t) {ownerKind : MemberKind} {link : LinkKind} {target : Nat}
    (hlinks : ∀ l, l ∈ (t.member id).linksOf link ↔ l ∈ (s.member id).linksOf link) :
    t.PointsAt ownerKind link kind id target ↔ s.PointsAt ownerKind link kind id target := by
  simp only [PointsAt, h.available_iff, hlinks, h.designates_iff]

/-- Positions in declaration order are the same list as soon as they are the same positions. -/
theorem named_eq (h : s.SameNames t) (kind : MemberKind) (name : String) :
    t.named kind name = s.named kind name := by
  apply (t.pairwise_lt_named kind name).eq_of_mem_iff (s.pairwise_lt_named kind name)
  intro id
  rw [mem_named_iff_member, mem_named_iff_member, h.length_eq, h.kind_eq, h.name_eq]

theorem zipIdx_eq (h : s.SameNames t) :
    t.members.zipIdx = s.members.zipIdx.map fun e => (t.member e.2, e.2) := by
  apply List.ext_getElem
  · simp [h.length_eq]
  · intro id ht _
    rw [List.length_zipIdx] at ht
    have hmember := (member?_eq_some_iff_member.1 (List.getElem?_eq_getElem ht)).2
    simp [hmember]

theorem ofKind_eq (h : s.SameNames t) (kind : MemberKind) :
    t.ofKind kind = (s.ofKind kind).map fun e => (t.member e.2, e.2) := by
  rw [ofKind, ofKind, h.zipIdx_eq, List.filter_map]
  congr 1
  apply List.filter_congr
  intro e he
  obtain ⟨m, id⟩ := e
  obtain ⟨-, rfl⟩ := member?_eq_some_iff_member.1 (member?_eq_some_iff.2 he)
  dsimp only [Function.comp_apply]
  rw [h.kind_eq]

end Snapshot.SameNames

/-- Two resolutions in which names lead to the same members and are converted alike. -/
structure Context.SameNames (ctx ctx' : Context) : Prop
    extends toSnapshot : ctx.snapshot.SameNames ctx'.snapshot where
  conventions_eq : ctx'.config.conventions = ctx.config.conventions

namespace Context.SameNames

variable {ctx ctx' : Context}

theorem target_eq (h : ctx.SameNames ctx') (kind : MemberKind) (name : String) :
    ctx'.target kind name = ctx.target kind name := by
  unfold target
  rw [lookup_index, lookup_index, h.named_eq]
  match ctx.snapshot.named kind name with
  | [] => rfl
  | [id] =>
    dsimp only
    rw [member_eq, member_eq, h.isExcluded_eq]
  | _ :: _ :: _ => rfl

theorem linkTarget_eq (h : ctx.SameNames ctx') (kind : MemberKind) (label name : String)
    (site : LinkSite) :
    ctx'.linkTarget kind label name site = ctx.linkTarget kind label name site := by
  rw [linkTarget, linkTarget, h.target_eq]

end Context.SameNames
end MemberBinding
