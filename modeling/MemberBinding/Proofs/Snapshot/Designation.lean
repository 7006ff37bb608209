import MemberBinding.Resolution.Target

/-!
# What the names in links stand for

A name designates a member when exactly one member of the kind sought has the name and that member
is not excluded. Everything here is read off the snapshot, by position. Main statement:
`Context.target_eq_ok_iff`, by which the targets of links are the designated members.
-/

namespace MemberBinding

namespace Snapshot

/-- A member of the kind that is not excluded. -/
structure Available (s : Snapshot) (kind : MemberKind) (id : Nat) : Prop where
  lt : id < s.members.length
  kind_eq : (s.member id).kind = kind
  not_excluded : (s.member id).isExcluded = false

/-- The one member of the kind and name, which is not excluded. -/
structure Designates (s : Snapshot) (kind : MemberKind) (name : String) (id : Nat) : Prop
    extends Available s kind id where
  name_eq : (s.member id).name = name
  unique : ∀ j < s.members.length, (s.member j).kind = kind → (s.member j).name = name → j = id

theorem Designates.eq {s : Snapshot} {kind : MemberKind} {name : String} {i j : Nat}
    (hi : s.Designates kind name i) (hj : s.Designates kind name j) : i = j :=
  hj.unique i hi.lt hi.kind_eq hi.name_eq

/-- `owner` carries a link whose first name designates `target` and whose names all designate
some member. -/
def PointsAt (s : Snapshot) (ownerKind : MemberKind) (link : LinkKind) (kind : MemberKind)
    (owner target : Nat) : Prop :=
  s.Available ownerKind owner ∧ ∃ l ∈ (s.member owner).linksOf link,
    s.Designates kind l.name target ∧ ∀ name ∈ l.names, ∃ id, s.Designates kind name id

/-- The name of `source`, converted, is the name of `id`. -/
def MatchesName (s : Snapshot) (conventions : Conventions) (given sought : Role)
    (kind : MemberKind) (source id : Nat) : Prop :=
  s.Available kind id ∧
    conventions.convert (s.member source).name given sought = .ok (s.member id).name

end Snapshot

/-- The name of `source` counts for a role that explicit links fill or not. -/
def Config.Searches (config : Config) (source : Member) (explicit : Prop) : Prop :=
  source.requiresExplicitLink = false ∧ ¬(config.options.preferExplicit = true ∧ explicit)

namespace Snapshot

theorem member?_eq_some_iff_member {s : Snapshot} {m : Member} {id : Nat} :
    s.member? id = some m ↔ id < s.members.length ∧ s.member id = m := by
  rw [member, member?, List.getElem?_eq_some_iff]
  constructor
  · intro h
    obtain ⟨h, rfl⟩ := h
    simp [h]
  · intro h
    obtain ⟨h, rfl⟩ := h
    exact ⟨h, by simp [h]⟩

theorem member_of_length_le {s : Snapshot} {id : Nat} (h : s.members.length ≤ id) :
    s.member id = default := by
  simp [member, member?, h]

theorem member_mem {s : Snapshot} {id : Nat} (h : id < s.members.length) :
    s.member id ∈ s.members := by
  rw [List.mem_iff_getElem?]
  exact ⟨id, member?_eq_some_iff_member.2 ⟨h, rfl⟩⟩

theorem exists_member_eq {s : Snapshot} {m : Member} (h : m ∈ s.members) :
    ∃ id < s.members.length, s.member id = m := by
  obtain ⟨id, hid⟩ := List.mem_iff_getElem?.1 h
  exact ⟨id, member?_eq_some_iff_member.1 hid⟩

theorem mem_ofKind_iff_member {s : Snapshot} {kind : MemberKind} {m : Member} {id : Nat} :
    (m, id) ∈ s.ofKind kind ↔
      id < s.members.length ∧ s.member id = m ∧ (s.member id).kind = kind := by
  rw [mem_ofKind, member?_eq_some_iff_member]
  constructor
  · intro h
    obtain ⟨⟨h, rfl⟩, hk⟩ := h
    exact ⟨h, rfl, hk⟩
  · intro h
    obtain ⟨h, rfl, hk⟩ := h
    exact ⟨⟨h, rfl⟩, hk⟩

theorem mem_named_iff_member {s : Snapshot} {kind : MemberKind} {name : String} {id : Nat} :
    id ∈ s.named kind name ↔
      id < s.members.length ∧ (s.member id).kind = kind ∧ (s.member id).name = name := by
  simp only [mem_named, member?_eq_some_iff_member]
  constructor
  · intro h
    obtain ⟨m, ⟨h, rfl⟩, hk, hn⟩ := h
    exact ⟨h, hk, hn⟩
  · intro h
    obtain ⟨h, hk, hn⟩ := h
    exact ⟨_, ⟨h, rfl⟩, hk, hn⟩

/-- Any choice of entries lists its positions in declaration order. -/
theorem pairwise_lt_positions (s : Snapshot) {entries : List (Member × Nat)}
    (h : entries.Sublist s.members.zipIdx) : (entries.map (·.2)).Pairwise (· < ·) := by
  have hp : (s.members.zipIdx.map (·.2)).Pairwise (· < ·) := by
    rw [List.zipIdx_map_snd]
    exact List.pairwise_lt_range'
  exact hp.sublist (h.map _)

theorem pairwise_lt_named (s : Snapshot) (kind : MemberKind) (name : String) :
    (s.named kind name).Pairwise (· < ·) :=
  s.pairwise_lt_positions List.filter_sublist

theorem named_eq_singleton_iff {s : Snapshot} {kind : MemberKind} {name : String} {id : Nat} :
    s.named kind name = [id] ↔
      id ∈ s.named kind name ∧ ∀ j ∈ s.named kind name, j = id := by
  constructor
  · intro h
    simp [h]
  · intro h
    obtain ⟨hmem, hall⟩ := h
    have hp := s.pairwise_lt_named kind name
    cases hs : s.named kind name with
    | nil => simp [hs] at hmem
    | cons i rest =>
      rw [hs] at hall hp
      have hi : i = id := hall i (by simp)
      cases rest with
      | nil => rw [hi]
      | cons j rest =>
        have hj : j = id := hall j (by simp)
        have hlt : i < j := List.rel_of_pairwise_cons hp (by simp)
        omega

theorem designates_iff {s : Snapshot} {kind : MemberKind} {name : String} {id : Nat} :
    s.Designates kind name id ↔
      s.named kind name = [id] ∧ (s.member id).isExcluded = false := by
  rw [named_eq_singleton_iff]
  simp only [mem_named_iff_member]
  constructor
  · intro h
    exact ⟨⟨⟨h.lt, h.kind_eq, h.name_eq⟩, fun j hj => h.unique j hj.1 hj.2.1 hj.2.2⟩,
      h.not_excluded⟩
  · intro h
    obtain ⟨⟨⟨hlt, hk, hn⟩, hu⟩, hx⟩ := h
    exact ⟨⟨hlt, hk, hx⟩, hn, fun j h₁ h₂ h₃ => hu j ⟨h₁, h₂, h₃⟩⟩

end Snapshot

namespace Context

@[simp] theorem snapshot_of (config : Config) (s : Snapshot) (mode : Mode) :
    (of config s mode).snapshot = s := rfl

@[simp] theorem config_of (config : Config) (s : Snapshot) (mode : Mode) :
    (of config s mode).config = config := rfl

@[simp] theorem mode_of (config : Config) (s : Snapshot) (mode : Mode) :
    (of config s mode).mode = mode := rfl

@[simp] theorem member_eq (ctx : Context) (id : Nat) : ctx.member id = ctx.snapshot.member id := rfl

theorem lookup_index (ctx : Context) (kind : MemberKind) (name : String) :
    ctx.index.lookup kind name = ctx.snapshot.named kind name := by
  rw [ctx.index_eq, NameIndex.lookup_ofSnapshot]

/-- Links find exactly the members that their names designate. -/
theorem target_eq_ok_iff {ctx : Context} {kind : MemberKind} {name : String} {id : Nat} :
    ctx.target kind name = .ok id ↔ ctx.snapshot.Designates kind name id := by
  rw [Snapshot.designates_iff, target, lookup_index]
  split
  · rename_i h
    simp [h]
  · rename_i i h
    rw [h, member_eq]
    cases hx : (ctx.snapshot.member i).isExcluded with
    | false =>
      simp only [Bool.false_eq_true, if_false, Except.ok.injEq, List.cons.injEq, and_true]
      constructor
      · rintro rfl
        exact ⟨rfl, hx⟩
      · exact fun h => h.1
    | true =>
      simp only [if_true, reduceCtorEq, List.cons.injEq, and_true, false_iff, not_and]
      rintro rfl
      simp [hx]
  · rename_i h₁ h₂
    simp only [reduceCtorEq, false_iff, not_and]
    intro h
    exact absurd h (h₂ id)

theorem linkTarget_eq_ok_iff {ctx : Context} {kind : MemberKind} {label name : String}
    {site : LinkSite} {id : Nat} :
    ctx.linkTarget kind label name site = .ok id ↔ ctx.snapshot.Designates kind name id := by
  rw [← target_eq_ok_iff, linkTarget]
  cases ctx.target kind name with
  | error fault => exact ⟨nofun, nofun⟩
  | ok target =>
    constructor
    · intro h
      exact congrArg Except.ok (Except.ok.inj h)
    · intro h
      exact congrArg Except.ok (Except.ok.inj h)

end Context
end MemberBinding
