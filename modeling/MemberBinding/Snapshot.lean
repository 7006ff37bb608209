import MemberBinding.Member

/-! # The members of one type, told apart by position -/

namespace MemberBinding

structure Snapshot where
  name : String
  members : List Member := []
  deriving DecidableEq, Repr

namespace Snapshot

def withMember (s : Snapshot) (m : Member) : Snapshot := { s with members := s.members ++ [m] }

def member? (s : Snapshot) (id : Nat) : Option Member := s.members[id]?

/-- Of use for positions of the snapshot only. -/
def member (s : Snapshot) (id : Nat) : Member := (s.member? id).getD default

/-- The members of a kind, with their positions. -/
def ofKind (s : Snapshot) (kind : MemberKind) : List (Member × Nat) :=
  s.members.zipIdx.filter (·.1.kind == kind)

/-- The positions of the members of a kind and name, by one pass over all members. -/
def named (s : Snapshot) (kind : MemberKind) (name : String) : List Nat :=
  (s.members.zipIdx.filter fun e => e.1.kind == kind && e.1.name == name).map (·.2)

theorem member?_eq_some_iff {s : Snapshot} {m : Member} {id : Nat} :
    s.member? id = some m ↔ (m, id) ∈ s.members.zipIdx := by
  simp [member?, List.mk_mem_zipIdx_iff_getElem?]

theorem mem_ofKind {s : Snapshot} {kind : MemberKind} {m : Member} {id : Nat} :
    (m, id) ∈ s.ofKind kind ↔ s.member? id = some m ∧ m.kind = kind := by
  simp [ofKind, member?_eq_some_iff]

theorem member_of_mem_ofKind {s : Snapshot} {kind : MemberKind} {m : Member} {id : Nat}
    (h : (m, id) ∈ s.ofKind kind) : s.member id = m := by
  simp [member, (mem_ofKind.1 h).1]

theorem mem_named {s : Snapshot} {kind : MemberKind} {name : String} {id : Nat} :
    id ∈ s.named kind name ↔ ∃ m, s.member? id = some m ∧ m.kind = kind ∧ m.name = name := by
  simp only [named, List.mem_map, List.mem_filter, Bool.and_eq_true, beq_iff_eq,
    member?_eq_some_iff]
  constructor
  · rintro ⟨⟨m, i⟩, h, rfl⟩
    exact ⟨m, h⟩
  · rintro ⟨m, h⟩
    exact ⟨(m, id), h, rfl⟩

end Snapshot
end MemberBinding
