import Mathlib.Data.List.Basic
import MemberBinding.Proofs.Snapshot.Designation

/-!
# Snapshots put together from two parts

The members of the second part follow those of the first, so each part has its own places in the
whole, in order. A name that no member of the other part has stands for the same members as before.
Main statements: `exists_joined`, `Joined.ofKind_eq` and `Joined.named_left_eq`.
-/

namespace MemberBinding

namespace Snapshot

/-- The places of two parts in a whole: the members of `a` stand at the positions given by `φ`, and
behind them those of `b` at the positions given by `ψ`. -/
structure Joined (a b ab : Snapshot) (φ ψ : Nat → Nat) : Prop where
  members_eq : ab.members = a.members ++ b.members
  zipIdx_eq : ab.members.zipIdx =
    a.members.zipIdx.map (Prod.map id φ) ++ b.members.zipIdx.map (Prod.map id ψ)
  left_injective : Function.Injective φ
  right_injective : Function.Injective ψ
  left_member_eq : ∀ id, ab.member (φ id) = a.member id
  right_member_eq : ∀ id, ab.member (ψ id) = b.member id
  ne : ∀ i j, φ i ≠ ψ j

/-- The places of a first part of `n` members that `m` others follow. Positions without a member go
behind the whole, by turns with those of the other part, so that no two share a place. -/
def leftPlace (n m id : Nat) : Nat := if id < n then id else n + m + 2 * (id - n)

/-- The places of a second part of `m` members that follow `n` others. -/
def rightPlace (n m id : Nat) : Nat := if id < m then n + id else n + m + 2 * (id - m) + 1

theorem zipIdx_leftPlace (members : List Member) (m : Nat) :
    members.zipIdx.map (Prod.map id (leftPlace members.length m)) = members.zipIdx := by
  have hplace : ∀ e ∈ members.zipIdx, Prod.map id (leftPlace members.length m) e = e := by
    intro e he
    have hlt : e.2 < members.length := by simpa using List.snd_lt_of_mem_zipIdx he
    simp [Prod.map, leftPlace, hlt]
  rw [List.map_congr_left hplace, List.map_id']

theorem zipIdx_rightPlace (members : List Member) (n : Nat) :
    members.zipIdx.map (Prod.map id (rightPlace n members.length)) = members.zipIdx n := by
  have hplace : ∀ e ∈ members.zipIdx,
      Prod.map id (rightPlace n members.length) e = Prod.map id (n + ·) e := by
    intro e he
    have hlt : e.2 < members.length := by simpa using List.snd_lt_of_mem_zipIdx he
    simp [Prod.map, rightPlace, hlt]
  rw [List.map_congr_left hplace]
  exact List.zipIdx_eq_map_add.symm

theorem leftPlace_injective (n m : Nat) : Function.Injective (leftPlace n m) := by
  intro i j hij
  unfold leftPlace at hij
  split at hij <;> split at hij <;> omega

theorem rightPlace_injective (n m : Nat) : Function.Injective (rightPlace n m) := by
  intro i j hij
  unfold rightPlace at hij
  split at hij <;> split at hij <;> omega

theorem leftPlace_ne_rightPlace (n m i j : Nat) : leftPlace n m i ≠ rightPlace n m j := by
  intro hij
  unfold leftPlace rightPlace at hij
  split at hij <;> split at hij <;> omega

theorem getElem?_leftPlace (as bs : List Member) (i : Nat) :
    (as ++ bs)[leftPlace as.length bs.length i]? = as[i]? := by
  unfold leftPlace
  split
  · rename_i hlt
    rw [List.getElem?_append_left hlt]
  · rename_i hge
    have hlength : (as ++ bs).length = as.length + bs.length := List.length_append
    rw [List.getElem?_eq_none (by omega), List.getElem?_eq_none (by omega)]

theorem getElem?_rightPlace (as bs : List Member) (j : Nat) :
    (as ++ bs)[rightPlace as.length bs.length j]? = bs[j]? := by
  unfold rightPlace
  split
  · rw [List.getElem?_append_right (by omega), Nat.add_sub_cancel_left]
  · rename_i hge
    have hlength : (as ++ bs).length = as.length + bs.length := List.length_append
    rw [List.getElem?_eq_none (by omega), List.getElem?_eq_none (by omega)]

theorem exists_joined {a b ab : Snapshot} (h : ab.members = a.members ++ b.members) :
    ∃ φ ψ, Joined a b ab φ ψ := by
  refine ⟨leftPlace a.members.length b.members.length,
    rightPlace a.members.length b.members.length, h, ?_, leftPlace_injective _ _,
    rightPlace_injective _ _, ?_, ?_, leftPlace_ne_rightPlace _ _⟩
  · rw [zipIdx_leftPlace, zipIdx_rightPlace, h, List.zipIdx_append, Nat.zero_add]
  · intro i
    unfold member member?
    rw [h, getElem?_leftPlace]
  · intro j
    unfold member member?
    rw [h, getElem?_rightPlace]

theorem named_eq_nil {s : Snapshot} {kind : MemberKind} {name : String}
    (h : name ∉ s.members.map Member.name) : s.named kind name = [] := by
  rw [List.eq_nil_iff_forall_not_mem]
  intro id hid
  obtain ⟨hlt, -, hname⟩ := mem_named_iff_member.1 hid
  exact h (List.mem_map.2 ⟨_, member_mem hlt, hname⟩)

namespace Joined

variable {a b ab : Snapshot} {φ ψ : Nat → Nat} {kind : MemberKind} {name : String}

theorem ofKind_eq (h : Joined a b ab φ ψ) (kind : MemberKind) :
    ab.ofKind kind =
      (a.ofKind kind).map (Prod.map id φ) ++ (b.ofKind kind).map (Prod.map id ψ) := by
  unfold ofKind
  rw [h.zipIdx_eq, List.filter_append, List.filter_map, List.filter_map]
  rfl

theorem named_eq (h : Joined a b ab φ ψ) (kind : MemberKind) (name : String) :
    ab.named kind name = (a.named kind name).map φ ++ (b.named kind name).map ψ := by
  unfold named
  rw [h.zipIdx_eq, List.filter_append, List.filter_map, List.filter_map, List.map_append,
    List.map_map, List.map_map, List.map_map, List.map_map]
  rfl

theorem named_left_eq (h : Joined a b ab φ ψ) (hname : name ∉ b.members.map Member.name) :
    ab.named kind name = (a.named kind name).map φ := by
  rw [h.named_eq, named_eq_nil hname, List.map_nil, List.append_nil]

theorem named_right_eq (h : Joined a b ab φ ψ) (hname : name ∉ a.members.map Member.name) :
    ab.named kind name = (b.named kind name).map ψ := by
  rw [h.named_eq, named_eq_nil hname, List.map_nil, List.nil_append]

end Joined
end Snapshot
end MemberBinding
