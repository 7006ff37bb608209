import Mathlib.Data.List.Sort
import Mathlib.Data.Nat.Nth
import MemberBinding.Proofs.Snapshot.Designation

/-!
# Snapshots without some of their members

The members that stay keep their order, so each of them moves up by the number of members that are
gone before it. Of a kind of which no available member is gone, the available ones are the same.
Main statements: `thinned_without`, `pruned_insertMember`, `Thinned.available_ofKind_eq` and
`Thinned.named_map`.
-/

namespace MemberBinding.Snapshot

/-- The members at the positions that are not deleted. -/
def without (s : Snapshot) (deleted : Nat → Bool) : Snapshot :=
  { s with members := ((List.range s.members.length).filter (!deleted ·)).map s.member }

/-- With `m` behind the first `n` members. -/
def insertMember (s : Snapshot) (n : Nat) (m : Member) : Snapshot :=
  { s with members := s.members.take n ++ m :: s.members.drop n }

/-- Where a kept member goes when the deleted ones are gone. -/
def placeWithout (deleted : Nat → Bool) : Nat → Nat := Nat.count fun id => deleted id = false

/-- Where a member goes when another one comes to stand behind the first `n`. -/
def placeAround (n id : Nat) : Nat := if id < n then id else id + 1

/-- The part is the whole without the deleted members. The member at a position of the part stands
at the position that `φ` gives in the whole. -/
structure Thinned (part whole : Snapshot) (deleted : Nat → Bool) (φ : Nat → Nat) : Prop where
  injective : Function.Injective φ
  member_eq : ∀ id, whole.member (φ id) = part.member id
  range_eq : (List.range whole.members.length).filter (!deleted ·) =
    (List.range part.members.length).map φ

/-- The deleted members are all excluded. -/
structure Pruned (part whole : Snapshot) (deleted : Nat → Bool) (φ : Nat → Nat) : Prop
    extends Thinned part whole deleted φ where
  excluded : ∀ id, deleted id = true → (whole.member id).isExcluded = true

theorem map_member_range (s : Snapshot) :
    (List.range s.members.length).map s.member = s.members := by
  apply List.ext_getElem
  · simp
  · intro id hid hlt
    simp [member, member?, hlt]

theorem zipIdx_eq_map_range (s : Snapshot) :
    s.members.zipIdx = (List.range s.members.length).map fun id => (s.member id, id) := by
  apply List.ext_getElem
  · simp
  · intro id hid hlt
    have hlt' : id < s.members.length := by simpa using hid
    simp [member, member?, hlt']

/-! ## Members taken out -/

section

variable {deleted : Nat → Bool}

/-- The members that are kept are the first ones, the second ones and so on of those kept. -/
theorem filter_range_eq_map_nth (deleted : Nat → Bool) (n : Nat) :
    (List.range n).filter (!deleted ·) =
      (List.range (placeWithout deleted n)).map (Nat.nth fun id => deleted id = false) := by
  induction n with
  | zero => rfl
  | succ n ih =>
    rw [List.range_succ, List.filter_append, ih, placeWithout, Nat.count_succ]
    cases hn : deleted n with
    | true => simp [hn]
    | false =>
      have hnth := Nat.nth_count (p := fun id => deleted id = false) hn
      simp [hn, List.range_succ, hnth]

/-- Only positions of members can be excluded. -/
theorem lt_length_of_isExcluded {s : Snapshot} {id : Nat} (h : (s.member id).isExcluded = true) :
    id < s.members.length := by
  by_contra hge
  rw [member_of_length_le (Nat.le_of_not_lt hge)] at h
  cases h

theorem infinite_kept {s : Snapshot} (h : ∀ id, deleted id = true → id < s.members.length) :
    (Set.ofPred fun id => deleted id = false).Infinite := by
  apply Set.infinite_of_injective_forall_mem (add_right_injective s.members.length)
  intro n
  have hnot : ¬deleted (s.members.length + n) = true := by
    intro hdeleted
    have hlt := h _ hdeleted
    omega
  simpa using hnot

theorem thinned_without {s : Snapshot} (h : ∀ id, deleted id = true → id < s.members.length) :
    (s.without deleted).Thinned s deleted (Nat.nth fun id => deleted id = false) where
  injective := Nat.nth_injective (infinite_kept h)
  range_eq := by simp [without, filter_range_eq_map_nth]
  member_eq id := by
    by_cases hid : id < placeWithout deleted s.members.length
    · simp [member, member?, without, filter_range_eq_map_nth, hid]
    · -- Behind the last member that is kept there is none on either side.
      have hge := (Nat.count_le_iff_le_nth (infinite_kept h)).1 (Nat.le_of_not_lt hid)
      simp [member, member?, without, filter_range_eq_map_nth, hid, hge]

theorem pruned_without {s : Snapshot}
    (h : ∀ id, deleted id = true → (s.member id).isExcluded = true) :
    (s.without deleted).Pruned s deleted (Nat.nth fun id => deleted id = false) where
  toThinned := thinned_without fun id hid => lt_length_of_isExcluded (h id hid)
  excluded := h

theorem placeWithout_nth {s : Snapshot}
    (h : ∀ id, deleted id = true → (s.member id).isExcluded = true) (id : Nat) :
    placeWithout deleted (Nat.nth (fun id => deleted id = false) id) = id :=
  Nat.count_nth_of_infinite (infinite_kept fun id hid => lt_length_of_isExcluded (h id hid)) id

end

/-! ## A member put in -/

theorem placeAround_injective (n : Nat) : Function.Injective (placeAround n) := by
  intro i j hij
  unfold placeAround at hij
  split at hij <;> split at hij <;> omega

theorem member_insertMember {s : Snapshot} {n : Nat} (hn : n ≤ s.members.length) (m : Member)
    (id : Nat) : (s.insertMember n m).member (placeAround n id) = s.member id := by
  have hlength : (s.members.take n).length = n := List.length_take_of_le hn
  unfold member member? insertMember placeAround
  split
  · rename_i hlt
    rw [List.getElem?_append_left (by omega), List.getElem?_take_of_lt hlt]
  · rename_i hge
    rw [List.getElem?_append_right (by omega), hlength, Nat.sub_add_comm (Nat.le_of_not_lt hge),
      List.getElem?_cons_succ, List.getElem?_drop, Nat.add_sub_cancel' (Nat.le_of_not_lt hge)]

theorem member_insertMember_self {s : Snapshot} {n : Nat} (hn : n ≤ s.members.length) (m : Member) :
    (s.insertMember n m).member n = m := by
  have hlength : (s.members.take n).length = n := List.length_take_of_le hn
  unfold member member? insertMember
  rw [List.getElem?_append_right (by omega), hlength, Nat.sub_self]
  rfl

theorem pruned_insertMember {s : Snapshot} {n : Nat} (hn : n ≤ s.members.length) {m : Member}
    (hm : m.isExcluded = true) : s.Pruned (s.insertMember n m) (· == n) (placeAround n) where
  injective := placeAround_injective n
  member_eq := member_insertMember hn m
  excluded id hid := by
    obtain rfl := beq_iff_eq.1 hid
    rwa [member_insertMember_self hn]
  range_eq := by
    have hlength : (s.insertMember n m).members.length = s.members.length + 1 := by
      simp only [insertMember, List.length_append, List.length_take, List.length_cons,
        List.length_drop]
      omega
    have hmono : ∀ i j, i < j → placeAround n i < placeAround n j := by
      intro i j hij
      unfold placeAround
      split <;> split <;> omega
    rw [hlength]
    apply (List.pairwise_lt_range.filter _).eq_of_mem_iff (List.pairwise_lt_range.map _ hmono)
    intro id
    simp only [List.mem_filter, List.mem_range, List.mem_map, Bool.not_eq_true',
      beq_eq_false_iff_ne]
    constructor
    · intro h
      by_cases hlt : id < n
      · exact ⟨id, by omega, if_pos hlt⟩
      · refine ⟨id - 1, by omega, ?_⟩
        rw [placeAround, if_neg (by omega)]
        omega
    · intro h
      obtain ⟨j, hj, rfl⟩ := h
      unfold placeAround
      split <;> omega

/-! ## What is left -/

theorem Pruned.not_available {part whole : Snapshot} {deleted : Nat → Bool} {φ : Nat → Nat}
    (h : part.Pruned whole deleted φ) {kind : MemberKind} {id : Nat} (hid : deleted id = true) :
    ¬whole.Available kind id := by
  intro havailable
  have hexcluded := h.excluded id hid
  rw [havailable.not_excluded] at hexcluded
  cases hexcluded

namespace Thinned

variable {part whole : Snapshot} {deleted : Nat → Bool} {φ : Nat → Nat} {kind : MemberKind}

theorem zipIdx_eq (h : part.Thinned whole deleted φ) :
    whole.members.zipIdx.filter (fun e => !deleted e.2) =
      part.members.zipIdx.map (Prod.map id φ) := by
  rw [zipIdx_eq_map_range, zipIdx_eq_map_range, List.filter_map, List.map_map]
  change ((List.range _).filter (!deleted ·)).map _ = _
  rw [h.range_eq, List.map_map]
  apply List.map_congr_left
  intro id _
  simp [h.member_eq]

/-- A choice that takes no deleted member takes the same ones from the part. -/
theorem filter_zipIdx (h : part.Thinned whole deleted φ) {q : Member × Nat → Bool}
    (hq : ∀ e ∈ whole.members.zipIdx, q e = true → deleted e.2 = false) :
    whole.members.zipIdx.filter q =
      (part.members.zipIdx.filter (q ∘ Prod.map id φ)).map (Prod.map id φ) := by
  rw [← List.filter_map, ← h.zipIdx_eq, List.filter_filter]
  apply List.filter_congr
  intro e he
  cases hqe : q e with
  | false => rfl
  | true => simp [hq e he hqe]

theorem available_ofKind_eq (h : part.Thinned whole deleted φ)
    (hkind : ∀ id, deleted id = true → ¬whole.Available kind id) :
    (whole.ofKind kind).filter (fun e => !e.1.isExcluded) =
      ((part.ofKind kind).filter fun e => !e.1.isExcluded).map (Prod.map id φ) := by
  unfold ofKind
  rw [List.filter_filter, List.filter_filter, h.filter_zipIdx]
  · rfl
  · intro e he hq
    obtain ⟨m, id⟩ := e
    obtain ⟨hlt, rfl⟩ := member?_eq_some_iff_member.1 (member?_eq_some_iff.2 he)
    have havailable : whole.Available kind id := by
      have hq' := Bool.and_eq_true_iff.1 hq
      exact ⟨hlt, by simpa using hq'.2, by simpa using hq'.1⟩
    exact Bool.eq_false_of_not_eq_true fun hdeleted => hkind id hdeleted havailable

/-- What has a name in the part is what has it in the whole and is kept. -/
theorem named_map (h : part.Thinned whole deleted φ) (kind : MemberKind) (name : String) :
    (part.named kind name).map φ = (whole.named kind name).filter (!deleted ·) := by
  have hkept : (whole.members.zipIdx.filter fun e => e.1.kind == kind && e.1.name == name).filter
      (fun e => !deleted e.2) =
      (part.members.zipIdx.filter fun e => e.1.kind == kind && e.1.name == name).map
        (Prod.map id φ) := by
    rw [List.filter_comm, h.zipIdx_eq, List.filter_map]
    rfl
  unfold named
  rw [List.filter_map]
  change _ = (List.filter (fun e : Member × Nat => !deleted e.2) _).map _
  rw [hkept, List.map_map, List.map_map]
  rfl

theorem available_named_eq (h : part.Thinned whole deleted φ)
    (hkind : ∀ id, deleted id = true → ¬whole.Available kind id) (name : String) :
    (whole.named kind name).filter (fun id => !(whole.member id).isExcluded) =
      ((part.named kind name).filter fun id => !(part.member id).isExcluded).map φ := by
  have htest : (fun id => !(whole.member id).isExcluded) ∘ φ =
      fun id => !(part.member id).isExcluded := by
    funext id
    rw [Function.comp_apply, h.member_eq]
  rw [← htest, ← List.filter_map, h.named_map, List.filter_filter]
  apply List.filter_congr
  intro id hid
  obtain ⟨hlt, hk, -⟩ := mem_named_iff_member.1 hid
  cases hexcluded : (whole.member id).isExcluded with
  | false =>
    have hkept : deleted id = false :=
      Bool.eq_false_of_not_eq_true fun hdeleted => hkind id hdeleted ⟨hlt, hk, hexcluded⟩
    simp [hkept]
  | true => rfl

theorem available (h : part.Thinned whole deleted φ) {id : Nat} (hid : part.Available kind id) :
    whole.Available kind (φ id) where
  kind_eq := h.member_eq id ▸ hid.kind_eq
  not_excluded := h.member_eq id ▸ hid.not_excluded
  lt := by
    have hmem : φ id ∈ (List.range part.members.length).map φ :=
      List.mem_map_of_mem (List.mem_range.2 hid.lt)
    rw [← h.range_eq, List.mem_filter] at hmem
    exact List.mem_range.1 hmem.1

/-- Deleted members that give nothing are not missed. -/
theorem flatMap_members_eq {α : Type} (h : part.Thinned whole deleted φ) {f : Member → List α}
    (hf : ∀ id, deleted id = true → f (whole.member id) = []) :
    whole.members.flatMap f = part.members.flatMap f := by
  have hmembers (s : Snapshot) : s.members.flatMap f =
      (List.range s.members.length).flatMap (f ∘ s.member) := by
    conv_lhs => rw [← s.map_member_range, List.flatMap_map]
    rfl
  have hkept (ids : List Nat) : ids.flatMap (f ∘ whole.member) =
      (ids.filter (!deleted ·)).flatMap (f ∘ whole.member) := by
    induction ids with
    | nil => rfl
    | cons id ids ih =>
      cases hid : deleted id with
      | true => simp [hid, hf id hid, ih]
      | false => simp [hid, ih]
  rw [hmembers, hmembers, hkept, h.range_eq, List.flatMap_map]
  exact List.flatMap_congr fun id _ => congrArg f (h.member_eq id)

end Thinned

/-- The new member stands for no name but its own. -/
theorem named_insertMember {s : Snapshot} {n : Nat} (hn : n ≤ s.members.length) {m : Member}
    (hm : m.isExcluded = true) {name : String} (hname : m.name ≠ name) (kind : MemberKind) :
    (s.insertMember n m).named kind name = (s.named kind name).map (placeAround n) := by
  rw [(pruned_insertMember hn hm).named_map, eq_comm, List.filter_eq_self]
  intro id hid
  obtain ⟨-, -, rfl⟩ := mem_named_iff_member.1 hid
  have hne : id ≠ n := by
    rintro rfl
    exact hname (congrArg Member.name (member_insertMember_self hn m)).symm
  simpa using hne

end MemberBinding.Snapshot
