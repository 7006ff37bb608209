import Mathlib.Logic.Equiv.Defs
import MemberBinding.Proofs.Reports.Passes

/-!
# Snapshots that differ in the order of their members

A reordering moves positions and keeps the members at them, so whatever is read off the members
moves along. For each relation on positions a lemma says so in one direction; the other follows by
`symm`.
-/

namespace MemberBinding

/-- A permutation of the positions after the first. -/
def shiftPerm (σ : Equiv.Perm Nat) : Equiv.Perm Nat where
  toFun
    | 0 => 0
    | i + 1 => σ i + 1
  invFun
    | 0 => 0
    | i + 1 => σ.symm i + 1
  left_inv i := by cases i <;> simp
  right_inv i := by cases i <;> simp

/-- The exchange of the first two positions. -/
def exchangePerm : Equiv.Perm Nat where
  toFun
    | 0 => 1
    | 1 => 0
    | i + 2 => i + 2
  invFun
    | 0 => 1
    | 1 => 0
    | i + 2 => i + 2
  left_inv
    | 0 => rfl
    | 1 => rfl
    | _ + 2 => rfl
  right_inv
    | 0 => rfl
    | 1 => rfl
    | _ + 2 => rfl

theorem exists_getElem?_perm {α : Type} {l l' : List α} (h : l.Perm l') :
    ∃ σ : Equiv.Perm Nat, ∀ i, l'[σ i]? = l[i]? := by
  induction h with
  | nil => exact ⟨Equiv.refl Nat, fun _ => rfl⟩
  | cons a _ ih =>
    obtain ⟨σ, hσ⟩ := ih
    refine ⟨shiftPerm σ, ?_⟩
    intro i
    cases i with
    | zero => rfl
    | succ i => exact hσ i
  | swap a b l =>
    refine ⟨exchangePerm, ?_⟩
    intro i
    match i with
    | 0 => rfl
    | 1 => rfl
    | i + 2 => rfl
  | trans _ _ ih₁ ih₂ =>
    obtain ⟨σ, hσ⟩ := ih₁
    obtain ⟨τ, hτ⟩ := ih₂
    exact ⟨σ.trans τ, fun i => (hτ (σ i)).trans (hσ i)⟩

/-- Lists without repeats that a permutation of their entries ties to each other give the same
results in another order. -/
theorem map_perm_map {α β : Type} (e : Equiv.Perm α) {l l' : List α} (h : l.Nodup)
    (h' : l'.Nodup) (hmem : ∀ a, e a ∈ l' ↔ a ∈ l) {f f' : α → β} (hf : ∀ a, f' (e a) = f a) :
    (l.map f).Perm (l'.map f') := by
  have hnodup : (l.map e).Nodup := List.Pairwise.map e (fun _ _ hne h => hne (e.injective h)) h
  have hperm : (l.map e).Perm l' := by
    rw [List.perm_ext_iff_of_nodup hnodup h']
    intro b
    obtain ⟨a, rfl⟩ := e.surjective b
    rw [hmem, List.mem_map]
    constructor
    · intro hb
      obtain ⟨c, hc, heq⟩ := hb
      exact e.injective heq ▸ hc
    · intro ha
      exact ⟨a, ha, rfl⟩
  have hresults := hperm.map f'
  rw [List.map_map] at hresults
  rwa [← List.map_congr_left fun a _ => hf a]

namespace Snapshot

/-- The member at a position of `s` is at the position that `σ` gives in `s'`. -/
structure Reordering (s s' : Snapshot) (σ : Equiv.Perm Nat) : Prop where
  member?_eq : ∀ id, s'.member? (σ id) = s.member? id

theorem exists_reordering {s s' : Snapshot} (h : s.members.Perm s'.members) :
    ∃ σ, Reordering s s' σ := by
  obtain ⟨σ, hσ⟩ := exists_getElem?_perm h
  exact ⟨σ, ⟨hσ⟩⟩

namespace Reordering

variable {s s' : Snapshot} {σ : Equiv.Perm Nat}

theorem symm (r : Reordering s s' σ) : Reordering s' s σ.symm where
  member?_eq id := by rw [← r.member?_eq, Equiv.apply_symm_apply]

@[simp] theorem member_eq (r : Reordering s s' σ) (id : Nat) : s'.member (σ id) = s.member id := by
  rw [member, member, r.member?_eq]

theorem lt_iff (r : Reordering s s' σ) {id : Nat} :
    σ id < s'.members.length ↔ id < s.members.length := by
  have h : s'.member? (σ id) = none ↔ s.member? id = none := by rw [r.member?_eq]
  rw [member?, member?, List.getElem?_eq_none_iff, List.getElem?_eq_none_iff] at h
  omega

section

variable {kind : MemberKind} {label name : String} {site : LinkSite} {v : Violation} {id : Nat}

theorem available (r : Reordering s s' σ) (h : s.Available kind id) :
    s'.Available kind (σ id) where
  lt := r.lt_iff.2 h.lt
  kind_eq := by rw [r.member_eq, h.kind_eq]
  not_excluded := by rw [r.member_eq, h.not_excluded]

theorem bears (r : Reordering s s' σ) (h : s.Bears kind name id) : s'.Bears kind name (σ id) where
  lt := r.lt_iff.2 h.lt
  kind_eq := by rw [r.member_eq, h.kind_eq]
  name_eq := by rw [r.member_eq, h.name_eq]

theorem bears_iff (r : Reordering s s' σ) : s'.Bears kind name (σ id) ↔ s.Bears kind name id :=
  ⟨fun h => by simpa using r.symm.bears h, r.bears⟩

theorem designates (r : Reordering s s' σ) (h : s.Designates kind name id) :
    s'.Designates kind name (σ id) where
  toAvailable := r.available h.toAvailable
  name_eq := by rw [r.member_eq, h.name_eq]
  unique := by
    intro j hlt hkind hname
    obtain ⟨i, rfl⟩ := σ.surjective j
    rw [r.member_eq] at hkind hname
    exact congrArg σ (h.unique i (r.lt_iff.1 hlt) hkind hname)

theorem pointsAt {ownerKind : MemberKind} {link : LinkKind} {owner target : Nat}
    (r : Reordering s s' σ) (h : s.PointsAt ownerKind link kind owner target) :
    s'.PointsAt ownerKind link kind (σ owner) (σ target) := by
  obtain ⟨ha, l, hl, hd, hnames⟩ := h
  refine ⟨r.available ha, l, by rwa [r.member_eq], r.designates hd, ?_⟩
  intro name hname
  obtain ⟨id, hid⟩ := hnames name hname
  exact ⟨σ id, r.designates hid⟩

theorem matchesName {conventions : Conventions} {given sought : Role} {source : Nat}
    (r : Reordering s s' σ) (h : s.MatchesName conventions given sought kind source id) :
    s'.MatchesName conventions given sought kind (σ source) (σ id) := by
  refine ⟨r.available h.1, ?_⟩
  rw [r.member_eq, r.member_eq]
  exact h.2

theorem undesignated (r : Reordering s s' σ) (h : s.Undesignated kind label name site v) :
    s'.Undesignated kind label name site v := by
  cases h with
  | notFound none =>
    refine .notFound ?_
    intro j hj
    obtain ⟨i, rfl⟩ := σ.surjective j
    exact none i (r.bears_iff.1 hj)
  | ambiguous ne first second =>
    exact .ambiguous (fun h => ne (σ.injective h)) (r.bears first) (r.bears second)
  | excluded bears unique excluded =>
    refine .excluded (r.bears bears) ?_ (by rwa [r.member_eq])
    intro j hj
    obtain ⟨i, rfl⟩ := σ.surjective j
    exact congrArg σ (unique i (r.bears_iff.1 hj))

theorem markClash {kinds : List MemberKind} {links : List LinkKind} (r : Reordering s s' σ)
    (h : s.MarkClash kinds links v) : s'.MarkClash kinds links v := by
  cases h with
  | included lt kind excluded included =>
    rw [← r.member_eq] at kind excluded included ⊢
    exact .included (r.lt_iff.2 lt) kind excluded included
  | linked lt kind excluded carried link =>
    rw [← r.member_eq] at kind excluded carried ⊢
    exact .linked (r.lt_iff.2 lt) kind excluded carried link

end

variable {C C' : Nat → Prop}

theorem sole (hC : ∀ id, C' (σ id) ↔ C id) {id : Nat} (h : Sole C id) : Sole C' (σ id) where
  candidate := (hC id).2 h.candidate
  unique := by
    intro j hj
    obtain ⟨i, rfl⟩ := σ.surjective j
    exact congrArg σ (h.unique i ((hC i).1 hj))

theorem several (r : Reordering s s' σ) (hC : ∀ id, C' (σ id) ↔ C id) {names : List String}
    (h : s.Several C names) : s'.Several C' names := by
  obtain ⟨ids, hnodup, hmem, hlen, rfl⟩ := h
  refine ⟨ids.map σ, ?_, ?_, by rwa [List.length_map], ?_⟩
  · exact List.Pairwise.map σ (fun _ _ hne h => hne (σ.injective h)) hnodup
  · intro j
    obtain ⟨i, rfl⟩ := σ.surjective j
    rw [hC, ← hmem, List.mem_map]
    constructor
    · intro h
      obtain ⟨k, hk, heq⟩ := h
      exact σ.injective heq ▸ hk
    · intro h
      exact ⟨i, h, rfl⟩
  · rw [List.map_map]
    exact List.map_congr_left fun id _ => by rw [Function.comp_apply, r.member_eq]

end Reordering
end Snapshot
end MemberBinding
