import Mathlib.Data.Multiset.Bind
import MemberBinding.Proofs.Resolution.Candidates

/-!
# Groups up to the order of their candidates

Filling, splitting and completing a group asks which candidates it has, and not in which order.
Main statements: `Similar.addAll`, `Similar.explode` and `Similar.attach`.
-/

namespace MemberBinding.Group

/-- The same candidates for every role, each of them once. -/
structure Similar (g g' : Group) : Prop where
  anchor_eq : g'.anchor = g.anchor
  length_eq : g'.roles.length = g.roles.length
  nodup : ∀ role, (g.candidates role).Nodup
  perm : ∀ role, (g'.candidates role).Perm (g.candidates role)

theorem mem_carried_iff {g : Group} {role : Nat} {links : List ReverseLink} {id : Nat} :
    id ∈ (links.filterMap (g.carried role)).map (·.2) ↔ ∃ r ∈ links, r.source = g.anchor ∧
      r.owner ∈ g.candidates role ∧ r.companion.map (·.2) = some id := by
  simp only [List.mem_map, List.mem_filterMap, carried]
  constructor
  · rintro ⟨e, ⟨r, hr, he⟩, rfl⟩
    split at he
    · rename_i hc
      rw [Bool.and_eq_true, beq_iff_eq, List.contains_iff_mem] at hc
      exact ⟨r, hr, hc.1, hc.2, by rw [he]; rfl⟩
    · cases he
  · rintro ⟨r, hr, hsource, howner, hcompanion⟩
    obtain ⟨e, he, rfl⟩ := Option.map_eq_some_iff.1 hcompanion
    exact ⟨e, ⟨r, hr, by simp [hsource, howner, he]⟩, rfl⟩

namespace Similar

variable {g g' : Group} {role : Nat}

theorem symm (h : g.Similar g') : g'.Similar g where
  anchor_eq := h.anchor_eq.symm
  length_eq := h.length_eq.symm
  nodup r := (h.perm r).nodup_iff.2 (h.nodup r)
  perm r := (h.perm r).symm

theorem seed (anchor roleCount : Nat) :
    (seed anchor roleCount).Similar (.seed anchor roleCount) where
  anchor_eq := rfl
  length_eq := rfl
  nodup r := by simp
  perm r := .refl _

theorem mem_candidates_iff (h : g.Similar g') {id : Nat} :
    id ∈ g'.candidates role ↔ id ∈ g.candidates role :=
  (h.perm role).mem_iff

theorem single?_eq (h : g.Similar g') (role : Nat) : g'.single? role = g.single? role := by
  apply Option.ext
  intro c
  rw [single?_eq_some_iff, single?_eq_some_iff, ← List.perm_singleton, ← List.perm_singleton]
  exact ⟨(h.perm role).symm.trans, (h.perm role).trans⟩

theorem sourceOf_eq (h : g.Similar g') (spec : RoleSpec) : g'.sourceOf spec = g.sourceOf spec := by
  unfold sourceOf
  cases spec.origin with
  | anchor => exact congrArg some h.anchor_eq
  | role i => exact h.single?_eq i

theorem addAll (h : g.Similar g') (role : Nat) {cs cs' : List Nat}
    (hcs : ∀ id, id ∈ cs' ↔ id ∈ cs) : (g.addAll role cs).Similar (g'.addAll role cs') where
  anchor_eq := by rw [anchor_addAll, anchor_addAll, h.anchor_eq]
  length_eq := by rw [length_addAll, length_addAll, h.length_eq]
  nodup r := by
    rw [candidates_addAll]
    split
    · exact nodup_insertAll (h.nodup r) cs
    · exact h.nodup r
  perm r := by
    rw [candidates_addAll, candidates_addAll, h.length_eq]
    split
    · rw [List.perm_ext_iff_of_nodup (nodup_insertAll (h.symm.nodup r) cs')
        (nodup_insertAll (h.nodup r) cs)]
      intro id
      rw [mem_insertAll, mem_insertAll, h.mem_candidates_iff, hcs]
    · exact h.perm r

theorem choose (h : g.Similar g') (role c : Nat) :
    (g.choose role c).Similar (g'.choose role c) where
  anchor_eq := h.anchor_eq
  length_eq := by simp [Group.choose, h.length_eq]
  nodup r := by
    rw [candidates_choose]
    split
    · exact List.nodup_singleton c
    · exact h.nodup r
  perm r := by
    rw [candidates_choose, candidates_choose, h.length_eq]
    split
    · exact .refl _
    · exact h.perm r

/-- One group per candidate, whatever their order. -/
theorem explode (h : g.Similar g') (role : Nat) :
    Multiset.Rel Similar (g.explode role : Multiset Group) (g'.explode role : Multiset Group) := by
  unfold Group.explode
  rw [(h.perm role).length_eq]
  split
  · exact .cons h .zero
  · have hcs : ((g'.candidates role : List Nat) : Multiset Nat) = g.candidates role :=
      Multiset.coe_eq_coe.2 (h.perm role)
    rw [← Multiset.map_coe, ← Multiset.map_coe, hcs, Multiset.rel_map]
    exact Multiset.rel_refl_of_refl_on fun c _ => h.choose role c

/-- Companions for one other role are the same as soon as the links that carry them are. -/
theorem attach (h : g.Similar g') {other : Nat} (hne : other ≠ role)
    {links links' : List ReverseLink}
    (hlinks : ∀ r ∈ links, ∀ e, r.companion = some e → e.1 = other)
    (hlinks' : ∀ r ∈ links', ∀ e, r.companion = some e → e.1 = other)
    (hcarry : ∀ r : ReverseLink, r.companion ≠ none → (r ∈ links' ↔ r ∈ links)) :
    (g.attach role links).Similar (g'.attach role links') := by
  rw [attach_eq_addAll hne hlinks, attach_eq_addAll hne hlinks']
  apply h.addAll
  intro id
  rw [mem_carried_iff, mem_carried_iff, h.anchor_eq]
  simp only [h.mem_candidates_iff]
  refine exists_congr fun r => and_congr_left fun hr => hcarry r ?_
  rintro hnone
  rw [hnone] at hr
  cases hr.2.2

end Similar
end MemberBinding.Group
