import Mathlib.Data.Multiset.Bind
import MemberBinding.Proofs.Lists.FirstOccurrences
import MemberBinding.Proofs.Resolution.Candidates

/-!
# Groups under addition and explosion

However a group came about, no role lists a candidate twice, an addition appends to one role at
most, and an explosion deals the candidates of one role out to groups that differ in nothing else.
Main statement: `Group.lossless_of_reachable`.
-/

namespace MemberBinding.Group

/-- Made from an empty group by adding candidates and by exploding, for roles that it has. -/
inductive Reachable : Group → Prop
  | seed (anchor roleCount : Nat) : Reachable (.seed anchor roleCount)
  | add {g role} (reachable : Reachable g) (hasRole : g.hasRole role = true) (c : Nat) :
      Reachable (g.add role c)
  | explode {g part role} (reachable : Reachable g) (hasRole : g.hasRole role = true)
      (mem : part ∈ g.explode role) : Reachable part

/-- The groups differ in the candidates of one role at most. -/
structure SameBut (g g' : Group) (role : Nat) : Prop where
  anchor_eq : g'.anchor = g.anchor
  length_eq : g'.roles.length = g.roles.length
  candidates_eq : ∀ other, other ≠ role → g'.candidates other = g.candidates other

/-- No role lists a candidate twice. -/
def NoRepeats (g : Group) : Prop := ∀ role, (g.candidates role).Nodup

/-- The parts share out the candidates of a role, in order, and agree in everything else. -/
structure Splits (g : Group) (role : Nat) (parts : List Group) : Prop where
  nodup : parts.Nodup
  sameBut : ∀ part ∈ parts, g.SameBut part role
  length_le_one : ∀ part ∈ parts, (part.candidates role).length ≤ 1
  flatMap_candidates : parts.flatMap (·.candidates role) = g.candidates role
  explode_eq : ∀ part ∈ parts, part.explode role = [part]

/-- The group with all the candidates, each for its role. -/
def addEach (g : Group) (entries : List (Nat × Nat)) : Group :=
  entries.foldl (fun g e => g.add e.1 e.2) g

variable {g g' : Group} {role other c : Nat}

/-! ## Additions -/

theorem candidates_add (g : Group) (role other c : Nat) :
    (g.add role c).candidates other =
      if role = other ∧ role < g.roles.length then insertNew (g.candidates other) c
      else g.candidates other :=
  g.candidates_addAll role other [c]

theorem insertNew_eq_appendNew (cs : List Nat) (c : Nat) : insertNew cs c = appendNew id cs c := by
  simp [insertNew, appendNew]

theorem insertAll_eq_eraseDups {cs : List Nat} (h : cs.Nodup) (found : List Nat) :
    insertAll cs found = (cs ++ found).eraseDups := by
  have hcs : cs.foldl (appendNew id) [] = cs := by
    rw [foldl_appendNew_of_nodup (by simpa using h), List.nil_append]
  have hgrow : insertAll cs found = (cs ++ found).foldl (appendNew id) [] := by
    rw [List.foldl_append, hcs, insertAll]
    congr 1
    funext xs x
    exact insertNew_eq_appendNew xs x
  rw [hgrow, foldl_appendNew_nil]
  rfl

theorem sameBut_add (g : Group) (role c : Nat) : g.SameBut (g.add role c) role where
  anchor_eq := rfl
  length_eq := g.length_addAll role [c]
  candidates_eq _ hne := candidates_add_of_ne c hne

theorem hasRole_add (g : Group) (role c other : Nat) :
    (g.add role c).hasRole other = g.hasRole other := by
  rw [hasRole, hasRole, (g.sameBut_add role c).length_eq]

theorem insertNew_insertNew (cs : List Nat) (c : Nat) :
    insertNew (insertNew cs c) c = insertNew cs c := by
  have hmem : c ∈ insertNew cs c := mem_insertNew.2 (.inr rfl)
  rw [insertNew, if_pos (List.contains_iff_mem.2 hmem)]

theorem add_add_self (g : Group) (role c : Nat) : (g.add role c).add role c = g.add role c := by
  simp only [add, List.modify_modify_eq, Function.comp_def, insertNew_insertNew]

/-- A role gets the candidates that are added to it, and no others. -/
theorem candidates_addEach {entries : List (Nat × Nat)} (h : ∀ e ∈ entries, g.hasRole e.1 = true)
    (role : Nat) : (g.addEach entries).candidates role =
      insertAll (g.candidates role) ((entries.filter fun e => e.1 == role).map (·.2)) := by
  induction entries generalizing g with
  | nil => rfl
  | cons e entries ih =>
    obtain ⟨target, c⟩ := e
    have htarget : g.hasRole target = true := h (target, c) List.mem_cons_self
    have hrest : ∀ e ∈ entries, (g.add target c).hasRole e.1 = true := by
      intro e he
      rw [hasRole_add]
      exact h e (List.mem_cons_of_mem _ he)
    rw [addEach, List.foldl_cons]
    refine (ih hrest).trans ?_
    by_cases hrole : target = role
    · subst hrole
      rw [candidates_add_self c htarget]
      simp
    · rw [candidates_add_of_ne c (Ne.symm hrole)]
      simp [hrole]

/-! ## Explosions -/

theorem explode_of_length_le_one (h : (g.candidates role).length ≤ 1) : g.explode role = [g] :=
  if_pos h

theorem explode_of_one_lt_length (h : 1 < (g.candidates role).length) :
    g.explode role = (g.candidates role).map (g.choose role) :=
  if_neg (Nat.not_le.2 h)

theorem hasRole_of_candidates_ne_nil (h : g.candidates role ≠ []) : g.hasRole role = true := by
  rw [hasRole, decide_eq_true_iff]
  apply Nat.lt_of_not_le
  intro hle
  exact h (by simp [candidates, List.getElem?_eq_none hle])

theorem sameBut_refl (g : Group) (role : Nat) : g.SameBut g role := ⟨rfl, rfl, fun _ _ => rfl⟩

theorem sameBut_choose (g : Group) (role c : Nat) : g.SameBut (g.choose role c) role where
  anchor_eq := rfl
  length_eq := List.length_set
  candidates_eq _ hne := candidates_choose_of_ne c hne

theorem sameBut_of_mem_explode (hpart : g' ∈ g.explode role) : g.SameBut g' role := by
  unfold explode at hpart
  split at hpart
  · exact List.mem_singleton.1 hpart ▸ g.sameBut_refl role
  · obtain ⟨c, -, rfl⟩ := List.mem_map.1 hpart
    exact g.sameBut_choose role c

theorem splits_singleton (h : (g.candidates role).length ≤ 1) : g.Splits role [g] where
  nodup := List.nodup_singleton g
  sameBut part hpart := List.mem_singleton.1 hpart ▸ g.sameBut_refl role
  length_le_one part hpart := List.mem_singleton.1 hpart ▸ h
  flatMap_candidates := by simp
  explode_eq part hpart := by
    rw [List.mem_singleton.1 hpart]
    exact explode_of_length_le_one h

theorem splits_choose (h : (g.candidates role).Nodup) (hrole : g.hasRole role = true) :
    g.Splits role ((g.candidates role).map (g.choose role)) := by
  have hchosen : ∀ c, (g.choose role c).candidates role = [c] :=
    fun c => candidates_choose_self c hrole
  refine ⟨?_, ?_, ?_, ?_, ?_⟩
  · refine h.map_on fun c _ d _ heq => ?_
    have hlists := congrArg (·.candidates role) heq
    simpa only [hchosen, List.cons.injEq, and_true] using hlists
  · intro part hpart
    obtain ⟨c, -, rfl⟩ := List.mem_map.1 hpart
    exact g.sameBut_choose role c
  · intro part hpart
    obtain ⟨c, -, rfl⟩ := List.mem_map.1 hpart
    exact (congrArg List.length (hchosen c)).le
  · simp only [List.flatMap_map, hchosen, List.flatMap_singleton']
  · intro part hpart
    obtain ⟨c, -, rfl⟩ := List.mem_map.1 hpart
    exact explode_of_length_le_one (congrArg List.length (hchosen c)).le

theorem splits_explode (h : (g.candidates role).Nodup) : g.Splits role (g.explode role) := by
  by_cases hone : (g.candidates role).length ≤ 1
  · rw [explode_of_length_le_one hone]
    exact splits_singleton hone
  · have hrole : g.hasRole role = true := by
      apply hasRole_of_candidates_ne_nil
      intro hnil
      simp [hnil] at hone
    rw [explode_of_one_lt_length (Nat.lt_of_not_le hone)]
    exact splits_choose h hrole

/-! ## No repeats -/

theorem noRepeats_seed (anchor roleCount : Nat) : (seed anchor roleCount).NoRepeats := by
  intro role
  rw [candidates_seed]
  exact List.nodup_nil

theorem NoRepeats.add (h : g.NoRepeats) (role c : Nat) : (g.add role c).NoRepeats := by
  intro other
  rw [candidates_add]
  split
  · exact nodup_insertNew (h other) c
  · exact h other

theorem NoRepeats.explode (h : g.NoRepeats) (hpart : g' ∈ g.explode role) : g'.NoRepeats := by
  have hsplits := splits_explode (h role)
  intro other
  by_cases hother : other = role
  · subst hother
    have hlength := hsplits.length_le_one g' hpart
    match g'.candidates other, hlength with
    | [], _ => exact List.nodup_nil
    | [c], _ => exact List.nodup_singleton c
  · rw [(hsplits.sameBut g' hpart).candidates_eq other hother]
    exact h other

theorem Reachable.noRepeats (h : g.Reachable) : g.NoRepeats := by
  induction h with
  | seed anchor roleCount => exact noRepeats_seed anchor roleCount
  | add _ _ c ih => exact ih.add _ c
  | explode _ _ hmem ih => exact ih.explode hmem

/-! ## Two explosions -/

theorem choose_comm (hne : role ≠ other) (c d : Nat) :
    (g.choose role c).choose other d = (g.choose other d).choose role c := by
  simp only [choose, List.set_comm [c] [d] hne]

/-- The other role is exploded as it would have been before. -/
theorem explode_choose (hne : role ≠ other) (c : Nat) :
    (g.choose role c).explode other = (g.explode other).map (·.choose role c) := by
  have hsame : (g.choose role c).candidates other = g.candidates other :=
    candidates_choose_of_ne c hne.symm
  by_cases hone : (g.candidates other).length ≤ 1
  · rw [explode_of_length_le_one hone, explode_of_length_le_one (hsame.symm ▸ hone),
      List.map_singleton]
  · have hmany := Nat.lt_of_not_le hone
    rw [explode_of_one_lt_length hmany, explode_of_one_lt_length (hsame.symm ▸ hmany), hsame,
      List.map_map]
    exact List.map_congr_left fun d _ => choose_comm hne c d

theorem flatMap_explode_perm (g : Group) (role other : Nat) :
    ((g.explode role).flatMap (·.explode other)).Perm
      ((g.explode other).flatMap (·.explode role)) := by
  by_cases heq : role = other
  · rw [heq]
  have hsame : ∀ part ∈ g.explode other, part.candidates role = g.candidates role :=
    fun part hpart => (sameBut_of_mem_explode hpart).candidates_eq role heq
  by_cases hone : (g.candidates role).length ≤ 1
  · have hparts : (g.explode other).flatMap (·.explode role) = g.explode other := by
      rw [List.flatMap_congr fun part hpart =>
        explode_of_length_le_one ((hsame part hpart).symm ▸ hone)]
      exact List.flatMap_singleton' _
    rw [hparts, explode_of_length_le_one hone, List.flatMap_singleton]
  · have hmany := Nat.lt_of_not_le hone
    have hparts : (g.explode other).flatMap (·.explode role) =
        (g.explode other).flatMap fun part => (g.candidates role).map (part.choose role) := by
      apply List.flatMap_congr
      intro part hpart
      rw [explode_of_one_lt_length ((hsame part hpart).symm ▸ hmany), hsame part hpart]
    rw [hparts, explode_of_one_lt_length hmany, List.flatMap_map]
    simp only [explode_choose heq]
    -- Every candidate meets every part, in whichever order they are gone through.
    rw [← Multiset.coe_eq_coe]
    simp only [← Multiset.coe_bind, ← Multiset.map_coe]
    exact Multiset.bind_map_comm _ _

/-! ## All together -/

/-- What additions and explosions leave of a group. -/
structure Lossless (g : Group) : Prop where
  nodup : ∀ role, (g.candidates role).Nodup
  /-- Candidates stand in the order in which they were first added. -/
  candidates_addEach : ∀ entries : List (Nat × Nat), (∀ e ∈ entries, g.hasRole e.1 = true) →
    ∀ role, (g.addEach entries).candidates role =
      (g.candidates role ++ (entries.filter fun e => e.1 == role).map (·.2)).eraseDups
  add_add : ∀ role, g.hasRole role = true → ∀ c, (g.add role c).add role c = g.add role c
  sameBut_add : ∀ role, g.hasRole role = true → ∀ c, g.SameBut (g.add role c) role
  splits : ∀ role, g.hasRole role = true → g.Splits role (g.explode role)

theorem Reachable.lossless (h : g.Reachable) : g.Lossless where
  nodup := h.noRepeats
  candidates_addEach entries hentries role := by
    rw [Group.candidates_addEach hentries, insertAll_eq_eraseDups (h.noRepeats role)]
  add_add role _ c := g.add_add_self role c
  sameBut_add role _ c := g.sameBut_add role c
  splits role _ := splits_explode (h.noRepeats role)

/-- No group that can be made loses or repeats a candidate, and it does not matter which of two
roles is exploded first. -/
theorem lossless_of_reachable {gs : List Group} (h : ∀ g ∈ gs, g.Reachable) :
    (∀ g ∈ gs, g.Lossless) ∧
      ∀ role other, (∀ g ∈ gs, g.hasRole role = true ∧ g.hasRole other = true) →
        ((gs.flatMap (·.explode role)).flatMap (·.explode other)).Perm
          ((gs.flatMap (·.explode other)).flatMap (·.explode role)) := by
  constructor
  · intro g hg
    exact (h g hg).lossless
  · intro role other _
    rw [List.flatMap_assoc, List.flatMap_assoc]
    apply List.Perm.flatMap_left
    intro g _
    exact g.flatMap_explode_perm role other

/-- Two methods and two properties for one anchor. -/
def paired : Group := (((seed 7 2).add 0 1).add 1 5).addEach [(0, 2), (1, 6), (0, 1)]

theorem reachable_paired : paired.Reachable :=
  .add (.add (.add (.add (.add (.seed 7 2) rfl 1) rfl 5) rfl 2) rfl 6) rfl 1

theorem lossless_of_reachable_paired :
    (∀ g ∈ [paired], g.Reachable) ∧ paired.Lossless ∧ paired.roles = [[1, 2], [5, 6]] ∧
      List.Perm [⟨7, [[1], [5]]⟩, ⟨7, [[1], [6]]⟩, ⟨7, [[2], [5]]⟩, ⟨7, [[2], [6]]⟩]
        ([⟨7, [[1], [5]]⟩, ⟨7, [[2], [5]]⟩, ⟨7, [[1], [6]]⟩, ⟨7, [[2], [6]]⟩] : List Group) := by
  have hpaired : ∀ g ∈ [paired], g.Reachable := by
    intro g hg
    exact List.mem_singleton.1 hg ▸ reachable_paired
  obtain ⟨hlossless, hperm⟩ := lossless_of_reachable hpaired
  have hroles : ∀ g ∈ [paired], g.hasRole 0 = true ∧ g.hasRole 1 = true := by decide
  exact ⟨hpaired, hlossless paired (List.mem_singleton_self _), rfl, hperm 0 1 hroles⟩

end MemberBinding.Group
