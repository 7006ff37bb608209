/-!
# Lists that grow by new entries only

Two entries are the same when their keys are. Adding entries one at a time, each unless it is there
already, leaves the first occurrence of every key. Main statement: `foldl_appendNew`.
-/

namespace MemberBinding

variable {α β : Type} [DecidableEq β]

/-- The list with one more entry at its end, unless it holds the key of that entry. -/
def appendNew (key : α → β) (xs : List α) (x : α) : List α :=
  if key x ∈ xs.map key then xs else xs ++ [x]

theorem foldl_appendNew (key : α → β) (xs ys : List α) :
    ys.foldl (appendNew key) xs =
      xs ++ (ys.filter fun y => key y ∉ xs.map key).eraseDupsBy fun x y => key x == key y := by
  induction ys generalizing xs with
  | nil => simp
  | cons y ys ih =>
    rw [List.foldl_cons, ih, appendNew]
    split
    · rename_i hold
      rw [List.filter_cons_of_neg (by simpa using hold)]
    · rename_i hnew
      have hrest : (ys.filter fun z => key z ∉ (xs ++ [y]).map key) =
          ys.filter fun z => (key z == key y) = false ∧ key z ∉ xs.map key := by
        apply List.filter_congr
        intro z _
        rw [decide_eq_decide, List.map_append, List.map_singleton, List.mem_append,
          List.mem_singleton, not_or, and_comm, beq_eq_false_iff_ne]
      rw [List.filter_cons_of_pos (by simpa using hnew), List.eraseDupsBy_cons, List.filter_filter,
        List.append_assoc, List.singleton_append, hrest]
      simp only [Bool.decide_and]

theorem foldl_appendNew_nil (key : α → β) (ys : List α) :
    ys.foldl (appendNew key) [] = ys.eraseDupsBy fun x y => key x == key y := by
  have hall : (ys.filter fun y => key y ∉ ([] : List α).map key) = ys :=
    List.filter_eq_self.2 fun _ _ => by simp
  rw [foldl_appendNew, hall, List.nil_append]

theorem foldl_appendNew_id [BEq β] [LawfulBEq β] (ys : List β) :
    ys.foldl (appendNew id) [] = ys.eraseDups := by
  have hsame : (fun x y : β => decide (x = y)) = fun x y => x == y := by
    funext x y
    rw [Bool.eq_iff_iff, decide_eq_true_iff, beq_iff_eq]
  exact (foldl_appendNew_nil id ys).trans (congrArg (List.eraseDupsBy · ys) hsame)

theorem foldl_appendNew_of_nodup {key : α → β} {xs ys : List α} (h : ((xs ++ ys).map key).Nodup) :
    ys.foldl (appendNew key) xs = xs ++ ys := by
  induction ys generalizing xs with
  | nil => simp
  | cons y ys ih =>
    have hy : key y ∉ xs.map key := by
      intro hold
      rw [List.map_append, List.nodup_append] at h
      exact h.2.2 _ hold _ List.mem_cons_self rfl
    have hlist : xs ++ y :: ys = (xs ++ [y]) ++ ys := by simp
    rw [List.foldl_cons, appendNew, if_neg hy, hlist]
    exact ih (hlist ▸ h)

theorem nodup_appendNew (key : α → β) {xs : List α} (h : (xs.map key).Nodup) (x : α) :
    ((appendNew key xs x).map key).Nodup := by
  unfold appendNew
  split
  · exact h
  · rename_i hnew
    rw [List.map_append, List.map_singleton, List.nodup_append]
    refine ⟨h, by simp, ?_⟩
    intro k hk l hl heq
    rw [List.mem_singleton] at hl
    exact hnew (hl ▸ heq ▸ hk)

theorem nodup_foldl_appendNew (key : α → β) {xs : List α} (h : (xs.map key).Nodup)
    (ys : List α) : ((ys.foldl (appendNew key) xs).map key).Nodup := by
  induction ys generalizing xs with
  | nil => exact h
  | cons y ys ih => exact ih (nodup_appendNew key h y)

/-- The keys of a list grow as the list does. -/
theorem map_foldl_appendNew (key : α → β) (xs ys : List α) :
    (ys.foldl (appendNew key) xs).map key = (ys.map key).foldl (appendNew id) (xs.map key) := by
  rw [List.foldl_map]
  refine (List.foldl_hom (List.map key) ?_).symm
  intro zs y
  simp only [appendNew, List.map_id, id_eq]
  split
  · rfl
  · rw [List.map_append, List.map_singleton]

end MemberBinding
