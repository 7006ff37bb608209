import MemberBinding.Resolution.Linking

/-!
# Candidates of a group

Adding candidates keeps a list free of repeats, and what is attached to one role depends on the
candidates of the other only as they were before.
-/

namespace MemberBinding.Group

/-- The candidates once all of `found` are added. -/
def insertAll (cs found : List Nat) : List Nat := found.foldl insertNew cs

@[simp] theorem insertAll_nil (cs : List Nat) : insertAll cs [] = cs := rfl

@[simp] theorem insertAll_cons (cs : List Nat) (c : Nat) (found : List Nat) :
    insertAll cs (c :: found) = insertAll (insertNew cs c) found := rfl

@[simp] theorem mem_insertNew {cs : List Nat} {c x : Nat} :
    x ∈ insertNew cs c ↔ x ∈ cs ∨ x = c := by
  unfold insertNew
  split
  · rename_i h
    constructor
    · exact .inl
    · intro h
      rcases h with h' | rfl
      · exact h'
      · simpa using h
  · simp

theorem nodup_insertNew {cs : List Nat} (h : cs.Nodup) (c : Nat) : (insertNew cs c).Nodup := by
  unfold insertNew
  split
  · exact h
  · rename_i hc
    have hc' : c ∉ cs := by simpa using hc
    refine List.nodup_append.2 ⟨h, by simp, ?_⟩
    intro a ha b hb hab
    exact hc' (List.mem_singleton.1 hb ▸ hab ▸ ha)

@[simp] theorem mem_insertAll {cs found : List Nat} {x : Nat} :
    x ∈ insertAll cs found ↔ x ∈ cs ∨ x ∈ found := by
  induction found generalizing cs with
  | nil => simp
  | cons c found ih => simp [ih, or_assoc]

theorem nodup_insertAll {cs : List Nat} (h : cs.Nodup) (found : List Nat) :
    (insertAll cs found).Nodup := by
  induction found generalizing cs with
  | nil => exact h
  | cons c found ih => exact ih (nodup_insertNew h c)

theorem addAll_eq (g : Group) (role : Nat) (found : List Nat) :
    g.addAll role found = { g with roles := g.roles.modify role (insertAll · found) } := by
  induction found generalizing g with
  | nil =>
    have hid : (fun cs => insertAll cs []) = id := rfl
    simp only [addAll, List.foldl_nil, hid, List.modify_id]
  | cons c found ih =>
    have h := ih (g.add role c)
    simp only [addAll, List.foldl_cons] at h ⊢
    rw [h]
    simp only [add, List.modify_modify_eq]
    rfl

theorem candidates_addAll (g : Group) (role other : Nat) (cs : List Nat) :
    (g.addAll role cs).candidates other =
      if role = other ∧ role < g.roles.length then insertAll (g.candidates other) cs
      else g.candidates other := by
  rw [addAll_eq]
  unfold candidates
  rw [List.getElem?_modify]
  by_cases heq : role = other
  · subst heq
    by_cases hlt : role < g.roles.length
    · simp [hlt]
    · simp [hlt]
  · simp [heq]

theorem length_addAll (g : Group) (role : Nat) (cs : List Nat) :
    (g.addAll role cs).roles.length = g.roles.length := by
  rw [addAll_eq]
  exact List.length_modify ..

theorem anchor_addAll (g : Group) (role : Nat) (cs : List Nat) :
    (g.addAll role cs).anchor = g.anchor := by
  rw [addAll_eq]

theorem candidates_choose (g : Group) (role other c : Nat) :
    (g.choose role c).candidates other =
      if role = other ∧ role < g.roles.length then [c] else g.candidates other := by
  unfold choose candidates
  rw [List.getElem?_set]
  split <;> split <;> simp_all

/-- At most one candidate: the role holds it exactly when it is a candidate. -/
theorem single?_eq_some_iff_mem {g : Group} {role c : Nat} (h : (g.candidates role).length < 2) :
    g.single? role = some c ↔ c ∈ g.candidates role := by
  rw [single?_eq_some_iff]
  generalize g.candidates role = cs at h ⊢
  match cs, h with
  | [], _ => simp
  | [d], _ => simp [eq_comm]

theorem length_lt_two_iff {cs : List Nat} (h : cs.Nodup) :
    cs.length < 2 ↔ ∀ a ∈ cs, ∀ b ∈ cs, a = b := by
  match cs, h with
  | [], _ => simp
  | [c], _ => simp
  | a :: b :: cs, h =>
    simp only [List.length_cons, List.mem_cons, forall_eq_or_imp]
    constructor
    · omega
    · intro h
      obtain ⟨⟨-, hab, -⟩, -⟩ := h
      simp [hab] at h

/-! ## Companions -/

theorem attach_cons (g : Group) (role : Nat) (link : ReverseLink) (links : List ReverseLink) :
    g.attach role (link :: links) = (g.attachOne role link).attach role links := rfl

@[simp] theorem anchor_attachOne (g : Group) (role : Nat) (link : ReverseLink) :
    (g.attachOne role link).anchor = g.anchor := by
  unfold attachOne
  split <;> rfl

theorem attach_of_companion_none {g : Group} {role : Nat} {links : List ReverseLink}
    (h : ∀ l ∈ links, l.companion = none) : g.attach role links = g := by
  induction links generalizing g with
  | nil => rfl
  | cons l links ih =>
    have hl : g.carried role l = none := by simp [carried, h l (by simp)]
    rw [attach_cons, attachOne, hl]
    exact ih fun l' hl' => h l' (by simp [hl'])

theorem carried_add {g : Group} {role other c : Nat} (h : other ≠ role) (link : ReverseLink) :
    (g.add other c).carried role link = g.carried role link := by
  simp [carried, candidates_add_of_ne c h.symm]

/-- Companions for one other role are added to it in the order of the links. -/
theorem attach_eq_addAll {g : Group} {role other : Nat} {links : List ReverseLink}
    (hne : other ≠ role) (h : ∀ l ∈ links, ∀ e, l.companion = some e → e.1 = other) :
    g.attach role links = g.addAll other ((links.filterMap (g.carried role)).map (·.2)) := by
  induction links generalizing g with
  | nil => rfl
  | cons l links ih =>
    have hrest : ∀ l' ∈ links, ∀ e, l'.companion = some e → e.1 = other :=
      fun l' hl' => h l' (by simp [hl'])
    rw [attach_cons, attachOne]
    cases hl : g.carried role l with
    | none => rw [List.filterMap_cons_none hl, ih hrest]
    | some e =>
      obtain ⟨r, c⟩ := e
      have hc : l.companion = some (r, c) := by
        unfold carried at hl
        split at hl
        · exact hl
        · cases hl
      have hr : r = other := h l (by simp) (r, c) hc
      subst r
      -- The test for the owner reads `role`, which the addition to `other` leaves alone.
      have hcarried : (g.add other c).carried role = g.carried role :=
        funext fun l' => carried_add hne l'
      dsimp only
      rw [List.filterMap_cons_some hl, ih hrest, hcarried]
      rfl

end MemberBinding.Group
