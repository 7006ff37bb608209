import Mathlib.Data.List.Basic
import MemberBinding.Proofs.Resolution.Candidates

/-!
# Groups and links at other positions

Filling, splitting and completing a group compares positions and nothing else, so moving every
position along an injection commutes with each of them. Main statements: `addAll_map`,
`explode_map` and `attach_map`.
-/

namespace MemberBinding

def ReverseTarget.map (φ : Nat → Nat) (t : ReverseTarget) : ReverseTarget :=
  ⟨φ t.source, t.companion.map (Prod.map id φ)⟩

def ReverseLink.map (φ : Nat → Nat) (l : ReverseLink) : ReverseLink :=
  ⟨l.toReverseTarget.map φ, φ l.owner⟩

@[simp] theorem ReverseLink.source_map (φ : Nat → Nat) (l : ReverseLink) :
    (l.map φ).source = φ l.source := rfl

@[simp] theorem ReverseLink.owner_map (φ : Nat → Nat) (l : ReverseLink) :
    (l.map φ).owner = φ l.owner := rfl

@[simp] theorem ReverseLink.companion_map (φ : Nat → Nat) (l : ReverseLink) :
    (l.map φ).companion = l.companion.map (Prod.map id φ) := rfl

theorem ReverseLink.filter_source_map {φ : Nat → Nat} (hφ : Function.Injective φ)
    (links : List ReverseLink) (source : Nat) :
    (links.map (·.map φ)).filter (·.source == φ source) =
      (links.filter (·.source == source)).map (·.map φ) := by
  rw [List.filter_map]
  congr 1
  apply List.filter_congr
  intro l _
  rw [Bool.eq_iff_iff, Function.comp_apply, beq_iff_eq, beq_iff_eq]
  exact hφ.eq_iff

theorem ReverseLink.filter_source_eq_nil {φ : Nat → Nat} {source : Nat} (h : ∀ id, source ≠ φ id)
    (links : List ReverseLink) : (links.map (·.map φ)).filter (·.source == source) = [] := by
  rw [List.filter_eq_nil_iff, List.forall_mem_map]
  intro l _ hsource
  exact h l.source (beq_iff_eq.1 hsource).symm

namespace Group

def map (φ : Nat → Nat) (g : Group) : Group := ⟨φ g.anchor, g.roles.map (·.map φ)⟩

variable {φ : Nat → Nat} {g : Group} {role : Nat}

@[simp] theorem anchor_map (φ : Nat → Nat) (g : Group) : (g.map φ).anchor = φ g.anchor := rfl

@[simp] theorem seed_map (φ : Nat → Nat) (anchor n : Nat) :
    (seed anchor n).map φ = seed (φ anchor) n := by
  simp [map, seed]

@[simp] theorem candidates_map (φ : Nat → Nat) (g : Group) (role : Nat) :
    (g.map φ).candidates role = (g.candidates role).map φ := by
  unfold candidates map
  rw [List.getElem?_map]
  cases g.roles[role]? <;> rfl

@[simp] theorem single?_map (φ : Nat → Nat) (g : Group) (role : Nat) :
    (g.map φ).single? role = (g.single? role).map φ := by
  unfold single?
  rw [candidates_map]
  match g.candidates role with
  | [] => rfl
  | [_] => rfl
  | _ :: _ :: _ => rfl

@[simp] theorem sourceOf_map (φ : Nat → Nat) (g : Group) (spec : RoleSpec) :
    (g.map φ).sourceOf spec = (g.sourceOf spec).map φ := by
  unfold sourceOf
  cases spec.origin with
  | anchor => rfl
  | role i => exact single?_map φ g i

theorem contains_map (hφ : Function.Injective φ) (cs : List Nat) (c : Nat) :
    (cs.map φ).contains (φ c) = cs.contains c := by
  rw [Bool.eq_iff_iff, List.contains_iff_mem, List.contains_iff_mem, List.mem_map]
  constructor
  · intro h
    obtain ⟨d, hd, heq⟩ := h
    exact hφ heq ▸ hd
  · intro h
    exact ⟨c, h, rfl⟩

theorem insertNew_map (hφ : Function.Injective φ) (cs : List Nat) (c : Nat) :
    insertNew (cs.map φ) (φ c) = (insertNew cs c).map φ := by
  unfold insertNew
  rw [contains_map hφ]
  split
  · rfl
  · simp

theorem add_map (hφ : Function.Injective φ) (g : Group) (role c : Nat) :
    (g.map φ).add role (φ c) = (g.add role c).map φ := by
  unfold add map
  congr 1
  apply List.ext_getElem?
  intro i
  rw [List.getElem?_modify, List.getElem?_map, List.getElem?_map, List.getElem?_modify]
  cases g.roles[i]? with
  | none => rfl
  | some cs =>
    by_cases h : role = i
    · simp [h, insertNew_map hφ]
    · simp [h]

theorem addAll_map (hφ : Function.Injective φ) (g : Group) (role : Nat) (cs : List Nat) :
    (g.map φ).addAll role (cs.map φ) = (g.addAll role cs).map φ := by
  induction cs generalizing g with
  | nil => rfl
  | cons c cs ih =>
    have hrest := ih (g.add role c)
    rw [← add_map hφ] at hrest
    exact hrest

theorem choose_map (φ : Nat → Nat) (g : Group) (role c : Nat) :
    (g.map φ).choose role (φ c) = (g.choose role c).map φ := by
  simp [choose, map]

theorem explode_map (φ : Nat → Nat) (g : Group) (role : Nat) :
    (g.map φ).explode role = (g.explode role).map (·.map φ) := by
  unfold explode
  rw [candidates_map, List.length_map]
  split
  · rfl
  · rw [List.map_map, List.map_map]
    exact List.map_congr_left fun c _ => choose_map φ g role c

/-! ## Companions -/

theorem carried_map (hφ : Function.Injective φ) (g : Group) (role : Nat) (link : ReverseLink) :
    (g.map φ).carried role (link.map φ) = (g.carried role link).map (Prod.map id φ) := by
  have hsource : (φ link.source == φ g.anchor) = (link.source == g.anchor) := by
    rw [Bool.eq_iff_iff, beq_iff_eq, beq_iff_eq]
    exact hφ.eq_iff
  unfold carried
  rw [candidates_map, ReverseLink.source_map, ReverseLink.owner_map, anchor_map, hsource,
    contains_map hφ, ReverseLink.companion_map]
  split <;> rfl

theorem attachOne_map (hφ : Function.Injective φ) (g : Group) (role : Nat) (link : ReverseLink) :
    (g.map φ).attachOne role (link.map φ) = (g.attachOne role link).map φ := by
  unfold attachOne
  rw [carried_map hφ]
  cases g.carried role link with
  | none => rfl
  | some e => exact add_map hφ g e.1 e.2

theorem attach_map (hφ : Function.Injective φ) (g : Group) (role : Nat)
    (links : List ReverseLink) :
    (g.map φ).attach role (links.map (·.map φ)) = (g.attach role links).map φ := by
  induction links generalizing g with
  | nil => rfl
  | cons link links ih => rw [List.map_cons, attach_cons, attachOne_map hφ, ih, attach_cons]

/-- Links that point at other anchors add nothing. -/
theorem attach_filter (g : Group) (role : Nat) (links : List ReverseLink) :
    g.attach role (links.filter (·.source == g.anchor)) = g.attach role links := by
  induction links generalizing g with
  | nil => rfl
  | cons link links ih =>
    rw [attach_cons, List.filter_cons]
    split
    · -- The rest is filtered for the same anchor, which the first link leaves alone.
      rw [attach_cons, ← ih, anchor_attachOne]
    · rename_i hsource
      have hcarried : g.carried role link = none := by simp [carried, hsource]
      rw [ih, attachOne, hcarried]

end Group
end MemberBinding
