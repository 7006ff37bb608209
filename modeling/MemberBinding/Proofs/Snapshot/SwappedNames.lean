import Mathlib.Data.List.Forall2
import MemberBinding.Proofs.Snapshot.SameButLinks

/-!
# Links with their two names in the other order

Some of the links of a kind are swapped, at any place. The members stay as they are otherwise, and
each keeps its links in order, so that link meets link. Main statement:
`Member.SwappedNames.linksOf`.
-/

namespace MemberBinding

def Link.swapNames (l : Link) : Link :=
  match l.secondName with
  | some name => { l with name, secondName := some l.name }
  | none => l

/-- The same link, or one of those in `P` with its names swapped. -/
def Link.SwappedNames (P : Link → Prop) (l l' : Link) : Prop := l' = l ∨ P l ∧ l' = l.swapNames

inductive Mark.SwappedNames (P : Link → Prop) : Mark → Mark → Prop
  | same (mark : Mark) : SwappedNames P mark mark
  | swapped {l : Link} (swappable : P l) : SwappedNames P (.link l) (.link l.swapNames)

/-- The same but for marks, and these mark by mark. -/
structure Member.SwappedNames (P : Link → Prop) (m n : Member) : Prop where
  eq : n = { m with marks := n.marks }
  marks : List.Forall₂ (Mark.SwappedNames P) m.marks n.marks

/-- The same members at the same positions, with some of the links in `P` swapped. -/
def Snapshot.SwappedNames (P : Link → Prop) (s t : Snapshot) : Prop :=
  List.Forall₂ (Member.SwappedNames P) s.members t.members

variable {P : Link → Prop}

@[simp] theorem Link.kind_swapNames (l : Link) : l.swapNames.kind = l.kind := by
  unfold swapNames
  split <;> rfl

theorem Link.SwappedNames.kind_eq {l l' : Link} (h : l.SwappedNames P l') : l'.kind = l.kind := by
  rcases h with rfl | ⟨-, rfl⟩
  · rfl
  · exact l.kind_swapNames

namespace Mark.SwappedNames

theorem link? {mark mark' : Mark} (h : mark.SwappedNames P mark') :
    Option.Rel (Link.SwappedNames P) mark.link? mark'.link? := by
  cases h with
  | swapped swappable => exact .some (.inr ⟨swappable, rfl⟩)
  | same =>
    cases mark with
    | link l => exact .some (.inl rfl)
    | included | excluded | requireExplicitLink | suppressAutoField => exact .none

theorem mem_iff {marks marks' : List Mark} (h : List.Forall₂ (SwappedNames P) marks marks')
    {mark : Mark} (hmark : mark.link? = none) : mark ∈ marks' ↔ mark ∈ marks := by
  induction h with
  | nil => rfl
  | cons hhead _ ih =>
    rw [List.mem_cons, List.mem_cons, ih]
    cases hhead with
    | same => rfl
    | @swapped l =>
      have hne (l : Link) : mark ≠ .link l := by
        rintro rfl
        cases hmark
      exact or_congr_left (iff_of_false (hne _) (hne _))

end Mark.SwappedNames

namespace Member.SwappedNames

variable {m n : Member}

theorem refl (m : Member) : m.SwappedNames P m :=
  ⟨rfl, List.forall₂_same.2 fun mark _ => .same mark⟩

theorem sameButLinks (h : m.SwappedNames P n) : m.SameButLinks n := by
  rw [h.eq]
  exact .of_marks fun _ hmark => Mark.SwappedNames.mem_iff h.marks hmark

theorem links (h : m.SwappedNames P n) : List.Forall₂ (Link.SwappedNames P) m.links n.links := by
  refine List.rel_filterMap ?_ h.marks
  intro mark mark' hmark
  exact hmark.link?

/-- Swapping keeps the kinds of links, and so the links of one kind together. -/
theorem linksOf (h : m.SwappedNames P n) (kind : LinkKind) :
    List.Forall₂ (Link.SwappedNames P) (m.linksOf kind) (n.linksOf kind) := by
  refine List.rel_filter ?_ h.links
  intro l l' hl
  dsimp only
  rw [hl.kind_eq]

/-- What is made of each link stays, if it stays for those that are swapped. -/
theorem map_linksOf_eq {α : Type} (h : m.SwappedNames P n) {kind : LinkKind} {f : Link → α}
    (hf : ∀ l, P l → l.kind = kind → f l.swapNames = f l) :
    (n.linksOf kind).map f = (m.linksOf kind).map f := by
  have hkinds : ∀ l ∈ m.linksOf kind, l.kind = kind := fun l hl => (mem_linksOf.1 hl).2
  have hmap : List.Forall₂ (· = ·) ((m.linksOf kind).map f) ((n.linksOf kind).map f) := by
    refine List.rel_map ?_ ((List.forall₂_and_left _ _).2 ⟨hkinds, h.linksOf kind⟩)
    rintro l l' ⟨hkind, rfl | ⟨hl, rfl⟩⟩
    · rfl
    · exact (hf l hl hkind).symm
  rw [List.forall₂_eq_eq_eq] at hmap
  exact hmap.symm

theorem map_kind_links (h : m.SwappedNames P n) :
    n.links.map (·.kind) = m.links.map (·.kind) := by
  have hkinds : List.Forall₂ (· = ·) (m.links.map (·.kind)) (n.links.map (·.kind)) :=
    List.rel_map (fun _ _ hl => hl.kind_eq.symm) h.links
  rw [List.forall₂_eq_eq_eq] at hkinds
  exact hkinds.symm

end Member.SwappedNames

namespace Snapshot.SwappedNames

variable {s t : Snapshot}

theorem member (h : s.SwappedNames P t) (id : Nat) :
    (s.member id).SwappedNames P (t.member id) := by
  by_cases hlt : id < s.members.length
  · have hlt' : id < t.members.length := h.length_eq ▸ hlt
    have hget := List.Forall₂.get h hlt hlt'
    have hs : s.members[id] = s.member id := by simp [Snapshot.member, member?, hlt]
    have ht : t.members[id] = t.member id := by simp [Snapshot.member, member?, hlt']
    rw [List.get_eq_getElem, List.get_eq_getElem] at hget
    rwa [← hs, ← ht]
  · have hge : s.members.length ≤ id := Nat.not_lt.1 hlt
    rw [member_of_length_le hge, member_of_length_le (h.length_eq ▸ hge)]
    exact .refl _

theorem sameButLinks (h : s.SwappedNames P t) : s.SameButLinks t :=
  ⟨(List.Forall₂.length_eq h).symm, fun id => (h.member id).sameButLinks⟩

end Snapshot.SwappedNames
end MemberBinding
