import MemberBinding.Proofs.Snapshot.SameButLinks

/-!
# Links put in and taken out

One more link among the marks of a member: the members stay as they are otherwise, and only links
of its own kind, on that member, are joined by another. Main statement: `mem_linksOf_insertLink`.
-/

namespace MemberBinding

namespace Member

/-- With `l` as mark number `n`, or as the last one where there are fewer. -/
def insertLink (m : Member) (n : Nat) (l : Link) : Member :=
  { m with marks := m.marks.take n ++ .link l :: m.marks.drop n }

def eraseMark (m : Member) (n : Nat) : Member := { m with marks := m.marks.eraseIdx n }

variable {m : Member} {n : Nat} {l : Link}

theorem insertLink_eraseMark (h : m.marks[n]? = some (.link l)) :
    (m.eraseMark n).insertLink n l = m := by
  obtain ⟨hlt, hget⟩ := List.getElem?_eq_some_iff.1 h
  have hlength : (m.marks.take n).length = n := List.length_take_of_le (Nat.le_of_lt hlt)
  have hmarks : (m.marks.eraseIdx n).take n ++ .link l :: (m.marks.eraseIdx n).drop n =
      m.marks := by
    rw [List.eraseIdx_eq_take_drop_succ, List.take_left' hlength, List.drop_left' hlength, ← hget,
      List.getElem_cons_drop, List.take_append_drop]
  unfold insertLink eraseMark
  dsimp only
  rw [hmarks]

theorem mem_marks_insertLink {mark : Mark} :
    mark ∈ (m.insertLink n l).marks ↔ mark ∈ m.marks ∨ mark = .link l := by
  have hmarks : mark ∈ m.marks ↔ mark ∈ m.marks.take n ∨ mark ∈ m.marks.drop n := by
    rw [← List.mem_append, List.take_append_drop]
  rw [insertLink, List.mem_append, List.mem_cons, hmarks, or_left_comm, or_comm]

theorem sameButLinks_insertLink (m : Member) (n : Nat) (l : Link) :
    m.SameButLinks (m.insertLink n l) := by
  apply SameButLinks.of_marks
  intro mark hmark
  refine mem_marks_insertLink.trans (or_iff_left ?_)
  rintro rfl
  cases hmark

theorem mem_linksOf_insertLink {kind : LinkKind} {l' : Link} :
    l' ∈ (m.insertLink n l).linksOf kind ↔ l' ∈ m.linksOf kind ∨ l' = l ∧ l.kind = kind := by
  rw [mem_linksOf, mem_linksOf, mem_marks_insertLink, or_and_right, Mark.link.injEq]
  refine or_congr_right (and_congr_right ?_)
  rintro rfl
  rfl

theorem linksOf_insertLink_of_ne {kind : LinkKind} (h : l.kind ≠ kind) :
    (m.insertLink n l).linksOf kind = m.linksOf kind := by
  have hlinks : (m.insertLink n l).links =
      (m.marks.take n).filterMap Mark.link? ++ l :: (m.marks.drop n).filterMap Mark.link? :=
    List.filterMap_append
  rw [linksOf, hlinks, List.filter_append, List.filter_cons_of_neg (by simpa using h),
    ← List.filter_append, ← List.filterMap_append, List.take_append_drop]
  rfl

end Member

namespace Snapshot

def insertLink (s : Snapshot) (id n : Nat) (l : Link) : Snapshot :=
  { s with members := s.members.modify id (·.insertLink n l) }

def eraseMark (s : Snapshot) (id n : Nat) : Snapshot :=
  { s with members := s.members.modify id (·.eraseMark n) }

variable {s : Snapshot} {id i n : Nat} {l : Link}

theorem member_insertLink (h : id < s.members.length) :
    (s.insertLink id n l).member i =
      if id = i then (s.member i).insertLink n l else s.member i := by
  unfold member member? insertLink
  rw [List.getElem?_modify]
  split
  · rename_i heq
    subst heq
    rw [List.getElem?_eq_getElem h]
    rfl
  · simp

theorem length_eraseMark (s : Snapshot) (id n : Nat) :
    (s.eraseMark id n).members.length = s.members.length := List.length_modify ..

theorem insertLink_eraseMark (h : id < s.members.length)
    (hlink : (s.member id).marks[n]? = some (.link l)) :
    (s.eraseMark id n).insertLink id n l = s := by
  have hid : s.members[id]? = some (s.member id) := member?_eq_some_iff_member.2 ⟨h, rfl⟩
  have hmembers : (s.members.modify id (·.eraseMark n)).modify id (·.insertLink n l) =
      s.members := by
    rw [List.modify_modify_eq]
    apply List.ext_getElem?
    intro i
    rw [List.getElem?_modify]
    by_cases heq : id = i
    · subst heq
      simp [hid, Member.insertLink_eraseMark hlink]
    · simp [heq]
  unfold insertLink eraseMark
  dsimp only
  rw [hmembers]

theorem sameButLinks_insertLink (h : id < s.members.length) :
    s.SameButLinks (s.insertLink id n l) where
  length_eq := List.length_modify ..
  member i := by
    rw [member_insertLink h]
    split
    · exact (s.member i).sameButLinks_insertLink n l
    · exact .of_marks fun _ _ => .rfl

theorem sameButLinks_eraseMark (h : id < s.members.length)
    (hlink : (s.member id).marks[n]? = some (.link l)) : (s.eraseMark id n).SameButLinks s := by
  have hlt : id < (s.eraseMark id n).members.length := by rwa [length_eraseMark]
  have hsame : (s.eraseMark id n).SameButLinks ((s.eraseMark id n).insertLink id n l) :=
    sameButLinks_insertLink hlt
  rwa [insertLink_eraseMark h hlink] at hsame

theorem mem_linksOf_insertLink (h : id < s.members.length) {kind : LinkKind} {l' : Link} :
    l' ∈ ((s.insertLink id n l).member i).linksOf kind ↔
      l' ∈ (s.member i).linksOf kind ∨ i = id ∧ l' = l ∧ l.kind = kind := by
  rw [member_insertLink h]
  split
  · rename_i heq
    subst heq
    simp only [Member.mem_linksOf_insertLink, true_and]
  · rename_i hne
    simp only [Ne.symm hne, false_and, or_false]

theorem linksOf_insertLink_of_ne (h : id < s.members.length) {kind : LinkKind}
    (hne : l.kind ≠ kind) :
    ((s.insertLink id n l).member i).linksOf kind = (s.member i).linksOf kind := by
  rw [member_insertLink h]
  split
  · exact Member.linksOf_insertLink_of_ne hne
  · rfl

end Snapshot
end MemberBinding
