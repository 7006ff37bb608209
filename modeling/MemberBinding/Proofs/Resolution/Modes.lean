import MemberBinding.Proofs.Resolution.Run

/-!
# What the mode decides

The mode tells which members become anchors. What the roles of an anchor are filled with, and what
is reported on the way, is the same in both modes. Main statement:
`mem_reports_all_of_selectively`, by which nothing is reported selectively that is not reported
anyway, when the rules themselves ignore the mode.
-/

namespace MemberBinding.Rules

/-- The checks of the rules, and their filter on anchors, are the same in both modes. -/
structure ModeBlind (rules : Rules) (config : Config) (s : Snapshot) : Prop where
  isCandidate_eq : ∀ m linked, rules.isCandidate (.of config s .selectively) m linked =
    rules.isCandidate (.of config s .all) m linked
  check_eq : ∀ g, rules.check (.of config s .selectively) g = rules.check (.of config s .all) g

variable {rules : Rules} {config : Config} {s : Snapshot}

theorem reverseTable_selectively (rules : Rules) (config : Config) (s : Snapshot) :
    rules.reverseTable (.of config s .selectively) = rules.reverseTable (.of config s .all) := rfl

theorem descendants_selectively (table : List (List ReverseLink))
    (entries : List (RoleSpec × Nat)) :
    rules.descendants (.of config s .selectively) table entries =
      rules.descendants (.of config s .all) table entries := by
  induction entries with
  | nil => rfl
  | cons entry entries ih =>
    funext g
    have hgrow : rules.grow (.of config s .selectively) table entry g =
        rules.grow (.of config s .all) table entry g := rfl
    simp only [descendants, hgrow, ih]

theorem descentFaults_selectively (table : List (List ReverseLink))
    (entries : List (RoleSpec × Nat)) :
    rules.descentFaults (.of config s .selectively) table entries =
      rules.descentFaults (.of config s .all) table entries := by
  induction entries with
  | nil => rfl
  | cons entry entries ih =>
    funext g
    have hgrow : rules.grow (.of config s .selectively) table entry g =
        rules.grow (.of config s .all) table entry g := rfl
    have hlink : rules.linkFaults (.of config s .selectively) entry.1 g =
        rules.linkFaults (.of config s .all) entry.1 g := rfl
    simp only [descentFaults, hlink, hgrow, ih]

theorem block_selectively (table : List (List ReverseLink)) (anchor : Nat) :
    rules.block (.of config s .selectively) table anchor =
      rules.block (.of config s .all) table anchor :=
  congrFun (descendants_selectively table _) _

namespace ModeBlind

variable (h : rules.ModeBlind config s)

include h

theorem groupFaults_eq (g : Group) :
    rules.groupFaults (.of config s .selectively) g = rules.groupFaults (.of config s .all) g :=
  congrArg _ (h.check_eq g)

theorem eligible {id : Nat} (hid : rules.Eligible (.of config s .selectively) id) :
    rules.Eligible (.of config s .all) id where
  toAvailable := hid.toAvailable
  candidate := by
    obtain ⟨linked, hlinked, hcandidate⟩ := hid.candidate
    exact ⟨linked, hlinked, h.isCandidate_eq _ _ ▸ hcandidate⟩
  chosen := .inl rfl

theorem mem_anchors {id : Nat} (hid : id ∈ rules.anchors (.of config s .selectively)
      (rules.reverseTable (.of config s .all))) :
    id ∈ rules.anchors (.of config s .all) (rules.reverseTable (.of config s .all)) := by
  rw [← reverseTable_selectively, mem_anchors_iff] at hid
  exact mem_anchors_iff.2 ⟨h.eligible hid.1, hid.2⟩

theorem mem_anchorFaults {v : Violation} (hv : v ∈ rules.anchorFaults (.of config s .selectively)
      (rules.reverseTable (.of config s .all))) :
    v ∈ rules.anchorFaults (.of config s .all) (rules.reverseTable (.of config s .all)) := by
  rw [← reverseTable_selectively, mem_anchorFaults_iff] at hv
  obtain ⟨id, hid, hv⟩ := hv
  exact mem_anchorFaults_iff.2 ⟨id, h.eligible hid, hv⟩

/-- Fewer anchors, the same reports on each of them. -/
theorem mem_reports_all_of_selectively {v : Violation}
    (hv : v ∈ rules.reports (.of config s .selectively) (rules.reverseTable (.of config s .all))
      (rules.run (.of config s .selectively) (rules.reverseTable (.of config s .all)))) :
    v ∈ rules.reports (.of config s .all) (rules.reverseTable (.of config s .all))
      (rules.run (.of config s .all) (rules.reverseTable (.of config s .all))) := by
  rw [mem_reports_iff] at hv ⊢
  rcases hv with hmark | hreverse | hname | ⟨a, ha, hlink⟩ | ⟨a, ha, g, hg, hcheck⟩
  · exact .inl hmark
  · exact .inr (.inl hreverse)
  · exact .inr (.inr (.inl (h.mem_anchorFaults hname)))
  · rw [descentFaults_selectively] at hlink
    exact .inr (.inr (.inr (.inl ⟨a, h.mem_anchors ha, hlink⟩)))
  · rw [block_selectively] at hg
    rw [h.groupFaults_eq] at hcheck
    exact .inr (.inr (.inr (.inr ⟨a, h.mem_anchors ha, g, hg, hcheck⟩)))

theorem messagesOf_resolve_subset : messagesOf (rules.resolve (.of config s .selectively)) ⊆
    messagesOf (rules.resolve (.of config s .all)) := by
  intro text htext
  obtain ⟨v, hv, rfl⟩ := Diagnostics.mem_messagesOf_finish_iff.1 htext
  exact Diagnostics.mem_messagesOf_finish_iff.2 ⟨v, h.mem_reports_all_of_selectively hv, rfl⟩

end ModeBlind
end MemberBinding.Rules
