import Mathlib.Data.List.Basic
import MemberBinding.Resolution.Run

/-!
# Resolutions that take the same steps

A run reads the members by way of the anchors, of the reverse links, of what is found for a role
and of where forward links lead. Where these are the same, so is the run. Main statement:
`SameSteps.run_eq`.
-/

namespace MemberBinding.Rules

variable {rules : Rules} {ctx ctx' : Context} {spec : RoleSpec} {role : Nat}

/-- The same members to start from, and the same found and reported from there. -/
structure SameSteps (rules : Rules) (ctx ctx' : Context) : Prop where
  reverse_eq : ∀ spec ∈ rules.roles,
    rules.reverseOutcomes ctx' spec = rules.reverseOutcomes ctx spec
  anchors_eq :
    rules.anchors ctx' (rules.reverseTable ctx') = rules.anchors ctx (rules.reverseTable ctx)
  found_eq : ∀ spec ∈ rules.roles, ∀ table role source,
    rules.found ctx' table spec role source = rules.found ctx table spec role source
  forward_eq : ∀ spec ∈ rules.roles, ∀ source,
    rules.forwardOutcomes ctx' spec source = rules.forwardOutcomes ctx spec source

namespace SameSteps

theorem reverseTable_eq (h : rules.SameSteps ctx ctx') :
    rules.reverseTable ctx' = rules.reverseTable ctx := by
  apply List.map_congr_left
  intro spec hspec
  rw [reverseLinks, reverseLinks, h.reverse_eq spec hspec]

theorem flatMap_reverseFaults_eq (h : rules.SameSteps ctx ctx') :
    rules.roles.flatMap (rules.reverseFaults ctx') =
      rules.roles.flatMap (rules.reverseFaults ctx) := by
  apply List.flatMap_congr
  intro spec hspec
  rw [reverseFaults, reverseFaults, h.reverse_eq spec hspec]

theorem step_eq (h : rules.SameSteps ctx ctx') (hspec : spec ∈ rules.roles)
    (table : List (List ReverseLink)) (role : Nat) (run : Run) :
    rules.step ctx' table run (spec, role) = rules.step ctx table run (spec, role) := by
  have hlink : rules.linkRole ctx' table spec role = rules.linkRole ctx table spec role := by
    funext g
    unfold linkRole
    simp only [h.found_eq spec hspec]
  have hfaults : rules.linkFaults ctx' spec = rules.linkFaults ctx spec := by
    funext g
    unfold linkFaults
    simp only [h.forward_eq spec hspec]
  simp only [step, splitGroups, hlink, hfaults]

theorem run_eq (h : rules.SameSteps ctx ctx') :
    rules.run ctx' (rules.reverseTable ctx') = rules.run ctx (rules.reverseTable ctx) := by
  rw [run, run, seeds, seeds, h.anchors_eq, h.reverseTable_eq]
  apply List.foldl_ext
  intro run entry hentry
  exact h.step_eq (List.fst_mem_of_mem_zipIdx hentry) _ entry.2 run

end SameSteps
end MemberBinding.Rules
