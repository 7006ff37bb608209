import MemberBinding.Proofs.Resolution.Run

/-!
# Every point of a run

A run fills one role after the other. Between two roles, candidates come in one by one, groups are
split, and companions come in one by one. Main statement: `Rules.Keeps.holds`, by which whatever all
of these moves keep holds at every point.
-/

namespace MemberBinding

/-- Where a run stands: the first roles are filled, or one role has got some of its candidates, has
been split, or has some of its companions attached. -/
inductive Point
  | filled (roles : Nat)
  | linking (role : Nat)
  | split (role : Nat)
  | attaching (role : Nat)

namespace Point

/-- How many roles candidates may have been found for. -/
def linkedRoles : Point → Nat
  | filled k => k
  | linking role | split role | attaching role => role + 1

/-- How many roles are past their explosion. -/
def splitRoles : Point → Nat
  | filled k => k
  | linking role => role
  | split role | attaching role => role + 1

end Point

namespace Rules

/-- What linking adds to a role of a group: nothing while its source is not known. -/
def additions (rules : Rules) (ctx : Context) (table : List (List ReverseLink)) (spec : RoleSpec)
    (role : Nat) (g : Group) : List Nat :=
  match g.sourceOf spec with
  | some source => rules.found ctx table spec role source
  | none => []

/-- The run once the first `k` roles are filled. -/
def runAfter (rules : Rules) (ctx : Context) (k : Nat) : Run :=
  (rules.roles.zipIdx.take k).foldl (rules.step ctx (rules.reverseTable ctx))
    { groups := rules.seeds ctx (rules.reverseTable ctx) }

/-- The group occurs at the point. -/
inductive Holds (rules : Rules) (ctx : Context) : Point → Group → Prop
  | filled {k g} (le : k ≤ rules.roles.length) (mem : g ∈ (rules.runAfter ctx k).groups) :
      Holds rules ctx (.filled k) g
  | linking {role spec g} (hspec : rules.roles[role]? = some spec)
      (mem : g ∈ (rules.runAfter ctx role).groups) (n : Nat) :
      Holds rules ctx (.linking role)
        (g.addAll role ((rules.additions ctx (rules.reverseTable ctx) spec role g).take n))
  | split {role spec g} (hspec : rules.roles[role]? = some spec)
      (mem : g ∈ rules.splitGroups ctx (rules.reverseTable ctx) spec role
        (rules.runAfter ctx role).groups) : Holds rules ctx (.split role) g
  | attaching {role spec g} (hspec : rules.roles[role]? = some spec)
      (mem : g ∈ rules.splitGroups ctx (rules.reverseTable ctx) spec role
        (rules.runAfter ctx role).groups) (n : Nat) :
      Holds rules ctx (.attaching role)
        (g.attach role (((rules.reverseTable ctx)[role]?.getD []).take n))

/-- Every move of a run takes groups with the property to such groups. -/
structure Keeps (rules : Rules) (ctx : Context) (P : Point → Group → Prop) : Prop where
  seed : ∀ anchor ∈ rules.anchors ctx (rules.reverseTable ctx),
    P (.filled 0) (.seed anchor rules.roles.length)
  link : ∀ {role spec g}, rules.roles[role]? = some spec → P (.filled role) g → ∀ n,
    P (.linking role)
      (g.addAll role ((rules.additions ctx (rules.reverseTable ctx) spec role g).take n))
  pass : ∀ {role spec g}, rules.roles[role]? = some spec → spec.explodes = false →
    P (.linking role) g → P (.split role) g
  explode : ∀ {role spec g}, rules.roles[role]? = some spec → spec.explodes = true →
    P (.linking role) g → ∀ part ∈ g.explode role, P (.split role) part
  attach : ∀ {role spec g}, rules.roles[role]? = some spec → P (.split role) g → ∀ n,
    P (.attaching role) (g.attach role ((rules.reverseLinks ctx spec).take n))
  next : ∀ {role g}, P (.attaching role) g → P (.filled (role + 1)) g

variable {rules : Rules} {ctx : Context} {spec : RoleSpec} {role : Nat} {point : Point} {g : Group}

theorem linkRole_eq_addAll (table : List (List ReverseLink)) (spec : RoleSpec) (role : Nat)
    (g : Group) : rules.linkRole ctx table spec role g =
      g.addAll role (rules.additions ctx table spec role g) := by
  unfold linkRole additions
  cases g.sourceOf spec <;> rfl

theorem runAfter_succ (h : rules.roles[role]? = some spec) : rules.runAfter ctx (role + 1) =
    rules.step ctx (rules.reverseTable ctx) (rules.runAfter ctx role) (spec, role) := by
  have hentry : rules.roles.zipIdx[role]? = some (spec, role) := by simp [h]
  rw [runAfter, List.take_add_one, hentry, List.foldl_append]
  rfl

theorem runAfter_length :
    rules.runAfter ctx rules.roles.length = rules.run ctx (rules.reverseTable ctx) := by
  rw [runAfter, List.take_of_length_le (by simp), run]

theorem splitGroups_of_explodes (h : spec.explodes = true) (table : List (List ReverseLink))
    (role : Nat) (groups : List Group) : rules.splitGroups ctx table spec role groups =
      groups.flatMap fun g => (rules.linkRole ctx table spec role g).explode role := by
  simp [splitGroups, h, List.flatMap_map]

theorem splitGroups_of_not_explodes (h : spec.explodes = false) (table : List (List ReverseLink))
    (role : Nat) (groups : List Group) : rules.splitGroups ctx table spec role groups =
      groups.map (rules.linkRole ctx table spec role) := by
  simp [splitGroups, h]

namespace Keeps

variable {P : Point → Group → Prop}

theorem linkRole (h : rules.Keeps ctx P) (hspec : rules.roles[role]? = some spec)
    (hg : P (.filled role) g) :
    P (.linking role) (rules.linkRole ctx (rules.reverseTable ctx) spec role g) := by
  have hall := h.link hspec hg (rules.additions ctx (rules.reverseTable ctx) spec role g).length
  rwa [List.take_length, ← linkRole_eq_addAll] at hall

theorem of_mem_splitGroups (h : rules.Keeps ctx P) (hspec : rules.roles[role]? = some spec)
    {groups : List Group} (hgroups : ∀ g ∈ groups, P (.filled role) g)
    (hg : g ∈ rules.splitGroups ctx (rules.reverseTable ctx) spec role groups) :
    P (.split role) g := by
  cases hexplodes : spec.explodes with
  | false =>
    rw [splitGroups_of_not_explodes hexplodes] at hg
    obtain ⟨before, hbefore, rfl⟩ := List.mem_map.1 hg
    exact h.pass hspec hexplodes (h.linkRole hspec (hgroups before hbefore))
  | true =>
    rw [splitGroups_of_explodes hexplodes] at hg
    obtain ⟨before, hbefore, hpart⟩ := List.mem_flatMap.1 hg
    exact h.explode hspec hexplodes (h.linkRole hspec (hgroups before hbefore)) g hpart

/-- One step keeps the property. -/
theorem of_mem_step (h : rules.Keeps ctx P) (hspec : rules.roles[role]? = some spec) {run : Run}
    (hrun : ∀ g ∈ run.groups, P (.filled role) g)
    (hg : g ∈ (rules.step ctx (rules.reverseTable ctx) run (spec, role)).groups) :
    P (.filled (role + 1)) g := by
  obtain ⟨before, hbefore, rfl⟩ := List.mem_map.1 hg
  have hall := h.attach hspec (h.of_mem_splitGroups hspec hrun hbefore)
    (rules.reverseLinks ctx spec).length
  rw [getElem?_reverseTable hspec]
  rw [List.take_length] at hall
  exact h.next hall

theorem of_mem_runAfter (h : rules.Keeps ctx P) {k : Nat} (hk : k ≤ rules.roles.length) :
    ∀ g ∈ (rules.runAfter ctx k).groups, P (.filled k) g := by
  induction k with
  | zero =>
    intro g hg
    obtain ⟨anchor, hanchor, rfl⟩ := List.mem_map.1 hg
    exact h.seed anchor hanchor
  | succ role ih =>
    intro g hg
    have hspec : rules.roles[role]? = some rules.roles[role] := List.getElem?_eq_getElem hk
    rw [runAfter_succ hspec] at hg
    exact h.of_mem_step hspec (ih (Nat.le_of_succ_le hk)) hg

/-- What every move keeps holds at every point. -/
theorem holds (h : rules.Keeps ctx P) (hg : rules.Holds ctx point g) : P point g := by
  have hfilled {role spec} (hspec : rules.roles[role]? = some spec) :
      ∀ g ∈ (rules.runAfter ctx role).groups, P (.filled role) g :=
    h.of_mem_runAfter (Nat.le_of_lt (List.getElem?_eq_some_iff.1 hspec).1)
  cases hg with
  | filled le mem => exact h.of_mem_runAfter le g mem
  | linking hspec mem n => exact h.link hspec (hfilled hspec _ mem) n
  | split hspec mem => exact h.of_mem_splitGroups hspec (hfilled hspec) mem
  | attaching hspec mem n =>
    rw [getElem?_reverseTable hspec]
    exact h.attach hspec (h.of_mem_splitGroups hspec (hfilled hspec) mem) n

end Keeps

theorem holds_of_mem_run (hg : g ∈ (rules.run ctx (rules.reverseTable ctx)).groups) :
    rules.Holds ctx (.filled rules.roles.length) g :=
  .filled (Nat.le_refl _) (runAfter_length ▸ hg)

end Rules
end MemberBinding
