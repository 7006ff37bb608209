/-!
# Candidate groups

An anchor with the candidates found so far for each role, in the order of their discovery.
Exploding a role splits a group into one group per candidate.
-/

namespace MemberBinding

structure Group where
  anchor : Nat
  roles : List (List Nat)
  deriving DecidableEq, Repr

namespace Group

def seed (anchor roleCount : Nat) : Group := ⟨anchor, List.replicate roleCount []⟩

def hasRole (g : Group) (role : Nat) : Bool := role < g.roles.length

def candidates (g : Group) (role : Nat) : List Nat := g.roles[role]?.getD []

/-- The only candidate of a role. -/
def single? (g : Group) (role : Nat) : Option Nat :=
  match g.candidates role with
  | [c] => some c
  | _ => none

def insertNew (cs : List Nat) (c : Nat) : List Nat := if cs.contains c then cs else cs ++ [c]

/-- A candidate that is present already keeps its place. -/
def add (g : Group) (role c : Nat) : Group :=
  { g with roles := g.roles.modify role (insertNew · c) }

def addAll (g : Group) (role : Nat) (cs : List Nat) : Group := cs.foldl (·.add role ·) g

def choose (g : Group) (role c : Nat) : Group := { g with roles := g.roles.set role [c] }

def explode (g : Group) (role : Nat) : List Group :=
  if (g.candidates role).length ≤ 1 then [g] else (g.candidates role).map (g.choose role)

@[simp] theorem anchor_seed (anchor n : Nat) : (seed anchor n).anchor = anchor := rfl

@[simp] theorem anchor_add (g : Group) (role c : Nat) : (g.add role c).anchor = g.anchor := rfl

@[simp] theorem anchor_choose (g : Group) (role c : Nat) : (g.choose role c).anchor = g.anchor := rfl

@[simp] theorem candidates_seed (anchor n role : Nat) : (seed anchor n).candidates role = [] := by
  simp only [candidates, seed, List.getElem?_replicate]
  split <;> rfl

theorem candidates_add_self {g : Group} {role : Nat} (c : Nat) (h : g.hasRole role = true) :
    (g.add role c).candidates role = insertNew (g.candidates role) c := by
  have h' : role < g.roles.length := by simpa [hasRole] using h
  simp [candidates, add, List.getElem?_modify_eq, List.getElem?_eq_getElem h']

theorem candidates_add_of_ne {g : Group} {role other : Nat} (c : Nat) (h : other ≠ role) :
    (g.add role c).candidates other = g.candidates other := by
  simp [candidates, add, Ne.symm h]

theorem candidates_choose_self {g : Group} {role : Nat} (c : Nat) (h : g.hasRole role = true) :
    (g.choose role c).candidates role = [c] := by
  have h' : role < g.roles.length := by simpa [hasRole] using h
  simp [candidates, choose, h']

theorem candidates_choose_of_ne {g : Group} {role other : Nat} (c : Nat) (h : other ≠ role) :
    (g.choose role c).candidates other = g.candidates other := by
  simp [candidates, choose, Ne.symm h]

theorem single?_eq_some_iff {g : Group} {role c : Nat} :
    g.single? role = some c ↔ g.candidates role = [c] := by
  unfold single?
  split <;> simp_all

end Group
end MemberBinding
