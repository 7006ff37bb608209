import MemberBinding.Binding.Command
import MemberBinding.Proofs.FieldBinding.Candidates

/-!
# What the links and names around a command say

Read off the members alone: which method a link of a property executes, which methods are selected,
and which members may fill each role of a command. The candidates of a run are compared with these
relations in `mem_canExecutes_iff` and its neighbours.
-/

namespace MemberBinding.Command

/-- The first of two methods is executed: it alone returns nothing, or neither does and it returns
no truth value. -/
def ExecutesFirst (types : TypeNames) (first second : Member) : Prop :=
  first.returns types.void = true ∧ second.returns types.void = false ∨
    first.returns types.void = false ∧ second.returns types.void = false ∧
      first.returns types.boolean = false

/-- The second of two methods is executed: it alone returns nothing, or neither does and the first
alone returns a truth value. -/
def ExecutesSecond (types : TypeNames) (first second : Member) : Prop :=
  first.returns types.void = false ∧ second.returns types.void = true ∨
    first.returns types.void = false ∧ second.returns types.void = false ∧
      first.returns types.boolean = true ∧ second.returns types.boolean = false

/-- The method that a link executes, with the other method when it names two. -/
inductive Executes (types : TypeNames) (s : Snapshot) (l : Link) : Nat → Option Nat → Prop
  | alone {e} (single : l.secondName = none) (execute : s.Designates .method l.name e) :
      Executes types s l e none
  | first {name e c} (second : l.secondName = some name)
      (execute : s.Designates .method l.name e) (canExecute : s.Designates .method name c)
      (order : ExecutesFirst types (s.member e) (s.member c)) : Executes types s l e (some c)
  | second {name e c} (second : l.secondName = some name)
      (execute : s.Designates .method name e) (canExecute : s.Designates .method l.name c)
      (order : ExecutesSecond types (s.member c) (s.member e)) : Executes types s l e (some c)

section

variable (config : Config) (s : Snapshot)

/-- The property carries a link that executes `e`, with `c` as the other method. -/
def Exposes (p e : Nat) (c : Option Nat) : Prop :=
  s.Available .property p ∧
    ∃ l ∈ (s.member p).linksOf .commandMethods, Executes config.types s l e c

/-- The method carries a link that asks it whether `e` can execute. -/
def Guards (c e : Nat) : Prop := s.PointsAt .method .executeMethod .method c e

/-- An explicit link fills the can-execute role of the method. -/
def GuardLinked (e : Nat) : Prop :=
  (s.member e).linksOf .canExecuteMethod ≠ [] ∨ (∃ c, Guards s c e) ∨
    ∃ p c, Exposes config s p e (some c)

/-- An explicit link fills the property role of the method. -/
def PropertyLinked (e : Nat) : Prop :=
  (s.member e).linksOf .command ≠ [] ∨ ∃ p c, Exposes config s p e c

/-- An explicit link, on either side, makes the method one to execute. -/
def Linked (e : Nat) : Prop :=
  (s.member e).linksOf .canExecuteMethod ≠ [] ∨ (s.member e).linksOf .command ≠ [] ∨
    (∃ c, Guards s c e) ∨ ∃ p c, Exposes config s p e c

def WellNamed (e : Nat) : Prop :=
  (config.conventions.of .executeMethod).accepts (s.member e).name = true ∨
    (s.member e).requiresExplicitLink = true

/-- The marks of a member ask for the method to be executed. -/
def Marked (mode : Mode) (e : Nat) : Prop :=
  Linked config s e ∨ (mode = .selectively ∧ (s.member e).isIncluded = true)

/-- What the mode asks of a method to execute, besides its name. -/
def Chosen (mode : Mode) (e : Nat) : Prop :=
  match mode with
  | .all => Linked config s e ∨
      ((s.member e).parameters = [] ∧ (s.member e).returnType = some config.types.void)
  | .selectively => (s.member e).isIncluded = true ∨ Linked config s e

structure Selected (mode : Mode) (e : Nat) : Prop extends s.Available .method e where
  named : WellNamed config s e
  chosen : Chosen config s mode e

/-- The methods that may say whether `e` can execute in a binding with property `p`. -/
inductive CanExecuteCandidate (e : Nat) (p : Option Nat) : Nat → Prop
  | named {c} (searches : config.Searches (s.member e) (GuardLinked config s e))
      (matched : s.MatchesName config.conventions .executeMethod .canExecuteMethod .method e c) :
      CanExecuteCandidate e p c
  | forward {c l} (carried : l ∈ (s.member e).linksOf .canExecuteMethod)
      (designated : s.Designates .method l.name c) : CanExecuteCandidate e p c
  | reverse {c} (guards : Guards s c e) : CanExecuteCandidate e p c
  | companion {q c} (bound : p = some q) (exposes : Exposes config s q e (some c)) :
      CanExecuteCandidate e p c

/-- The properties that may expose `e`. -/
inductive PropertyCandidate (e : Nat) : Nat → Prop
  | named {p} (searches : config.Searches (s.member e) (PropertyLinked config s e))
      (matched : s.MatchesName config.conventions .executeMethod .commandProperty .property e p) :
      PropertyCandidate e p
  | forward {p l} (carried : l ∈ (s.member e).linksOf .command)
      (designated : s.Designates .property l.name p) : PropertyCandidate e p
  | reverse {p c} (exposes : Exposes config s p e c) : PropertyCandidate e p

/-- The fields that may stand behind the property `p` of a command. -/
def BackingCandidate (p f : Nat) : Prop :=
  FieldCandidate config s .commandProperty .commandField p f

end

variable {config : Config} {s : Snapshot}

theorem chosen_iff {mode : Mode} {e : Nat} :
    Chosen config s mode e ↔ Marked config s mode e ∨ (mode = .all ∧
      (s.member e).parameters = [] ∧ (s.member e).returnType = some config.types.void) := by
  cases mode <;> simp [Chosen, Marked, or_comm]

theorem Executes.available {types : TypeNames} {l : Link} {e : Nat} {c : Option Nat}
    (h : Executes types s l e c) :
    s.Available .method e ∧ ∀ m, c = some m → s.Available .method m := by
  cases h with
  | alone _ execute => exact ⟨execute.toAvailable, nofun⟩
  | first _ execute canExecute _ | second _ execute canExecute _ =>
    refine ⟨execute.toAvailable, ?_⟩
    rintro m ⟨⟩
    exact canExecute.toAvailable

theorem CanExecuteCandidate.available {e c : Nat} {p : Option Nat}
    (h : CanExecuteCandidate config s e p c) : s.Available .method c := by
  cases h with
  | named _ matched => exact matched.1
  | forward _ designated => exact designated.toAvailable
  | reverse guards => exact guards.1
  | companion _ exposes =>
    obtain ⟨-, l, -, hl⟩ := exposes
    exact hl.available.2 c rfl

theorem PropertyCandidate.available {e p : Nat} (h : PropertyCandidate config s e p) :
    s.Available .property p := by
  cases h with
  | named _ matched => exact matched.1
  | forward _ designated => exact designated.toAvailable
  | reverse exposes => exact exposes.1

theorem pairOrder_eq_asWritten_iff {types : TypeNames} {site : LinkSite} {first second : Member} :
    pairOrder types site first second = .ok .asWritten ↔ ExecutesFirst types first second := by
  unfold pairOrder ExecutesFirst
  cases first.returns types.void <;> cases second.returns types.void <;>
    cases first.returns types.boolean <;> cases second.returns types.boolean <;> simp

theorem pairOrder_eq_swapped_iff {types : TypeNames} {site : LinkSite} {first second : Member} :
    pairOrder types site first second = .ok .swapped ↔ ExecutesSecond types first second := by
  unfold pairOrder ExecutesSecond
  cases first.returns types.void <;> cases second.returns types.void <;>
    cases first.returns types.boolean <;> cases second.returns types.boolean <;> simp

end MemberBinding.Command
