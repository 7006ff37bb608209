import MemberBinding.Json.Printer
import MemberBinding.Json.Reader

/-!
# Layouts

The two ways of writing a value differ only in their blanks: those before an item and before the end
of a container, and those after a colon. Main statements: `Layout.write_compact` and
`Layout.write_pretty`, by which both are instances of one writer.
-/

namespace MemberBinding

/-- Where a text of a value has blanks. -/
structure Layout where
  /-- Before an item or the end of a container, by the depth. -/
  gap : Nat → List Char
  /-- After a colon. -/
  space : List Char
  blank_of_mem_gap : ∀ depth, ∀ c ∈ gap depth, Reading.isBlank c = true
  blank_of_mem_space : ∀ c ∈ space, Reading.isBlank c = true

namespace Layout

def compact : Layout := ⟨fun _ => [], [], nofun, nofun⟩

def pretty : Layout where
  gap := Json.newline
  space := [' ']
  blank_of_mem_gap depth c hc := by
    rcases List.mem_cons.1 hc with rfl | hc
    · rfl
    · rw [List.eq_of_mem_replicate hc]
      rfl
  blank_of_mem_space c hc := by
    rw [List.mem_singleton.1 hc]
    rfl

section

variable (L : Layout)

mutual

/-- `depth` is the depth of the value that is written. -/
def write (depth : Nat) : Json → List Char
  | .array (j :: js) => '[' :: writeItems (depth + 1) (j :: js) ++ L.gap depth ++ [']']
  | .object (f :: fs) => '\x7b' :: writeFields (depth + 1) (f :: fs) ++ L.gap depth ++ ['\x7d']
  | j => j.atom

def writeItems (depth : Nat) : List Json → List Char
  | [] => []
  | [j] => L.gap depth ++ write depth j
  | j :: js => L.gap depth ++ write depth j ++ ',' :: writeItems depth js

def writeFields (depth : Nat) : List (String × Json) → List Char
  | [] => []
  | [(k, j)] => L.gap depth ++ Json.quote k ++ ':' :: L.space ++ write depth j
  | (k, j) :: fields =>
    L.gap depth ++ Json.quote k ++ ':' :: L.space ++ write depth j ++
      ',' :: writeFields depth fields

end

end

variable {L : Layout}

theorem writeItems_cons_cons (depth : Nat) (j j' : Json) (js : List Json) :
    L.writeItems depth (j :: j' :: js) =
      L.gap depth ++ L.write depth j ++ ',' :: L.writeItems depth (j' :: js) := rfl

theorem writeFields_cons_cons (depth : Nat) (k : String) (j : Json) (f : String × Json)
    (fields : List (String × Json)) :
    L.writeFields depth ((k, j) :: f :: fields) =
      L.gap depth ++ Json.quote k ++ ':' :: L.space ++ L.write depth j ++
        ',' :: L.writeFields depth (f :: fields) := rfl

/-- Items begin with the first of them. -/
theorem exists_writeItems_eq (L : Layout) (depth : Nat) (j : Json) (js : List Json) :
    ∃ tail, L.writeItems depth (j :: js) = L.gap depth ++ L.write depth j ++ tail := by
  cases js with
  | nil => exact ⟨[], (List.append_nil _).symm⟩
  | cons j' js => exact ⟨_, writeItems_cons_cons depth j j' js⟩

/-- Fields begin with the key of the first. -/
theorem exists_writeFields_eq (L : Layout) (depth : Nat) (f : String × Json)
    (fields : List (String × Json)) :
    ∃ tail, L.writeFields depth (f :: fields) = L.gap depth ++ (Json.quote f.1 ++ tail) := by
  obtain ⟨k, j⟩ := f
  cases fields with
  | nil => exact ⟨':' :: L.space ++ L.write depth j, by simp [writeFields]⟩
  | cons f fields =>
    exact ⟨':' :: L.space ++ L.write depth j ++ ',' :: L.writeFields depth (f :: fields),
      by simp [writeFields_cons_cons]⟩

mutual

theorem write_compact (depth : Nat) : (j : Json) → compact.write depth j = j.compact
  | .null | .bool true | .bool false | .number _ | .string _ => rfl
  | .array [] => rfl
  | .array (j :: js) => by
    rw [write, Json.compact, writeItems_compact]
    simp [compact]
  | .object [] => rfl
  | .object (f :: fields) => by
    rw [write, Json.compact, writeFields_compact]
    simp [compact]

theorem writeItems_compact (depth : Nat) :
    (js : List Json) → compact.writeItems depth js = Json.compactItems js
  | [] => rfl
  | [j] => write_compact depth j
  | j :: j' :: js => by
    rw [writeItems_cons_cons, Json.compactItems, write_compact, writeItems_compact]
    · rfl
    · simp

theorem writeFields_compact (depth : Nat) :
    (fields : List (String × Json)) → compact.writeFields depth fields = Json.compactFields fields
  | [] => rfl
  | [(k, j)] => by
    rw [writeFields, Json.compactFields, write_compact]
    simp [compact]
  | (k, j) :: f :: fields => by
    rw [writeFields_cons_cons, Json.compactFields, write_compact, writeFields_compact]
    · simp [compact]
    · simp

end

mutual

theorem write_pretty (depth : Nat) : (j : Json) → pretty.write depth j = j.pretty depth
  | .null | .bool true | .bool false | .number _ | .string _ => rfl
  | .array [] => rfl
  | .array (j :: js) => by
    rw [write, Json.pretty, writeItems_pretty]
    rfl
  | .object [] => rfl
  | .object (f :: fields) => by
    rw [write, Json.pretty, writeFields_pretty]
    rfl

theorem writeItems_pretty (depth : Nat) :
    (js : List Json) → pretty.writeItems depth js = Json.prettyItems depth js
  | [] => rfl
  | [j] => by
    rw [writeItems, Json.prettyItems, write_pretty]
    rfl
  | j :: j' :: js => by
    rw [writeItems_cons_cons, Json.prettyItems, write_pretty, writeItems_pretty]
    · rfl
    · simp

theorem writeFields_pretty (depth : Nat) : (fields : List (String × Json)) →
    pretty.writeFields depth fields = Json.prettyFields depth fields
  | [] => rfl
  | [(k, j)] => by
    rw [writeFields, Json.prettyFields, write_pretty]
    simp [pretty]
  | (k, j) :: f :: fields => by
    rw [writeFields_cons_cons, Json.prettyFields, write_pretty, writeFields_pretty]
    · simp [pretty]
    · simp

end

end Layout
end MemberBinding
