import MemberBinding.Text.CaseTable

/-!
# Full case mapping

A character maps to a list of characters. Only the lower case of a sigma depends on its
neighbours: it is final when a cased letter comes before it and none comes after. On ASCII text
the mappings are `Char.toLower` and `Char.toUpper`.
-/

namespace MemberBinding.CaseMapping

def isAscii (c : Char) : Bool := c.toNat < 0x80

private def mapped (long : List (Nat × List Nat)) (runs : List CaseTable.Run) (c : Char) :
    List Char :=
  match long.lookup c.toNat with
  | some cs => cs.map Char.ofNat
  | none => [((runs.findSome? (·.map? c.toNat)).map Char.ofNat).getD c]

def lowerChar (c : Char) : List Char :=
  if isAscii c then [c.toLower] else mapped CaseTable.longLower CaseTable.lowerRuns c

def upperChar (c : Char) : List Char :=
  if isAscii c then [c.toUpper] else mapped CaseTable.longUpper CaseTable.upperRuns c

private def inRanges (ranges : List (Nat × Nat)) (c : Char) : Bool :=
  ranges.any fun r => r.1 ≤ c.toNat && c.toNat ≤ r.2

def isIgnorable (c : Char) : Bool := inRanges CaseTable.ignorable c

def isCased (c : Char) : Bool := inRanges CaseTable.cased c

def startsCased (s : List Char) : Bool :=
  match s.dropWhile isIgnorable with
  | [] => false
  | c :: _ => isCased c

/-- `afterCased` says whether the last character before `s` that is not passed over is cased. -/
def lowerAfter (afterCased : Bool) : List Char → List Char
  | [] => []
  | c :: s =>
    (if c = 'Σ' ∧ afterCased ∧ !startsCased s then ['ς'] else lowerChar c) ++
      lowerAfter (if isIgnorable c then afterCased else isCased c) s

def lower (s : List Char) : List Char := lowerAfter false s

def upper (s : List Char) : List Char := s.flatMap upperChar

/-- The first character in upper case, each other one in lower case by itself: no sigma is final. -/
def capitalize : List Char → List Char
  | [] => []
  | c :: s => upperChar c ++ s.flatMap lowerChar

theorem lowerChar_ascii {c : Char} (h : isAscii c = true) : lowerChar c = [c.toLower] := by
  simp [lowerChar, h]

theorem upperChar_ascii {c : Char} (h : isAscii c = true) : upperChar c = [c.toUpper] := by
  simp [upperChar, h]

private theorem flatMap_singleton_of {f : Char → List Char} {g : Char → Char} {s : List Char}
    (h : ∀ c ∈ s, f c = [g c]) : s.flatMap f = s.map g := by
  induction s with
  | nil => rfl
  | cons c s ih =>
    simp [h c (by simp), ih fun d hd => h d (by simp [hd])]

theorem upper_ascii {s : List Char} (h : s.all isAscii = true) : upper s = s.map Char.toUpper :=
  flatMap_singleton_of fun c hc => upperChar_ascii (List.all_eq_true.1 h c hc)

theorem lowerAfter_ascii {b : Bool} {s : List Char} (h : s.all isAscii = true) :
    lowerAfter b s = s.map Char.toLower := by
  induction s generalizing b with
  | nil => rfl
  | cons c s ih =>
    simp only [List.all_cons, Bool.and_eq_true] at h
    have hc : c ≠ 'Σ' := by rintro rfl; exact absurd h.1 (by decide)
    simp [lowerAfter, hc, lowerChar_ascii h.1, ih h.2]

theorem lower_ascii {s : List Char} (h : s.all isAscii = true) : lower s = s.map Char.toLower :=
  lowerAfter_ascii h

theorem capitalize_ascii {c : Char} {s : List Char} (h : (c :: s).all isAscii = true) :
    capitalize (c :: s) = c.toUpper :: s.map Char.toLower := by
  simp only [List.all_cons, Bool.and_eq_true] at h
  simp [capitalize, upperChar_ascii h.1,
    flatMap_singleton_of fun d hd => lowerChar_ascii (List.all_eq_true.1 h.2 d hd)]

end MemberBinding.CaseMapping
