/-!
# Regular patterns over characters

`Matches` is the language of a pattern; `accepts` decides it by taking the derivative at each
character. Main statement: `accepts_iff`.
-/

namespace MemberBinding

inductive Pattern
  | never
  | blank
  | one (allowed : Char → Bool)
  | seq (first second : Pattern)
  | alt (left right : Pattern)
  | many (body : Pattern)

namespace Pattern

inductive Matches : Pattern → List Char → Prop
  | blank : Matches .blank []
  | one {allowed : Char → Bool} {c : Char} (h : allowed c = true) : Matches (.one allowed) [c]
  | seq {p q : Pattern} {s t : List Char} (hp : Matches p s) (hq : Matches q t) :
      Matches (.seq p q) (s ++ t)
  | left {p q : Pattern} {s : List Char} (h : Matches p s) : Matches (.alt p q) s
  | right {p q : Pattern} {s : List Char} (h : Matches q s) : Matches (.alt p q) s
  | manyNil {p : Pattern} : Matches (.many p) []
  | manyCons {p : Pattern} {s t : List Char} (hp : Matches p s) (hs : Matches (.many p) t) :
      Matches (.many p) (s ++ t)

/-- At least one repetition. -/
def repeated (p : Pattern) : Pattern := .seq p (.many p)

def optional (p : Pattern) : Pattern := .alt p .blank

def nullable : Pattern → Bool
  | never => false
  | blank => true
  | one _ => false
  | seq p q => p.nullable && q.nullable
  | alt p q => p.nullable || q.nullable
  | many _ => true

/-- Sequence that drops the parts which cannot or need not match, so that derivatives stay small. -/
def seq' : Pattern → Pattern → Pattern
  | never, _ => never
  | _, never => never
  | blank, q => q
  | p, q => .seq p q

def alt' : Pattern → Pattern → Pattern
  | never, q => q
  | p, never => p
  | p, q => .alt p q

/-- What may follow `c`. -/
def deriv (c : Char) : Pattern → Pattern
  | never => never
  | blank => never
  | one allowed => if allowed c then blank else never
  | seq p q =>
    if p.nullable then alt' (seq' (p.deriv c) q) (q.deriv c) else seq' (p.deriv c) q
  | alt p q => alt' (p.deriv c) (q.deriv c)
  | many p => seq' (p.deriv c) (many p)

def accepts : Pattern → List Char → Bool
  | p, [] => p.nullable
  | p, c :: s => (p.deriv c).accepts s

@[simp] theorem accepts_nil (p : Pattern) : p.accepts [] = p.nullable := by
  cases p <;> rfl

@[simp] theorem accepts_cons (p : Pattern) (c : Char) (s : List Char) :
    p.accepts (c :: s) = (p.deriv c).accepts s := by
  cases p <;> rfl

theorem not_matches_never {s : List Char} : ¬Matches never s := nofun

theorem matches_blank_iff {s : List Char} : Matches blank s ↔ s = [] :=
  ⟨fun h => by cases h; rfl, fun h => h ▸ .blank⟩

theorem matches_one_iff {allowed : Char → Bool} {s : List Char} :
    Matches (one allowed) s ↔ ∃ c, allowed c = true ∧ s = [c] :=
  ⟨fun h => by cases h with | one h => exact ⟨_, h, rfl⟩, fun ⟨_, h, hs⟩ => hs ▸ .one h⟩

theorem matches_seq_iff {p q : Pattern} {s : List Char} :
    Matches (seq p q) s ↔ ∃ t u, Matches p t ∧ Matches q u ∧ s = t ++ u :=
  ⟨fun h => by cases h with | seq hp hq => exact ⟨_, _, hp, hq, rfl⟩,
    fun ⟨_, _, hp, hq, hs⟩ => hs ▸ .seq hp hq⟩

theorem matches_alt_iff {p q : Pattern} {s : List Char} :
    Matches (alt p q) s ↔ Matches p s ∨ Matches q s :=
  ⟨fun h => by cases h with | left h => exact .inl h | right h => exact .inr h,
    fun h => h.elim .left .right⟩

theorem matches_seq'_iff {p q : Pattern} {s : List Char} :
    Matches (seq' p q) s ↔ Matches (seq p q) s := by
  unfold seq'
  split <;> simp [matches_seq_iff, not_matches_never, matches_blank_iff]

theorem matches_alt'_iff {p q : Pattern} {s : List Char} :
    Matches (alt' p q) s ↔ Matches (alt p q) s := by
  unfold alt'
  split <;> simp [matches_alt_iff, not_matches_never]

theorem nullable_iff {p : Pattern} : p.nullable = true ↔ Matches p [] := by
  induction p with
  | never => simp [nullable, not_matches_never]
  | blank => simp [nullable, matches_blank_iff]
  | one => simp [nullable, matches_one_iff]
  | seq p q hp hq =>
    simp only [nullable, Bool.and_eq_true, hp, hq, matches_seq_iff]
    exact ⟨fun ⟨h, h'⟩ => ⟨[], [], h, h', rfl⟩, fun ⟨t, u, h, h', e⟩ => by
      simp only [List.nil_eq_append_iff] at e
      exact ⟨e.1 ▸ h, e.2 ▸ h'⟩⟩
  | alt p q hp hq => simp [nullable, hp, hq, matches_alt_iff]
  | many => simp [nullable, Matches.manyNil]

private theorem matches_many_cons_iff {p : Pattern} {c : Char} {s : List Char} :
    Matches (many p) (c :: s) ↔ ∃ t u, Matches p (c :: t) ∧ Matches (many p) u ∧ s = t ++ u := by
  constructor
  · intro h
    generalize hp : many p = q at h
    generalize hs : c :: s = cs at h
    induction h with
    | blank | one | seq | left | right => cases hp
    | manyNil => cases hs
    | @manyCons p' t u ht hu _ ih =>
      cases hp
      cases t with
      | nil => exact ih rfl hs
      | cons d t =>
        simp only [List.cons_append, List.cons.injEq] at hs
        obtain ⟨rfl, rfl⟩ := hs
        exact ⟨t, u, ht, hu, rfl⟩
  · rintro ⟨t, u, ht, hu, rfl⟩
    exact .manyCons (s := c :: t) ht hu

theorem matches_deriv_iff {p : Pattern} {c : Char} {s : List Char} :
    Matches (p.deriv c) s ↔ Matches p (c :: s) := by
  induction p generalizing s with
  | never => simp [deriv, not_matches_never]
  | blank => simp [deriv, not_matches_never, matches_blank_iff]
  | one allowed =>
    by_cases h : allowed c = true
    · simp only [deriv, h, if_true, matches_blank_iff, matches_one_iff]
      exact ⟨fun e => ⟨c, h, e ▸ rfl⟩, fun ⟨d, _, e⟩ => (List.cons.inj e).2⟩
    · simp only [deriv, h, matches_one_iff]
      exact ⟨fun e => (not_matches_never e).elim,
        fun ⟨d, hd, e⟩ => absurd ((List.cons.inj e).1 ▸ hd) h⟩
  | seq p q hp hq =>
    have key : Matches (seq p q) (c :: s) ↔
        (∃ t u, Matches p (c :: t) ∧ Matches q u ∧ s = t ++ u) ∨
          (Matches p [] ∧ Matches q (c :: s)) := by
      rw [matches_seq_iff]
      constructor
      · rintro ⟨t, u, ht, hu, e⟩
        cases t with
        | nil => exact .inr ⟨ht, by simpa [e] using hu⟩
        | cons d t =>
          simp only [List.cons_append, List.cons.injEq] at e
          exact .inl ⟨t, u, e.1 ▸ ht, hu, e.2⟩
      · rintro (⟨t, u, ht, hu, rfl⟩ | ⟨h, h'⟩)
        · exact ⟨c :: t, u, ht, hu, rfl⟩
        · exact ⟨[], c :: s, h, h', rfl⟩
    by_cases h : p.nullable = true
    · simp [deriv, h, matches_alt'_iff, matches_alt_iff, matches_seq'_iff, matches_seq_iff, hp, hq,
        key, nullable_iff.1 h]
    · simp [deriv, h, matches_seq'_iff, matches_seq_iff, hp, key, mt nullable_iff.2 h]
  | alt p q hp hq => simp [deriv, matches_alt'_iff, matches_alt_iff, hp, hq]
  | many p hp => simp [deriv, matches_seq'_iff, matches_seq_iff, hp, matches_many_cons_iff]

theorem accepts_iff {p : Pattern} {s : List Char} : p.accepts s = true ↔ Matches p s := by
  induction s generalizing p with
  | nil => simp [nullable_iff]
  | cons c s ih => simp [ih, matches_deriv_iff]

end Pattern
end MemberBinding
