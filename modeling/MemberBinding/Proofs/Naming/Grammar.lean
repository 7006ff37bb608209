import MemberBinding.Proofs.Naming.RoundTrip
import Mathlib.Data.List.Chain

/-!
# The grammar of a scheme

The bodies of a scheme by conditions on single characters and their neighbours, and the pieces that
a body falls into. Main statement: `accepts_iff_grammar`.
-/

namespace MemberBinding.Scheme

variable {sep later : Char → Bool} {s : List Char}

/-! ## Conditions on characters and their neighbours -/

def Starts (first : Char → Bool) (s : List Char) : Prop := ∃ c ∈ s.head?, first c = true

/-- No two neighbours are both separators. -/
def Apart (sep : Char → Bool) (s : List Char) : Prop :=
  s.IsChain fun c d => ¬(sep c = true ∧ sep d = true)

/-- Immediately after each separator stands one of `later`. -/
def Followed (sep later : Char → Bool) (s : List Char) : Prop :=
  ∀ c t, c :: t <:+ s → sep c = true → Starts later t

def isUnderscore (c : Char) : Bool := c == '_'

def Grammar : Scheme → List Char → Prop
  | allLower, s => Starts Char.isLower s ∧
      (∀ c ∈ s, lowerOrDigit c = true ∨ isUnderscore c = true) ∧ Apart isUnderscore s
  | allUpper, s => Starts Char.isUpper s ∧
      (∀ c ∈ s, upperOrDigit c = true ∨ isUnderscore c = true) ∧ Apart isUnderscore s
  | firstUpper, s => Starts Char.isUpper s ∧
      (∀ c ∈ s.tail, lowerOrDigit c = true ∨ isUnderscore c = true) ∧ Apart isUnderscore s
  | lowerCamel, s => Starts Char.isLower s ∧
      (∀ c ∈ s, c.isAlphanum = true) ∧ Followed Char.isUpper lowerOrDigit s
  | upperCamel, s => Starts Char.isUpper s ∧
      (∀ c ∈ s, c.isAlphanum = true) ∧ Apart Char.isUpper s

@[simp] theorem starts_nil {first : Char → Bool} : ¬Starts first [] := by
  simp [Starts]

@[simp] theorem starts_cons {first : Char → Bool} {c : Char} :
    Starts first (c :: s) ↔ first c = true := by
  simp [Starts]

@[simp] theorem apart_nil : Apart sep [] := List.isChain_nil

theorem apart_cons {c : Char} :
    Apart sep (c :: s) ↔ (sep c = true → ¬Starts sep s) ∧ Apart sep s := by
  rw [Apart, List.isChain_cons]
  cases s <;> simp [Apart, Starts]

@[simp] theorem followed_nil : Followed sep later [] := by
  simp [Followed]

theorem followed_cons {c : Char} :
    Followed sep later (c :: s) ↔ (sep c = true → Starts later s) ∧ Followed sep later s := by
  simp only [Followed, List.suffix_cons_iff]
  constructor
  · intro h
    exact ⟨h c s (.inl rfl), fun d t ht => h d t (.inr ht)⟩
  · rintro ⟨hc, h⟩ d t (heq | ht)
    · obtain ⟨rfl, rfl⟩ := List.cons.inj heq
      exact hc
    · exact h d t ht

/-! ## What follows the first character -/

/-- A run of `later`, and the rest of the body after it. -/
def tail (later : Char → Bool) (rest : Pattern) : Pattern := .seq (.many (.one later)) rest

section Tail

variable {rest : Pattern} (hdisjoint : ∀ c, later c = true → sep c = false)

include hdisjoint in
/-- A separator may stand last. -/
theorem matches_tail_iff_apart
    (hrest : ∀ s, rest.Matches s ↔ s = [] ∨ Pattern.Matches (.seq (.one sep) .blank) s ∨
      Pattern.Matches (.seq (.one sep) (.seq (.one later) (tail later rest))) s) :
    ((tail later rest).Matches s ↔ (∀ c ∈ s, later c = true ∨ sep c = true) ∧ Apart sep s) ∧
      (s = [] ∨ Pattern.Matches (.seq (.one later) (tail later rest)) s ↔
        (tail later rest).Matches s ∧ ¬Starts sep s) := by
  have hunfold (s : List Char) : (tail later rest).Matches s ↔ rest.Matches s ∨
      Pattern.Matches (.seq (.one later) (tail later rest)) s := Pattern.matches_many_seq_iff
  induction s with
  | nil => simp [hunfold, hrest]
  | cons c s ih =>
    have hc := hdisjoint c
    simp only [hunfold (c :: s), hrest, Pattern.matches_one_seq_cons_iff, apart_cons, starts_cons,
      List.forall_mem_cons, Pattern.matches_blank_iff]
    grind

include hdisjoint in
/-- No separator stands last. -/
theorem matches_tail_iff_followed
    (hrest : ∀ s, rest.Matches s ↔ s = [] ∨
      Pattern.Matches (.seq (.one sep) (.seq (.one later) (tail later rest))) s) :
    ((tail later rest).Matches s ↔ (∀ c ∈ s, later c = true ∨ sep c = true) ∧
        Followed sep later s) ∧
      (Pattern.Matches (.seq (.one later) (tail later rest)) s ↔
        (tail later rest).Matches s ∧ Starts later s) := by
  have hunfold (s : List Char) : (tail later rest).Matches s ↔ rest.Matches s ∨
      Pattern.Matches (.seq (.one later) (tail later rest)) s := Pattern.matches_many_seq_iff
  induction s with
  | nil => simp [hunfold, hrest, Pattern.not_matches_one_seq_nil]
  | cons c s ih =>
    have hc := hdisjoint c
    simp only [hunfold (c :: s), hrest, Pattern.matches_one_seq_cons_iff, followed_cons,
      starts_cons, List.forall_mem_cons]
    grind

end Tail

theorem isUnderscore_eq_false {allowed : Char → Bool} (h : allowed '_' = false) {c : Char}
    (hc : allowed c = true) : isUnderscore c = false := by
  rw [isUnderscore, beq_eq_false_iff_ne]
  rintro rfl
  rw [h] at hc
  cases hc

private theorem matches_spacedPattern_iff {first : Char → Bool} (hlater : later '_' = false)
    {c : Char} :
    (spacedPattern first later).Matches (c :: s) ↔ first c = true ∧
      (∀ d ∈ s, later d = true ∨ isUnderscore d = true) ∧ Apart isUnderscore s := by
  rw [spacedPattern, Pattern.matches_one_seq_cons_iff]
  refine and_congr_right fun _ => ?_
  refine (matches_tail_iff_apart (fun _ => isUnderscore_eq_false hlater) fun s => ?_).1
  rw [Pattern.matches_many_seq_iff, Pattern.matches_run_seq_iff, Pattern.optional,
    Pattern.matches_alt_iff, Pattern.matches_seq_blank_iff, Pattern.matches_blank_iff]
  exact (or_congr_left or_comm).trans or_assoc

theorem isAlphanum_iff {c : Char} :
    c.isAlphanum = true ↔ lowerOrDigit c = true ∨ c.isUpper = true := by
  have halphanum : c.isAlphanum = ((c.isUpper || c.isLower) || c.isDigit) := rfl
  simp only [halphanum, lowerOrDigit, Bool.or_eq_true]
  tauto

private theorem matches_lowerCamel_iff {c : Char} :
    lowerCamel.pattern.Matches (c :: s) ↔ c.isLower = true ∧
      (∀ d ∈ s, d.isAlphanum = true) ∧ Followed Char.isUpper lowerOrDigit s := by
  rw [pattern, Pattern.matches_one_seq_cons_iff]
  simp only [isAlphanum_iff]
  refine and_congr_right fun _ => ?_
  refine (matches_tail_iff_followed (fun _ => isUpper_eq_false) fun s => ?_).1
  rw [Pattern.matches_many_iff_eq_nil_or, capitalWord, Pattern.matches_run_seq_iff]
  rfl

/-- Words after the first, as far as there are any. -/
private theorem matches_upperCamel_unfold :
    upperCamel.pattern.Matches s ↔ Pattern.Matches (.seq (.one Char.isUpper) .blank) s ∨
      Pattern.Matches (.seq (.one Char.isUpper) (.seq (.one lowerOrDigit)
        (tail lowerOrDigit upperCamel.pattern.optional))) s := by
  have hlast : Pattern.Matches (.alt capitalWord (.one Char.isUpper)) s ∨
      Pattern.Matches (.seq capitalWord upperCamel.pattern) s ↔
      Pattern.Matches (.one Char.isUpper) s ∨
        Pattern.Matches (.seq capitalWord upperCamel.pattern.optional) s := by
    rw [Pattern.optional, Pattern.matches_seq_alt_iff, Pattern.matches_seq_blank_iff,
      Pattern.matches_alt_iff]
    tauto
  rw [pattern, Pattern.matches_many_seq_iff]
  refine hlast.trans ?_
  rw [capitalWord, Pattern.matches_run_seq_iff, Pattern.matches_seq_blank_iff]
  rfl

private theorem matches_upperCamel_iff {c : Char} :
    upperCamel.pattern.Matches (c :: s) ↔ c.isUpper = true ∧
      ¬Starts Char.isUpper s ∧ (∀ d ∈ s, d.isAlphanum = true) ∧ Apart Char.isUpper s := by
  have hrest (s : List Char) : upperCamel.pattern.optional.Matches s ↔ s = [] ∨
      Pattern.Matches (.seq (.one Char.isUpper) .blank) s ∨
      Pattern.Matches (.seq (.one Char.isUpper) (.seq (.one lowerOrDigit)
        (tail lowerOrDigit upperCamel.pattern.optional))) s := by
    rw [Pattern.optional, Pattern.matches_alt_iff, Pattern.matches_blank_iff, or_comm,
      matches_upperCamel_unfold]
    rfl
  have htail := matches_tail_iff_apart (s := s) (fun _ => isUpper_eq_false) hrest
  rw [matches_upperCamel_unfold]
  simp only [Pattern.matches_one_seq_cons_iff, Pattern.matches_blank_iff, ← and_or_left,
    isAlphanum_iff]
  rw [htail.2, htail.1, and_comm (b := ¬Starts _ _)]

/-! ## Bodies -/

/-- The pattern of a scheme matches what its grammar describes. -/
theorem isBody_iff_grammar {sch : Scheme} {body : List Char} :
    sch.isBody body = true ↔ sch.Grammar body := by
  rw [isBody_iff_matches]
  cases body with
  | nil =>
    rw [← Pattern.nullable_iff]
    cases sch <;> simp [Grammar, pattern, spacedPattern, capitalWord, Pattern.repeated,
      Pattern.nullable]
  | cons c s =>
    cases sch with
    | allLower =>
      have hunderscore : c.isLower = true → isUnderscore c = false :=
        isUnderscore_eq_false (by decide)
      have hletter : c.isLower = true → lowerOrDigit c = true := lowerOrDigit_of_isLower
      rw [pattern, matches_spacedPattern_iff (by decide)]
      simp only [Grammar, starts_cons, apart_cons, List.forall_mem_cons]
      grind
    | allUpper =>
      have hunderscore : c.isUpper = true → isUnderscore c = false :=
        isUnderscore_eq_false (by decide)
      have hletter : c.isUpper = true → upperOrDigit c = true := by simp +contextual [upperOrDigit]
      rw [pattern, matches_spacedPattern_iff (by decide)]
      simp only [Grammar, starts_cons, apart_cons, List.forall_mem_cons]
      grind
    | firstUpper =>
      have hunderscore : c.isUpper = true → isUnderscore c = false :=
        isUnderscore_eq_false (by decide)
      rw [pattern, matches_spacedPattern_iff (by decide)]
      simp only [Grammar, starts_cons, apart_cons, List.tail_cons]
      grind
    | lowerCamel =>
      have hletter : c.isLower = true → c.isAlphanum = true ∧ c.isUpper = false := fun h =>
        ⟨isAlphanum_iff.2 (.inl (lowerOrDigit_of_isLower h)),
          isUpper_eq_false (lowerOrDigit_of_isLower h)⟩
      rw [matches_lowerCamel_iff]
      simp only [Grammar, starts_cons, followed_cons, List.forall_mem_cons]
      grind
    | upperCamel =>
      have hletter : c.isUpper = true → c.isAlphanum = true := fun h => isAlphanum_iff.2 (.inr h)
      rw [matches_upperCamel_iff]
      simp only [Grammar, starts_cons, apart_cons, List.forall_mem_cons]
      grind

/-! ## Words -/

/-- What a body falls into: between underscores, or at upper-case letters, each of which opens a
piece of its own. -/
def Pieces : Scheme → List Char → List (List Char) → Prop
  | allLower, s, pieces | allUpper, s, pieces | firstUpper, s, pieces =>
    pieces ≠ [] ∧ ['_'].intercalate pieces = s ∧ ∀ p ∈ pieces, '_' ∉ p
  | lowerCamel, s, pieces | upperCamel, s, pieces =>
    pieces.flatten = s ∧ (∀ p ∈ pieces, p ≠ [] ∧ ∀ d ∈ p.tail, d.isUpper = false) ∧
      ∀ p ∈ pieces.tail, Starts Char.isUpper p

private theorem not_mem_of_mem_splitOn {x : Char} : ∀ p ∈ s.splitOn x, x ∉ p := by
  induction s with
  | nil => simp
  | cons c s ih =>
    rw [List.splitOn_cons_eq_if_modifyHead]
    obtain ⟨p, ps, hps⟩ := List.exists_cons_of_ne_nil (List.splitOn_ne_nil x s)
    rw [hps] at ih ⊢
    split
    · simpa using ih
    · rename_i hc
      obtain ⟨hp, hps⟩ := List.forall_mem_cons.1 ih
      have hne : x ≠ c := fun h => hc (beq_iff_eq.2 h.symm)
      exact List.forall_mem_cons.2 ⟨List.not_mem_cons_of_ne_of_not_mem hne hp, hps⟩

private theorem splitOn_eq_iff {pieces : List (List Char)} :
    s.splitOn '_' = pieces ↔
      pieces ≠ [] ∧ ['_'].intercalate pieces = s ∧ ∀ p ∈ pieces, '_' ∉ p := by
  constructor
  · rintro rfl
    exact ⟨List.splitOn_ne_nil '_' s, List.intercalate_splitOn '_', not_mem_of_mem_splitOn⟩
  · rintro ⟨hne, rfl, hpieces⟩
    exact List.splitOn_intercalate '_' hpieces hne

private theorem exists_camel_pieces (s : List Char) :
    ∃ pieces, lowerCamel.Pieces s pieces := by
  induction s with
  | nil => exact ⟨[], by simp [Pieces]⟩
  | cons c s ih =>
    obtain ⟨pieces, rfl, hpieces, hlater⟩ := ih
    cases pieces with
    | nil => exact ⟨[[c]], by simp [Pieces]⟩
    | cons p ps =>
      obtain ⟨⟨hne, htail⟩, hps⟩ := List.forall_mem_cons.1 hpieces
      obtain ⟨d, t, rfl⟩ := List.exists_cons_of_ne_nil hne
      by_cases hd : d.isUpper = true
      · refine ⟨[c] :: (d :: t) :: ps, rfl, ?_, ?_⟩
        · exact List.forall_mem_cons.2 ⟨by simp, hpieces⟩
        · exact List.forall_mem_cons.2 ⟨starts_cons.2 hd, hlater⟩
      · refine ⟨(c :: d :: t) :: ps, rfl, ?_, hlater⟩
        refine List.forall_mem_cons.2 ⟨⟨List.cons_ne_nil _ _, ?_⟩, hps⟩
        exact List.forall_mem_cons.2 ⟨by simpa using hd, htail⟩

private theorem camelWords_flatten {pieces : List (List Char)}
    (hpieces : ∀ p ∈ pieces, p ≠ [] ∧ ∀ d ∈ p.tail, d.isUpper = false)
    (hlater : ∀ p ∈ pieces.tail, Starts Char.isUpper p) :
    camelWords pieces.flatten = pieces.map (·.map Char.toLower) := by
  induction pieces with
  | nil => rfl
  | cons p ps ih =>
    obtain ⟨⟨hne, htail⟩, hps⟩ := List.forall_mem_cons.1 hpieces
    obtain ⟨c, t, rfl⟩ := List.exists_cons_of_ne_nil hne
    have hrest : ∀ d ∈ ps.flatten.head?, d.isUpper = true := by
      cases ps with
      | nil => simp
      | cons q qs =>
        obtain ⟨d, hd, hupper⟩ := hlater q (by simp)
        obtain ⟨u, rfl⟩ := List.head?_eq_some_iff.1 hd
        simpa using hupper
    rw [List.flatten_cons, List.cons_append, camelWords_append (t := t) htail hrest,
      ih hps fun q hq => hlater q (List.mem_of_mem_tail hq)]
    rfl

private theorem camelWords_eq_iff {words : List (List Char)} :
    camelWords s = words ↔
      ∃ pieces, lowerCamel.Pieces s pieces ∧ pieces.map (·.map Char.toLower) = words := by
  constructor
  · rintro rfl
    obtain ⟨pieces, h⟩ := exists_camel_pieces s
    obtain ⟨rfl, hpieces, hlater⟩ := h
    exact ⟨pieces, ⟨rfl, hpieces, hlater⟩, (camelWords_flatten hpieces hlater).symm⟩
  · rintro ⟨pieces, ⟨rfl, hpieces, hlater⟩, rfl⟩
    exact camelWords_flatten hpieces hlater

/-- The words of a body are its pieces in lower case. -/
theorem splitBody_eq_iff {sch : Scheme} {words : List (List Char)} :
    sch.splitBody s = words ↔
      ∃ pieces, sch.Pieces s pieces ∧ pieces.map (·.map Char.toLower) = words := by
  cases sch with
  | allLower | allUpper | firstUpper =>
    simp only [Pieces, ← splitOn_eq_iff, exists_eq_left']
    rfl
  | lowerCamel | upperCamel => exact camelWords_eq_iff

end MemberBinding.Scheme

namespace MemberBinding.Convention

variable {c : Convention} {name : String}

theorem body?_eq_some_iff_grammar {body : String} :
    c.body? name = some body.toList ↔
      name = c.before ++ body ++ c.after ∧ c.scheme.Grammar body.toList := by
  rw [body?_eq_some_iff, Scheme.isBody_iff_grammar, ← String.toList_append, ← String.toList_append,
    String.toList_inj]

theorem segment_eq_ok_iff_body? {words : List String} :
    c.segment name = .ok words ↔
      ∃ body, c.body? name = some body ∧ words = (c.scheme.splitBody body).map String.ofList := by
  rw [segment]
  cases c.body? name <;> simp [eq_comm]

/-- A convention accepts the names that hold one body of its grammar between the affixes, and the
words of such a name are the pieces of that body in lower case. -/
theorem accepts_iff_grammar (c : Convention) (name : String) :
    (c.accepts name = true ↔ ∃! body : String,
      name = c.before ++ body ++ c.after ∧ c.scheme.Grammar body.toList) ∧
    ((∃ words, c.segment name = .ok words) ↔ c.accepts name = true) ∧
    ∀ words, c.segment name = .ok words ↔ ∃ (body : String) (pieces : List (List Char)),
      (name = c.before ++ body ++ c.after ∧ c.scheme.Grammar body.toList) ∧
      c.scheme.Pieces body.toList pieces ∧
      words = pieces.map fun piece => String.ofList (piece.map Char.toLower) := by
  refine ⟨?_, accepts_iff_exists_words.symm, fun words => ?_⟩
  · constructor
    · intro h
      obtain ⟨body, hbody⟩ := Option.isSome_iff_exists.1 h
      refine ⟨String.ofList body, body?_eq_some_iff_grammar.1 ?_, ?_⟩
      · rwa [String.toList_ofList]
      · intro other hother
        have heq := (body?_eq_some_iff_grammar.2 hother).symm.trans hbody
        rw [← Option.some.inj heq, String.ofList_toList]
    · rintro ⟨body, hbody, -⟩
      exact Option.isSome_iff_exists.2 ⟨body.toList, body?_eq_some_iff_grammar.2 hbody⟩
  · rw [segment_eq_ok_iff_body?]
    constructor
    · rintro ⟨body, hbody, rfl⟩
      obtain ⟨pieces, hpieces, heq⟩ := Scheme.splitBody_eq_iff.1 (Eq.refl (c.scheme.splitBody body))
      refine ⟨String.ofList body, pieces, body?_eq_some_iff_grammar.1 ?_, ?_, ?_⟩
      · rwa [String.toList_ofList]
      · rwa [String.toList_ofList]
      · rw [← heq, List.map_map]
        rfl
    · rintro ⟨body, pieces, hbody, hpieces, rfl⟩
      refine ⟨body.toList, body?_eq_some_iff_grammar.2 hbody, ?_⟩
      rw [Scheme.splitBody_eq_iff.2 ⟨pieces, hpieces, rfl⟩, List.map_map]
      rfl

end MemberBinding.Convention
