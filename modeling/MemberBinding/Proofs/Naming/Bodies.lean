import MemberBinding.Proofs.Naming.Canonical
import MemberBinding.Proofs.Text.Repetition

/-!
# The bodies of a scheme

The bodies that a pattern matches are the canonical words in the case of the scheme, and the words
can be read off a body again. Main statements: `isBody_iff` and `splitBody_joinWords`.
-/

namespace MemberBinding.Scheme

/-! ## Words in the case of a scheme -/

/-- A word with its first character written by `head` and the others by `tail`. -/
def spell (head tail : Char → Char) : List Char → List Char
  | [] => []
  | c :: w => head c :: w.map tail

theorem spell_self (write : Char → Char) (w : List Char) : spell write write w = w.map write := by
  cases w <;> rfl

@[simp] theorem length_spell (head tail : Char → Char) (w : List Char) :
    (spell head tail w).length = w.length := by
  cases w <;> simp [spell]

def firstCase : Scheme → Char → Char
  | allLower | lowerCamel => Char.toLower
  | allUpper | firstUpper | upperCamel => Char.toUpper

def headCase : Scheme → Char → Char
  | allLower | firstUpper => Char.toLower
  | allUpper | lowerCamel | upperCamel => Char.toUpper

def tailCase : Scheme → Char → Char
  | allUpper => Char.toUpper
  | allLower | firstUpper | lowerCamel | upperCamel => Char.toLower

private theorem all_isAscii {w : List Char} (h : IsPlain w) :
    w.all CaseMapping.isAscii = true := by
  rw [List.all_eq_true]
  intro c hc
  exact decide_eq_true (toNat_lt_of_lowerOrDigit (h c hc))

private theorem capitalize_eq {w : List Char} (h : IsPlain w) :
    CaseMapping.capitalize w = spell Char.toUpper Char.toLower w := by
  cases w with
  | nil => rfl
  | cons c w => exact CaseMapping.capitalize_ascii (all_isAscii h)

theorem renderFirst_eq (s : Scheme) {w : List Char} (h : IsPlain w) :
    s.renderFirst w = spell s.firstCase s.tailCase w := by
  have ha := all_isAscii h
  cases s <;> simp [renderFirst, firstCase, tailCase, spell_self, capitalize_eq h,
    CaseMapping.lower_ascii ha, CaseMapping.upper_ascii ha]

theorem renderLater_eq (s : Scheme) {w : List Char} (h : IsPlain w) :
    s.renderLater w = spell s.headCase s.tailCase w := by
  have ha := all_isAscii h
  cases s <;> simp [renderLater, headCase, tailCase, spell_self, capitalize_eq h,
    CaseMapping.lower_ascii ha, CaseMapping.upper_ascii ha]

theorem joinWords_cons (s : Scheme) {w : List Char} {rest : List (List Char)} (hw : IsPlain w)
    (hrest : ∀ v ∈ rest, IsPlain v) :
    s.joinWords (w :: rest) = spell s.firstCase s.tailCase w ++
      rest.flatMap fun v => s.separator ++ spell s.headCase s.tailCase v := by
  rw [joinWords, renderFirst_eq s hw]
  have hlater : ∀ v ∈ rest, s.separator ++ s.renderLater v =
      s.separator ++ spell s.headCase s.tailCase v := by
    intro v hv
    rw [renderLater_eq s (hrest v hv)]
  rw [List.flatMap_def, List.map_congr_left hlater, ← List.flatMap_def]

theorem map_toLower_map {B : Char → Bool} {tail : Char → Char}
    (htail : Spelling lowerOrDigit B tail) {w : List Char} (h : IsPlain w) :
    (w.map tail).map Char.toLower = w := by
  rw [List.map_map]
  exact (List.map_congr_left fun c hc => htail.toLower_write c (h c hc)).trans (List.map_id w)

theorem map_toLower_spell {A B : Char → Bool} {head tail : Char → Char}
    (hhead : Spelling Char.isLower A head) (htail : Spelling lowerOrDigit B tail) {w : List Char}
    (hstarts : StartsWithLetter w) (hplain : IsPlain w) :
    (spell head tail w).map Char.toLower = w := by
  obtain ⟨c, t, rfl, hc⟩ := hstarts
  rw [spell, List.map_cons, hhead.toLower_write c hc,
    map_toLower_map htail fun d hd => hplain d (by simp [hd])]

theorem forall_cased_iff {B : Char → Bool} {tail : Char → Char}
    (htail : Spelling lowerOrDigit B tail) {u : List Char} :
    (∀ d ∈ u, B d = true) ↔ ∃ w, IsPlain w ∧ w.map tail = u := by
  constructor
  · intro h
    refine ⟨u.map Char.toLower, ?_, ?_⟩
    · intro c hc
      obtain ⟨d, hd, rfl⟩ := List.mem_map.1 hc
      exact htail.plain_toLower d (h d hd)
    · rw [List.map_map]
      exact (List.map_congr_left fun d hd => htail.write_toLower d (h d hd)).trans (List.map_id u)
  · intro h d hd
    obtain ⟨w, hw, rfl⟩ := h
    obtain ⟨c, hc, rfl⟩ := List.mem_map.1 hd
    exact htail.cased_write c (hw c hc)

/-- A word that starts with a letter, as it stands in a body. -/
theorem exists_cons_cased_iff {A B : Char → Bool} {head tail : Char → Char}
    (hhead : Spelling Char.isLower A head) (htail : Spelling lowerOrDigit B tail)
    {u : List Char} : (∃ c t, u = c :: t ∧ A c = true ∧ ∀ d ∈ t, B d = true) ↔
      ∃ w, (StartsWithLetter w ∧ IsPlain w) ∧ spell head tail w = u := by
  constructor
  · intro h
    obtain ⟨c, t, rfl, hc, ht⟩ := h
    obtain ⟨w, hw, rfl⟩ := (forall_cased_iff htail).1 ht
    have hlower := hhead.plain_toLower c hc
    refine ⟨c.toLower :: w, ⟨⟨_, _, rfl, hlower⟩, ?_⟩, ?_⟩
    · exact List.forall_mem_cons.2 ⟨lowerOrDigit_of_isLower hlower, hw⟩
    · rw [spell, hhead.write_toLower c hc]
  · intro h
    obtain ⟨_, ⟨⟨c, w, rfl, hc⟩, hw⟩, rfl⟩ := h
    exact ⟨head c, w.map tail, rfl, hhead.cased_write c hc,
      (forall_cased_iff htail).2 ⟨w, fun d hd => hw d (by simp [hd]), rfl⟩⟩

/-! ## Words between underscores -/

private theorem matches_underscored_iff {B : Char → Bool} {tail : Char → Char}
    (htail : Spelling lowerOrDigit B tail) {s : List Char} :
    Pattern.Matches (.many (.seq (.one (· == '_')) (.repeated (.one B)))) s ↔
      ∃ ws : List (List Char), (∀ v ∈ ws, v ≠ [] ∧ IsPlain v) ∧
        ws.flatMap ('_' :: ·.map tail) = s := by
  apply Pattern.matches_many_iff_flatMap
  intro t
  simp only [Pattern.matches_seq_iff, Pattern.matches_one_iff, Pattern.matches_repeated_one_iff,
    beq_iff_eq, forall_cased_iff htail]
  constructor
  · intro h
    obtain ⟨_, _, ⟨_, rfl, rfl⟩, ⟨hne, v, hv, rfl⟩, rfl⟩ := h
    exact ⟨v, ⟨mt (congrArg (List.map tail)) hne, hv⟩, rfl⟩
  · intro h
    obtain ⟨v, ⟨hne, hv⟩, rfl⟩ := h
    exact ⟨['_'], _, ⟨'_', rfl, rfl⟩, ⟨mt List.map_eq_nil_iff.1 hne, v, hv, rfl⟩, rfl⟩

/-- Only the last word may be empty: it stands for the last underscore. -/
private theorem matches_laterWords_iff {B : Char → Bool} {tail : Char → Char}
    (htail : Spelling lowerOrDigit B tail) {s : List Char} :
    Pattern.Matches (.seq (.many (.seq (.one (· == '_')) (.repeated (.one B))))
        (Pattern.one (· == '_')).optional) s ↔
      ∃ rest : List (List Char), (∀ v ∈ rest, IsPlain v) ∧ (∀ v ∈ rest.dropLast, v ≠ []) ∧
        rest.flatMap ('_' :: ·.map tail) = s := by
  simp only [Pattern.matches_seq_iff, matches_underscored_iff htail,
    Pattern.matches_optional_one_iff, beq_iff_eq]
  constructor
  · intro h
    obtain ⟨_, _, ⟨ws, hws, rfl⟩, rfl | ⟨_, rfl, rfl⟩, rfl⟩ := h
    · refine ⟨ws, fun v hv => (hws v hv).2, ?_, (List.append_nil _).symm⟩
      exact fun v hv => (hws v (ws.dropLast_sublist.subset hv)).1
    · refine ⟨ws ++ [[]], ?_, ?_, by simp⟩
      · simp only [List.forall_mem_append, List.forall_mem_singleton]
        exact ⟨fun v hv => (hws v hv).2, fun c hc => absurd hc List.not_mem_nil⟩
      · rw [List.dropLast_concat]
        exact fun v hv => (hws v hv).1
  · intro h
    obtain ⟨rest, hplain, hne, rfl⟩ := h
    rcases List.eq_nil_or_concat rest with rfl | ⟨front, w, rfl⟩
    · exact ⟨[], [], ⟨[], by simp, rfl⟩, .inl rfl, rfl⟩
    · rw [List.concat_eq_append] at *
      rw [List.dropLast_concat] at hne
      simp only [List.forall_mem_append, List.forall_mem_singleton] at hplain
      have hfront : ∀ v ∈ front, v ≠ [] ∧ IsPlain v := fun v hv => ⟨hne v hv, hplain.1 v hv⟩
      cases w with
      | nil => exact ⟨_, ['_'], ⟨front, hfront, rfl⟩, .inr ⟨'_', rfl, rfl⟩, by simp⟩
      | cons c w =>
        refine ⟨_, [], ⟨front ++ [c :: w], ?_, rfl⟩, .inl rfl, (List.append_nil _).symm⟩
        simp only [List.forall_mem_append, List.forall_mem_singleton]
        exact ⟨hfront, List.cons_ne_nil c w, hplain.2⟩

def firstLetters : Scheme → Char → Bool
  | allLower | lowerCamel => Char.isLower
  | allUpper | firstUpper | upperCamel => Char.isUpper

def laterLetters : Scheme → Char → Bool
  | allUpper => upperOrDigit
  | allLower | firstUpper | lowerCamel | upperCamel => lowerOrDigit

theorem spelling_firstCase : ∀ s : Scheme, Spelling Char.isLower s.firstLetters s.firstCase
  | allLower | lowerCamel => spelling_lower_letter
  | allUpper | firstUpper | upperCamel => spelling_upper_letter

theorem spelling_tailCase : ∀ s : Scheme, Spelling lowerOrDigit s.laterLetters s.tailCase
  | allUpper => spelling_upper
  | allLower | firstUpper | lowerCamel | upperCamel => spelling_lower

theorem isBody_iff_matches {s : Scheme} {body : List Char} :
    s.isBody body = true ↔ s.pattern.Matches body :=
  Pattern.accepts_iff

/-- The first word of a body, and whatever may follow it. -/
private theorem matches_firstWord_iff (s : Scheme) {rest : Pattern} {body : List Char} :
    Pattern.Matches (.seq (.one s.firstLetters) (.seq (.many (.one s.laterLetters)) rest)) body ↔
      ∃ w, (StartsWithLetter w ∧ IsPlain w) ∧
        ∃ u, rest.Matches u ∧ spell s.firstCase s.tailCase w ++ u = body := by
  simp only [Pattern.matches_seq_iff, Pattern.matches_one_iff, Pattern.matches_many_one_iff]
  constructor
  · intro h
    obtain ⟨_, _, ⟨c, hc, rfl⟩, ⟨t, u, ht, hu, rfl⟩, rfl⟩ := h
    obtain ⟨w, hw, hspell⟩ :=
      (exists_cons_cased_iff s.spelling_firstCase s.spelling_tailCase).1 ⟨c, t, rfl, hc, ht⟩
    exact ⟨w, hw, u, hu, by rw [hspell]; rfl⟩
  · intro h
    obtain ⟨w, hw, u, hu, rfl⟩ := h
    obtain ⟨c, t, hspell, hc, ht⟩ :=
      (exists_cons_cased_iff s.spelling_firstCase s.spelling_tailCase).2 ⟨w, hw, rfl⟩
    exact ⟨[c], t ++ u, ⟨c, hc, rfl⟩, ⟨t, u, ht, hu, rfl⟩, by rw [hspell]; rfl⟩

theorem joinWords_cons_of_isSpaced {s : Scheme} (hs : s.isSpaced = true) {w : List Char}
    {rest : List (List Char)} (hw : IsPlain w) (hrest : ∀ v ∈ rest, IsPlain v) :
    s.joinWords (w :: rest) =
      spell s.firstCase s.tailCase w ++ rest.flatMap ('_' :: ·.map s.tailCase) := by
  have hsep : s.separator = ['_'] := if_pos hs
  have hcase : s.headCase = s.tailCase := by cases s <;> first | rfl | cases hs
  rw [joinWords_cons s hw hrest, hsep, hcase]
  simp only [spell_self, List.singleton_append]

private theorem isBody_iff_of_isSpaced {s : Scheme} (hs : s.isSpaced = true) {body : List Char} :
    s.isBody body = true ↔ ∃ words, s.Canonical words ∧ s.joinWords words = body := by
  have hpattern : s.pattern = spacedPattern s.firstLetters s.laterLetters := by
    cases s <;> first | rfl | cases hs
  rw [isBody_iff_matches, hpattern, spacedPattern, matches_firstWord_iff]
  simp only [matches_laterWords_iff s.spelling_tailCase]
  constructor
  · intro h
    obtain ⟨w, hw, _, ⟨rest, hplain, hne, rfl⟩, rfl⟩ := h
    exact ⟨w :: rest, (canonical_iff_of_isSpaced hs).2 ⟨w, rest, rfl, hw, hplain, hne⟩,
      joinWords_cons_of_isSpaced hs hw.2 hplain⟩
  · intro h
    obtain ⟨_, hwords, rfl⟩ := h
    obtain ⟨w, rest, rfl, hw, hplain, hne⟩ := (canonical_iff_of_isSpaced hs).1 hwords
    exact ⟨w, hw, _, ⟨rest, hplain, hne, rfl⟩, (joinWords_cons_of_isSpaced hs hw.2 hplain).symm⟩

theorem append_flatMap_eq_intercalate (x : Char) (u : List Char) (us : List (List Char)) :
    u ++ us.flatMap (x :: ·) = [x].intercalate (u :: us) := by
  induction us generalizing u with
  | nil => simp
  | cons v us ih => simp [List.intercalate_cons_cons, ← ih]

theorem laterLetters_underscore (s : Scheme) : s.laterLetters '_' = false := by
  cases s <;> decide

private theorem splitBody_joinWords_of_isSpaced {s : Scheme} (hs : s.isSpaced = true)
    {words : List (List Char)} (h : s.Canonical words) :
    s.splitBody (s.joinWords words) = words := by
  obtain ⟨w, rest, rfl, hw, hplain, -⟩ := (canonical_iff_of_isSpaced hs).1 h
  have hlater : ∀ {u : List Char}, (∀ d ∈ u, s.laterLetters d = true) → '_' ∉ u := by
    intro u hu hmem
    have := hu '_' hmem
    rw [laterLetters_underscore] at this
    cases this
  have hfirst : '_' ∉ spell s.firstCase s.tailCase w := by
    obtain ⟨c, t, hspell, hc, ht⟩ :=
      (exists_cons_cased_iff s.spelling_firstCase s.spelling_tailCase).2 ⟨w, hw, rfl⟩
    rw [hspell, List.mem_cons, not_or]
    refine ⟨?_, hlater ht⟩
    rintro rfl
    cases s <;> cases hc
  have hrest : ∀ u ∈ rest.map (·.map s.tailCase), '_' ∉ u := by
    intro u hu
    obtain ⟨v, hv, rfl⟩ := List.mem_map.1 hu
    exact hlater ((forall_cased_iff s.spelling_tailCase).2 ⟨v, hplain v hv, rfl⟩)
  have hread : (rest.map (·.map s.tailCase)).map (·.map Char.toLower) = rest := by
    rw [List.map_map]
    refine (List.map_congr_left fun v hv => ?_).trans (List.map_id rest)
    exact map_toLower_map s.spelling_tailCase (hplain v hv)
  have hflat : rest.flatMap ('_' :: ·.map s.tailCase) =
      (rest.map (·.map s.tailCase)).flatMap ('_' :: ·) := by
    rw [List.flatMap_map]
  rw [splitBody, if_pos hs, joinWords_cons_of_isSpaced hs hw.2 hplain, hflat,
    append_flatMap_eq_intercalate,
    List.splitOn_intercalate '_' (List.forall_mem_cons.2 ⟨hfirst, hrest⟩) (List.cons_ne_nil _ _),
    List.map_cons, hread, map_toLower_spell s.spelling_firstCase s.spelling_tailCase hw.1 hw.2]

/-! ## Words that start in upper case -/

/-- A later word of a camel body. -/
def capital (w : List Char) : List Char := spell Char.toUpper Char.toLower w

private theorem exists_capital_iff {u : List Char} :
    (∃ c t, u = c :: t ∧ c.isUpper = true ∧ ∀ d ∈ t, lowerOrDigit d = true) ↔
      ∃ w, (StartsWithLetter w ∧ IsPlain w) ∧ capital w = u :=
  exists_cons_cased_iff spelling_upper_letter spelling_lower

private theorem matches_capitalWord_iff {u : List Char} :
    Pattern.Matches capitalWord u ↔ ∃ w, IsLong w ∧ capital w = u := by
  rw [capitalWord, Pattern.matches_seq_iff]
  simp only [Pattern.matches_one_iff, Pattern.matches_repeated_one_iff]
  constructor
  · intro h
    obtain ⟨_, t, ⟨c, hc, rfl⟩, ⟨hne, ht⟩, rfl⟩ := h
    obtain ⟨w, hw, hspell⟩ := exists_capital_iff.1 ⟨c, t, rfl, hc, ht⟩
    have hlength : w.length = t.length + 1 := by
      rw [← length_spell Char.toUpper Char.toLower w, ← capital, hspell]
      simp
    have hpos := List.length_pos_iff.2 hne
    exact ⟨w, ⟨hw.1, hw.2, by omega⟩, hspell⟩
  · intro h
    obtain ⟨w, hw, rfl⟩ := h
    obtain ⟨c, t, hspell, hc, ht⟩ := exists_capital_iff.2 ⟨w, ⟨hw.starts, hw.plain⟩, rfl⟩
    have hlength : w.length = t.length + 1 := by
      rw [← length_spell Char.toUpper Char.toLower w, ← capital, hspell, List.length_cons]
    have hpos : 0 < t.length := by
      have := hw.two_le
      omega
    exact ⟨[c], t, ⟨c, hc, rfl⟩, ⟨List.length_pos_iff.1 hpos, ht⟩, hspell⟩

private theorem matches_lastWord_iff {u : List Char} :
    Pattern.Matches (.alt capitalWord (.one Char.isUpper)) u ↔
      ∃ w, (StartsWithLetter w ∧ IsPlain w) ∧ capital w = u := by
  rw [Pattern.matches_alt_iff, matches_capitalWord_iff, Pattern.matches_one_iff]
  constructor
  · intro h
    rcases h with ⟨w, hw, hu⟩ | ⟨c, hc, rfl⟩
    · exact ⟨w, ⟨hw.starts, hw.plain⟩, hu⟩
    · exact exists_capital_iff.1 ⟨c, [], rfl, hc, by simp⟩
  · intro h
    obtain ⟨w, hw, rfl⟩ := h
    by_cases hlong : 2 ≤ w.length
    · exact .inl ⟨w, ⟨hw.1, hw.2, hlong⟩, rfl⟩
    · obtain ⟨c, t, rfl, hc⟩ := hw.1
      rw [List.length_cons] at hlong
      have ht : t = [] := List.length_eq_zero_iff.1 (by omega)
      subst ht
      exact .inr ⟨c.toUpper, spelling_upper_letter.cased_write c hc, rfl⟩

theorem joinWords_lowerCamel {w : List Char} {rest : List (List Char)} (hw : IsPlain w)
    (hrest : ∀ v ∈ rest, IsPlain v) :
    lowerCamel.joinWords (w :: rest) =
      spell Char.toLower Char.toLower w ++ rest.flatMap capital :=
  joinWords_cons lowerCamel hw hrest

theorem joinWords_upperCamel {words : List (List Char)} (h : ∀ w ∈ words, IsPlain w) :
    upperCamel.joinWords words = words.flatMap capital := by
  cases words with
  | nil => rfl
  | cons w rest =>
    obtain ⟨hw, hrest⟩ := List.forall_mem_cons.1 h
    exact joinWords_cons upperCamel hw hrest

private theorem isBody_lowerCamel_iff {body : List Char} :
    lowerCamel.isBody body = true ↔
      ∃ words, lowerCamel.Canonical words ∧ lowerCamel.joinWords words = body := by
  have hpattern : lowerCamel.pattern = .seq (.one lowerCamel.firstLetters)
      (.seq (.many (.one lowerCamel.laterLetters)) (.many capitalWord)) := rfl
  rw [isBody_iff_matches, hpattern, matches_firstWord_iff]
  simp only [Pattern.matches_many_iff_flatMap fun _ => matches_capitalWord_iff]
  constructor
  · intro h
    obtain ⟨w, hw, _, ⟨rest, hrest, rfl⟩, rfl⟩ := h
    exact ⟨w :: rest, canonical_lowerCamel_iff.2 ⟨w, rest, rfl, hw, hrest⟩,
      joinWords_lowerCamel hw.2 fun v hv => (hrest v hv).plain⟩
  · intro h
    obtain ⟨_, hwords, rfl⟩ := h
    obtain ⟨w, rest, rfl, hw, hrest⟩ := canonical_lowerCamel_iff.1 hwords
    exact ⟨w, hw, _, ⟨rest, hrest, rfl⟩,
      (joinWords_lowerCamel hw.2 fun v hv => (hrest v hv).plain).symm⟩

private theorem isBody_upperCamel_iff {body : List Char} :
    upperCamel.isBody body = true ↔
      ∃ words, upperCamel.Canonical words ∧ upperCamel.joinWords words = body := by
  have hpattern : upperCamel.pattern =
      .seq (.many capitalWord) (.alt capitalWord (.one Char.isUpper)) := rfl
  rw [isBody_iff_matches, hpattern, Pattern.matches_seq_iff]
  simp only [Pattern.matches_many_iff_flatMap fun _ => matches_capitalWord_iff,
    matches_lastWord_iff]
  constructor
  · intro h
    obtain ⟨_, _, ⟨front, hfront, rfl⟩, ⟨w, hw, rfl⟩, rfl⟩ := h
    have hwords : upperCamel.Canonical (front ++ [w]) :=
      canonical_upperCamel_iff.2 ⟨front, w, rfl, hfront, hw⟩
    exact ⟨front ++ [w], hwords, by simp [joinWords_upperCamel hwords.plain]⟩
  · intro h
    obtain ⟨_, hwords, rfl⟩ := h
    obtain ⟨front, w, rfl, hfront, hw⟩ := canonical_upperCamel_iff.1 hwords
    exact ⟨_, _, ⟨front, hfront, rfl⟩, ⟨w, hw, rfl⟩, by simp [joinWords_upperCamel hwords.plain]⟩

/-! ## Reading camel words back -/

theorem isUpper_eq_false {c : Char} (h : lowerOrDigit c = true) : c.isUpper = false :=
  forall_of_ascii (D := fun c => c.isUpper = false) (fun _ => toNat_lt_of_lowerOrDigit)
    (by decide) c h

/-- A word ends where an upper-case letter follows. -/
theorem camelWords_append {c : Char} {t rest : List Char} (ht : ∀ d ∈ t, d.isUpper = false)
    (hrest : ∀ d ∈ rest.head?, d.isUpper = true) :
    camelWords (c :: (t ++ rest)) = (c :: t).map Char.toLower :: camelWords rest := by
  induction t generalizing c with
  | nil =>
    cases rest with
    | nil => rfl
    | cons d rest => simp [camelWords, hrest d rfl]
  | cons d t ih =>
    have hd : d.isUpper = false := ht d (by simp)
    have ih := ih (c := d) fun e he => ht e (by simp [he])
    simp [camelWords, hd, ih, extend]

private theorem camelWords_spell_append {A : Char → Bool} {head : Char → Char}
    (hhead : Spelling Char.isLower A head) {w rest : List Char} (hstarts : StartsWithLetter w)
    (hplain : IsPlain w) (hrest : ∀ d ∈ rest.head?, d.isUpper = true) :
    camelWords (spell head Char.toLower w ++ rest) = w :: camelWords rest := by
  have hread := map_toLower_spell hhead spelling_lower hstarts hplain
  obtain ⟨c, t, hspell, -, ht⟩ :=
    (exists_cons_cased_iff hhead spelling_lower).2 ⟨w, ⟨hstarts, hplain⟩, rfl⟩
  rw [hspell] at hread ⊢
  rw [List.cons_append, camelWords_append (fun d hd => isUpper_eq_false (ht d hd)) hrest, hread]

private theorem isUpper_of_mem_head?_flatMap {words : List (List Char)}
    (h : ∀ w ∈ words, StartsWithLetter w) :
    ∀ d ∈ (words.flatMap capital).head?, d.isUpper = true := by
  cases words with
  | nil => simp
  | cons w words =>
    obtain ⟨c, t, rfl, hc⟩ := h w (by simp)
    intro d hd
    obtain rfl : c.toUpper = d := by simpa [capital, spell] using hd
    exact spelling_upper_letter.cased_write c hc

private theorem camelWords_flatMap_capital {words : List (List Char)}
    (hstarts : ∀ w ∈ words, StartsWithLetter w) (hplain : ∀ w ∈ words, IsPlain w) :
    camelWords (words.flatMap capital) = words := by
  induction words with
  | nil => rfl
  | cons w words ih =>
    obtain ⟨hw, hstarts⟩ := List.forall_mem_cons.1 hstarts
    obtain ⟨hw', hplain⟩ := List.forall_mem_cons.1 hplain
    rw [List.flatMap_cons, capital, camelWords_spell_append spelling_upper_letter hw hw'
      (isUpper_of_mem_head?_flatMap hstarts), ih hstarts hplain]

/-- Words that all start with a letter can be told apart by the capitals alone. -/
theorem splitBody_joinWords_of_starts {s : Scheme} (hs : s.isSpaced = false)
    {words : List (List Char)} (hstarts : ∀ w ∈ words, StartsWithLetter w)
    (hplain : ∀ w ∈ words, IsPlain w) : s.splitBody (s.joinWords words) = words := by
  have hsplit : ∀ body, s.splitBody body = camelWords body := fun body =>
    if_neg (Bool.eq_false_iff.1 hs)
  rw [hsplit]
  cases s with
  | allLower | allUpper | firstUpper => cases hs
  | upperCamel => rw [joinWords_upperCamel hplain, camelWords_flatMap_capital hstarts hplain]
  | lowerCamel =>
    cases words with
    | nil => rfl
    | cons w rest =>
      obtain ⟨hw, hstarts⟩ := List.forall_mem_cons.1 hstarts
      obtain ⟨hw', hplain⟩ := List.forall_mem_cons.1 hplain
      rw [joinWords_lowerCamel hw' hplain, camelWords_spell_append spelling_lower_letter hw hw'
        (isUpper_of_mem_head?_flatMap hstarts), camelWords_flatMap_capital hstarts hplain]

/-! ## All schemes -/

theorem isBody_iff {s : Scheme} {body : List Char} :
    s.isBody body = true ↔ ∃ words, s.Canonical words ∧ s.joinWords words = body := by
  cases s with
  | allLower | allUpper | firstUpper => exact isBody_iff_of_isSpaced rfl
  | lowerCamel => exact isBody_lowerCamel_iff
  | upperCamel => exact isBody_upperCamel_iff

theorem splitBody_joinWords {s : Scheme} {words : List (List Char)} (h : s.Canonical words) :
    s.splitBody (s.joinWords words) = words := by
  cases s with
  | allLower | allUpper | firstUpper => exact splitBody_joinWords_of_isSpaced rfl h
  | lowerCamel | upperCamel => exact splitBody_joinWords_of_starts rfl h.layout.1 h.plain

end MemberBinding.Scheme
