import MemberBinding.Text.Pattern

/-!
# What repeated patterns match

A repetition matches the texts that fall into parts, each of them a match of the body.
-/

namespace MemberBinding.Pattern

theorem matches_many_iff {p : Pattern} {s : List Char} :
    Matches (many p) s ↔
      ∃ parts : List (List Char), (∀ t ∈ parts, Matches p t) ∧ parts.flatten = s := by
  constructor
  · intro h
    generalize hq : many p = q at h
    induction h with
    | blank | one | seq | left | right => cases hq
    | manyNil => exact ⟨[], by simp, rfl⟩
    | @manyCons _ t _ ht _ _ ih =>
      cases hq
      obtain ⟨parts, hparts, rfl⟩ := ih rfl
      refine ⟨t :: parts, ?_, rfl⟩
      intro u hu
      rcases List.mem_cons.1 hu with rfl | hu
      · exact ht
      · exact hparts u hu
  · intro h
    obtain ⟨parts, hparts, rfl⟩ := h
    induction parts with
    | nil => exact .manyNil
    | cons t parts ih =>
      exact .manyCons (hparts t (by simp)) (ih fun u hu => hparts u (by simp [hu]))

/-- Parts that are given by what they are made of. -/
theorem matches_many_iff_flatMap {p : Pattern} {α : Type} {C : α → Prop} {f : α → List Char}
    (h : ∀ t, Matches p t ↔ ∃ a, C a ∧ f a = t) {s : List Char} :
    Matches (many p) s ↔ ∃ as : List α, (∀ a ∈ as, C a) ∧ as.flatMap f = s := by
  simp only [matches_many_iff, h]
  constructor
  · intro h
    obtain ⟨parts, hparts, rfl⟩ := h
    induction parts with
    | nil => exact ⟨[], by simp, rfl⟩
    | cons t parts ih =>
      obtain ⟨a, ha, rfl⟩ := hparts t (by simp)
      obtain ⟨as, has, heq⟩ := ih fun u hu => hparts u (by simp [hu])
      exact ⟨a :: as, List.forall_mem_cons.2 ⟨ha, has⟩, by simp [heq]⟩
  · intro h
    obtain ⟨as, has, rfl⟩ := h
    refine ⟨as.map f, ?_, rfl⟩
    intro t ht
    obtain ⟨a, ha, rfl⟩ := List.mem_map.1 ht
    exact ⟨a, has a ha, rfl⟩

theorem matches_many_one_iff {allowed : Char → Bool} {s : List Char} :
    Matches (many (one allowed)) s ↔ ∀ c ∈ s, allowed c = true := by
  constructor
  · rw [matches_many_iff]
    intro h c hc
    obtain ⟨parts, hparts, rfl⟩ := h
    obtain ⟨t, ht, hct⟩ := List.mem_flatten.1 hc
    obtain ⟨d, hd, rfl⟩ := matches_one_iff.1 (hparts t ht)
    rwa [List.mem_singleton.1 hct]
  · intro h
    induction s with
    | nil => exact .manyNil
    | cons c s ih =>
      exact .manyCons (.one (h c (by simp))) (ih fun d hd => h d (by simp [hd]))

theorem matches_repeated_one_iff {allowed : Char → Bool} {s : List Char} :
    Matches (repeated (one allowed)) s ↔ s ≠ [] ∧ ∀ c ∈ s, allowed c = true := by
  simp only [repeated, matches_seq_iff, matches_one_iff, matches_many_one_iff]
  constructor
  · intro h
    obtain ⟨_, u, ⟨c, hc, rfl⟩, hu, rfl⟩ := h
    simpa [hc] using hu
  · intro h
    obtain ⟨hne, h⟩ := h
    obtain ⟨c, t, rfl⟩ := List.exists_cons_of_ne_nil hne
    exact ⟨[c], t, ⟨c, h c (by simp), rfl⟩, fun d hd => h d (by simp [hd]), rfl⟩

theorem matches_optional_one_iff {allowed : Char → Bool} {s : List Char} :
    Matches (one allowed).optional s ↔ s = [] ∨ ∃ c, allowed c = true ∧ s = [c] := by
  rw [optional, matches_alt_iff, matches_one_iff, matches_blank_iff, or_comm]

/-! ## What a text starts with -/

theorem not_matches_one_seq_nil {allowed : Char → Bool} {q : Pattern} :
    ¬Matches (seq (one allowed) q) [] := by
  rw [← nullable_iff]
  simp [nullable]

theorem matches_one_seq_cons_iff {allowed : Char → Bool} {q : Pattern} {c : Char} {s : List Char} :
    Matches (seq (one allowed) q) (c :: s) ↔ allowed c = true ∧ Matches q s := by
  rw [matches_seq_iff]
  constructor
  · intro h
    obtain ⟨_, t, hfirst, ht, heq⟩ := h
    obtain ⟨d, hd, rfl⟩ := matches_one_iff.1 hfirst
    obtain ⟨rfl, rfl⟩ := List.cons.inj heq
    exact ⟨hd, ht⟩
  · intro h
    exact ⟨[c], s, .one h.1, h.2, rfl⟩

theorem matches_seq_assoc_iff {p q r : Pattern} {s : List Char} :
    Matches (seq (seq p q) r) s ↔ Matches (seq p (seq q r)) s := by
  simp only [matches_seq_iff]
  constructor
  · intro h
    obtain ⟨_, w, ⟨t, u, ht, hu, rfl⟩, hw, rfl⟩ := h
    exact ⟨t, u ++ w, ht, ⟨u, w, hu, hw, rfl⟩, List.append_assoc t u w⟩
  · intro h
    obtain ⟨t, _, ht, ⟨u, w, hu, hw, rfl⟩, rfl⟩ := h
    exact ⟨t ++ u, w, ⟨t, u, ht, hu, rfl⟩, hw, (List.append_assoc t u w).symm⟩

theorem matches_seq_blank_iff {p : Pattern} {s : List Char} :
    Matches (seq p blank) s ↔ Matches p s := by
  simp [matches_seq_iff, matches_blank_iff]

theorem matches_seq_alt_iff {p q r : Pattern} {s : List Char} :
    Matches (seq p (alt q r)) s ↔ Matches (seq p q) s ∨ Matches (seq p r) s := by
  simp only [matches_seq_iff, matches_alt_iff, or_and_right, and_or_left, exists_or]

/-- A repetition is over, or goes once more. -/
theorem matches_many_seq_iff {p q : Pattern} {s : List Char} :
    Matches (seq (many p) q) s ↔ Matches q s ∨ Matches (seq p (seq (many p) q)) s := by
  constructor
  · intro h
    obtain ⟨_, u, ht, hu, rfl⟩ := matches_seq_iff.1 h
    obtain ⟨parts, hparts, rfl⟩ := matches_many_iff.1 ht
    cases parts with
    | nil => exact .inl hu
    | cons t parts =>
      obtain ⟨ht, hparts⟩ := List.forall_mem_cons.1 hparts
      rw [List.flatten_cons, List.append_assoc]
      exact .inr (.seq ht (.seq (matches_many_iff.2 ⟨parts, hparts, rfl⟩) hu))
  · intro h
    rcases h with h | h
    · exact .seq .manyNil h
    · obtain ⟨t, _, ht, htail, rfl⟩ := matches_seq_iff.1 h
      obtain ⟨u, w, hu, hw, rfl⟩ := matches_seq_iff.1 htail
      rw [← List.append_assoc]
      exact .seq (.manyCons ht hu) hw

theorem matches_many_iff_eq_nil_or {p : Pattern} {s : List Char} :
    Matches (many p) s ↔ s = [] ∨ Matches (seq p (many p)) s := by
  rw [← matches_seq_blank_iff, matches_many_seq_iff, matches_blank_iff, ← matches_seq_assoc_iff,
    matches_seq_blank_iff]

/-- One character of `head`, then a run of at least one of `later`. -/
theorem matches_run_seq_iff {head later : Char → Bool} {q : Pattern} {s : List Char} :
    Matches (seq (seq (one head) (repeated (one later))) q) s ↔
      Matches (seq (one head) (seq (one later) (seq (many (one later)) q))) s := by
  rw [matches_seq_assoc_iff]
  cases s with
  | nil => simp only [not_matches_one_seq_nil]
  | cons c s => rw [matches_one_seq_cons_iff, matches_one_seq_cons_iff, repeated,
      matches_seq_assoc_iff]

end MemberBinding.Pattern
