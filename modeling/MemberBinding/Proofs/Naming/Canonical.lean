import MemberBinding.Naming.Scheme

/-!
# Canonical words

The word lists that a scheme can be read back from: lower-case words, laid out so that no two lists
are written alike. On them the case mappings act letter by letter.
-/

namespace MemberBinding.Scheme

/-- Lower-case ASCII letters and digits only. -/
def IsPlain (w : List Char) : Prop := ∀ c ∈ w, lowerOrDigit c = true

def StartsWithLetter (w : List Char) : Prop := ∃ c t, w = c :: t ∧ c.isLower = true

/-- Where a scheme needs a letter, and where a word must not be too short to be told apart. -/
def Layout : Scheme → List (List Char) → Prop
  | allLower, words | allUpper, words | firstUpper, words =>
    (∀ w ∈ words.head?, StartsWithLetter w) ∧ ∀ w ∈ words.tail.dropLast, w ≠ []
  | lowerCamel, words =>
    (∀ w ∈ words, StartsWithLetter w) ∧ ∀ w ∈ words.tail, 2 ≤ w.length
  | upperCamel, words =>
    (∀ w ∈ words, StartsWithLetter w) ∧ ∀ w ∈ words.dropLast, 2 ≤ w.length

structure Canonical (s : Scheme) (words : List (List Char)) : Prop where
  ne_nil : words ≠ []
  plain : ∀ w ∈ words, IsPlain w
  layout : s.Layout words

theorem canonical_iff_of_isSpaced {s : Scheme} (hs : s.isSpaced = true) {words : List (List Char)} :
    s.Canonical words ↔ ∃ w rest, words = w :: rest ∧ (StartsWithLetter w ∧ IsPlain w) ∧
      (∀ v ∈ rest, IsPlain v) ∧ ∀ v ∈ rest.dropLast, v ≠ [] := by
  have hlayout : s.Layout words ↔
      (∀ w ∈ words.head?, StartsWithLetter w) ∧ ∀ w ∈ words.tail.dropLast, w ≠ [] := by
    cases s <;> first | rfl | cases hs
  constructor
  · intro h
    obtain ⟨hne, hplain, h⟩ := h
    obtain ⟨w, rest, rfl⟩ := List.exists_cons_of_ne_nil hne
    obtain ⟨hfirst, hrest⟩ := hlayout.1 h
    exact ⟨w, rest, rfl, ⟨hfirst w rfl, hplain w (by simp)⟩,
      fun v hv => hplain v (by simp [hv]), hrest⟩
  · intro h
    obtain ⟨w, rest, rfl, ⟨hfirst, hw⟩, hplain, hrest⟩ := h
    refine ⟨List.cons_ne_nil _ _, List.forall_mem_cons.2 ⟨hw, hplain⟩, hlayout.2 ⟨?_, hrest⟩⟩
    rintro _ ⟨⟩
    exact hfirst

/-- A word that a camel scheme can tell from its neighbours on both sides. -/
structure IsLong (w : List Char) : Prop where
  starts : StartsWithLetter w
  plain : IsPlain w
  two_le : 2 ≤ w.length

theorem canonical_lowerCamel_iff {words : List (List Char)} :
    lowerCamel.Canonical words ↔ ∃ w rest, words = w :: rest ∧ (StartsWithLetter w ∧ IsPlain w) ∧
      ∀ v ∈ rest, IsLong v := by
  constructor
  · intro h
    obtain ⟨hne, hplain, hstarts, hlong⟩ := h
    obtain ⟨w, rest, rfl⟩ := List.exists_cons_of_ne_nil hne
    refine ⟨w, rest, rfl, ⟨hstarts w (by simp), hplain w (by simp)⟩, ?_⟩
    intro v hv
    have hmem : v ∈ w :: rest := List.mem_cons_of_mem w hv
    exact ⟨hstarts v hmem, hplain v hmem, hlong v hv⟩
  · intro h
    obtain ⟨w, rest, rfl, ⟨hfirst, hw⟩, hrest⟩ := h
    exact ⟨List.cons_ne_nil _ _, List.forall_mem_cons.2 ⟨hw, fun v hv => (hrest v hv).plain⟩,
      List.forall_mem_cons.2 ⟨hfirst, fun v hv => (hrest v hv).starts⟩,
      fun v hv => (hrest v hv).two_le⟩

theorem canonical_upperCamel_iff {words : List (List Char)} :
    upperCamel.Canonical words ↔ ∃ front w, words = front ++ [w] ∧ (∀ v ∈ front, IsLong v) ∧
      StartsWithLetter w ∧ IsPlain w := by
  constructor
  · intro h
    obtain ⟨hne, hplain, hstarts, hlong⟩ := h
    obtain ⟨front, w, rfl⟩ : ∃ front w, words = front ++ [w] :=
      ⟨_, _, (List.dropLast_concat_getLast hne).symm⟩
    rw [List.dropLast_concat] at hlong
    refine ⟨front, w, rfl, ?_, hstarts w (by simp), hplain w (by simp)⟩
    intro v hv
    have hmem : v ∈ front ++ [w] := List.mem_append_left _ hv
    exact ⟨hstarts v hmem, hplain v hmem, hlong v hv⟩
  · intro h
    obtain ⟨front, w, rfl, hfront, hlast, hw⟩ := h
    refine ⟨by simp, ?_, ?_, ?_⟩
    · intro v hv
      rcases List.mem_append.1 hv with hv | hv
      · exact (hfront v hv).plain
      · rwa [List.mem_singleton.1 hv]
    · intro v hv
      rcases List.mem_append.1 hv with hv | hv
      · exact (hfront v hv).starts
      · rwa [List.mem_singleton.1 hv]
    · intro v hv
      rw [List.dropLast_concat] at hv
      exact (hfront v hv).two_le

/-! ## Letters -/

/-- What holds of ASCII characters alone can be checked one by one. -/
theorem forall_of_ascii {C D : Char → Prop} (hascii : ∀ c, C c → c.toNat < 128)
    (h : ∀ n < 128, C (Char.ofNat n) → D (Char.ofNat n)) : ∀ c, C c → D c := by
  intro c hc
  have h := h c.toNat (hascii c hc)
  rw [Char.ofNat_toNat] at h
  exact h hc

private theorem toNat_lt_of_le {c d : Char} (h : c.val ≤ d.val) (hd : d.toNat < 128) :
    c.toNat < 128 :=
  Nat.lt_of_le_of_lt (UInt32.le_iff_toNat_le.1 h) hd

theorem toNat_lt_of_isUpper {c : Char} (h : c.isUpper = true) : c.toNat < 128 := by
  have hrange : 'A'.val ≤ c.val ∧ c.val ≤ 'Z'.val := of_decide_eq_true h
  exact toNat_lt_of_le (d := 'Z') hrange.2 (by decide)

theorem toNat_lt_of_lowerOrDigit {c : Char} (h : lowerOrDigit c = true) : c.toNat < 128 := by
  rw [lowerOrDigit, Bool.or_eq_true] at h
  rcases h with h | h
  · have hrange : c.val ≤ 'z'.val := of_decide_eq_true (Bool.and_eq_true_iff.1 h).2
    exact toNat_lt_of_le hrange (by decide)
  · have hrange : c.val ≤ '9'.val := of_decide_eq_true (Bool.and_eq_true_iff.1 h).2
    exact toNat_lt_of_le hrange (by decide)

theorem lowerOrDigit_of_isLower {c : Char} (h : c.isLower = true) : lowerOrDigit c = true := by
  simp [lowerOrDigit, h]

theorem toNat_lt_of_upperOrDigit {c : Char} (h : upperOrDigit c = true) : c.toNat < 128 := by
  rw [upperOrDigit, Bool.or_eq_true] at h
  rcases h with h | h
  · exact toNat_lt_of_isUpper h
  · exact toNat_lt_of_lowerOrDigit (by simp [lowerOrDigit, h])

/-- `write` and `Char.toLower` are inverse between the letters of words and those of bodies. -/
structure Spelling (plain cased : Char → Bool) (write : Char → Char) : Prop where
  cased_write : ∀ c, plain c = true → cased (write c) = true
  toLower_write : ∀ c, plain c = true → (write c).toLower = c
  plain_toLower : ∀ c, cased c = true → plain c.toLower = true
  write_toLower : ∀ c, cased c = true → write c.toLower = c

private theorem spelling_of_ascii {plain cased : Char → Bool} {write : Char → Char}
    (hplain : ∀ c, plain c = true → c.toNat < 128) (hcased : ∀ c, cased c = true → c.toNat < 128)
    (hwrite : ∀ n < 128, plain (Char.ofNat n) = true → cased (write (Char.ofNat n)) = true ∧
      (write (Char.ofNat n)).toLower = Char.ofNat n)
    (hlower : ∀ n < 128, cased (Char.ofNat n) = true → plain (Char.ofNat n).toLower = true ∧
      write (Char.ofNat n).toLower = Char.ofNat n) : Spelling plain cased write := by
  have hw : ∀ c, plain c = true → cased (write c) = true ∧ (write c).toLower = c :=
    forall_of_ascii hplain hwrite
  have hl : ∀ c, cased c = true → plain c.toLower = true ∧ write c.toLower = c :=
    forall_of_ascii hcased hlower
  exact ⟨fun c h => (hw c h).1, fun c h => (hw c h).2, fun c h => (hl c h).1, fun c h => (hl c h).2⟩

theorem spelling_lower_letter : Spelling Char.isLower Char.isLower Char.toLower :=
  spelling_of_ascii (fun _ h => toNat_lt_of_lowerOrDigit (lowerOrDigit_of_isLower h))
    (fun _ h => toNat_lt_of_lowerOrDigit (lowerOrDigit_of_isLower h)) (by decide) (by decide)

theorem spelling_upper_letter : Spelling Char.isLower Char.isUpper Char.toUpper :=
  spelling_of_ascii (fun _ h => toNat_lt_of_lowerOrDigit (lowerOrDigit_of_isLower h))
    (fun _ => toNat_lt_of_isUpper) (by decide) (by decide)

theorem spelling_lower : Spelling lowerOrDigit lowerOrDigit Char.toLower :=
  spelling_of_ascii (fun _ => toNat_lt_of_lowerOrDigit) (fun _ => toNat_lt_of_lowerOrDigit)
    (by decide) (by decide)

theorem spelling_upper : Spelling lowerOrDigit upperOrDigit Char.toUpper :=
  spelling_of_ascii (fun _ => toNat_lt_of_lowerOrDigit) (fun _ => toNat_lt_of_upperOrDigit)
    (by decide) (by decide)

end MemberBinding.Scheme
