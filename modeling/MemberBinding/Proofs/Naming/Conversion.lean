import Mathlib.Data.Set.Function
import MemberBinding.Naming.Conventions
import MemberBinding.Proofs.Naming.Grammar

/-!
# Names converted between roles

Where the words of a name make a valid name of another role, and where they can be read back from
it. Main statements: `convert_inj` and `convert_valid_and_back`.
-/

namespace MemberBinding.Scheme

variable {s t : Scheme} {words : List (List Char)}

/-! ## Words that are canonical in two schemes -/

theorem Canonical.starts_of_mem_head? (h : s.Canonical words) :
    ∀ w ∈ words.head?, StartsWithLetter w := by
  cases s with
  | allLower | allUpper | firstUpper => exact h.layout.1
  | lowerCamel | upperCamel => exact fun w hw => h.layout.1 w (List.mem_of_mem_head? hw)

theorem Canonical.starts (hs : s.isSpaced = false) (h : s.Canonical words) :
    ∀ w ∈ words, StartsWithLetter w := by
  cases s with
  | allLower | allUpper | firstUpper => cases hs
  | lowerCamel | upperCamel => exact h.layout.1

theorem starts_isAlpha_iff {w : List Char} (h : IsPlain w) :
    Starts Char.isAlpha w ↔ StartsWithLetter w := by
  cases w with
  | nil => simp [StartsWithLetter]
  | cons c t =>
    have hupper : c.isUpper = false := isUpper_eq_false (h c (by simp))
    have halpha : c.isAlpha = (c.isUpper || c.isLower) := rfl
    simp [StartsWithLetter, halpha, hupper]

/-- The first word of a name starts with a letter anyway. -/
theorem Canonical.forall_starts_iff (h : s.Canonical words) :
    (∀ w ∈ words.tail, Starts Char.isAlpha w) ↔ ∀ w ∈ words, StartsWithLetter w := by
  obtain ⟨w, rest, rfl⟩ := List.exists_cons_of_ne_nil h.ne_nil
  rw [List.forall_mem_cons, List.tail_cons, and_iff_right (h.starts_of_mem_head? w rfl)]
  exact forall₂_congr fun v hv => starts_isAlpha_iff (h.plain v (List.mem_cons_of_mem w hv))

theorem StartsWithLetter.ne_nil {w : List Char} (h : StartsWithLetter w) : w ≠ [] := by
  obtain ⟨c, t, rfl, -⟩ := h
  exact List.cons_ne_nil c t

/-- Underscores keep apart whatever any scheme keeps apart. -/
theorem Canonical.spaced (ht : t.isSpaced = true) (h : s.Canonical words) : t.Canonical words := by
  have hinner : ∀ w ∈ words.tail.dropLast, w ≠ [] := by
    cases s with
    | allLower | allUpper | firstUpper => exact h.layout.2
    | lowerCamel | upperCamel =>
      intro w hw
      exact (h.layout.1 w (List.mem_of_mem_tail (words.tail.dropLast_sublist.subset hw))).ne_nil
  obtain ⟨w, rest, rfl⟩ := List.exists_cons_of_ne_nil h.ne_nil
  obtain ⟨hw, hrest⟩ := List.forall_mem_cons.1 h.plain
  exact (canonical_iff_of_isSpaced ht).2
    ⟨w, rest, rfl, ⟨h.starts_of_mem_head? w rfl, hw⟩, hrest, hinner⟩

/-- Where the words can be read off a text, it is a body only of these words. -/
theorem isBody_joinWords_iff (h : t.splitBody (t.joinWords words) = words) :
    t.isBody (t.joinWords words) = true ↔ t.Canonical words := by
  rw [isBody_iff]
  constructor
  · rintro ⟨other, hother, heq⟩
    rw [← heq, splitBody_joinWords hother] at h
    rwa [← h]
  · intro hwords
    exact ⟨words, hwords, rfl⟩

theorem StartsWithLetter.two_le_iff {w : List Char} (h : StartsWithLetter w) :
    2 ≤ w.length ↔ w.length ≠ 1 := by
  have hpos := List.length_pos_iff.2 h.ne_nil
  omega

theorem canonical_lowerCamel_iff_of_starts (hne : words ≠ []) (hplain : ∀ w ∈ words, IsPlain w)
    (hstarts : ∀ w ∈ words, StartsWithLetter w) :
    lowerCamel.Canonical words ↔ ∀ w ∈ words.tail, w.length ≠ 1 := by
  constructor
  · intro h w hw
    exact (hstarts w (List.mem_of_mem_tail hw)).two_le_iff.1 (h.layout.2 w hw)
  · intro h
    refine ⟨hne, hplain, hstarts, fun w hw => ?_⟩
    exact (hstarts w (List.mem_of_mem_tail hw)).two_le_iff.2 (h w hw)

theorem canonical_upperCamel_iff_of_starts (hne : words ≠ []) (hplain : ∀ w ∈ words, IsPlain w)
    (hstarts : ∀ w ∈ words, StartsWithLetter w) :
    upperCamel.Canonical words ↔ ∀ w ∈ words.dropLast, w.length ≠ 1 := by
  constructor
  · intro h w hw
    exact (hstarts w (words.dropLast_sublist.subset hw)).two_le_iff.1 (h.layout.2 w hw)
  · intro h
    refine ⟨hne, hplain, hstarts, fun w hw => ?_⟩
    exact (hstarts w (words.dropLast_sublist.subset hw)).two_le_iff.2 (h w hw)

/-- Words of `s` written as a body of `t` are read back the same where `t` has underscores, or
where each of them starts with a letter and so gets a capital. -/
theorem splitBody_joinWords_iff (h : s.Canonical words)
    (hbody : t.isBody (t.joinWords words) = true) :
    t.splitBody (t.joinWords words) = words ↔
      t.isSpaced = true ∨ ∀ w ∈ words, StartsWithLetter w := by
  constructor
  · intro heq
    have hwords := (isBody_joinWords_iff heq).1 hbody
    cases ht : t.isSpaced with
    | true => exact .inl rfl
    | false => exact .inr (hwords.starts ht)
  · intro hcase
    cases ht : t.isSpaced with
    | true => exact splitBody_joinWords (h.spaced ht)
    | false => exact splitBody_joinWords_of_starts ht (hcase.resolve_left (by simp [ht])) h.plain

/-- Words of a camel scheme, or written with underscores, are read back even from a text that is no
body. -/
theorem Canonical.splitBody_joinWords (h : s.Canonical words)
    (hapart : s.isSpaced = false ∨ t.isSpaced = true) :
    t.splitBody (t.joinWords words) = words := by
  cases ht : t.isSpaced with
  | true => exact Scheme.splitBody_joinWords (h.spaced ht)
  | false =>
    have hs : s.isSpaced = false := hapart.resolve_right (by simp [ht])
    exact splitBody_joinWords_of_starts ht (h.starts hs) h.plain

end MemberBinding.Scheme

namespace MemberBinding.Convention

variable {c d : Convention} {name : String} {words other : List String}

theorem accepts_compile_iff : c.accepts (c.compile words) = true ↔
    c.scheme.isBody (c.scheme.joinWords (words.map String.toList)) = true := by
  rw [accepts_iff, toList_compile]
  simp

theorem map_toList_inj : words.map String.toList = other.map String.toList ↔ words = other :=
  (List.map_injective_iff.2 fun _ _ => String.toList_inj.1).eq_iff

/-- The words of a compiled name that is accepted are those of its body. -/
theorem splitBody_of_segment_compile (h : c.segment (c.compile words) = .ok other) :
    c.scheme.splitBody (c.scheme.joinWords (words.map String.toList)) =
      other.map String.toList := by
  obtain ⟨body, hbody, rfl⟩ := segment_eq_ok_iff_body?.1 h
  have hname := (body?_eq_some_iff.1 hbody).1
  rw [toList_compile, List.append_cancel_right_eq, List.append_cancel_left_eq] at hname
  rw [hname, List.map_map]
  simp [Function.comp_def]

theorem compile_injOn (h : c.scheme.Canonical (words.map String.toList))
    (hother : c.scheme.Canonical (other.map String.toList))
    (heq : c.compile words = c.compile other) : words = other := by
  have hwords : c.segment (c.compile words) = .ok words := segment_eq_ok_iff.2 ⟨h, rfl⟩
  have hback : c.segment (c.compile other) = .ok other := segment_eq_ok_iff.2 ⟨hother, rfl⟩
  rw [heq] at hwords
  exact Except.ok.inj (hwords.symm.trans hback)

/-- Words of `c` that are written under `d` and read back are the same words, or their spelling
under `c` tells the difference. -/
theorem compile_eq_iff_of_segment (h : c.segment name = .ok words)
    (hother : d.segment (d.compile words) = .ok other) :
    c.compile other = name ↔ other = words := by
  obtain ⟨hwords, rfl⟩ := segment_eq_ok_iff.1 h
  obtain ⟨hcanonical, -⟩ := segment_eq_ok_iff.1 hother
  constructor
  · intro heq
    cases hc : c.scheme.isSpaced with
    | true => exact compile_injOn (hcanonical.spaced hc) hwords heq
    | false =>
      have haccepts := accepts_iff_exists_words.2 ⟨other, hother⟩
      have hsplit := (Scheme.splitBody_joinWords_iff hwords (accepts_compile_iff.1 haccepts)).2
        (.inr (hwords.starts hc))
      rw [splitBody_of_segment_compile hother, map_toList_inj] at hsplit
      exact hsplit
  · rintro rfl
    rfl

end MemberBinding.Convention

namespace MemberBinding.Conventions

/-- The words of a name are capitalized to begin with, or are kept apart by underscores. -/
def KeepsApart (cs : Conventions) (source target : Role) : Prop :=
  (cs.of source).scheme.isSpaced = false ∨ (cs.of target).scheme.isSpaced = true

theorem convert_eq_ok_iff {cs : Conventions} {source target : Role} {name converted : String} :
    cs.convert name source target = .ok converted ↔
      ∃ words, (cs.of source).segment name = .ok words ∧
        (cs.of target).compile words = converted := by
  rw [convert]
  cases (cs.of source).segment name with
  | error fault => simp [Except.map]
  | ok words => simp [Except.map]

/-- Names that are converted alike are the same, even if the result is no valid name. -/
theorem convert_inj {cs : Conventions} {source target : Role} (hapart : cs.KeepsApart source target)
    {name name' converted : String} (h : cs.convert name source target = .ok converted)
    (h' : cs.convert name' source target = .ok converted) : name = name' := by
  obtain ⟨words, hwords, rfl⟩ := convert_eq_ok_iff.1 h
  obtain ⟨words', hwords', heq⟩ := convert_eq_ok_iff.1 h'
  obtain ⟨hcanonical, rfl⟩ := Convention.segment_eq_ok_iff.1 hwords
  obtain ⟨hcanonical', rfl⟩ := Convention.segment_eq_ok_iff.1 hwords'
  have hbodies := congrArg String.toList heq
  rw [Convention.toList_compile, Convention.toList_compile, List.append_cancel_right_eq,
    List.append_cancel_left_eq] at hbodies
  have hsplit := congrArg (cs.of target).scheme.splitBody hbodies
  rw [hcanonical.splitBody_joinWords hapart, hcanonical'.splitBody_joinWords hapart,
    Convention.map_toList_inj] at hsplit
  rw [hsplit]

theorem convert_injOn {cs : Conventions} {source target : Role}
    (hapart : cs.KeepsApart source target) :
    Set.InjOn (cs.convert · source target) {name | (cs.of source).accepts name = true} := by
  intro name hname name' _ heq
  obtain ⟨words, hwords⟩ := Convention.accepts_iff_exists_words.1 hname
  have hconvert : cs.convert name source target = .ok ((cs.of target).compile words) :=
    convert_eq_ok_iff.2 ⟨words, hwords, rfl⟩
  exact convert_inj hapart hconvert (heq.symm.trans hconvert)

/-- A name converted to a role with underscores is valid there. One converted to a camel role is,
as far as its words start with letters, where no word is too short to be told apart. A valid result
converts back to the name where no word lost its boundary. -/
theorem convert_valid_and_back (cs : Conventions) (source target : Role) (name : String)
    (h : (cs.of source).accepts name = true) :
    ∃ words converted, (cs.of source).segment name = .ok words ∧
      cs.convert name source target = .ok converted ∧
      ((cs.of target).scheme.isSpaced = true → (cs.of target).accepts converted = true) ∧
      ((∀ w ∈ words.tail, Scheme.Starts Char.isAlpha w.toList) →
        ((cs.of target).scheme = .lowerCamel →
          ((cs.of target).accepts converted = true ↔ ∀ w ∈ words.tail, w.length ≠ 1)) ∧
        ((cs.of target).scheme = .upperCamel →
          ((cs.of target).accepts converted = true ↔ ∀ w ∈ words.dropLast, w.length ≠ 1))) ∧
      ((cs.of target).accepts converted = true →
        (cs.convert converted target source = .ok name ↔
          (cs.of target).scheme.isSpaced = true ∨
            ∀ w ∈ words.tail, Scheme.Starts Char.isAlpha w.toList)) := by
  obtain ⟨words, hwords⟩ := Convention.accepts_iff_exists_words.1 h
  obtain ⟨hcanonical, -⟩ := Convention.segment_eq_ok_iff.1 hwords
  have hletters : (∀ w ∈ words.tail, Scheme.Starts Char.isAlpha w.toList) ↔
      ∀ w ∈ words.map String.toList, Scheme.StartsWithLetter w := by
    rw [← hcanonical.forall_starts_iff, ← List.map_tail, List.forall_mem_map]
  have hconvert : cs.convert name source target = .ok ((cs.of target).compile words) := by
    rw [convert, hwords]
    rfl
  refine ⟨words, _, hwords, hconvert, ?spaced, ?camel, ?back⟩
  case spaced =>
    intro htarget
    rw [Convention.accepts_compile_iff]
    exact Scheme.isBody_iff.2 ⟨_, hcanonical.spaced htarget, rfl⟩
  case camel =>
    intro hstarts
    rw [hletters] at hstarts
    have haccepts (htarget : (cs.of target).scheme.isSpaced = false) :
        (cs.of target).accepts ((cs.of target).compile words) = true ↔
          (cs.of target).scheme.Canonical (words.map String.toList) := by
      rw [Convention.accepts_compile_iff]
      exact Scheme.isBody_joinWords_iff
        (Scheme.splitBody_joinWords_of_starts htarget hstarts hcanonical.plain)
    constructor
    · intro htarget
      rw [haccepts (by rw [htarget]; rfl), htarget, Scheme.canonical_lowerCamel_iff_of_starts
        hcanonical.ne_nil hcanonical.plain hstarts, ← List.map_tail, List.forall_mem_map]
      simp only [String.length_toList]
    · intro htarget
      rw [haccepts (by rw [htarget]; rfl), htarget, Scheme.canonical_upperCamel_iff_of_starts
        hcanonical.ne_nil hcanonical.plain hstarts, ← List.map_dropLast, List.forall_mem_map]
      simp only [String.length_toList]
  case back =>
    intro haccepts
    obtain ⟨other, hother⟩ := Convention.accepts_iff_exists_words.1 haccepts
    have hback : (cs.of source).compile other = name ↔ other = words :=
      Convention.compile_eq_iff_of_segment hwords hother
    have hread := Scheme.splitBody_joinWords_iff hcanonical
      (Convention.accepts_compile_iff.1 haccepts)
    rw [Convention.splitBody_of_segment_compile hother, Convention.map_toList_inj, ← hback] at hread
    rw [convert, hother, hletters, ← hread]
    exact ⟨Except.ok.inj, congrArg Except.ok⟩

theorem convert_valid_and_back_documentTitle :
    (standard.of .field).accepts "documentTitle" = true ∧
      standard.convert "documentTitle" .field .dependencyField = .ok "DocumentTitleProperty" ∧
      (standard.of .dependencyField).accepts "DocumentTitleProperty" = true ∧
      standard.convert "DocumentTitleProperty" .dependencyField .field = .ok "documentTitle" := by
  have haccepts : (standard.of .field).accepts "documentTitle" = true := by decide +kernel
  have hsegment : (standard.of .field).segment "documentTitle" = .ok ["document", "title"] := by
    decide +kernel
  have hconvert : standard.convert "documentTitle" .field .dependencyField =
      .ok "DocumentTitleProperty" := by decide +kernel
  obtain ⟨words, converted, hwords, hconverted, -, hcamel, hback⟩ :=
    convert_valid_and_back standard .field .dependencyField "documentTitle" haccepts
  obtain rfl := Except.ok.inj (hwords.symm.trans hsegment)
  obtain rfl := Except.ok.inj (hconverted.symm.trans hconvert)
  have hletters : ∀ w ∈ ["title"], Scheme.Starts Char.isAlpha w.toList := by
    simp [Scheme.Starts]
  have hvalid := ((hcamel hletters).2 rfl).2 (by decide +kernel)
  exact ⟨haccepts, hconvert, hvalid, (hback hvalid).2 (.inr hletters)⟩

end MemberBinding.Conventions
