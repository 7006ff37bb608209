import MemberBinding.Naming.Convention
import MemberBinding.Proofs.Naming.Bodies

/-!
# Names and their words

The names of a convention and the canonical word lists of its scheme correspond one to one. Main
statement: `segment_compile_inverse`.
-/

namespace MemberBinding.Convention

variable {c : Convention} {name : String} {words : List String}

theorem toList_compile (c : Convention) (words : List String) :
    (c.compile words).toList =
      c.before.toList ++ c.scheme.joinWords (words.map String.toList) ++ c.after.toList := by
  simp [compile, Scheme.compile]

theorem body?_compile (h : c.scheme.Canonical (words.map String.toList)) :
    c.body? (c.compile words) = some (c.scheme.joinWords (words.map String.toList)) :=
  body?_eq_some_iff.2 ⟨toList_compile c words, Scheme.isBody_iff.2 ⟨_, h, rfl⟩⟩

theorem map_ofList_map_toList (words : List String) :
    (words.map String.toList).map String.ofList = words := by
  simp [Function.comp_def]

/-- The words of a name are the canonical words that are written as the name. -/
theorem segment_eq_ok_iff :
    c.segment name = .ok words ↔
      c.scheme.Canonical (words.map String.toList) ∧ c.compile words = name := by
  constructor
  · intro h
    rw [segment] at h
    split at h
    · rename_i body hbody
      obtain ⟨hname, hbody⟩ := body?_eq_some_iff.1 hbody
      obtain ⟨ws, hws, rfl⟩ := Scheme.isBody_iff.1 hbody
      have hwords : words.map String.toList = ws := by
        rw [← Except.ok.inj h, Scheme.splitBody_joinWords hws]
        simp [Function.comp_def]
      rw [← hwords] at hws hname
      refine ⟨hws, ?_⟩
      rw [← String.toList_inj, toList_compile, hname]
    · cases h
  · intro h
    obtain ⟨hwords, rfl⟩ := h
    rw [segment, body?_compile hwords]
    dsimp only
    rw [Scheme.splitBody_joinWords hwords, map_ofList_map_toList]

theorem accepts_iff_exists_words :
    c.accepts name = true ↔ ∃ words, c.segment name = .ok words := by
  rw [accepts, segment]
  cases c.body? name <;> simp

/-- A convention accepts the names that its own words compile back to, and the word lists that a
compiled name gives back are the canonical ones. -/
theorem segment_compile_inverse (c : Convention) :
    (∀ name, c.accepts name = true ↔
      ∃ words, c.segment name = .ok words ∧ c.compile words = name) ∧
    ∀ words, c.segment (c.compile words) = .ok words ↔
      c.scheme.Canonical (words.map String.toList) := by
  constructor
  · intro name
    rw [accepts_iff_exists_words]
    constructor
    · intro h
      obtain ⟨words, hwords⟩ := h
      exact ⟨words, hwords, (segment_eq_ok_iff.1 hwords).2⟩
    · intro h
      obtain ⟨words, hwords, -⟩ := h
      exact ⟨words, hwords⟩
  · intro words
    rw [segment_eq_ok_iff]
    exact and_iff_left rfl

end MemberBinding.Convention
