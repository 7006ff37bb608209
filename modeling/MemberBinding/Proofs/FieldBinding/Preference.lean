import MemberBinding.Proofs.FieldBinding.Exact

/-!
# Fields where explicit links come before names

A name that stops counting takes its candidates away. Where the field of a property was unique, an
explicit link led to the same field as the name, so the field stays. Main statements:
`FieldCandidate.preferring` and `Profile.positions_preferring`.
-/

namespace MemberBinding

/-- The same, but for whether a name counts beside explicit links. -/
def Config.preferring (config : Config) (prefer : Bool) : Config :=
  { config with options := { config.options with preferExplicit := prefer } }

namespace Config

variable {config : Config} {m : Member} {explicit : Prop} {prefer : Bool}

theorem Searches.of_preferring (h : (config.preferring prefer).Searches m explicit) :
    (config.preferring false).Searches m explicit :=
  ⟨h.1, fun hprefer => Bool.false_ne_true hprefer.1⟩

/-- Without explicit links there is nothing to prefer. -/
theorem Searches.preferring (h : config.Searches m explicit) (hexplicit : ¬explicit)
    (prefer : Bool) : (config.preferring prefer).Searches m explicit :=
  ⟨h.1, fun hprefer => hexplicit hprefer.2⟩

end Config

section

variable {config : Config} {s : Snapshot} {given sought : Role} {p f : Nat} {prefer : Bool}

theorem FieldCandidate.of_preferring
    (h : FieldCandidate (config.preferring prefer) s given sought p f) :
    FieldCandidate (config.preferring false) s given sought p f := by
  cases h with
  | named searches matched => exact .named searches.of_preferring matched
  | forward carried designated => exact .forward carried designated
  | reverse points => exact .reverse points

/-- A property with explicit links has a candidate, whether names count or not. -/
theorem exists_fieldCandidate_of_linked (h : FieldLinked s p)
    (hlinks : ∀ l ∈ (s.member p).linksOf .field, ∃ f, s.Designates .field l.name f) :
    ∃ f, ∀ config given sought, FieldCandidate config s given sought p f := by
  rcases h with h | ⟨f, h⟩
  · obtain ⟨l, hl⟩ := List.exists_mem_of_ne_nil _ h
    obtain ⟨f, hf⟩ := hlinks l hl
    exact ⟨f, fun _ _ _ => .forward hl hf⟩
  · exact ⟨f, fun _ _ _ => .reverse h⟩

/-- The only candidate stays one when its name stops counting. -/
theorem FieldCandidate.preferring (h : FieldCandidate (config.preferring false) s given sought p f)
    (hunique : ∀ g, FieldCandidate (config.preferring false) s given sought p g → f = g)
    (hlinks : ∀ l ∈ (s.member p).linksOf .field, ∃ g, s.Designates .field l.name g)
    (prefer : Bool) : FieldCandidate (config.preferring prefer) s given sought p f := by
  cases h with
  | forward carried designated => exact .forward carried designated
  | reverse points => exact .reverse points
  | named searches matched =>
    by_cases hlinked : FieldLinked s p
    · -- The name does not count now, but it led to the same field as the links.
      obtain ⟨g, hg⟩ := exists_fieldCandidate_of_linked hlinked hlinks
      rw [hunique g (hg _ _ _)]
      exact hg _ _ _
    · exact .named (searches.preferring hlinked prefer) matched

end

namespace FieldBinding

variable {law : Law} {config : Config} {s : Snapshot} {mode : Mode} {p : Nat} {prefer : Bool}

theorem eligible_preferring_iff :
    Eligible law (config.preferring prefer) s mode p ↔ Eligible law config s mode p := by
  constructor
  · intro h
    exact ⟨h.toAvailable, h.admitted, h.chosen⟩
  · intro h
    exact ⟨h.toAvailable, h.admitted, h.chosen⟩

theorem selected_preferring_iff :
    Selected law (config.preferring prefer) s mode p ↔ Selected law config s mode p :=
  and_congr_left fun _ => eligible_preferring_iff

theorem Consistent.candidate_preferring_iff (h : Consistent law (config.preferring false) s mode)
    (hp : Selected law config s mode p) {f : Nat} :
    Candidate law (config.preferring prefer) s p f ↔
      Candidate law (config.preferring false) s p f := by
  have hselected : Selected law (config.preferring false) s mode p := selected_preferring_iff.2 hp
  constructor
  · exact FieldCandidate.of_preferring
  · intro hf
    exact FieldCandidate.preferring hf (h.unique p hselected f hf) (h.forwardLinks p hselected)
      prefer

/-- Nothing comes to be wrong when names stop counting. -/
theorem Consistent.preferring (h : Consistent law (config.preferring false) s mode)
    (prefer : Bool) : Consistent law (config.preferring prefer) s mode := by
  have hselected : ∀ p, Selected law (config.preferring prefer) s mode p →
      Selected law (config.preferring false) s mode p := fun p hp =>
    selected_preferring_iff.2 (selected_preferring_iff.1 hp)
  refine ⟨h.excluded, h.reverseLinks, ?_, fun p hp => h.forwardLinks p (hselected p hp), ?_, ?_, ?_⟩
  · intro p hp
    exact h.names p (eligible_preferring_iff.2 (eligible_preferring_iff.1 hp))
  · intro p hp f hf g hg
    exact h.unique p (hselected p hp) f hf.of_preferring g hg.of_preferring
  · intro p hp hrequires
    obtain ⟨f, hf⟩ := h.required p (hselected p hp) hrequires
    exact ⟨f, (h.candidate_preferring_iff (selected_preferring_iff.1 hp)).2 hf⟩
  · intro p hp f hf
    exact h.fits p (hselected p hp) f hf.of_preferring

theorem Outcome.preferring {bs : List (FieldBinding Nat)}
    (h : Outcome law (config.preferring false) s mode bs)
    (hc : Consistent law (config.preferring false) s mode) (prefer : Bool) :
    Outcome law (config.preferring prefer) s mode bs where
  ordered := h.ordered
  mem_iff p := by rw [h.mem_iff, selected_preferring_iff, selected_preferring_iff]
  field_iff b hb f := by
    have hselected := h.selected hb
    rw [h.field_iff b hb]
    exact (hc.candidate_preferring_iff (selected_preferring_iff.1 hselected)).symm

/-- Properties are bound as before when explicit links come before names. -/
theorem Profile.positions_preferring {profile : Profile} (hlaw : profile.Obeys law)
    {bs : List (FieldBinding Nat)}
    (h : profile.positions (config.preferring false) s mode = .ok bs) (prefer : Bool) :
    profile.positions (config.preferring prefer) s mode = .ok bs := by
  obtain ⟨hc, hbs⟩ := (positions_eq_ok_iff_outcome hlaw).1 h
  exact (positions_eq_ok_iff_outcome hlaw).2 ⟨hc.preferring prefer, hbs.preferring hc prefer⟩

end FieldBinding
end MemberBinding
