import MemberBinding.Proofs.Resolution.Linking

/-!
# The fields of a property

Every kind of binding looks for the field of a property in the same way: by name, by the links of
the property, and by the links of fields. Main statement: `mem_found_iff_fieldCandidate`.
-/

namespace MemberBinding

/-- The property carries a link to a field, or a field points at it. -/
def FieldLinked (s : Snapshot) (p : Nat) : Prop :=
  (s.member p).linksOf .field ≠ [] ∨ ∃ f, s.PointsAt .field .property .property f p

/-- The fields that a property may be bound to, for the conventions of the two. -/
inductive FieldCandidate (config : Config) (s : Snapshot) (given sought : Role) (p : Nat) :
    Nat → Prop
  | named {f} (searches : config.Searches (s.member p) (FieldLinked s p))
      (matched : s.MatchesName config.conventions given sought .field p f) :
      FieldCandidate config s given sought p f
  | forward {f l} (carried : l ∈ (s.member p).linksOf .field)
      (designated : s.Designates .field l.name f) : FieldCandidate config s given sought p f
  | reverse {f} (points : s.PointsAt .field .property .property f p) :
      FieldCandidate config s given sought p f

theorem FieldCandidate.available {config : Config} {s : Snapshot} {given sought : Role} {p f : Nat}
    (h : FieldCandidate config s given sought p f) : s.Available .field f := by
  cases h with
  | named _ matched => exact matched.1
  | forward _ designated => exact designated.toAvailable
  | reverse points => exact points.1

/-- A role that a field fills for a property. -/
structure Rules.FillsField (rules : Rules) (spec : RoleSpec) (role : Nat) : Prop where
  getElem?_eq : rules.roles[role]? = some spec
  source_kind : (rules.source spec).kind = .property
  kind : spec.kind = .field
  forward : spec.forward = .field
  reverse : spec.reverse = .property
  companion : spec.companion = none
  /-- No link carries a companion for the role. -/
  not_carried : ∀ other ∈ rules.roles, ∀ c, other.companion = some c → c.role ≠ role

namespace Rules.FillsField

variable {rules : Rules} {spec : RoleSpec} {role : Nat} {ctx : Context}

theorem exists_owner_iff (h : rules.FillsField spec role) {p f : Nat} :
    (∃ r ∈ rules.reverseLinks ctx spec, r.source = p ∧ r.owner = f) ↔
      ctx.snapshot.PointsAt .field .property .property f p := by
  rw [exists_reverseLink_iff h.companion, h.kind, h.reverse, h.source_kind]

theorem exists_source_iff (h : rules.FillsField spec role) {p : Nat} :
    (∃ r ∈ rules.reverseLinks ctx spec, r.source = p) ↔
      ∃ f, ctx.snapshot.PointsAt .field .property .property f p := by
  rw [Rules.exists_source_iff h.companion, h.kind, h.reverse, h.source_kind]

theorem explicit_iff (h : rules.FillsField spec role) {p : Nat} :
    rules.Explicit ctx spec role p ↔ FieldLinked ctx.snapshot p := by
  have hcarried : ¬∃ other ∈ rules.roles, ∃ r ∈ rules.reverseLinks ctx other,
      r.source = p ∧ r.companion.map (·.1) = some role := by
    intro h
    obtain ⟨other, ho, r, hr, -, hc⟩ := h
    obtain ⟨c, hother, hrole⟩ := exists_companion_of_role_eq hr hc
    exact h.not_carried other ho c hother hrole
  rw [Explicit, h.exists_source_iff, FieldLinked, h.forward]
  simp only [hcarried, or_false]

theorem mem_found_iff_fieldCandidate (h : rules.FillsField spec role) {p f : Nat} :
    f ∈ rules.found ctx (rules.reverseTable ctx) spec role p ↔
      FieldCandidate ctx.config ctx.snapshot (rules.source spec).naming spec.naming p f := by
  rw [mem_found_iff h.getElem?_eq, h.explicit_iff, h.exists_owner_iff, h.kind, h.forward]
  constructor
  · intro h
    rcases h with ⟨hs, hm⟩ | ⟨l, hl, hd⟩ | hp
    · exact .named hs hm
    · exact .forward hl hd
    · exact .reverse hp
  · intro h
    rcases h with ⟨hs, hm⟩ | ⟨hl, hd⟩ | hp
    · exact .inl ⟨hs, hm⟩
    · exact .inr (.inl ⟨_, hl, hd⟩)
    · exact .inr (.inr hp)

end Rules.FillsField
end MemberBinding
