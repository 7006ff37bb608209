import MemberBinding.Proofs.FieldBinding.Preference
import MemberBinding.Proofs.Snapshot.SameButLinks

/-!
# Bindings written back as links

Once every bound property carries a link to its field, the link gives the same field as the name or
the links that led to it before, so nothing else is bound when the properties are bound anew. Main
statement: `written_back_fixpoint`.
-/

namespace MemberBinding

/-- `t` is `s`, where every bound property carries a link that names its field besides. With
`strict`, the property requires explicit links as well. -/
structure Snapshot.WrittenBack (s t : Snapshot) (bs : List (FieldBinding Nat)) (strict : Bool) :
    Prop where
  length_eq : t.members.length = s.members.length
  member_eq : ∀ id, t.member id = { s.member id with marks := (t.member id).marks }
  mem_marks_iff : ∀ id mark, mark ∈ (t.member id).marks ↔ mark ∈ (s.member id).marks ∨
    ∃ f, ⟨id, some f⟩ ∈ bs ∧ (mark = .link ⟨.field, (s.member f).name, none⟩ ∨
      strict = true ∧ mark = .requireExplicitLink)

namespace Snapshot

/-- The marks that `bs` gives the member at a position. -/
def writtenMarks (s : Snapshot) (bs : List (FieldBinding Nat)) (strict : Bool) (id : Nat) :
    List Mark :=
  (bs.filter (·.property == id)).flatMap fun b => b.field.toList.flatMap fun f =>
    .link ⟨.field, (s.member f).name, none⟩ :: if strict then [.requireExplicitLink] else []

def writeBack (s : Snapshot) (bs : List (FieldBinding Nat)) (strict : Bool) : Snapshot :=
  { s with members := s.members.zipIdx.map fun e =>
      { e.1 with marks := e.1.marks ++ s.writtenMarks bs strict e.2 } }

theorem mem_writtenMarks {s : Snapshot} {bs : List (FieldBinding Nat)} {strict : Bool} {id : Nat}
    {mark : Mark} : mark ∈ s.writtenMarks bs strict id ↔ ∃ f, ⟨id, some f⟩ ∈ bs ∧
      (mark = .link ⟨.field, (s.member f).name, none⟩ ∨
        strict = true ∧ mark = .requireExplicitLink) := by
  have hmark (f : Nat) : (mark ∈ (Mark.link ⟨.field, (s.member f).name, none⟩ ::
      if strict then [.requireExplicitLink] else [])) ↔
      (mark = .link ⟨.field, (s.member f).name, none⟩ ∨
        strict = true ∧ mark = .requireExplicitLink) := by
    cases strict <;> simp
  simp only [writtenMarks, List.mem_flatMap, List.mem_filter, beq_iff_eq, Option.mem_toList, hmark]
  constructor
  · intro h
    obtain ⟨⟨p, field⟩, ⟨hb, rfl⟩, f, rfl, hf⟩ := h
    exact ⟨f, hb, hf⟩
  · intro h
    obtain ⟨f, hb, hf⟩ := h
    exact ⟨_, ⟨hb, rfl⟩, f, rfl, hf⟩

theorem member_writeBack {s : Snapshot} {bs : List (FieldBinding Nat)} {strict : Bool} {id : Nat}
    (h : id < s.members.length) : (s.writeBack bs strict).member id =
      { s.member id with marks := (s.member id).marks ++ s.writtenMarks bs strict id } := by
  simp [member, member?, writeBack, h]

/-- Bindings of positions that exist can be written back. -/
theorem writtenBack_writeBack {s : Snapshot} {bs : List (FieldBinding Nat)}
    (h : ∀ b ∈ bs, b.property < s.members.length) (strict : Bool) :
    s.WrittenBack (s.writeBack bs strict) bs strict where
  length_eq := by simp [writeBack]
  member_eq id := by
    by_cases hid : id < s.members.length
    · rw [member_writeBack hid]
    · simp [member, member?, writeBack, hid]
  mem_marks_iff id mark := by
    by_cases hid : id < s.members.length
    · rw [member_writeBack hid, List.mem_append, mem_writtenMarks]
    · have hmember : (s.writeBack bs strict).member id = s.member id := by
        simp [member, member?, writeBack, hid]
      rw [hmember]
      refine (or_iff_left ?_).symm
      intro hnew
      obtain ⟨f, hf, -⟩ := hnew
      exact hid (h _ hf)

end Snapshot

namespace Snapshot.WrittenBack

variable {s t : Snapshot} {bs : List (FieldBinding Nat)} {strict : Bool} {id : Nat}

theorem contains_eq (h : s.WrittenBack t bs strict) (id : Nat) {mark : Mark}
    (hlink : mark.link? = none) (hne : mark ≠ .requireExplicitLink) :
    (t.member id).marks.contains mark = (s.member id).marks.contains mark := by
  rw [Bool.eq_iff_iff, List.contains_iff_mem, List.contains_iff_mem, h.mem_marks_iff]
  refine or_iff_left ?_
  intro hnew
  obtain ⟨f, -, rfl | ⟨-, rfl⟩⟩ := hnew
  · cases hlink
  · exact hne rfl

theorem isIncluded_eq (h : s.WrittenBack t bs strict) (id : Nat) :
    (t.member id).isIncluded = (s.member id).isIncluded :=
  h.contains_eq id rfl nofun

theorem sameNames (h : s.WrittenBack t bs strict) : s.SameNames t where
  length_eq := h.length_eq
  name_eq id := by rw [h.member_eq]
  kind_eq id := by rw [h.member_eq]
  isExcluded_eq id := h.contains_eq id rfl nofun

theorem mem_linksOf_iff (h : s.WrittenBack t bs strict) {kind : LinkKind} {l : Link} :
    l ∈ (t.member id).linksOf kind ↔ l ∈ (s.member id).linksOf kind ∨
      kind = .field ∧ ∃ f, ⟨id, some f⟩ ∈ bs ∧ l = ⟨.field, (s.member f).name, none⟩ := by
  rw [Member.mem_linksOf, Member.mem_linksOf, h.mem_marks_iff]
  constructor
  · intro hl
    obtain ⟨hold | ⟨f, hf, hnew⟩, rfl⟩ := hl
    · exact .inl ⟨hold, rfl⟩
    · obtain rfl := Mark.link.inj (hnew.resolve_right nofun)
      exact .inr ⟨rfl, f, hf, rfl⟩
  · intro hl
    rcases hl with ⟨hold, rfl⟩ | ⟨rfl, f, hf, rfl⟩
    · exact ⟨.inl hold, rfl⟩
    · exact ⟨.inr ⟨f, hf, .inl rfl⟩, rfl⟩

theorem requiresExplicitLink_iff (h : s.WrittenBack t bs strict) :
    (t.member id).requiresExplicitLink = true ↔ (s.member id).requiresExplicitLink = true ∨
      strict = true ∧ ∃ f, ⟨id, some f⟩ ∈ bs := by
  simp only [Member.requiresExplicitLink, List.contains_iff_mem, h.mem_marks_iff, reduceCtorEq,
    false_or, and_true]
  refine or_congr_right ?_
  constructor
  · intro hf
    obtain ⟨f, hf, hstrict⟩ := hf
    exact ⟨hstrict, f, hf⟩
  · intro hf
    obtain ⟨hstrict, f, hf⟩ := hf
    exact ⟨f, hf, hstrict⟩

theorem pointsAt_iff (h : s.WrittenBack t bs strict) {f p : Nat} :
    t.PointsAt .field .property .property f p ↔ s.PointsAt .field .property .property f p :=
  h.sameNames.pointsAt_iff fun _ => h.mem_linksOf_iff.trans (or_iff_left nofun)

theorem fieldLinked (h : s.WrittenBack t bs strict) {p : Nat} (hp : FieldLinked s p) :
    FieldLinked t p := by
  rcases hp with hp | ⟨f, hp⟩
  · obtain ⟨l, hl⟩ := List.exists_mem_of_ne_nil _ hp
    exact .inl (List.ne_nil_of_mem (h.mem_linksOf_iff.2 (.inl hl)))
  · exact .inr ⟨f, h.pointsAt_iff.2 hp⟩

theorem fieldLinked_of_mem (h : s.WrittenBack t bs strict) {p f : Nat} (hf : ⟨p, some f⟩ ∈ bs) :
    FieldLinked t p :=
  .inl (List.ne_nil_of_mem (h.mem_linksOf_iff.2 (.inr ⟨rfl, f, hf, rfl⟩)))

/-- Only what is bound comes to be linked. -/
theorem fieldLinked_iff (h : s.WrittenBack t bs strict) {p : Nat}
    (hp : ∀ f, ⟨p, some f⟩ ∉ bs) : FieldLinked t p ↔ FieldLinked s p := by
  refine ⟨?_, h.fieldLinked⟩
  intro hlinked
  rcases hlinked with hl | ⟨f, hf⟩
  · obtain ⟨l, hl⟩ := List.exists_mem_of_ne_nil _ hl
    rcases h.mem_linksOf_iff.1 hl with hold | ⟨-, f, hf, -⟩
    · exact .inl (List.ne_nil_of_mem hold)
    · exact absurd hf (hp f)
  · exact .inr ⟨f, h.pointsAt_iff.1 hf⟩

end Snapshot.WrittenBack

namespace FieldBinding

/-- A law that looks at no marks. -/
structure Law.MarkBlind (law : Law) : Prop where
  admits_iff : ∀ types m marks, law.admits types { m with marks } ↔ law.admits types m
  fits_iff : ∀ types p f marks marks',
    law.fits types { p with marks } { f with marks := marks' } ↔ law.fits types p f

theorem Law.markBlind {law : Law} (h : law ∈ [Law.ofProperty, Law.ofDependency]) :
    law.MarkBlind := by
  rcases List.mem_pair.1 h with rfl | rfl
  · exact ⟨fun _ _ _ => .rfl, fun _ _ _ _ _ => .rfl⟩
  · exact ⟨fun _ _ _ => .rfl, fun _ _ _ _ _ => .rfl⟩

/-- The names of the bound fields tell them from all other fields, excluded ones included. -/
def NamesUnique (s : Snapshot) (bs : List (FieldBinding Nat)) : Prop :=
  ∀ b ∈ bs, ∀ f ∈ b.field, ∀ g < s.members.length, (s.member g).kind = .field →
    (s.member g).name = (s.member f).name → g = f

instance (s : Snapshot) (bs : List (FieldBinding Nat)) : Decidable (NamesUnique s bs) :=
  inferInstanceAs (Decidable (∀ b ∈ bs, ∀ f ∈ b.field, ∀ g < s.members.length,
    (s.member g).kind = .field → (s.member g).name = (s.member f).name → g = f))

variable {law : Law} {config : Config} {s t : Snapshot} {mode : Mode}
  {bs : List (FieldBinding Nat)} {strict prefer : Bool} {p f g : Nat}

/-! ## Candidates -/

theorem Outcome.mem_iff_candidate (h : Outcome law config s mode bs) :
    ⟨p, some f⟩ ∈ bs ↔ Selected law config s mode p ∧ Candidate law config s p f := by
  constructor
  · intro hf
    exact ⟨h.selected hf, (h.field_iff _ hf f).1 rfl⟩
  · intro hf
    obtain ⟨hp, hf⟩ := hf
    obtain ⟨b, hb, rfl⟩ := List.mem_map.1 ((h.mem_iff p).2 hp)
    rwa [← (h.field_iff b hb f).2 hf]

/-- A selected property without a field has no links either. -/
theorem Outcome.not_fieldLinked (h : Outcome law config s mode bs)
    (hc : Consistent law config s mode) (hp : Selected law config s mode p)
    (hunbound : ∀ f, ⟨p, some f⟩ ∉ bs) : ¬FieldLinked s p := by
  intro hlinked
  obtain ⟨f, hf⟩ := exists_fieldCandidate_of_linked hlinked (hc.forwardLinks p hp)
  exact hunbound f (h.mem_iff_candidate.2 ⟨hp, hf config law.property law.field⟩)

/-- The new link designates the field, whatever else is configured. -/
theorem Outcome.candidate_of_mem (h : Outcome law config s mode bs)
    (hw : s.WrittenBack t bs strict) (hnames : NamesUnique s bs) (hf : ⟨p, some f⟩ ∈ bs)
    (config' : Config) : Candidate law config' t p f := by
  have havailable := FieldCandidate.available (h.mem_iff_candidate.1 hf).2
  have hdesignates : s.Designates .field (s.member f).name f :=
    ⟨havailable, rfl, hnames _ hf f rfl⟩
  exact .forward (hw.mem_linksOf_iff.2 (.inr ⟨rfl, f, hf, rfl⟩))
    (hw.sameNames.designates_iff.2 hdesignates)

section

variable (hc : Consistent law config s mode) (hbs : Outcome law config s mode bs)
  (hw : s.WrittenBack t bs strict)
  (hprefer : strict = true ∨ prefer = config.options.preferExplicit)

include hc hbs hw hprefer

/-- Names lead to nothing that they did not lead to before. -/
theorem Outcome.searches (hp : Selected law config s mode p)
    (h : (config.preferring prefer).Searches (t.member p) (FieldLinked t p)) :
    config.Searches (s.member p) (FieldLinked s p) := by
  obtain ⟨hrequires, hnot⟩ := h
  have hnone : ¬(t.member p).requiresExplicitLink = true := by simp [hrequires]
  rw [hw.requiresExplicitLink_iff, not_or, Bool.not_eq_true] at hnone
  refine ⟨hnone.1, ?_⟩
  intro hlinked
  by_cases hbound : ∃ f, ⟨p, some f⟩ ∈ bs
  · -- The new link is explicit, so a name beside it counts only where links do not come first.
    obtain ⟨f, hf⟩ := hbound
    have hstrict : strict ≠ true := fun hstrict => hnone.2 ⟨hstrict, f, hf⟩
    have hsame := hprefer.resolve_left hstrict
    exact hnot ⟨hsame.trans hlinked.1, hw.fieldLinked_of_mem hf⟩
  · exact hbs.not_fieldLinked hc hp (not_exists.1 hbound) hlinked.2

theorem Outcome.candidate_of_writtenBack (hp : Selected law config s mode p)
    (h : Candidate law (config.preferring prefer) t p g) : Candidate law config s p g := by
  cases h with
  | named searches matched =>
    exact .named (hbs.searches hc hw hprefer hp searches) (hw.sameNames.matchesName_iff.1 matched)
  | reverse points => exact .reverse (hw.pointsAt_iff.1 points)
  | forward carried designated =>
    rw [hw.sameNames.designates_iff] at designated
    rcases hw.mem_linksOf_iff.1 carried with hold | ⟨-, f, hf, rfl⟩
    · exact .forward hold designated
    · have hcandidate := (hbs.mem_iff_candidate.1 hf).2
      have havailable := FieldCandidate.available hcandidate
      obtain rfl := designated.unique f havailable.lt havailable.kind_eq rfl
      exact hcandidate

theorem Outcome.candidate_writtenBack_iff (hnames : NamesUnique s bs)
    (hp : Selected law config s mode p) :
    Candidate law (config.preferring prefer) t p g ↔ Candidate law config s p g := by
  refine ⟨hbs.candidate_of_writtenBack hc hw hprefer hp, ?_⟩
  intro hg
  exact hbs.candidate_of_mem hw hnames (hbs.mem_iff_candidate.2 ⟨hp, hg⟩) _

end

/-! ## Properties -/

theorem admits_writtenBack_iff (hblind : law.MarkBlind) (hw : s.WrittenBack t bs strict) (p : Nat) :
    law.admits config.types (t.member p) ↔ law.admits config.types (s.member p) := by
  rw [hw.member_eq]
  exact hblind.admits_iff ..

theorem fits_writtenBack_iff (hblind : law.MarkBlind) (hw : s.WrittenBack t bs strict) (p f : Nat) :
    law.fits config.types (t.member p) (t.member f) ↔
      law.fits config.types (s.member p) (s.member f) := by
  rw [hw.member_eq p, hw.member_eq f]
  exact hblind.fits_iff ..

theorem Outcome.eligible_writtenBack_iff (hblind : law.MarkBlind)
    (hbs : Outcome law config s mode bs) (hw : s.WrittenBack t bs strict) :
    Eligible law config t mode p ↔ Eligible law config s mode p := by
  constructor
  · intro h
    by_cases hbound : ∃ f, ⟨p, some f⟩ ∈ bs
    · obtain ⟨f, hf⟩ := hbound
      exact (hbs.selected hf).1
    · have hchosen := h.chosen
      rw [hw.isIncluded_eq, hw.fieldLinked_iff (not_exists.1 hbound)] at hchosen
      exact ⟨hw.sameNames.available_iff.1 h.toAvailable,
        (admits_writtenBack_iff hblind hw p).1 h.admitted, hchosen⟩
  · intro h
    refine ⟨hw.sameNames.available h.toAvailable,
      (admits_writtenBack_iff hblind hw p).2 h.admitted, ?_⟩
    rw [hw.isIncluded_eq]
    exact h.chosen.imp_right (.imp_right hw.fieldLinked)

theorem Outcome.wellNamed_writtenBack_iff (hbs : Outcome law config s mode bs)
    (hw : s.WrittenBack t bs strict) : WellNamed law config t p ↔ WellNamed law config s p := by
  rw [WellNamed, WellNamed, hw.requiresExplicitLink_iff, hw.sameNames.name_eq]
  constructor
  · intro h
    rcases h with (hold | ⟨-, f, hf⟩) | haccepts
    · exact .inl hold
    · exact (hbs.selected hf).2
    · exact .inr haccepts
  · intro h
    exact h.imp_left .inl

theorem Outcome.selected_writtenBack_iff (hblind : law.MarkBlind)
    (hbs : Outcome law config s mode bs) (hw : s.WrittenBack t bs strict) :
    Selected law (config.preferring prefer) t mode p ↔ Selected law config s mode p := by
  rw [selected_preferring_iff, Selected, Selected, hbs.eligible_writtenBack_iff hblind hw,
    hbs.wellNamed_writtenBack_iff hw]

/-! ## Bindings -/

section

variable (hblind : law.MarkBlind) (hc : Consistent law config s mode)
  (hbs : Outcome law config s mode bs) (hw : s.WrittenBack t bs strict)
  (hprefer : strict = true ∨ prefer = config.options.preferExplicit) (hnames : NamesUnique s bs)

include hblind hc hbs hw hprefer hnames

theorem Consistent.writtenBack : Consistent law (config.preferring prefer) t mode where
  excluded id hlt hkind hexcluded := by
    rw [hw.length_eq] at hlt
    rw [hw.sameNames.kind_eq] at hkind
    rw [hw.sameNames.isExcluded_eq] at hexcluded
    obtain ⟨hincluded, hfield, hproperty⟩ := hc.excluded id hlt hkind hexcluded
    refine ⟨(hw.isIncluded_eq id).trans hincluded, ?_, ?_⟩
    · refine List.eq_nil_iff_forall_not_mem.2 fun l hl => ?_
      rcases hw.mem_linksOf_iff.1 hl with hold | ⟨-, f, hf, -⟩
      · exact List.ne_nil_of_mem hold hfield
      · have havailable := (hbs.selected hf).1.not_excluded
        rw [hexcluded] at havailable
        cases havailable
    · refine List.eq_nil_iff_forall_not_mem.2 fun l hl => ?_
      have hold := (hw.mem_linksOf_iff.1 hl).resolve_right nofun
      exact List.ne_nil_of_mem hold hproperty
  reverseLinks f hf l hl name hname := by
    have hold := (hw.mem_linksOf_iff.1 hl).resolve_right nofun
    obtain ⟨p, hp⟩ := hc.reverseLinks f (hw.sameNames.available_iff.1 hf) l hold name hname
    exact ⟨p, hw.sameNames.designates hp⟩
  names p hp := by
    have heligible := (hbs.eligible_writtenBack_iff hblind hw).1 (eligible_preferring_iff.1 hp)
    exact (hc.names p heligible).imp_right (hbs.wellNamed_writtenBack_iff hw).2
  forwardLinks p hp l hl := by
    rcases hw.mem_linksOf_iff.1 hl with hold | ⟨-, f, hf, rfl⟩
    · have hselected := (hbs.selected_writtenBack_iff hblind hw).1 hp
      obtain ⟨f, hf⟩ := hc.forwardLinks p hselected l hold
      exact ⟨f, hw.sameNames.designates hf⟩
    · have havailable := FieldCandidate.available (hbs.mem_iff_candidate.1 hf).2
      exact ⟨f, hw.sameNames.designates ⟨havailable, rfl, hnames _ hf f rfl⟩⟩
  unique p hp f hf g hg := by
    have hselected := (hbs.selected_writtenBack_iff hblind hw).1 hp
    rw [hbs.candidate_writtenBack_iff hc hw hprefer hnames hselected] at hf hg
    exact hc.unique p hselected f hf g hg
  required p hp hrequires := by
    have hselected := (hbs.selected_writtenBack_iff hblind hw).1 hp
    rcases hw.requiresExplicitLink_iff.1 hrequires with hold | ⟨-, f, hf⟩
    · obtain ⟨f, hf⟩ := hc.required p hselected hold
      exact ⟨f, (hbs.candidate_writtenBack_iff hc hw hprefer hnames hselected).2 hf⟩
    · exact ⟨f, hbs.candidate_of_mem hw hnames hf _⟩
  fits p hp f hf := by
    have hselected := (hbs.selected_writtenBack_iff hblind hw).1 hp
    rw [hbs.candidate_writtenBack_iff hc hw hprefer hnames hselected] at hf
    exact (fits_writtenBack_iff hblind hw p f).2 (hc.fits p hselected f hf)

theorem Outcome.writtenBack : Outcome law (config.preferring prefer) t mode bs where
  ordered := hbs.ordered
  mem_iff p := (hbs.mem_iff p).trans (hbs.selected_writtenBack_iff hblind hw).symm
  field_iff b hb f := by
    have hselected := hbs.selected hb
    rw [hbs.field_iff b hb, hbs.candidate_writtenBack_iff hc hw hprefer hnames hselected]

end

theorem Profile.positions_writtenBack {profile : Profile} (hlaw : profile.Obeys law)
    (hblind : law.MarkBlind) (h : profile.positions config s mode = .ok bs)
    (hnames : NamesUnique s bs) (hw : s.WrittenBack t bs strict)
    (hprefer : strict = true ∨ prefer = config.options.preferExplicit) :
    profile.positions (config.preferring prefer) t mode = .ok bs := by
  obtain ⟨hc, hbs⟩ := (positions_eq_ok_iff_outcome hlaw).1 h
  exact (positions_eq_ok_iff_outcome hlaw).2
    ⟨hc.writtenBack hblind hbs hw hprefer hnames, hbs.writtenBack hblind hc hw hprefer hnames⟩

/-- Properties are bound as before once their fields are written into links, where the names of the
fields say which are meant. When the properties require explicit links too, it no longer matters
whether such links come before names. -/
theorem written_back_fixpoint {profile : Profile}
    (hprofile : profile ∈ [Property.profile, Dependency.profile])
    (h : profile.positions config s mode = .ok bs) (hnames : NamesUnique s bs) :
    (∀ t, s.WrittenBack t bs false → profile.positions config t mode = .ok bs) ∧
    ∀ t, s.WrittenBack t bs true → ∀ prefer,
      profile.positions (config.preferring prefer) t mode = .ok bs := by
  obtain ⟨law, hmem, hlaw⟩ := Profile.exists_obeys hprofile
  have hblind := Law.markBlind hmem
  constructor
  · intro t hw
    exact Profile.positions_writtenBack hlaw hblind h hnames hw (.inr rfl)
  · intro t hw prefer
    exact Profile.positions_writtenBack hlaw hblind h hnames hw (.inl rfl)

/-- A field found by name, one found by a link of its own, and a property without a field. -/
def captionSnapshot : Snapshot where
  name := "Document"
  members := [
    .property "Title" "System.String",
    .property "Heading" "System.String",
    .field "title" "System.String",
    (Member.field "caption" "System.String").withLink ⟨.property, "Heading", none⟩,
    .property "Note" "System.String"]

theorem written_back_fixpoint_captionSnapshot :
    let bs : List (FieldBinding Nat) := [⟨0, some 2⟩, ⟨1, some 3⟩, ⟨4, none⟩]
    Property.positions {} captionSnapshot .all = .ok bs ∧ NamesUnique captionSnapshot bs ∧
      (captionSnapshot.writeBack bs true).members[1]? =
        some (((Member.property "Heading" "System.String").withLink
          ⟨.field, "caption", none⟩).withMark .requireExplicitLink) ∧
      Property.positions {} (captionSnapshot.writeBack bs false) .all = .ok bs ∧
      Property.positions (Config.preferring {} true) (captionSnapshot.writeBack bs true) .all =
        .ok bs := by
  intro bs
  have hbs : Property.positions {} captionSnapshot .all = .ok bs := rfl
  have hnames : NamesUnique captionSnapshot bs := by decide
  have hwritten (strict : Bool) :
      captionSnapshot.WrittenBack (captionSnapshot.writeBack bs strict) bs strict :=
    Snapshot.writtenBack_writeBack (by decide) strict
  have hprofile : Property.profile ∈ [Property.profile, Dependency.profile] := List.mem_cons_self
  obtain ⟨hlinked, hstrict⟩ := written_back_fixpoint hprofile hbs hnames
  exact ⟨hbs, hnames, by decide, hlinked _ (hwritten false), hstrict _ (hwritten true) true⟩

end FieldBinding
end MemberBinding
