import MemberBinding.Proofs.Command.Consistent

/-!
# No link is lost

A method that a link asks for is selected in both modes, so every link of a member that is not
excluded shows in the bindings, and so does every name that counts. Main statement:
`resolve_covered`.
-/

namespace MemberBinding.Command

/-- The link names the executed method, alone or together with the can-execute method. -/
inductive ExecutedBy (s : Snapshot) (l : Link) (b : CommandBinding Nat) : Prop
  | alone (single : l.secondName = none) (execute : s.Designates .method l.name b.execute)
  | asWritten {name c} (second : l.secondName = some name) (canExecute : b.canExecute = some c)
      (execute : s.Designates .method l.name b.execute) (other : s.Designates .method name c)
  | swapped {name c} (second : l.secondName = some name) (canExecute : b.canExecute = some c)
      (execute : s.Designates .method name b.execute) (other : s.Designates .method l.name c)

/-- Every link and every name that counts has its effect in the bindings. -/
structure Covered (config : Config) (s : Snapshot) (mode : Mode) (bs : List (CommandBinding Nat)) :
    Prop where
  canExecuteLinks : ∀ e, s.Available .method e →
    ∀ l ∈ (s.member e).linksOf .canExecuteMethod, ∃ c, s.Designates .method l.name c ∧
      (∃ b ∈ bs, b.execute = e) ∧ ∀ b ∈ bs, b.execute = e → b.canExecute = some c
  commandLinks : ∀ e, s.Available .method e → ∀ l ∈ (s.member e).linksOf .command,
    ∃ p, s.Designates .property l.name p ∧ ∃ b ∈ bs, b.execute = e ∧ b.property = some p
  executeLinks : ∀ c, s.Available .method c → ∀ l ∈ (s.member c).linksOf .executeMethod,
    ∃ e, s.Designates .method l.name e ∧
      (∃ b ∈ bs, b.execute = e) ∧ ∀ b ∈ bs, b.execute = e → b.canExecute = some c
  commandMethodsLinks : ∀ p, s.Available .property p →
    ∀ l ∈ (s.member p).linksOf .commandMethods, ∃ b ∈ bs, b.property = some p ∧ ExecutedBy s l b
  fieldLinks : ∀ b ∈ bs, ∀ p, b.property = some p → ∀ l ∈ (s.member p).linksOf .field,
    ∃ f, s.Designates .field l.name f ∧ b.field = some f
  propertyLinks : ∀ b ∈ bs, ∀ p, b.property = some p → ∀ f, s.Available .field f →
    ∀ l ∈ (s.member f).linksOf .property, l.name = (s.member p).name → b.field = some f
  canExecuteNames : ∀ e, Selected config s mode e →
    config.Searches (s.member e) (GuardLinked config s e) →
    ∀ c, s.MatchesName config.conventions .executeMethod .canExecuteMethod .method e c →
      (∃ b ∈ bs, b.execute = e) ∧ ∀ b ∈ bs, b.execute = e → b.canExecute = some c
  propertyNames : ∀ e, Selected config s mode e →
    config.Searches (s.member e) (PropertyLinked config s e) →
    ∀ p, s.MatchesName config.conventions .executeMethod .commandProperty .property e p →
      ∃ b ∈ bs, b.execute = e ∧ b.property = some p
  fieldNames : ∀ b ∈ bs, ∀ p, b.property = some p →
    config.Searches (s.member p) (FieldLinked s p) →
    ∀ f, s.MatchesName config.conventions .commandProperty .commandField .field p f →
      b.field = some f

variable {config : Config} {s : Snapshot} {mode : Mode} {bs : List (CommandBinding Nat)}

/-- A link overrules the mode, and a bad name would have been reported. -/
theorem Consistent.selected_of_linked (hc : Consistent config s mode)
    (hskip : config.options.skipInvalidNames = false) {e : Nat} (he : s.Available .method e)
    (hl : Linked config s e) : Selected config s mode e := by
  have hmarked : Marked config s mode e := .inl hl
  refine ⟨he, ?_, chosen_iff.2 (.inl hmarked)⟩
  rcases hc.names e he hmarked with h | h
  · rw [hskip] at h
    cases h
  · exact h

/-- A candidate of every binding of a method is in each of them. -/
theorem canExecute_of_candidate (h : positions config s mode = .ok bs) {e c : Nat}
    (he : Selected config s mode e) (hc : ∀ p, CanExecuteCandidate config s e p c) :
    (∃ b ∈ bs, b.execute = e) ∧ ∀ b ∈ bs, b.execute = e → b.canExecute = some c := by
  constructor
  · obtain ⟨p, hp⟩ := exists_exposure config s e
    obtain ⟨b, hb, hexecute, -⟩ := exists_binding h he hp
    exact ⟨b, hb, hexecute⟩
  · rintro b hb rfl
    exact ((justified_of_mem h hb).canExecute_iff c).2 (hc b.property)

theorem property_of_candidate (h : positions config s mode = .ok bs) {e p : Nat}
    (he : Selected config s mode e) (hp : PropertyCandidate config s e p) :
    ∃ b ∈ bs, b.execute = e ∧ b.property = some p :=
  exists_binding h he (.inl ⟨p, rfl, hp⟩)

theorem field_of_candidate (h : positions config s mode = .ok bs) {b : CommandBinding Nat}
    (hb : b ∈ bs) {p f : Nat} (hp : b.property = some p) (hf : BackingCandidate config s p f) :
    b.field = some f :=
  ((justified_of_mem h hb).field_iff f).2 ⟨p, hp, hf⟩

theorem executedBy_of_executes {l : Link} {b : CommandBinding Nat} {c : Option Nat}
    (h : Executes config.types s l b.execute c) (hc : ∀ d, c = some d → b.canExecute = some d) :
    ExecutedBy s l b := by
  cases h with
  | alone single execute => exact .alone single execute
  | first second execute canExecute _ => exact .asWritten second (hc _ rfl) execute canExecute
  | second second execute canExecute _ => exact .swapped second (hc _ rfl) execute canExecute

theorem exists_executedBy (h : positions config s mode = .ok bs)
    (hskip : config.options.skipInvalidNames = false) {p : Nat} (hp : s.Available .property p)
    {l : Link} (hl : l ∈ (s.member p).linksOf .commandMethods) :
    ∃ b ∈ bs, b.property = some p ∧ ExecutedBy s l b := by
  have hcons := (positions_eq_ok_iff.1 h).1
  obtain ⟨e, c, hexecutes⟩ := hcons.exposes p hp l hl
  have hexposes : Exposes config s p e c := ⟨hp, l, hl, hexecutes⟩
  have he := hcons.selected_of_linked hskip hexecutes.available.1
    (.inr (.inr (.inr ⟨p, c, hexposes⟩)))
  obtain ⟨b, hb, rfl, hproperty⟩ := property_of_candidate h he (.reverse hexposes)
  refine ⟨b, hb, hproperty, executedBy_of_executes hexecutes ?_⟩
  rintro d rfl
  exact ((justified_of_mem h hb).canExecute_iff d).2 (.companion hproperty hexposes)

theorem Consistent.pointsAt_of_link (hc : Consistent config s mode) {p f : Nat}
    (hp : s.Available .property p) (hf : s.Available .field f) {l : Link}
    (hl : l ∈ (s.member f).linksOf .property) (hname : l.name = (s.member p).name) :
    s.PointsAt .field .property .property f p := by
  have hnames := hc.backs f hf l hl
  obtain ⟨q, hq⟩ := hnames l.name (by simp [Link.names])
  have hpq : p = q := hq.unique p hp.lt hp.kind_eq hname.symm
  subst hpq
  exact ⟨hf, l, hl, hq, hnames⟩

/-- Unless invalid names are skipped, the bindings cover every link and every name that counts. -/
theorem resolve_covered (hskip : config.options.skipInvalidNames = false)
    {members : List (CommandBinding Member)} (h : Command.resolve config s mode = .ok members) :
    ∃ bs, positions config s mode = .ok bs ∧ members = bs.map (·.map s.member) ∧
      Covered config s mode bs := by
  obtain ⟨bs, hbs, rfl⟩ := map_eq_ok_iff.1 h
  have hc := (positions_eq_ok_iff.1 hbs).1
  have hproperty : ∀ b ∈ bs, ∀ p, b.property = some p →
      PropertyCandidate config s b.execute p := by
    intro b hb p hp
    exact exposure_some_iff.1 (hp ▸ (justified_of_mem hbs hb).exposure)
  refine ⟨bs, hbs, rfl, ?_, ?_, ?_, ?_, ?_, ?_, ?_, ?_, ?_⟩
  · intro e ha l hl
    have he := hc.selected_of_linked hskip ha (.inl (List.ne_nil_of_mem hl))
    obtain ⟨c, hdesignates⟩ := hc.canExecuteLinks e he l hl
    exact ⟨c, hdesignates, canExecute_of_candidate hbs he fun p => .forward hl hdesignates⟩
  · intro e ha l hl
    have he := hc.selected_of_linked hskip ha (.inr (.inl (List.ne_nil_of_mem hl)))
    obtain ⟨p, hdesignates⟩ := hc.commandLinks e he l hl
    exact ⟨p, hdesignates, property_of_candidate hbs he (.forward hl hdesignates)⟩
  · intro c ha l hl
    have hnames := hc.guards c ha l hl
    obtain ⟨e, hdesignates⟩ := hnames l.name (by simp [Link.names])
    have hguards : Guards s c e := ⟨ha, l, hl, hdesignates, hnames⟩
    have he := hc.selected_of_linked hskip hdesignates.toAvailable (.inr (.inr (.inl ⟨c, hguards⟩)))
    exact ⟨e, hdesignates, canExecute_of_candidate hbs he fun p => .reverse hguards⟩
  · intro p ha l hl
    exact exists_executedBy hbs hskip ha hl
  · intro b hb p hp l hl
    have he := (justified_of_mem hbs hb).selected
    obtain ⟨f, hdesignates⟩ := hc.fieldLinks _ he p (hproperty b hb p hp) l hl
    exact ⟨f, hdesignates, field_of_candidate hbs hb hp (.forward hl hdesignates)⟩
  · intro b hb p hp f ha l hl hname
    have hpoints := hc.pointsAt_of_link (hproperty b hb p hp).available ha hl hname
    exact field_of_candidate hbs hb hp (.reverse hpoints)
  · intro e he hsearches c hmatches
    exact canExecute_of_candidate hbs he fun p => .named hsearches hmatches
  · intro e he hsearches p hmatches
    exact property_of_candidate hbs he (.named hsearches hmatches)
  · intro b hb p hp hsearches f hmatches
    exact field_of_candidate hbs hb hp (.named hsearches hmatches)

/-- A command whose members are found by links alone, on both sides. -/
def linkedCommand : Snapshot where
  name := "Document"
  members := [
    ((Member.method "ExecuteSaveMethod" "System.Void").withLink
      ⟨.canExecuteMethod, "MaySave", none⟩).withLink ⟨.command, "Store", none⟩,
    (Member.method "MaySave" "System.Boolean").withLink
      ⟨.executeMethod, "ExecuteSaveMethod", none⟩,
    ((Member.property "Store" "System.Object").withLink
      ⟨.commandMethods, "MaySave", some "ExecuteSaveMethod"⟩).withLink ⟨.field, "held", none⟩,
    (Member.field "held" "System.Object").withLink ⟨.property, "Store", none⟩]

theorem resolve_covered_linkedCommand :
    positions {} linkedCommand .selectively = .ok [⟨0, some 1, some 2, some 3⟩] ∧
      Covered {} linkedCommand .selectively [⟨0, some 1, some 2, some 3⟩] := by
  have hpositions : positions {} linkedCommand .selectively =
      .ok [⟨0, some 1, some 2, some 3⟩] := rfl
  have h : Command.resolve {} linkedCommand .selectively =
      .ok [CommandBinding.map linkedCommand.member ⟨0, some 1, some 2, some 3⟩] := rfl
  obtain ⟨bs, hbs, -, hcovered⟩ := resolve_covered rfl h
  rw [hpositions] at hbs
  cases hbs
  exact ⟨hpositions, hcovered⟩

end MemberBinding.Command
