import MemberBinding.Proofs.Command.Consistent
import MemberBinding.Proofs.FieldBinding.Preference

/-!
# Commands where explicit links come before names

When names stop counting beside explicit links, the same methods are executed, with some of the
properties from before and the same fields behind them. Only a can-execute method can go: the
companion of one property counts as a link of the method, and so takes away the name of the others.
Main statement: `preferring_narrows`.
-/

namespace MemberBinding.Command

/-- What is left of the bindings `bs` when names stop counting beside explicit links. -/
structure Narrows (config : Config) (s : Snapshot) (bs bs' : List (CommandBinding Nat)) : Prop where
  execute_iff : ∀ e, (∃ b ∈ bs', b.execute = e) ↔ ∃ b ∈ bs, b.execute = e
  refined : ∀ b' ∈ bs', ∃ b ∈ bs, b.execute = b'.execute ∧ b.property = b'.property ∧
    b.field = b'.field ∧ (b.canExecute = b'.canExecute ∨ b'.canExecute = none ∧
      ∃ q c, b'.property ≠ some q ∧ Exposes config s q b'.execute (some c))

variable {config : Config} {s : Snapshot} {mode : Mode} {e c : Nat} {p : Option Nat}
  {prefer : Bool}

/-! ## Candidates -/

theorem CanExecuteCandidate.of_preferring
    (h : CanExecuteCandidate (config.preferring prefer) s e p c) :
    CanExecuteCandidate (config.preferring false) s e p c := by
  cases h with
  | named searches matched => exact .named searches.of_preferring matched
  | forward carried designated => exact .forward carried designated
  | reverse guards => exact .reverse guards
  | companion bound exposes => exact .companion bound exposes

theorem PropertyCandidate.of_preferring {q : Nat}
    (h : PropertyCandidate (config.preferring prefer) s e q) :
    PropertyCandidate (config.preferring false) s e q := by
  cases h with
  | named searches matched => exact .named searches.of_preferring matched
  | forward carried designated => exact .forward carried designated
  | reverse exposes => exact .reverse exposes

/-- A method whose property comes from a link has a property, whether names count or not. -/
theorem exists_propertyCandidate_of_linked (h : PropertyLinked config s e)
    (hlinks : ∀ l ∈ (s.member e).linksOf .command, ∃ q, s.Designates .property l.name q)
    (prefer : Bool) : ∃ q, PropertyCandidate (config.preferring prefer) s e q := by
  rcases h with h | ⟨q, c, h⟩
  · obtain ⟨l, hl⟩ := List.exists_mem_of_ne_nil _ h
    obtain ⟨q, hq⟩ := hlinks l hl
    exact ⟨q, .forward hl hq⟩
  · exact ⟨q, .reverse h⟩

/-- A link of the method gives it a can-execute method, unless it is a companion that went to
another property. -/
theorem exists_canExecuteCandidate_of_linked (h : GuardLinked config s e)
    (hlinks : ∀ l ∈ (s.member e).linksOf .canExecuteMethod, ∃ c, s.Designates .method l.name c)
    (p : Option Nat) (prefer : Bool) :
    (∃ c, CanExecuteCandidate (config.preferring prefer) s e p c) ∨
      ∃ q c, p ≠ some q ∧ Exposes config s q e (some c) := by
  rcases h with h | ⟨c, h⟩ | ⟨q, c, h⟩
  · obtain ⟨l, hl⟩ := List.exists_mem_of_ne_nil _ h
    obtain ⟨c, hc⟩ := hlinks l hl
    exact .inl ⟨c, .forward hl hc⟩
  · exact .inl ⟨c, .reverse h⟩
  · by_cases hq : p = some q
    · exact .inl ⟨c, .companion hq h⟩
    · exact .inr ⟨q, c, hq, h⟩

theorem CanExecuteCandidate.preferring_or
    (h : CanExecuteCandidate (config.preferring false) s e p c)
    (hlinks : ∀ l ∈ (s.member e).linksOf .canExecuteMethod, ∃ d, s.Designates .method l.name d)
    (prefer : Bool) : (∃ d, CanExecuteCandidate (config.preferring prefer) s e p d) ∨
      ∃ q d, p ≠ some q ∧ Exposes config s q e (some d) := by
  cases h with
  | forward carried designated => exact .inl ⟨c, .forward carried designated⟩
  | reverse guards => exact .inl ⟨c, .reverse guards⟩
  | companion bound exposes => exact .inl ⟨c, .companion bound exposes⟩
  | named searches matched =>
    by_cases hlinked : GuardLinked config s e
    · exact exists_canExecuteCandidate_of_linked hlinked hlinks p prefer
    · exact .inl ⟨c, .named (searches.preferring hlinked prefer) matched⟩

/-! ## Consistency -/

theorem selected_preferring_iff :
    Selected (config.preferring prefer) s mode e ↔ Selected config s mode e := by
  constructor
  · intro h
    exact ⟨h.toAvailable, h.named, h.chosen⟩
  · intro h
    exact ⟨h.toAvailable, h.named, h.chosen⟩

theorem Consistent.exposure_of_preferring (h : Consistent (config.preferring false) s mode)
    (he : Selected config s mode e) (hp : Exposure (config.preferring prefer) s e p) :
    Exposure (config.preferring false) s e p := by
  rcases hp with ⟨q, rfl, hq⟩ | ⟨rfl, hnone⟩
  · exact .inl ⟨q, rfl, hq.of_preferring⟩
  · refine .inr ⟨rfl, ?_⟩
    intro q hq
    cases hq with
    | forward carried designated => exact hnone q (.forward carried designated)
    | reverse exposes => exact hnone q (.reverse exposes)
    | named searches matched =>
      by_cases hlinked : PropertyLinked config s e
      · -- Had links taken the name away, they would have given a property themselves.
        obtain ⟨r, hr⟩ := exists_propertyCandidate_of_linked hlinked
          (h.commandLinks e (selected_preferring_iff.2 he)) prefer
        exact hnone r hr
      · exact hnone q (.named (searches.preferring hlinked prefer) matched)

theorem Fit.preferring (h : Fit (config.preferring false) s e p) (prefer : Bool) :
    Fit (config.preferring prefer) s e p where
  canExecute_unique c hc d hd := h.canExecute_unique c hc.of_preferring d hd.of_preferring
  field_unique q hq f hf g hg := h.field_unique q hq f hf.of_preferring g hg.of_preferring
  required := h.required
  execute_shape := h.execute_shape
  canExecute_shape c hc := h.canExecute_shape c hc.of_preferring
  property_type := h.property_type
  field_type q hq f hf := h.field_type q hq f hf.of_preferring

/-- Nothing comes to be wrong when names stop counting. -/
theorem Consistent.preferring (h : Consistent (config.preferring false) s mode) (prefer : Bool) :
    Consistent (config.preferring prefer) s mode := by
  have hselected : ∀ e, Selected (config.preferring prefer) s mode e →
      Selected (config.preferring false) s mode e := fun e he =>
    selected_preferring_iff.2 (selected_preferring_iff.1 he)
  refine ⟨h.excluded, h.guards, h.exposes, h.backs, h.names,
    fun e he => h.canExecuteLinks e (hselected e he),
    fun e he => h.commandLinks e (hselected e he), ?_, ?_⟩
  · intro e he q hq
    exact h.fieldLinks e (hselected e he) q hq.of_preferring
  · intro e he p hp
    have hexposure := h.exposure_of_preferring (selected_preferring_iff.1 he) hp
    exact (h.fits e (hselected e he) p hexposure).preferring prefer

/-- The field behind a property of a command stays when names stop counting. -/
theorem Consistent.backingCandidate_preferring_iff
    (h : Consistent (config.preferring false) s mode) (he : Selected config s mode e) {q f : Nat}
    (hq : PropertyCandidate (config.preferring false) s e q) :
    BackingCandidate (config.preferring prefer) s q f ↔
      BackingCandidate (config.preferring false) s q f := by
  have hselected : Selected (config.preferring false) s mode e := selected_preferring_iff.2 he
  constructor
  · exact FieldCandidate.of_preferring
  · intro hf
    exact FieldCandidate.preferring hf
      ((h.fits e hselected (some q) (.inl ⟨q, rfl, hq⟩)).field_unique q rfl f hf)
      (h.fieldLinks e hselected q hq) prefer

/-! ## Bindings -/

variable {bs bs' : List (CommandBinding Nat)}

theorem exists_execute_iff (h : positions config s mode = .ok bs) :
    (∃ b ∈ bs, b.execute = e) ↔ Selected config s mode e := by
  constructor
  · rintro ⟨b, hb, rfl⟩
    exact (justified_of_mem h hb).selected
  · intro he
    obtain ⟨p, hp⟩ := exists_exposure config s e
    obtain ⟨b, hb, hexecute, -⟩ := exists_binding h he hp
    exact ⟨b, hb, hexecute⟩

/-- Two bindings of one method and property, one with names beside explicit links. -/
theorem Justified.field_preferring_eq (hc : Consistent (config.preferring false) s mode)
    {b b' : CommandBinding Nat} (h : Justified (config.preferring false) s mode b)
    (h' : Justified (config.preferring prefer) s mode b') (hexecute : b.execute = b'.execute)
    (hproperty : b.property = b'.property) : b.field = b'.field := by
  have hselected := selected_preferring_iff.1 h'.selected
  apply Option.ext
  intro f
  rw [h.field_iff, h'.field_iff, ← hproperty]
  refine exists_congr fun q => and_congr_right fun hq => ?_
  have hcandidate := exposure_some_iff.1 (hq ▸ h.exposure)
  rw [hexecute] at hcandidate
  exact (hc.backingCandidate_preferring_iff hselected hcandidate).symm

theorem Justified.canExecute_preferring_or (hc : Consistent (config.preferring false) s mode)
    {b b' : CommandBinding Nat} (h : Justified (config.preferring false) s mode b)
    (h' : Justified (config.preferring prefer) s mode b') (hexecute : b.execute = b'.execute)
    (hproperty : b.property = b'.property) :
    b.canExecute = b'.canExecute ∨ b'.canExecute = none ∧
      ∃ q c, b'.property ≠ some q ∧ Exposes config s q b'.execute (some c) := by
  have hselected := selected_preferring_iff.1 h'.selected
  have hcandidate := h.canExecute_iff
  rw [hexecute, hproperty] at hcandidate
  cases hnew : b'.canExecute with
  | some c => exact .inl ((hcandidate c).2 ((h'.canExecute_iff c).1 hnew).of_preferring)
  | none =>
    cases hold : b.canExecute with
    | none => exact .inl rfl
    | some c =>
      have hlinks := hc.canExecuteLinks _ (selected_preferring_iff.2 hselected)
      rcases ((hcandidate c).1 hold).preferring_or hlinks prefer with ⟨d, hd⟩ | hother
      · have hsome := (h'.canExecute_iff d).2 hd
        rw [hnew] at hsome
        cases hsome
      · exact .inr ⟨rfl, hother⟩

theorem narrows (h : positions (config.preferring false) s mode = .ok bs)
    (h' : positions (config.preferring prefer) s mode = .ok bs') : Narrows config s bs bs' := by
  have hc := (positions_eq_ok_iff.1 h).1
  constructor
  · intro e
    rw [exists_execute_iff h, exists_execute_iff h', selected_preferring_iff,
      selected_preferring_iff]
  · intro b' hb'
    have hnew := justified_of_mem h' hb'
    have hselected := selected_preferring_iff.1 hnew.selected
    obtain ⟨b, hb, hexecute, hproperty⟩ := exists_binding h (selected_preferring_iff.2 hselected)
      (hc.exposure_of_preferring hselected hnew.exposure)
    have hold := justified_of_mem h hb
    exact ⟨b, hb, hexecute, hproperty, hold.field_preferring_eq hc hnew hexecute hproperty,
      hold.canExecute_preferring_or hc hnew hexecute hproperty⟩

end MemberBinding.Command

namespace MemberBinding.Bindings

/-- A resolution that succeeds still does when names stop counting beside explicit links. Fields
are bound to the same properties. Commands keep what they have, but for can-execute methods that
gave way to the companion of another property of the method. -/
theorem preferring_narrows (config : Config) (s : Snapshot) (mode : Mode) :
    (∀ bs, Property.positions (config.preferring false) s mode = .ok bs →
      Property.positions (config.preferring true) s mode = .ok bs) ∧
    (∀ bs, Dependency.positions (config.preferring false) s mode = .ok bs →
      Dependency.positions (config.preferring true) s mode = .ok bs) ∧
    ∀ bs, Command.positions (config.preferring false) s mode = .ok bs →
      ∃ bs', Command.positions (config.preferring true) s mode = .ok bs' ∧
        Command.Narrows config s bs bs' := by
  refine ⟨?_, ?_, ?_⟩
  · intro bs h
    exact FieldBinding.Profile.positions_preferring FieldBinding.Profile.obeys_ofProperty h true
  · intro bs h
    exact FieldBinding.Profile.positions_preferring FieldBinding.Profile.obeys_ofDependency h true
  · intro bs h
    have hc := (Command.positions_eq_ok_iff.1 h).1
    have h' := Command.positions_eq_ok_iff.2 ⟨hc.preferring true, rfl⟩
    exact ⟨_, h', Command.narrows h h'⟩

/-- A command of two properties. The can-execute method has the name for it, and is the companion
of one of the properties besides. -/
def guardedCommand : Snapshot where
  name := "Document"
  members := [
    (Member.method "ExecuteSaveMethod" "System.Void").withLink ⟨.command, "StoreCommand", none⟩,
    .method "CanExecuteSaveMethod" "System.Boolean",
    (Member.property "SaveCommand" "System.Windows.Input.ICommand").withLink
      ⟨.commandMethods, "ExecuteSaveMethod", some "CanExecuteSaveMethod"⟩,
    .property "StoreCommand" "System.Windows.Input.ICommand",
    .field "saveCommand" "System.Windows.Input.ICommand"]

theorem preferring_narrows_guardedCommand :
    Command.positions (Config.preferring {} false) guardedCommand .all =
      .ok [⟨0, some 1, some 2, some 4⟩, ⟨0, some 1, some 3, none⟩] ∧
    Command.positions (Config.preferring {} true) guardedCommand .all =
      .ok [⟨0, none, some 3, none⟩, ⟨0, some 1, some 2, some 4⟩] ∧
    Command.Narrows {} guardedCommand
      [⟨0, some 1, some 2, some 4⟩, ⟨0, some 1, some 3, none⟩]
      [⟨0, none, some 3, none⟩, ⟨0, some 1, some 2, some 4⟩] := by
  have hoff : Command.positions (Config.preferring {} false) guardedCommand .all =
      .ok [⟨0, some 1, some 2, some 4⟩, ⟨0, some 1, some 3, none⟩] := rfl
  have hon : Command.positions (Config.preferring {} true) guardedCommand .all =
      .ok [⟨0, none, some 3, none⟩, ⟨0, some 1, some 2, some 4⟩] := rfl
  obtain ⟨bs', hbs', hnarrows⟩ := (preferring_narrows {} guardedCommand .all).2.2 _ hoff
  obtain rfl := Except.ok.inj (hon.symm.trans hbs')
  exact ⟨hoff, hon, hnarrows⟩

end MemberBinding.Bindings
