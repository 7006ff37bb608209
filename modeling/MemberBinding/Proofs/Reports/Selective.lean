import MemberBinding.Proofs.Command.Consistent
import MemberBinding.Proofs.FieldBinding.Exact
import MemberBinding.Proofs.Resolution.Modes

/-!
# Selective binding is a restriction

A property that is bound selectively is bound just as it is when all properties are, and a method
that is executed in both modes has the same bindings in both. Main statement: `selective_restricts`.
-/

namespace MemberBinding

namespace FieldBinding

/-- The property is marked for inclusion, or a link ties it to a field. -/
def Chosen (s : Snapshot) (p : Nat) : Prop := (s.member p).isIncluded = true ∨ FieldLinked s p

variable {law : Law} {config : Config} {s : Snapshot} {bs : List (FieldBinding Nat)}

theorem selected_selectively_iff {p : Nat} :
    Selected law config s .selectively p ↔ Selected law config s .all p ∧ Chosen s p := by
  constructor
  · intro h
    obtain ⟨heligible, hnamed⟩ := h
    exact ⟨⟨⟨heligible.toAvailable, heligible.admitted, .inl rfl⟩, hnamed⟩,
      heligible.chosen.resolve_left nofun⟩
  · intro h
    obtain ⟨⟨heligible, hnamed⟩, hchosen⟩ := h
    exact ⟨⟨heligible.toAvailable, heligible.admitted, .inr hchosen⟩, hnamed⟩

theorem Consistent.selectively (h : Consistent law config s .all) :
    Consistent law config s .selectively where
  excluded := h.excluded
  reverseLinks := h.reverseLinks
  names p hp := h.names p ⟨hp.toAvailable, hp.admitted, .inl rfl⟩
  forwardLinks p hp := h.forwardLinks p (selected_selectively_iff.1 hp).1
  unique p hp := h.unique p (selected_selectively_iff.1 hp).1
  required p hp := h.required p (selected_selectively_iff.1 hp).1
  fits p hp := h.fits p (selected_selectively_iff.1 hp).1

open Classical in
theorem Outcome.selectively (h : Outcome law config s .all bs) :
    Outcome law config s .selectively (bs.filter fun b => Chosen s b.property) where
  ordered := h.ordered.sublist (List.filter_sublist.map _)
  mem_iff p := by
    rw [selected_selectively_iff, ← h.mem_iff]
    simp only [List.mem_map, List.mem_filter, decide_eq_true_eq]
    constructor
    · intro hp
      obtain ⟨b, ⟨hb, hchosen⟩, rfl⟩ := hp
      exact ⟨⟨b, hb, rfl⟩, hchosen⟩
    · intro hp
      obtain ⟨⟨b, hb, rfl⟩, hchosen⟩ := hp
      exact ⟨b, ⟨hb, hchosen⟩, rfl⟩
  field_iff b hb := h.field_iff b (List.mem_of_mem_filter hb)

open Classical in
theorem Profile.positions_selectively {profile : Profile} (hlaw : profile.Obeys law)
    (h : profile.positions config s .all = .ok bs) :
    profile.positions config s .selectively =
      .ok (bs.filter fun b => Chosen s b.property) := by
  obtain ⟨hc, hbs⟩ := (positions_eq_ok_iff_outcome hlaw).1 h
  exact (positions_eq_ok_iff_outcome hlaw).2 ⟨hc.selectively, hbs.selectively⟩

theorem Profile.modeBlind_rules (profile : Profile) (config : Config) (s : Snapshot) :
    profile.rules.ModeBlind config s := ⟨fun _ _ => rfl, fun _ => rfl⟩

theorem Profile.messagesOf_positions_subset (profile : Profile) (config : Config) (s : Snapshot) :
    messagesOf (profile.positions config s .selectively) ⊆
      messagesOf (profile.positions config s .all) := by
  rw [positions, positions, messagesOf_map, messagesOf_map]
  exact (profile.modeBlind_rules config s).messagesOf_resolve_subset

end FieldBinding

namespace Command

variable {config : Config} {s : Snapshot} {mode : Mode} {bs : List (CommandBinding Nat)}

theorem execute_of_mem_bindings {ctx : Context} {e : Nat} {b : CommandBinding Nat}
    (hb : b ∈ bindings ctx e) : b.execute = e := by
  obtain ⟨p, -, rfl⟩ := List.mem_map.1 hb
  rfl

/-- The bindings of a method are looked up by its position. -/
theorem filter_execute_flatMap_bindings {ctx : Context} {es : List Nat} {e : Nat} (hes : es.Nodup)
    (he : e ∈ es) : (es.flatMap (bindings ctx)).filter (·.execute == e) = bindings ctx e := by
  have hother : ∀ ds : List Nat, e ∉ ds →
      (ds.flatMap (bindings ctx)).filter (·.execute == e) = [] := by
    intro ds hds
    simp only [List.filter_eq_nil_iff, List.mem_flatMap, beq_iff_eq]
    rintro b ⟨d, hd, hb⟩ rfl
    exact hds (execute_of_mem_bindings hb ▸ hd)
  have hsame : (bindings ctx e).filter (·.execute == e) = bindings ctx e := by
    simp only [List.filter_eq_self, beq_iff_eq]
    exact fun b hb => execute_of_mem_bindings hb
  obtain ⟨before, after, rfl⟩ := List.append_of_mem he
  rw [List.nodup_middle, List.nodup_cons, List.mem_append, not_or] at hes
  rw [List.flatMap_append, List.flatMap_cons, List.filter_append, List.filter_append,
    hother before hes.1.1, hother after hes.1.2, hsame, List.nil_append, List.append_nil]

/-- Once commands are bound, a method has all of its bindings or none. -/
theorem filter_execute_positions (h : positions config s mode = .ok bs) {e : Nat}
    (he : e ∈ bs.map (·.execute)) :
    bs.filter (·.execute == e) = bindings (.of config s mode) e := by
  obtain ⟨-, rfl⟩ := positions_eq_ok_iff.1 h
  obtain ⟨b, hb, rfl⟩ := List.mem_map.1 he
  obtain ⟨e, hanchor, hb⟩ := List.mem_flatMap.1 hb
  rw [execute_of_mem_bindings hb]
  exact filter_execute_flatMap_bindings (Rules.pairwise_lt_anchors _ _ _).nodup hanchor

end Command

namespace Bindings

open FieldBinding in
open Classical in
/-- Binding selectively reports nothing new and binds the chosen properties, in the same order and
to the same fields. Methods that are executed in both modes keep their bindings. -/
theorem selective_restricts (config : Config) (s : Snapshot) :
    (∀ profile ∈ [Property.profile, Dependency.profile],
      messagesOf (profile.positions config s .selectively) ⊆
        messagesOf (profile.positions config s .all) ∧
      ∀ bs, profile.positions config s .all = .ok bs →
        profile.positions config s .selectively =
          .ok (bs.filter fun b => Chosen s b.property)) ∧
    ∀ bs bs', Command.positions config s .all = .ok bs →
      Command.positions config s .selectively = .ok bs' →
      ∀ e ∈ bs.map (·.execute), e ∈ bs'.map (·.execute) →
        bs.filter (·.execute == e) = bs'.filter (·.execute == e) := by
  constructor
  · intro profile hprofile
    obtain ⟨law, -, hlaw⟩ := Profile.exists_obeys hprofile
    refine ⟨profile.messagesOf_positions_subset config s, ?_⟩
    intro bs hbs
    exact Profile.positions_selectively hlaw hbs
  · intro bs bs' hbs hbs' e he he'
    calc
      bs.filter (·.execute == e) = Command.bindings (.of config s .all) e :=
        Command.filter_execute_positions hbs he
      _ = Command.bindings (.of config s .selectively) e := rfl
      _ = bs'.filter (·.execute == e) := (Command.filter_execute_positions hbs' he').symm

/-- A property without a mark, one that is included, one that a field names, and a method with two
properties of which one names it. -/
def partlyMarked : Snapshot where
  name := "Document"
  members := [
    .property "Title" "System.String",
    (Member.property "Heading" "System.String").withMark .included,
    .property "Caption" "System.String",
    .field "heading" "System.String",
    (Member.field "text" "System.String").withLink ⟨.property, "Caption", none⟩,
    .method "ExecuteSaveMethod" "System.Void",
    .property "SaveCommand" "System.Windows.Input.ICommand",
    (Member.property "StoreCommand" "System.Windows.Input.ICommand").withLink
      ⟨.commandMethods, "ExecuteSaveMethod", none⟩,
    .method "ExecuteLoadMethod" "System.Void"]

open FieldBinding in
open Classical in
theorem selective_restricts_partlyMarked :
    let bs : List (FieldBinding Nat) := [⟨0, none⟩, ⟨1, some 3⟩, ⟨2, some 4⟩]
    let saved : List (CommandBinding Nat) := [⟨5, none, some 6, none⟩, ⟨5, none, some 7, none⟩]
    let loaded : CommandBinding Nat := ⟨8, none, none, none⟩
    Property.positions {} partlyMarked .all = .ok bs ∧
    Property.positions {} partlyMarked .selectively =
      .ok (bs.filter fun b => Chosen partlyMarked b.property) ∧
    Command.positions {} partlyMarked .all = .ok (saved ++ [loaded]) ∧
    Command.positions {} partlyMarked .selectively = .ok saved ∧
    (saved ++ [loaded]).filter (·.execute == 5) = saved.filter (·.execute == 5) := by
  intro bs saved loaded
  have hbs : Property.positions {} partlyMarked .all = .ok bs := rfl
  have hall : Command.positions {} partlyMarked .all = .ok (saved ++ [loaded]) := rfl
  have hselectively : Command.positions {} partlyMarked .selectively = .ok saved := rfl
  obtain ⟨hfields, hcommands⟩ := selective_restricts {} partlyMarked
  have hprofile : Property.profile ∈ [Property.profile, Dependency.profile] := List.mem_cons_self
  exact ⟨hbs, (hfields _ hprofile).2 bs hbs, hall, hselectively,
    hcommands _ _ hall hselectively 5 (by decide) (by decide)⟩

end Bindings
end MemberBinding
