import MemberBinding.Proofs.Command.Consistent

/-!
# Where the members of a binding come from

The bindings form one block for each selected method, in declaration order. A block has one binding
for each property of the method, and every other member of a binding is the only one that the method
and this very property lead to. Main statement: `resolve_blocks`.
-/

namespace MemberBinding.Command

/-- All bindings of the method `e`. -/
structure Block (config : Config) (s : Snapshot) (e : Nat) (block : List (CommandBinding Nat)) :
    Prop where
  ne_nil : block ≠ []
  execute_eq : ∀ b ∈ block, b.execute = e
  layout : (∃ b, block = [b] ∧ b.property = none) ∨
    ((∀ b ∈ block, b.property ≠ none) ∧ (block.map (·.property)).Nodup)
  property_iff : ∀ p, (∃ b ∈ block, b.property = some p) ↔ PropertyCandidate config s e p
  canExecute_iff : ∀ b ∈ block, ∀ c,
    b.canExecute = some c ↔ CanExecuteCandidate config s e b.property c
  field_iff : ∀ b ∈ block, ∀ f,
    b.field = some f ↔ ∃ p, b.property = some p ∧ BackingCandidate config s p f

theorem map_property_bindings (ctx : Context) (e : Nat) :
    (bindings ctx e).map (·.property) = choices (properties ctx e) := by
  have hproperty : ((·.property) ∘ fun p => CommandBinding.ofGroup (group ctx e p)) = id :=
    funext (single?_property ctx e)
  rw [bindings, List.map_map, hproperty, List.map_id]

theorem layout_bindings (ctx : Context) (e : Nat) :
    (∃ b, bindings ctx e = [b] ∧ b.property = none) ∨
      ((∀ b ∈ bindings ctx e, b.property ≠ none) ∧
        ((bindings ctx e).map (·.property)).Nodup) := by
  by_cases hnil : properties ctx e = []
  · left
    refine ⟨.ofGroup (group ctx e none), ?_, single?_property ctx e none⟩
    rw [bindings, hnil]
    rfl
  · right
    refine ⟨?_, ?_⟩
    · intro b hb hnone
      have hmem : b.property ∈ (bindings ctx e).map (·.property) := List.mem_map_of_mem hb
      rw [map_property_bindings, hnone, mem_choices_iff] at hmem
      rcases hmem with ⟨_, -, ⟨⟩⟩ | ⟨-, h⟩
      exact hnil h
    · rw [map_property_bindings]
      exact nodup_choices (nodup_properties ctx e)

variable {config : Config} {s : Snapshot} {mode : Mode}

theorem block_bindings (hc : Consistent config s mode) {e : Nat} (he : Selected config s mode e) :
    Block config s e (bindings (.of config s mode) e) := by
  have hjustified : ∀ b ∈ bindings (.of config s mode) e,
      b.execute = e ∧ Justified config s mode b := by
    intro b hb
    obtain ⟨p, hp, rfl⟩ := List.mem_map.1 hb
    exact ⟨rfl, justified_ofGroup hc he (mem_choices_properties_iff.1 hp)⟩
  refine ⟨?_, fun b hb => (hjustified b hb).1, layout_bindings _ e, ?_, ?_, ?_⟩
  · intro hnil
    exact choices_ne_nil _ (List.map_eq_nil_iff.1 hnil)
  · intro p
    have hmem : (∃ b ∈ bindings (.of config s mode) e, b.property = some p) ↔
        some p ∈ choices (properties (.of config s mode) e) := by
      rw [← map_property_bindings, List.mem_map]
    rw [hmem, mem_choices_iff]
    simp [mem_properties_iff]
  · intro b hb c
    obtain ⟨hexecute, hb⟩ := hjustified b hb
    rw [hb.canExecute_iff c, hexecute]
  · intro b hb
    exact (hjustified b hb).2.field_iff

/-- Commands are bound exactly on the consistent snapshots. The executed methods are then the
selected ones, in declaration order, each with its block of bindings. -/
theorem resolve_blocks (config : Config) (s : Snapshot) (mode : Mode) :
    ((∃ bs, Command.resolve config s mode = .ok bs) ↔ Consistent config s mode) ∧
    ∀ bs, Command.resolve config s mode = .ok bs →
      ∃ (es : List Nat) (block : Nat → List (CommandBinding Nat)),
        es.Pairwise (· < ·) ∧ (∀ e, e ∈ es ↔ Selected config s mode e) ∧
        (∀ e ∈ es, Block config s e (block e)) ∧
        positions config s mode = .ok (es.flatMap block) ∧
        bs = (es.flatMap block).map (·.map s.member) := by
  refine ⟨exists_resolve_eq_ok_iff, ?_⟩
  intro bs h
  obtain ⟨ps, hps, rfl⟩ := map_eq_ok_iff.1 h
  obtain ⟨hc, rfl⟩ := positions_eq_ok_iff.1 hps
  refine ⟨_, bindings (.of config s mode), ?_, fun e => mem_anchors_iff, ?_, hps, rfl⟩
  · exact Rules.pairwise_lt_anchors _ _ _
  · intro e he
    exact block_bindings hc (mem_anchors_iff.1 he)

/-- A command of two properties, one of them with a can-execute method of its own. -/
def splitCommand : Snapshot where
  name := "Document"
  members := [
    (Member.method "ExecuteSaveMethod" "System.Void").withLink ⟨.command, "StoreCommand", none⟩,
    .method "MaySave" "System.Boolean",
    (Member.property "SaveCommand" "System.Windows.Input.ICommand").withLink
      ⟨.commandMethods, "ExecuteSaveMethod", some "MaySave"⟩,
    .property "StoreCommand" "System.Windows.Input.ICommand",
    .field "saveCommand" "System.Windows.Input.ICommand"]

def splitBindings : List (CommandBinding Nat) :=
  [⟨0, some 1, some 2, some 4⟩, ⟨0, none, some 3, none⟩]

theorem resolve_blocks_splitCommand :
    positions {} splitCommand .all = .ok splitBindings ∧
      ∃ (es : List Nat) (block : Nat → List (CommandBinding Nat)),
        (∀ e ∈ es, Block {} splitCommand e (block e)) ∧ splitBindings = es.flatMap block := by
  have hpositions : positions {} splitCommand .all = .ok splitBindings := rfl
  have h : Command.resolve {} splitCommand .all =
      .ok (splitBindings.map (·.map splitCommand.member)) := rfl
  obtain ⟨-, hblocks⟩ := resolve_blocks {} splitCommand .all
  obtain ⟨es, block, -, -, hblock, hes, -⟩ := hblocks _ h
  exact ⟨hpositions, es, block, hblock, Except.ok.inj (hpositions.symm.trans hes)⟩

end MemberBinding.Command
