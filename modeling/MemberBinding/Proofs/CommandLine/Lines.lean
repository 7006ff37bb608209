import MemberBinding.Proofs.Codec.Bindings

/-!
# The lines of bindings

Bindings are printed one to a line, in order. A line names the anchor of its binding and, after an
arrow, says of each other role which member fills it. Main statements: `Bindings.forall₂_lines`,
`BindingKind.splitOn_intercalate`.
-/

namespace MemberBinding

/-- The text is a dash, or the name of the member. -/
def NamedBy (a : Option Member) (text : String) : Prop :=
  match a with
  | none => text = "-"
  | some m => text = m.name

/-- The line of a binding of each kind, given the roles of the binding. -/
inductive BindingKind.Prints : BindingKind → List (String × Option Member) → String → Prop
  | property {p : Member} {f : Option Member} {field : String} (hf : NamedBy f field) :
      Prints property [("property", some p), ("field", f)] (p.name ++ " -> field: " ++ field)
  | dependency {p : Member} {f : Option Member} {field : String} (hf : NamedBy f field) :
      Prints dependency [("property", some p), ("field", f)]
        (p.name ++ " -> descriptor: " ++ field)
  | command {e : Member} {c p f : Option Member} {canExecute property field : String}
      (hc : NamedBy c canExecute) (hp : NamedBy p property) (hf : NamedBy f field) :
      Prints command [("execute", some e), ("can_execute", c), ("property", p), ("field", f)]
        (e.name ++ " -> can execute: " ++ canExecute ++ ", property: " ++ property ++
          ", field: " ++ field)

theorem namedBy_getD (a : Option Member) : NamedBy a ((a.map Member.name).getD "-") := by
  cases a with
  | none => rfl
  | some m => rfl

/-! ## The lines that are printed -/

theorem FieldBinding.line_eq (title : String) (b : FieldBinding Member) :
    b.line title = b.property.name ++ (" -> " ++ title ++ ": ") ++
      (b.field.map Member.name).getD "-" := by
  simp only [line, toString, String.append_assoc]

theorem CommandBinding.prints_line (b : CommandBinding Member) :
    BindingKind.command.Prints b.roles b.line :=
  .command (namedBy_getD _) (namedBy_getD _) (namedBy_getD _)

namespace Bindings

def kind : Bindings → BindingKind
  | property _ => .property
  | command _ => .command
  | dependency _ => .dependency

/-- There is a line for each binding, in order. -/
theorem forall₂_lines (bs : Bindings) : List.Forall₂ bs.kind.Prints bs.roles bs.lines := by
  cases bs with
  | property bs =>
    refine forall₂_map_map fun b _ => ?_
    rw [b.line_eq]
    exact .property (namedBy_getD _)
  | dependency bs =>
    refine forall₂_map_map fun b _ => ?_
    rw [b.line_eq]
    exact .dependency (namedBy_getD _)
  | command bs => exact forall₂_map_map fun b _ => b.prints_line

example : (command [⟨.method "ExecuteSaveMethod" "System.Void", none,
      some (.property "SaveCommand" "System.Windows.Input.ICommand"), none⟩]).lines =
    ["ExecuteSaveMethod -> can execute: -, property: SaveCommand, field: -"] := rfl

end Bindings

/-! ## Reading the lines back -/

/-- No name that is shown holds a line break. -/
def OneLined (roles : List (String × Option Member)) : Prop :=
  ∀ e ∈ roles, ∀ m ∈ e.2, '\n' ∉ m.name.toList

theorem NamedBy.newline_notMem {a : Option Member} {text : String} (h : NamedBy a text)
    (hname : ∀ m ∈ a, '\n' ∉ m.name.toList) : '\n' ∉ text.toList := by
  cases a with
  | none =>
    cases h
    decide
  | some m =>
    cases h
    exact hname m rfl

namespace BindingKind

variable {kind : BindingKind} {items : List (List (String × Option Member))} {lines : List String}

theorem Prints.newline_notMem {roles : List (String × Option Member)} {line : String}
    (h : kind.Prints roles line) (hroles : OneLined roles) : '\n' ∉ line.toList := by
  cases h with
  | property hf | dependency hf =>
    simp only [OneLined, List.forall_mem_cons, Option.mem_some_iff, forall_eq'] at hroles
    obtain ⟨hp, hfield, -⟩ := hroles
    simp [hp, hf.newline_notMem hfield]
  | command hc hp hf =>
    simp only [OneLined, List.forall_mem_cons, Option.mem_some_iff, forall_eq'] at hroles
    obtain ⟨he, hcan, hproperty, hfield, -⟩ := hroles
    simp [he, hc.newline_notMem hcan, hp.newline_notMem hproperty, hf.newline_notMem hfield]

theorem newline_notMem_lines (h : List.Forall₂ kind.Prints items lines)
    (hitems : ∀ roles ∈ items, OneLined roles) : ∀ line ∈ lines, '\n' ∉ line.toList := by
  induction h with
  | nil => exact List.forall_mem_nil _
  | cons hline _ ih =>
    rw [List.forall_mem_cons] at hitems ⊢
    exact ⟨hline.newline_notMem hitems.1, ih hitems.2⟩

/-- Where the names hold no line break, the text has one line for each binding. -/
theorem splitOn_intercalate (h : List.Forall₂ kind.Prints items lines) (hne : items ≠ [])
    (hitems : ∀ roles ∈ items, OneLined roles) :
    ("\n".intercalate lines).toList.splitOn '\n' = lines.map String.toList := by
  have hlines : lines ≠ [] := by
    rintro rfl
    exact hne (List.forall₂_nil_right_iff.1 h)
  rw [String.toList_intercalate]
  exact List.splitOn_intercalate '\n' (List.forall_mem_map.2 (newline_notMem_lines h hitems))
    (mt List.map_eq_nil_iff.1 hlines)

end BindingKind
end MemberBinding
