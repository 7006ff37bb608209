import MemberBinding.Codec.Bindings
import MemberBinding.Proofs.Codec.RoundTrip
import MemberBinding.Proofs.Json.Value

/-!
# Bindings as they are shown

The text of a list of bindings is read as an array of objects with a value for each role. Main
statement: `Bindings.exists_ofText?_prettyText`.
-/

namespace MemberBinding

/-- An object with one value for each role: null for a role that nothing fills, and otherwise a
value that is decoded to the member. -/
structure Json.Shows (j : Json) (roles : List (String × Option Member)) : Prop where
  keys : ∃ fields, j = .object fields ∧ (fields.map (·.1)).Perm (roles.map (·.1))
  filled : ∀ role a, (role, a) ∈ roles → ∃ v, j.get? role = some v ∧ (v = .null ↔ a = none) ∧
    ∀ m, a = some m → Member.decode.ofValue v = .ok m

/-- The roles of a binding, by name, with the members that fill them. -/
def FieldBinding.roles (b : FieldBinding Member) : List (String × Option Member) :=
  [("property", some b.property), ("field", b.field)]

def CommandBinding.roles (b : CommandBinding Member) : List (String × Option Member) :=
  [("execute", some b.execute), ("can_execute", b.canExecute), ("property", b.property),
    ("field", b.field)]

def Bindings.roles : Bindings → List (List (String × Option Member))
  | property bs | dependency bs => bs.map FieldBinding.roles
  | command bs => bs.map CommandBinding.roles

/-! ## Members -/

theorem Mark.keys_entries_nodup (mark : Mark) : (mark.entries.map (·.1)).Nodup := by
  rw [entries, List.map_cons, List.nodup_cons]
  constructor
  · intro h
    obtain ⟨⟨key, j⟩, hf, hkey⟩ := List.mem_map.1 h
    exact type_ne_of_mem_content hf hkey
  · cases mark with
    | link l => exact l.builds.nodup
    | _ => exact List.nodup_nil

theorem Mark.exists_readsAs (mark : Mark) :
    ∃ j, mark.toJson.ReadsAs j ∧ j.HasFields mark.entries := by
  rw [mark.toJson_eq]
  refine Json.exists_readsAs_object (List.forall₂_same.2 ?_) mark.keys_entries_nodup
  rintro ⟨key, j⟩ hf
  rcases List.mem_cons.1 hf with hf | hf
  · cases hf
    exact ⟨rfl, Json.readsAs_string _⟩
  · obtain ⟨text, rfl⟩ := exists_string_of_mem_content hf
    exact ⟨rfl, Json.readsAs_string text⟩

namespace Member

theorem forall₂_fieldOf (key : String) (a : Option String) : List.Forall₂ Json.FieldReadsAs
    (Json.fieldOf key .string a) (Json.fieldOf key .string a) := by
  refine List.forall₂_same.2 ?_
  rintro ⟨k, j⟩ hf
  obtain ⟨text, -, -, rfl⟩ := Json.mem_fieldOf.1 hf
  exact ⟨rfl, Json.readsAs_string text⟩

theorem forall₂_ifAny (key : String) {items items' : List Json}
    (h : List.Forall₂ Json.ReadsAs items items') :
    List.Forall₂ Json.FieldReadsAs (ifAny key items) (ifAny key items') := by
  cases h with
  | nil => exact .nil
  | cons hj hjs => exact .cons ⟨rfl, Json.readsAs_array (.cons hj hjs)⟩ .nil

theorem forall₂_entries (m : Member) {marks marks' : List Json}
    (h : List.Forall₂ Json.ReadsAs marks marks') :
    List.Forall₂ Json.FieldReadsAs (m.entries marks) (m.entries marks') := by
  have hparameters : List.Forall₂ Json.ReadsAs (m.parameters.map .string)
      (m.parameters.map .string) :=
    forall₂_map_map fun type _ => Json.readsAs_string type
  refine List.rel_append (List.rel_append (List.rel_append (List.rel_append (List.rel_append ?_
    (forall₂_fieldOf ..)) (forall₂_fieldOf ..)) (forall₂_ifAny _ hparameters)) ?_)
    (forall₂_ifAny _ h)
  · exact .cons ⟨rfl, rfl⟩ (.cons ⟨rfl, rfl⟩ .nil)
  · exact .cons ⟨rfl, rfl⟩ .nil

theorem exists_readsAs (m : Member) : ∃ j, m.toJson.ReadsAs j ∧ m.Spelled j := by
  choose value hreads hspelled using Mark.exists_readsAs
  have hmarks : List.Forall₂ Json.ReadsAs (m.marks.map Mark.toJson) (m.marks.map value) :=
    forall₂_map_map fun mark _ => hreads mark
  obtain ⟨j, hj, hfields⟩ := Json.exists_readsAs_object (m.forall₂_entries hmarks)
    ((keys_entries_sublist m _).nodup (by decide))
  refine ⟨j, hj, m.marks.map value, ?_, hfields⟩
  exact forall₂_map_right fun mark _ => hspelled mark

end Member

/-! ## Roles -/

/-- The value is null, or spells the member. -/
def FilledBy (a : Option Member) (j : Json) : Prop :=
  match a with
  | none => j = .null
  | some m => m.Spelled j

theorem FilledBy.eq_null_iff {a : Option Member} {j : Json} (h : FilledBy a j) :
    j = .null ↔ a = none := by
  cases a with
  | none => exact iff_of_true h rfl
  | some m =>
    obtain ⟨marks, -, fields, rfl, -⟩ := h
    exact iff_of_false nofun nofun

theorem exists_readsAs_orNull (a : Option Member) :
    ∃ j, (Json.orNull Member.toJson a).ReadsAs j ∧ FilledBy a j := by
  cases a with
  | none => exact ⟨.null, Json.readsAs_null, rfl⟩
  | some m => exact m.exists_readsAs

/-- An object of roles, each null or the member that fills it. -/
def rolesJson (roles : List (String × Option Member)) : Json :=
  .object (roles.map fun e => (e.1, Json.orNull Member.toJson e.2))

theorem exists_readsAs_rolesJson {roles : List (String × Option Member)}
    (hnodup : (roles.map (·.1)).Nodup) : ∃ j, (rolesJson roles).ReadsAs j ∧ j.Shows roles := by
  choose value hreads hfilled using exists_readsAs_orNull
  have hkeys : (roles.map fun e => (e.1, value e.2)).map (·.1) = roles.map (·.1) := List.map_map
  have hfields : List.Forall₂ Json.FieldReadsAs
      (roles.map fun e => (e.1, Json.orNull Member.toJson e.2))
      (roles.map fun e => (e.1, value e.2)) :=
    forall₂_map_map fun e _ => ⟨rfl, hreads e.2⟩
  obtain ⟨j, hj, hshown⟩ := Json.exists_readsAs_object hfields (hkeys ▸ hnodup)
  refine ⟨j, hj, ?_, ?_⟩
  · obtain ⟨fields, rfl, hperm⟩ := hshown
    exact ⟨fields, rfl, hkeys ▸ hperm.map _⟩
  · intro role a ha
    have hget : j.get? role = some (value a) :=
      hshown.get?_eq (hkeys ▸ hnodup) (List.mem_map.2 ⟨(role, a), ha, rfl⟩)
    refine ⟨value a, hget, (hfilled a).eq_null_iff, ?_⟩
    rintro m rfl
    exact Decoder.ofValue_eq (hfilled (some m)).accepts

/-! ## Bindings -/

namespace Bindings

theorem toJson_eq (bs : Bindings) : bs.toJson = .array (bs.roles.map rolesJson) := by
  cases bs with
  | property bs | dependency bs =>
    simp only [toJson, roles, List.map_map]
    rfl
  | command bs =>
    simp only [toJson, roles, List.map_map]
    rfl

theorem keys_nodup_of_mem_roles {bs : Bindings} {roles : List (String × Option Member)}
    (h : roles ∈ bs.roles) : (roles.map (·.1)).Nodup := by
  cases bs with
  | property bs | dependency bs =>
    obtain ⟨b, -, rfl⟩ := List.mem_map.1 h
    exact (by decide : ["property", "field"].Nodup)
  | command bs =>
    obtain ⟨b, -, rfl⟩ := List.mem_map.1 h
    exact (by decide : ["execute", "can_execute", "property", "field"].Nodup)

theorem numberless_toJson (bs : Bindings) : bs.toJson.Numberless := by
  rw [toJson_eq]
  refine .array (List.forall_mem_map.2 fun roles _ => .object ?_)
  refine List.forall_mem_map.2 fun e _ => ?_
  cases e.2 with
  | none => exact .null
  | some m => exact m.numberless_toJson

/-- The text of bindings is an array with an object for each binding, in order. -/
theorem exists_ofText?_prettyText (bs : Bindings) :
    ∃ items, Json.ofText? bs.toJson.prettyText = some (.array items) ∧
      List.Forall₂ (fun roles j => j.Shows roles) bs.roles items := by
  have hroles : ∀ roles ∈ bs.roles, ∃ j, (rolesJson roles).ReadsAs j ∧ j.Shows roles :=
    fun roles h => exists_readsAs_rolesJson (keys_nodup_of_mem_roles h)
  choose! value hreads hshows using hroles
  refine ⟨bs.roles.map value, ?_, ?_⟩
  · apply Json.ofText?_prettyText bs.numberless_toJson
    rw [toJson_eq]
    exact Json.readsAs_array (forall₂_map_map hreads)
  · exact forall₂_map_right hshows

end Bindings
end MemberBinding
