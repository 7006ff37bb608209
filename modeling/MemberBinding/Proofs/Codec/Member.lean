import MemberBinding.Codec.Member
import MemberBinding.Proofs.Codec.Records

/-!
# Members and their marks are decoded as they are written

The objects may have their fields in any order. Main statements: `Member.Spelled.accepts` and
`Snapshot.accepts`.
-/

namespace MemberBinding

theorem Json.mem_fieldOf {α : Type} {key k : String} {encode : α → Json} {a : Option α} {j : Json} :
    (k, j) ∈ fieldOf key encode a ↔ ∃ x, a = some x ∧ k = key ∧ j = encode x := by
  cases a <;> simp [fieldOf]

theorem Json.mem_keys_fieldOf {α : Type} {key k : String} {encode : α → Json} {a : Option α} :
    k ∈ (fieldOf key encode a).map (·.1) ↔ a ≠ none ∧ k = key := by
  cases a <;> simp [fieldOf]

theorem Json.keys_fieldOf_sublist {α : Type} (key : String) (encode : α → Json) (a : Option α) :
    ((fieldOf key encode a).map (·.1)).Sublist [key] := by
  cases a with
  | none => exact List.nil_sublist _
  | some a => exact List.Sublist.refl _

namespace Link

theorem accepts_kind {n : Nat} (k : LinkKind) : LinkKind.decode.Accepts n k.toJson k :=
  Decoder.accepts_enumeration (by cases k <;> rfl)

/-- The link with the fields of the keys in `seen`. -/
def part (l : Link) (seen : List String) : Link where
  kind := if "kind" ∈ seen then l.kind else .field
  name := if "name" ∈ seen then l.name else ""
  secondName := if "second_name" ∈ seen then l.secondName else none

theorem builds (l : Link) : shape.Builds 0 l.jsonFields l.part l where
  blank := by simp [part, shape]
  nodup := by
    have hkeys : (l.jsonFields.map (·.1)).Sublist (["kind", "name"] ++ ["second_name"]) := by
      rw [jsonFields, List.map_append]
      exact (List.Sublist.refl _).append (Json.keys_fieldOf_sublist ..)
    exact hkeys.nodup (by decide)
  step key j h := by
    simp only [jsonFields, List.mem_append, List.mem_cons, List.not_mem_nil, or_false,
      Prod.mk.injEq, Json.mem_fieldOf] at h
    rcases h with (⟨rfl, rfl⟩ | ⟨rfl, rfl⟩) | ⟨second, hsecond, rfl, rfl⟩
    · exact ⟨_, rfl, _, Field.accepts_of (accepts_kind l.kind), fun seen => by simp [part]⟩
    · exact ⟨_, rfl, _, Field.accepts_of (Decoder.accepts_string l.name),
        fun seen => by simp [part]⟩
    · exact ⟨_, rfl, _, Field.accepts_of (Decoder.accepts_optional_string second),
        fun seen => by simp [part, hsecond]⟩
  required := by simp [shape, Field.of, jsonFields]
  whole seen h := by
    obtain ⟨kind, name, second⟩ := l
    cases second <;> simp [part, h, jsonFields, Json.fieldOf]

theorem accepts {l : Link} {j : Json} (h : j.HasFields l.jsonFields) : decode.Accepts 1 j l :=
  l.builds.accepts h

end Link
namespace Mark

def tag : Mark → MarkTag
  | included => .included
  | excluded => .excluded
  | link _ => .link
  | requireExplicitLink => .requireExplicitLink
  | suppressAutoField => .suppressAutoField

/-- What stands beside the tag. -/
def content : Mark → List (String × Json)
  | link l => l.jsonFields
  | _ => []

def entries (mark : Mark) : List (String × Json) :=
  ("type", .string mark.tag.name) :: mark.content

theorem toJson_eq (mark : Mark) : mark.toJson = .object mark.entries := by
  cases mark <;> rfl

theorem type_ne_of_mem_content {mark : Mark} {key : String} {j : Json}
    (h : (key, j) ∈ mark.content) : key ≠ "type" := by
  cases mark with
  | link l =>
    simp only [content, Link.jsonFields, List.mem_append, List.mem_cons, List.not_mem_nil, or_false,
      Prod.mk.injEq, Json.mem_fieldOf] at h
    rcases h with (⟨rfl, -⟩ | ⟨rfl, -⟩) | ⟨-, -, rfl, -⟩ <;> decide
  | _ => cases h

theorem exists_string_of_mem_content {mark : Mark} {key : String} {j : Json}
    (h : (key, j) ∈ mark.content) : ∃ text, j = .string text := by
  cases mark with
  | link l =>
    simp only [content, Link.jsonFields, List.mem_append, List.mem_cons, List.not_mem_nil, or_false,
      Prod.mk.injEq, Json.mem_fieldOf] at h
    rcases h with (⟨-, rfl⟩ | ⟨-, rfl⟩) | ⟨-, -, -, rfl⟩ <;> exact ⟨_, rfl⟩
  | _ => cases h

theorem identifier_tag (mark : Mark) : Decoder.identifier MarkTag.vocabulary
    (Json.string mark.tag.name).toReading = .ok mark.tag := by
  cases mark <;> rfl

/-- The field of an object is not its tag, and can be read through. -/
def Beside (p : Place) (e : String × Json) : Prop :=
  e.1 ≠ "type" ∧ e.2.toReading.readThrough p = .ok ()

/-- Fields beside the tag are read through and kept. -/
theorem splitTag_append {p : Place} {fields : List (String × Json)}
    (h : ∀ e ∈ fields, Beside p e) (tag : Option MarkTag) (others rest : List (Reading × Reading)) :
    splitTag p tag others (Json.toReadingFields fields ++ rest) =
      splitTag p tag ((Json.toReadingFields fields).reverse ++ others) rest := by
  induction fields generalizing others with
  | nil => rfl
  | cons e fields ih =>
    obtain ⟨key, j⟩ := e
    obtain ⟨hkey, hread⟩ := h _ List.mem_cons_self
    have hrest := ih (fun e he => h e (List.mem_cons_of_mem _ he))
      ((.string key, j.toReading) :: others)
    rw [Json.toReadingFields, List.reverse_cons, List.append_assoc, List.cons_append]
    simp only [splitTag, if_neg hkey, hread]
    exact hrest

theorem splitTag_eq {p : Place} {before after : List (String × Json)} {value : Json} {tag : MarkTag}
    (htag : Decoder.identifier MarkTag.vocabulary value.toReading = .ok tag)
    (h : ∀ e ∈ before ++ after, Beside p e) :
    splitTag p none [] (Json.toReadingFields (before ++ ("type", value) :: after)) =
      .ok (some tag, Json.toReadingFields (before ++ after)) := by
  rw [List.forall_mem_append] at h
  have hbefore := splitTag_append h.1 none []
  have hafter := splitTag_append h.2 (some tag) ((Json.toReadingFields before).reverse ++ []) []
  rw [List.append_nil (Json.toReadingFields after)] at hafter
  rw [Json.toReadingFields_append, hbefore, Json.toReadingFields]
  simp only [splitTag, if_true, htag]
  refine hafter.trans ?_
  simp [splitTag, Json.toReadingFields_append]

/-- The mark of a tag, from the fields beside it. -/
theorem mark_tag (mark : Mark) {fields : List (String × Json)} (h : fields.Perm mark.content) :
    mark.tag.mark (Json.object fields).toReading = .ok mark := by
  cases mark with
  | link l =>
    have hlink := Link.accepts ⟨fields, rfl, h⟩ { source := .content } nofun
    exact congrArg (Except.map Mark.link) hlink
  | _ => rfl

theorem accepts {mark : Mark} {j : Json} (h : j.HasFields mark.entries) :
    decode.Accepts 1 j mark := by
  intro p hp
  obtain ⟨fields, rfl, hperm⟩ := h
  obtain ⟨q, henter, -⟩ := hp.enter
  obtain ⟨before, after, rfl⟩ := List.append_of_mem (hperm.mem_iff.2 List.mem_cons_self)
  have hcontent : (before ++ after).Perm mark.content :=
    (List.perm_middle.symm.trans hperm).cons_inv
  have hbeside : ∀ e ∈ before ++ after, Beside q e := by
    rintro ⟨key, j⟩ he
    have hmem := hcontent.mem_iff.1 he
    obtain ⟨text, rfl⟩ := exists_string_of_mem_content hmem
    exact ⟨type_ne_of_mem_content hmem, rfl⟩
  have hmark := mark_tag mark hcontent
  rw [Json.toReading] at hmark
  simp only [Json.toReading, decode, henter, bind, Except.bind,
    splitTag_eq mark.identifier_tag hbeside, endOf, hmark]

end Mark
namespace Member

theorem mem_ifAny {key k : String} {items : List Json} {j : Json} :
    (k, j) ∈ ifAny key items ↔ items ≠ [] ∧ k = key ∧ j = .array items := by
  cases items <;> simp [ifAny]

theorem mem_keys_ifAny {key k : String} {items : List Json} :
    k ∈ (ifAny key items).map (·.1) ↔ items ≠ [] ∧ k = key := by
  cases items <;> simp [ifAny]

theorem keys_ifAny_sublist (key : String) (items : List Json) :
    ((ifAny key items).map (·.1)).Sublist [key] := by
  cases items with
  | nil => exact List.nil_sublist _
  | cons j items => exact List.Sublist.refl _

/-- The fields of a member whose marks are written as `marks`. -/
def entries (m : Member) (marks : List Json) : List (String × Json) :=
  [("name", .string m.name), ("kind", m.kind.toJson)] ++
    Json.fieldOf "value_type" .string m.valueType ++
    Json.fieldOf "return_type" .string m.returnType ++
    ifAny "parameters" (m.parameters.map .string) ++
    [("is_static", .bool m.isStatic)] ++
    ifAny "annotations" marks

/-- The value spells the member, the fields of its objects in any order. -/
def Spelled (m : Member) (j : Json) : Prop :=
  ∃ marks, List.Forall₂ (fun mark j => j.HasFields mark.entries) m.marks marks ∧
    j.HasFields (m.entries marks)

theorem spelled_toJson (m : Member) : m.Spelled m.toJson := by
  refine ⟨m.marks.map Mark.toJson, ?_, m.entries (m.marks.map Mark.toJson), rfl, .refl _⟩
  apply forall₂_map_right
  intro mark _
  rw [Mark.toJson_eq]
  exact Json.hasFields_object _

theorem accepts_kind {n : Nat} (k : MemberKind) : MemberKind.decode.Accepts n k.toJson k :=
  Decoder.accepts_enumeration (by cases k <;> rfl)

/-- The member with the fields of the keys in `seen`. -/
def part (m : Member) (seen : List String) : Member where
  name := if "name" ∈ seen then m.name else ""
  kind := if "kind" ∈ seen then m.kind else .field
  valueType := if "value_type" ∈ seen then m.valueType else none
  returnType := if "return_type" ∈ seen then m.returnType else none
  parameters := if "parameters" ∈ seen then m.parameters else []
  isStatic := if "is_static" ∈ seen then m.isStatic else false
  marks := if "annotations" ∈ seen then m.marks else []

theorem keys_entries_sublist (m : Member) (marks : List Json) :
    ((m.entries marks).map (·.1)).Sublist ["name", "kind", "value_type", "return_type",
      "parameters", "is_static", "annotations"] := by
  simp only [entries, List.map_append]
  exact ((((List.Sublist.refl ["name", "kind"]).append (Json.keys_fieldOf_sublist ..)).append
    (Json.keys_fieldOf_sublist ..)).append (keys_ifAny_sublist ..)).append
      (List.Sublist.refl ["is_static"]) |>.append (keys_ifAny_sublist ..)

theorem mem_keys_entries {m : Member} {marks : List Json} {key : String} :
    key ∈ (m.entries marks).map (·.1) ↔ key = "name" ∨ key = "kind" ∨
      m.valueType ≠ none ∧ key = "value_type" ∨ m.returnType ≠ none ∧ key = "return_type" ∨
      m.parameters ≠ [] ∧ key = "parameters" ∨ key = "is_static" ∨
      marks ≠ [] ∧ key = "annotations" := by
  simp only [entries, List.map_append, List.mem_append, Json.mem_keys_fieldOf, mem_keys_ifAny]
  simp [or_assoc]

theorem part_eq {m : Member} {marks : List Json} (hmarks : marks = [] → m.marks = [])
    {seen : List String} (h : ∀ key, key ∈ seen ↔ key ∈ (m.entries marks).map (·.1)) :
    m.part seen = m := by
  have hnone (type : Option String) : (if type = none then none else type) = type := by
    cases type <;> simp
  have hnil : (if m.parameters = [] then [] else m.parameters) = m.parameters := by
    cases m.parameters <;> simp
  have hbare : (if marks = [] then [] else m.marks) = m.marks := by
    split
    · rename_i hnil
      exact (hmarks hnil).symm
    · rfl
  simp [part, h, mem_keys_entries, hnone, hnil, hbare]

theorem builds {m : Member} {marks : List Json}
    (hmarks : List.Forall₂ (fun mark j => j.HasFields mark.entries) m.marks marks) :
    shape.Builds 2 (m.entries marks) m.part m where
  blank := by simp [part, shape]
  nodup := (keys_entries_sublist m marks).nodup (by decide)
  step key j h := by
    simp only [entries, List.mem_append, List.mem_cons, List.not_mem_nil, or_false, Prod.mk.injEq,
      Json.mem_fieldOf, mem_ifAny] at h
    rcases h with (((((⟨rfl, rfl⟩ | ⟨rfl, rfl⟩) | ⟨type, htype, rfl, rfl⟩) |
      ⟨type, htype, rfl, rfl⟩) | ⟨-, rfl, rfl⟩) | ⟨rfl, rfl⟩) | ⟨-, rfl, rfl⟩
    · exact ⟨_, rfl, _, Field.accepts_of (Decoder.accepts_string m.name),
        fun seen => by simp [part]⟩
    · exact ⟨_, rfl, _, Field.accepts_of (accepts_kind m.kind),
        fun seen => by simp [part]⟩
    · exact ⟨_, rfl, _, Field.accepts_of (Decoder.accepts_optional_string type),
        fun seen => by simp [part, htype]⟩
    · exact ⟨_, rfl, _, Field.accepts_of (Decoder.accepts_optional_string type),
        fun seen => by simp [part, htype]⟩
    · exact ⟨_, rfl, _, Field.accepts_of (Decoder.accepts_strings m.parameters),
        fun seen => by simp [part]⟩
    · exact ⟨_, rfl, _, Field.accepts_of (Decoder.accepts_bool m.isStatic),
        fun seen => by simp [part]⟩
    · exact ⟨_, rfl, _, Field.accepts_of (Decoder.accepts_list
        (hmarks.imp fun _ _ hmark => Mark.accepts hmark)), fun seen => by simp [part]⟩
  required := by simp [shape, Field.of, entries]
  whole seen h := part_eq (by rintro rfl; exact List.forall₂_nil_right_iff.1 hmarks) h

theorem Spelled.accepts {m : Member} {j : Json} (h : m.Spelled j) : decode.Accepts 3 j m := by
  obtain ⟨marks, hmarks, hfields⟩ := h
  exact (builds hmarks).accepts hfields

end Member

namespace Snapshot

/-- The fields of a snapshot whose members are written as `members`. -/
def entries (s : Snapshot) (members : List Json) : List (String × Json) :=
  [("name", .string s.name), ("members", .array members)]

/-- The snapshot with the fields of the keys in `seen`. -/
def part (s : Snapshot) (seen : List String) : Snapshot where
  name := if "name" ∈ seen then s.name else ""
  members := if "members" ∈ seen then s.members else []

theorem builds {s : Snapshot} {members : List Json}
    (hmembers : List.Forall₂ Member.Spelled s.members members) :
    shape.Builds 4 (s.entries members) s.part s where
  blank := by simp [part, shape]
  nodup := (by decide : ["name", "members"].Nodup)
  step key j h := by
    simp only [entries, List.mem_cons, List.not_mem_nil, or_false, Prod.mk.injEq] at h
    rcases h with ⟨rfl, rfl⟩ | ⟨rfl, rfl⟩
    · exact ⟨_, rfl, _, Field.accepts_of (Decoder.accepts_string s.name),
        fun seen => by simp [part]⟩
    · exact ⟨_, rfl, _, Field.accepts_of (Decoder.accepts_list
        (hmembers.imp fun _ _ hmember => hmember.accepts)), fun seen => by simp [part]⟩
  required := by simp [shape, Field.of, entries]
  whole seen h := by simp [part, h, entries]

theorem accepts {s : Snapshot} {members : List Json}
    (hmembers : List.Forall₂ Member.Spelled s.members members) {j : Json}
    (h : j.HasFields (s.entries members)) : decode.Accepts 5 j s :=
  (builds hmembers).accepts h

end Snapshot
end MemberBinding
