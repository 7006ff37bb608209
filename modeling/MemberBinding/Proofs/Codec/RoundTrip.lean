import MemberBinding.Codec.Config
import MemberBinding.Proofs.Codec.Member

/-!
# What is written is decoded as it was

The compact text of a snapshot, of its members, marks and links, and of the settings, is decoded to
what was written, whatever the strings in it. Main statement: `compact_round_trip`.
-/

namespace MemberBinding

/-- Decoding the compact text of a value gives the value back, so a text that was decoded once can
be replaced by the text of what it was decoded to. -/
structure RoundTrips {α : Type} (encode : α → Json) (d : Decoder α) : Prop where
  decode_encode : ∀ a, d.ofText (encode a).compactText = .ok a
  encode_again : ∀ text a, d.ofText text = .ok a →
    ∃ b, d.ofText (encode a).compactText = .ok b ∧ b = a ∧
      (encode b).compactText = (encode a).compactText

theorem RoundTrips.of_accepts {α : Type} {encode : α → Json} {d : Decoder α} {n : Nat}
    (hn : n ≤ 127) (haccepts : ∀ a, d.Accepts n (encode a) a)
    (hnumberless : ∀ a, (encode a).Numberless) : RoundTrips encode d := by
  have hdecode (a : α) : d.ofText (encode a).compactText = .ok a :=
    Decoder.ofText_compactText ((haccepts a).mono hn) (hnumberless a)
  refine ⟨hdecode, ?_⟩
  intro text a _
  exact ⟨a, hdecode a, rfl, rfl⟩

/-! ## Values without numbers -/

theorem Json.Numberless.strings (ss : List String) : (Json.strings ss).Numberless := by
  refine .array ?_
  intro j hj
  obtain ⟨s, -, rfl⟩ := List.mem_map.1 hj
  exact .string s

theorem Json.Numberless.fieldOf {key : String} {a : Option String} :
    ∀ f ∈ Json.fieldOf key .string a, f.2.Numberless := by
  rintro ⟨k, j⟩ hf
  obtain ⟨text, -, -, rfl⟩ := Json.mem_fieldOf.1 hf
  exact .string text

theorem Link.numberless_toJson (l : Link) : l.toJson.Numberless := by
  refine .object ?_
  simp only [jsonFields, List.forall_mem_append, List.forall_mem_cons]
  exact ⟨⟨.string _, .string _, List.forall_mem_nil _⟩, Json.Numberless.fieldOf⟩

theorem Mark.numberless_toJson (mark : Mark) : mark.toJson.Numberless := by
  rw [toJson_eq]
  refine .object ?_
  rintro ⟨key, j⟩ hf
  rcases List.mem_cons.1 hf with hf | hf
  · cases hf
    exact .string _
  · obtain ⟨text, rfl⟩ := exists_string_of_mem_content hf
    exact .string text

theorem Json.Numberless.ifAny {key : String} {items : List Json} (h : ∀ j ∈ items, j.Numberless) :
    ∀ f ∈ Member.ifAny key items, f.2.Numberless := by
  rintro ⟨k, j⟩ hf
  obtain ⟨-, -, rfl⟩ := Member.mem_ifAny.1 hf
  exact .array h

theorem Member.numberless_toJson (m : Member) : m.toJson.Numberless := by
  have hparameters : ∀ j ∈ m.parameters.map Json.string, j.Numberless :=
    List.forall_mem_map.2 fun type _ => .string type
  have hmarks : ∀ j ∈ m.marks.map Mark.toJson, j.Numberless :=
    List.forall_mem_map.2 fun mark _ => mark.numberless_toJson
  refine .object ?_
  simp only [List.forall_mem_append, List.forall_mem_cons]
  exact ⟨⟨⟨⟨⟨⟨.string _, .string _, nofun⟩, .fieldOf⟩, .fieldOf⟩, .ifAny hparameters⟩,
    .bool _, nofun⟩, .ifAny hmarks⟩

theorem Snapshot.numberless_toJson (s : Snapshot) : s.toJson.Numberless := by
  refine .object ?_
  simp only [List.forall_mem_cons]
  exact ⟨.string _, .array (List.forall_mem_map.2 fun m _ => m.numberless_toJson), nofun⟩

theorem Snapshot.accepts_toJson (s : Snapshot) : decode.Accepts 5 s.toJson s := by
  refine accepts ?_ (Json.hasFields_object _)
  exact forall₂_map_right fun m _ => m.spelled_toJson

/-! ## Settings -/

namespace TypeNames

def entries (t : TypeNames) : List (String × Json) :=
  [("void_type", .string t.void), ("bool_type", .string t.boolean),
    ("command_type", .string t.command),
    ("command_assignable_types", .strings t.commandAssignable),
    ("dependency_property_type", .string t.dependencyProperty)]

/-- The type names with the fields of the keys in `seen`. -/
def part (t : TypeNames) (seen : List String) : TypeNames where
  void := if "void_type" ∈ seen then t.void else ""
  boolean := if "bool_type" ∈ seen then t.boolean else ""
  command := if "command_type" ∈ seen then t.command else ""
  commandAssignable := if "command_assignable_types" ∈ seen then t.commandAssignable else []
  dependencyProperty := if "dependency_property_type" ∈ seen then t.dependencyProperty else ""

theorem builds (t : TypeNames) : shape.Builds 1 t.entries t.part t where
  blank := by simp [part, shape]
  nodup := (by decide : ["void_type", "bool_type", "command_type", "command_assignable_types",
    "dependency_property_type"].Nodup)
  step key j h := by
    simp only [entries, List.mem_cons, List.not_mem_nil, or_false, Prod.mk.injEq] at h
    rcases h with ⟨rfl, rfl⟩ | ⟨rfl, rfl⟩ | ⟨rfl, rfl⟩ | ⟨rfl, rfl⟩ | ⟨rfl, rfl⟩
    · exact ⟨_, rfl, _, Field.accepts_of (Decoder.accepts_string t.void),
        fun seen => by simp [part]⟩
    · exact ⟨_, rfl, _, Field.accepts_of (Decoder.accepts_string t.boolean),
        fun seen => by simp [part]⟩
    · exact ⟨_, rfl, _, Field.accepts_of (Decoder.accepts_string t.command),
        fun seen => by simp [part]⟩
    · exact ⟨_, rfl, _, Field.accepts_of (Decoder.accepts_strings t.commandAssignable),
        fun seen => by simp [part]⟩
    · exact ⟨_, rfl, _,
        Field.accepts_of (Decoder.accepts_string t.dependencyProperty),
        fun seen => by simp [part]⟩
  required := by simp [shape, Field.of, entries]
  whole seen h := by simp [part, h, entries]

theorem numberless_toJson (t : TypeNames) : t.toJson.Numberless := by
  refine .object ?_
  simp only [List.forall_mem_cons]
  exact ⟨.string _, .string _, .string _, .strings _, .string _, nofun⟩

end TypeNames

namespace Options

def entries (o : Options) : List (String × Json) :=
  [("skip_invalid_names", .bool o.skipInvalidNames),
    ("prefer_explicit_over_name_search", .bool o.preferExplicit)]

/-- The options with the fields of the keys in `seen`. -/
def part (o : Options) (seen : List String) : Options where
  skipInvalidNames := if "skip_invalid_names" ∈ seen then o.skipInvalidNames else false
  preferExplicit := if "prefer_explicit_over_name_search" ∈ seen then o.preferExplicit else false

theorem builds (o : Options) : shape.Builds 0 o.entries o.part o where
  blank := by simp [part, shape]
  nodup := (by decide : ["skip_invalid_names", "prefer_explicit_over_name_search"].Nodup)
  step key j h := by
    simp only [entries, List.mem_cons, List.not_mem_nil, or_false, Prod.mk.injEq] at h
    rcases h with ⟨rfl, rfl⟩ | ⟨rfl, rfl⟩
    · exact ⟨_, rfl, _, Field.accepts_of (Decoder.accepts_bool o.skipInvalidNames),
        fun seen => by simp [part]⟩
    · exact ⟨_, rfl, _, Field.accepts_of (Decoder.accepts_bool o.preferExplicit),
        fun seen => by simp [part]⟩
  required := by simp [shape, Field.of, entries]
  whole seen h := by simp [part, h, entries]

theorem numberless_toJson (o : Options) : o.toJson.Numberless := by
  refine .object ?_
  simp only [List.forall_mem_cons]
  exact ⟨.bool _, .bool _, nofun⟩

end Options

/-- Nothing is lost between encoding and decoding, in snapshots, their parts and the settings. -/
theorem compact_round_trip :
    RoundTrips Snapshot.toJson Snapshot.decode ∧ RoundTrips Member.toJson Member.decode ∧
    RoundTrips Mark.toJson Mark.decode ∧ RoundTrips Link.toJson Link.decode ∧
    RoundTrips TypeNames.toJson TypeNames.decode ∧ RoundTrips Options.toJson Options.decode := by
  have hmark (mark : Mark) : Mark.decode.Accepts 1 mark.toJson mark := by
    rw [mark.toJson_eq]
    exact Mark.accepts (Json.hasFields_object _)
  refine ⟨?_, ?_, ?_, ?_, ?_, ?_⟩
  · exact .of_accepts (by decide) Snapshot.accepts_toJson Snapshot.numberless_toJson
  · exact .of_accepts (by decide) (fun m => m.spelled_toJson.accepts) Member.numberless_toJson
  · exact .of_accepts (by decide) hmark Mark.numberless_toJson
  · exact .of_accepts (by decide) (fun l => Link.accepts (Json.hasFields_object _))
      Link.numberless_toJson
  · exact .of_accepts (by decide) (fun t => t.builds.accepts (Json.hasFields_object _))
      TypeNames.numberless_toJson
  · exact .of_accepts (by decide) (fun o => o.builds.accepts (Json.hasFields_object _))
      Options.numberless_toJson

end MemberBinding
