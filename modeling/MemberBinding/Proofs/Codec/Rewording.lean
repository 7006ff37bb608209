import Mathlib.Logic.Relation
import MemberBinding.Proofs.Codec.Decoding
import MemberBinding.Proofs.Codec.RoundTrip

/-!
# One snapshot in different words

What a snapshot is decoded to does not depend on the order of the keys in its objects, on keys that
are no fields, and on whether a field that may be left out is written with its default. Each such
change is a step, in an object at any level. Main statement: `Snapshot.decode_reworded`.
-/

namespace MemberBinding

/-- The keys of a record, and the values that say the same as leaving a key out. -/
structure RecordKeys where
  declared : List String
  defaults : List (String × Json)

namespace Json

/-- One change to an object that leaves its record as it is. `Spare` are the values that a key of no
field may have, and `Within` the changes to the value of a key. -/
inductive Reworded (keys : RecordKeys) (Spare : Json → Prop)
    (Within : String → Json → Json → Prop) : Json → Json → Prop
  | reorder {fields fields' : List (String × Json)} (h : fields.Perm fields') :
      Reworded keys Spare Within (object fields) (object fields')
  | add {fields : List (String × Json)} {key : String} {value : Json}
      (hkey : key ∉ keys.declared) (hvalue : Spare value) :
      Reworded keys Spare Within (object fields) (object ((key, value) :: fields))
  | writeDefault {fields : List (String × Json)} {key : String} {value : Json}
      (hdefault : (key, value) ∈ keys.defaults) (hkey : key ∉ fields.map (·.1)) :
      Reworded keys Spare Within (object fields) (object ((key, value) :: fields))
  | dropDefault {fields : List (String × Json)} {key : String} {value : Json}
      (hdefault : (key, value) ∈ keys.defaults) :
      Reworded keys Spare Within (object ((key, value) :: fields)) (object fields)
  | within {fields : List (String × Json)} {key : String} {value value' : Json}
      (h : Within key value value') :
      Reworded keys Spare Within (object ((key, value) :: fields))
        (object ((key, value') :: fields))

/-- One item of an array changes. -/
inductive ItemReworded (R : Json → Json → Prop) : Json → Json → Prop
  | item (before after : List Json) {j j' : Json} (h : R j j') :
      ItemReworded R (array (before ++ j :: after)) (array (before ++ j' :: after))

theorem Reworded.exists_fields {keys : RecordKeys} {Spare : Json → Prop}
    {Within : String → Json → Json → Prop} {j j' : Json} (h : Reworded keys Spare Within j j') :
    ∃ fields fields', j = object fields ∧ j' = object fields' := by
  cases h <;> exact ⟨_, _, rfl, rfl⟩

/-- Changes to an item of a list, one after the other, are changes to the object with the list. -/
theorem Reworded.items {keys : RecordKeys} {Spare : Json → Prop}
    {Within : String → Json → Json → Prop} {R : Json → Json → Prop} (key : String)
    (hwithin : ∀ value value', ItemReworded R value value' → Within key value value')
    (before after : List Json) (fields : List (String × Json)) {j j' : Json}
    (h : Relation.ReflTransGen R j j') :
    Relation.ReflTransGen (Reworded keys Spare Within)
      (object ((key, array (before ++ j :: after)) :: fields))
      (object ((key, array (before ++ j' :: after)) :: fields)) :=
  h.lift (fun j => object ((key, array (before ++ j :: after)) :: fields))
    fun _ _ hstep => .within (hwithin _ _ (.item before after hstep))

end Json

/-! ## Decoders that do not tell two values apart -/

/-- The text is read as the value, with nothing after it. -/
def Json.WrittenAs (j : Json) (text : String) : Prop := Reading.ofText text = ⟨j.toReading, false⟩

namespace Decoder

variable {α β : Type} {d : Decoder α} {p : Place} {R : Json → Json → Prop}

/-- What is decoded to something is still decoded to it after a change. -/
def Respects (d : Decoder α) (p : Place) (R : Json → Json → Prop) : Prop :=
  ∀ ⦃j j'⦄, R j j' → ∀ ⦃a⦄, d p j.toReading = .ok a → d p j'.toReading = .ok a

theorem Respects.reflTransGen (h : d.Respects p R) : d.Respects p (Relation.ReflTransGen R) := by
  intro j j' hsteps a ha
  induction hsteps with
  | refl => exact ha
  | tail _ hstep ih => exact h hstep ih

theorem Respects.field (h : d.Respects p R) {key : String} {set : α → β → β} {required : Bool} :
    (Field.of key d set required).decode.Respects p R := by
  intro j j' hr f hf
  obtain ⟨a, ha, rfl⟩ := map_eq_ok_iff.1 hf
  exact map_eq_ok_iff.2 ⟨a, h hr ha, rfl⟩

theorem Respects.list (h : ∀ q, p.enter = .ok q → d.Respects q R) :
    (list d).Respects p (Json.ItemReworded R) := by
  rintro _ _ ⟨before, after, hr⟩ as has
  rw [list_array_eq_ok_iff] at has ⊢
  obtain ⟨q, henter, hitems⟩ := has
  refine ⟨q, henter, ?_⟩
  induction before generalizing as with
  | nil =>
    obtain ⟨a, as, ha, has, rfl⟩ := List.forall₂_cons_left_iff.1 hitems
    exact .cons (h q henter hr ha) has
  | cons b before ih =>
    obtain ⟨a, as, ha, has, rfl⟩ := List.forall₂_cons_left_iff.1 hitems
    exact .cons ha (ih has)

theorem ofText_eq_ok_iff {j : Json} {text : String} (h : j.WrittenAs text) {a : α} :
    d.ofText text = .ok a ↔ d ⟨.text, 128⟩ j.toReading = .ok a := by
  simp only [ofText, show Reading.ofText text = _ from h, bind_eq_ok_iff, Bool.false_eq_true,
    if_false, Except.ok.injEq, exists_eq_right]

end Decoder

namespace Shape

variable {α : Type} {shape : Shape α} {keys : RecordKeys}

/-- The fields of the record have these keys and can be set in any order. A default sets what is set
already, and a required field has none. -/
structure HasKeys (shape : Shape α) (keys : RecordKeys) : Prop where
  declared : ∀ f ∈ shape.fields, f.key ∈ keys.declared
  commutes : shape.fields.Pairwise Field.Commutes
  optional : ∀ f ∈ shape.fields, f.required = true → f.key ∉ keys.defaults.map (·.1)
  default : ∀ key value, (key, value) ∈ keys.defaults → ∃ f, shape.field? key = some f ∧
    ∃ set, f.decode.Accepts 1 value set ∧ set shape.blank = shape.blank

namespace HasKeys

variable {p : Place} {fields : List (String × Json)} {a : α} {key : String} {value : Json}

theorem field?_eq_none (h : shape.HasKeys keys) (hkey : key ∉ keys.declared) :
    shape.field? key = none := by
  rw [field?, List.find?_eq_none]
  intro f hf hbeq
  exact hkey (eq_of_beq hbeq ▸ h.declared f hf)

theorem makes_cons_default (h : shape.HasKeys keys) (hp : p.HasRoom 1)
    (hdefault : (key, value) ∈ keys.defaults) (hkey : key ∉ fields.map (·.1))
    (hmakes : shape.Makes p fields a) : shape.Makes p ((key, value) :: fields) a := by
  obtain ⟨steps, hsteps, hnodup, hrequired, rfl⟩ := hmakes
  obtain ⟨f, hf, set, haccepts, hblank⟩ := h.default key value hdefault
  have hnew : key ∉ steps.map (·.1) := fun hmem => hkey (hsteps.keys_sublist.subset hmem)
  refine ⟨(key, set) :: steps, .set hf (haccepts p hp) hsteps, ?_, ?_, ?_⟩
  · exact List.nodup_cons.2 ⟨hnew, hnodup⟩
  · exact fun g hg hg' => List.mem_cons_of_mem _ (hrequired g hg hg')
  · simp only [List.foldl_cons, hblank]

theorem makes_of_cons_default (h : shape.HasKeys keys) (hp : p.HasRoom 1)
    (hdefault : (key, value) ∈ keys.defaults) (hmakes : shape.Makes p ((key, value) :: fields) a) :
    shape.Makes p fields a := by
  obtain ⟨steps, hsteps, hnodup, hrequired, rfl⟩ := hmakes
  obtain ⟨f, hf, set, haccepts, hblank⟩ := h.default key value hdefault
  cases hsteps with
  | skip hf' => cases hf.symm.trans hf'
  | @set _ _ f' set' _ steps hf' hset hsteps =>
    obtain rfl := Option.some.inj (hf.symm.trans hf')
    obtain rfl := Except.ok.inj ((haccepts p hp).symm.trans hset)
    refine ⟨steps, hsteps, (List.nodup_cons.1 hnodup).2, ?_, ?_⟩
    · intro g hg hg'
      have hne : g.key ≠ key := by
        rintro rfl
        exact h.optional g hg hg' (List.mem_map_of_mem hdefault)
      exact List.mem_of_ne_of_mem hne (hrequired g hg hg')
    · simp only [List.foldl_cons, hblank]

/-- A change to an object leaves the record that its fields make up. -/
theorem makes {Spare : Json → Prop} {Within : String → Json → Json → Prop}
    {fields' : List (String × Json)} (h : shape.HasKeys keys) (hp : p.HasRoom 1)
    (hwithin : ∀ key f, shape.field? key = some f → f.decode.Respects p (Within key))
    (hr : Json.Reworded keys Spare Within (.object fields) (.object fields'))
    (hmakes : shape.Makes p fields a) : shape.Makes p fields' a := by
  cases hr with
  | reorder hperm => exact hmakes.perm h.commutes hperm
  | add hkey =>
    obtain ⟨steps, hsteps, hmakes⟩ := hmakes
    exact ⟨steps, .skip (h.field?_eq_none hkey) hsteps, hmakes⟩
  | writeDefault hdefault hkey => exact h.makes_cons_default hp hdefault hkey hmakes
  | dropDefault hdefault => exact h.makes_of_cons_default hp hdefault hmakes
  | within hvalue =>
    obtain ⟨steps, hsteps, hmakes⟩ := hmakes
    cases hsteps with
    | skip hf hsteps => exact ⟨steps, .skip hf hsteps, hmakes⟩
    | set hf hset hsteps => exact ⟨_, .set hf (hwithin _ _ hf hvalue hset) hsteps, hmakes⟩

/-- A record is decoded to the same after any change to its object. -/
theorem respects {Spare : Json → Prop} {Within : String → Json → Json → Prop}
    (h : shape.HasKeys keys) (hp : p.HasRoom 2)
    (hwithin : ∀ q, p.enter = .ok q → ∀ key f, shape.field? key = some f →
      f.decode.Respects q (Within key)) :
    shape.decode.Respects p (Json.Reworded keys Spare Within) := by
  intro j j' hr a ha
  obtain ⟨fields, fields', rfl, rfl⟩ := hr.exists_fields
  rw [decode_object_eq_ok_iff] at ha ⊢
  obtain ⟨q, henter, hmakes⟩ := ha
  exact ⟨q, henter, h.makes (hp.of_enter henter) (hwithin q henter) hr hmakes⟩

end HasKeys
end Shape

/-! ## Marks -/

namespace Link

def keys : RecordKeys := ⟨["kind", "name", "second_name"], [("second_name", .null)]⟩

theorem hasKeys : shape.HasKeys keys where
  declared := by simp [shape, Field.of, keys]
  commutes := commutes
  optional := by simp [shape, Field.of, keys]
  default key value h := by
    simp only [keys, List.mem_singleton, Prod.mk.injEq] at h
    obtain ⟨rfl, rfl⟩ := h
    exact ⟨_, rfl, _, Field.accepts_of (b := none) (fun _ _ => rfl), rfl⟩

end Link

namespace Mark

def keys : RecordKeys := ⟨["type", "kind", "name", "second_name"], [("second_name", .null)]⟩

/-- One change to the object of a mark. -/
def Reworded (Spare : Json → Prop) : Json → Json → Prop :=
  Json.Reworded keys Spare fun _ _ _ => False

end Mark

/-- The mark of a tag does not change with the object beside it. -/
theorem MarkTag.mark_reworded (Spare : Json → Prop) {tag : MarkTag} {j j' : Json} {mark : Mark}
    (hr : Json.Reworded Link.keys Spare (fun _ _ _ => False) j j')
    (h : tag.mark j.toReading = .ok mark) : tag.mark j'.toReading = .ok mark := by
  cases tag with
  | link =>
    obtain ⟨l, hl, rfl⟩ := map_eq_ok_iff.1 h
    have hrespects : Link.decode.Respects { source := .content }
        (Json.Reworded Link.keys Spare fun _ _ _ => False) :=
      Link.hasKeys.respects nofun fun _ _ _ _ _ _ _ hfalse => hfalse.elim
    exact map_eq_ok_iff.2 ⟨l, hrespects hr hl, rfl⟩
  | _ => cases hr <;> exact h

namespace Mark

variable {p : Place} {e : String × Json} {fields : List (String × Json)} {mark : Mark}

theorem Makes.cons (h : Makes p fields mark) (he : Beside p e)
    (hmark : ∀ (tag : MarkTag) (beside : List (String × Json)), beside ⊆ fields →
      tag.mark (Json.object beside).toReading = .ok mark →
      tag.mark (Json.object (e :: beside)).toReading = .ok mark) : Makes p (e :: fields) mark := by
  obtain ⟨value, tag, beside, hperm, htag, hbeside, hof⟩ := h
  refine ⟨value, tag, e :: beside, (hperm.cons e).trans (.swap ..), htag, ?_, ?_⟩
  · exact List.forall_mem_cons.2 ⟨he, hbeside⟩
  · exact hmark tag beside (fun f hf => hperm.mem_iff.2 (List.mem_cons_of_mem _ hf)) hof

theorem Makes.of_cons (h : Makes p (e :: fields) mark) (he : e.1 ≠ "type")
    (hmark : ∀ (tag : MarkTag) (beside : List (String × Json)),
      tag.mark (Json.object (e :: beside)).toReading = .ok mark →
      tag.mark (Json.object beside).toReading = .ok mark) : Makes p fields mark := by
  obtain ⟨value, tag, beside, hperm, htag, hbeside, hof⟩ := h
  have hmem : e ∈ beside := by
    refine List.mem_of_ne_of_mem ?_ (hperm.mem_iff.1 List.mem_cons_self)
    rintro rfl
    exact he rfl
  obtain ⟨before, after, rfl⟩ := List.append_of_mem hmem
  have hbefore : (before ++ e :: after).Perm (e :: (before ++ after)) := List.perm_middle
  refine ⟨value, tag, before ++ after, ?_, htag, ?_, ?_⟩
  · exact ((hperm.trans (hbefore.cons _)).trans (.swap ..)).cons_inv
  · exact fun f hf => hbeside f (hbefore.mem_iff.2 (List.mem_cons_of_mem _ hf))
  · exact hmark tag _ (MarkTag.mark_perm hbefore hof)

theorem Makes.reworded {Spare : Json → Prop} {fields' : List (String × Json)}
    (hspare : ∀ v, Spare v → p.HasRoom v.depth)
    (hr : Reworded Spare (.object fields) (.object fields')) (h : Makes p fields mark) :
    Makes p fields' mark := by
  cases hr with
  | reorder hperm =>
    obtain ⟨value, tag, beside, hfields, hmakes⟩ := h
    exact ⟨value, tag, beside, hperm.symm.trans hfields, hmakes⟩
  | @add _ key value hkey hvalue =>
    rw [keys, List.mem_cons, not_or] at hkey
    refine h.cons ⟨hkey.1, value.readThrough_toReading (hspare value hvalue)⟩ ?_
    intro tag beside _ hmark
    exact MarkTag.mark_reworded Spare (.add hkey.2 hvalue) hmark
  | writeDefault hdefault hkey =>
    obtain ⟨rfl, rfl⟩ := Prod.mk.inj (List.mem_singleton.1 hdefault)
    refine h.cons ⟨by decide, rfl⟩ ?_
    intro tag beside hsubset hmark
    have hnew : "second_name" ∉ beside.map (·.1) := fun hmem =>
      hkey (List.map_subset _ hsubset hmem)
    exact MarkTag.mark_reworded Spare (.writeDefault hdefault hnew) hmark
  | dropDefault hdefault =>
    obtain ⟨rfl, rfl⟩ := Prod.mk.inj (List.mem_singleton.1 hdefault)
    refine h.of_cons (by decide) ?_
    intro tag beside hmark
    exact MarkTag.mark_reworded Spare (.dropDefault hdefault) hmark
  | within hfalse => exact hfalse.elim

/-- A mark is decoded to the same after any change to its object, wherever the tag stands. -/
theorem respects {Spare : Json → Prop} (hspare : ∀ v, Spare v → p.HasRoom (v.depth + 1)) :
    decode.Respects p (Reworded Spare) := by
  intro j j' hr mark h
  obtain ⟨fields, fields', rfl, rfl⟩ := hr.exists_fields
  rw [decode_object_eq_ok_iff] at h ⊢
  obtain ⟨q, henter, hmakes⟩ := h
  exact ⟨q, henter, hmakes.reworded (fun v hv => (hspare v hv).of_enter henter) hr⟩

end Mark

/-! ## Members and snapshots -/

namespace Member

def keys : RecordKeys where
  declared := ["name", "kind", "value_type", "return_type", "parameters", "is_static",
    "annotations"]
  defaults := [("value_type", .null), ("return_type", .null), ("parameters", .array []),
    ("is_static", .bool false), ("annotations", .array [])]

/-- One change to the object of a member, or to that of one of its marks. -/
def Reworded (Spare : Json → Prop) : Json → Json → Prop :=
  Json.Reworded keys (fun _ => True) fun key value value' =>
    key = "annotations" ∧ Json.ItemReworded (Mark.Reworded Spare) value value'

theorem hasKeys : shape.HasKeys keys where
  declared := by simp [shape, Field.of, keys]
  commutes := by simp [shape, Field.commutes_of]
  optional := by simp [shape, Field.of, keys]
  default key value h := by
    simp only [keys, List.mem_cons, List.not_mem_nil, or_false, Prod.mk.injEq] at h
    rcases h with ⟨rfl, rfl⟩ | ⟨rfl, rfl⟩ | ⟨rfl, rfl⟩ | ⟨rfl, rfl⟩ | ⟨rfl, rfl⟩
    · exact ⟨_, rfl, _, Field.accepts_of (b := none) (fun _ _ => rfl), rfl⟩
    · exact ⟨_, rfl, _, Field.accepts_of (b := none) (fun _ _ => rfl), rfl⟩
    · exact ⟨_, rfl, _, Field.accepts_of (Decoder.accepts_list .nil), rfl⟩
    · exact ⟨_, rfl, _, Field.accepts_of (Decoder.accepts_bool false), rfl⟩
    · exact ⟨_, rfl, _, Field.accepts_of (Decoder.accepts_list .nil), rfl⟩

theorem respects {p : Place} {Spare : Json → Prop} (hp : p.HasRoom 2)
    (hspare : ∀ v, Spare v → p.HasRoom (v.depth + 3)) :
    decode.Respects p (Reworded Spare) := by
  refine hasKeys.respects hp ?_
  rintro q henter key f hf j j' ⟨rfl, hr⟩
  obtain rfl := Option.some.inj hf
  refine Decoder.Respects.field (.list fun r hr => Mark.respects fun v hv => ?_) hr
  exact ((hspare v hv).of_enter henter).of_enter hr

end Member

namespace Snapshot

def keys : RecordKeys := ⟨["name", "members"], [("members", .array [])]⟩

/-- One change to the object of a snapshot, or to that of one of its members or their marks. -/
def Reworded (Spare : Json → Prop) : Json → Json → Prop :=
  Json.Reworded keys (fun _ => True) fun key value value' =>
    key = "members" ∧ Json.ItemReworded (Member.Reworded Spare) value value'

theorem hasKeys : shape.HasKeys keys where
  declared := by simp [shape, Field.of, keys]
  commutes := by simp [shape, Field.commutes_of]
  optional := by simp [shape, Field.of, keys]
  default key value h := by
    simp only [keys, List.mem_singleton, Prod.mk.injEq] at h
    obtain ⟨rfl, rfl⟩ := h
    exact ⟨_, rfl, _, Field.accepts_of (Decoder.accepts_list .nil), rfl⟩

theorem respects {p : Place} {Spare : Json → Prop} (hp : p.HasRoom 4)
    (hspare : ∀ v, Spare v → p.HasRoom (v.depth + 5)) :
    decode.Respects p (Reworded Spare) := by
  refine hasKeys.respects (fun h => Nat.lt_of_lt_of_le (by decide) (hp h)) ?_
  rintro q henter key f hf j j' ⟨rfl, hr⟩
  obtain rfl := Option.some.inj hf
  refine Decoder.Respects.field (.list fun r hr => Member.respects ?_ fun v hv => ?_) hr
  · exact (hp.of_enter henter).of_enter hr
  · exact ((hspare v hv).of_enter henter).of_enter hr

/-- A snapshot is decoded to the same whatever the words for it. At hand, a key that is no field
may have any value. In a text a mark is read in full before it is decoded: of the 127 containers
that may be open at once, five are around what stands under its keys. -/
theorem decode_reworded {j j' : Json} {s : Snapshot} :
    (Relation.ReflTransGen (Reworded fun _ => True) j j' →
      decode.ofValue j = .ok s → decode.ofValue j' = .ok s) ∧
    ∀ text text', Relation.ReflTransGen (Reworded fun v => v.depth ≤ 122) j j' →
      j.WrittenAs text → j'.WrittenAs text' →
      decode.ofText text = .ok s → decode.ofText text' = .ok s := by
  constructor
  · intro hsteps h
    have hrespects : decode.Respects { source := .value } (Reworded fun _ => True) :=
      respects nofun fun _ _ => nofun
    exact hrespects.reflTransGen hsteps h
  · intro text text' hsteps htext htext' h
    have hroom : (⟨.text, 128⟩ : Place).HasRoom 4 := fun _ => by decide
    have hspare (v : Json) (hv : v.depth ≤ 122) : (⟨.text, 128⟩ : Place).HasRoom (v.depth + 5) :=
      fun _ => Nat.lt_succ_of_le (Nat.add_le_add_right hv 5)
    have hrespects := respects hroom hspare
    rw [Decoder.ofText_eq_ok_iff htext] at h
    rw [Decoder.ofText_eq_ok_iff htext']
    exact hrespects.reflTransGen hsteps h

end Snapshot

/-! ## A method linked to its command -/

def Mark.saveLink : Mark := .link ⟨.command, "SaveCommand", none⟩

/-- The link with its tag last. -/
def Mark.shuffledLink : Json :=
  .object [("second_name", .null), ("note", .array [.bool true]), ("name", .string "SaveCommand"),
    ("kind", .string "LinkCommand"), ("type", .string "link")]

theorem Mark.reworded_shuffledLink {Spare : Json → Prop} (hnote : Spare (.array [.bool true])) :
    Relation.ReflTransGen (Reworded Spare) saveLink.toJson shuffledLink := by
  refine .head (.reorder (List.reverse_perm _).symm) ?_
  have hkey : "note" ∉ keys.declared := by decide
  refine .head (.add hkey hnote) ?_
  exact .single (.writeDefault List.mem_cons_self (by decide))

def Member.linkedSave : Member := { name := "Save", kind := .method, marks := [Mark.saveLink] }

/-- The member with its parameters, of which there are none, in place of `is_static`. -/
def Member.shuffledSave : Json :=
  .object [("parameters", .array []), ("annotations", .array [Mark.shuffledLink]),
    ("kind", .string "method"), ("name", .string "Save")]

theorem Member.reworded_shuffledSave {Spare : Json → Prop} (hnote : Spare (.array [.bool true])) :
    Relation.ReflTransGen (Reworded Spare) linkedSave.toJson shuffledSave := by
  have hmark : Relation.ReflTransGen (Reworded Spare) _ _ :=
    Json.Reworded.items "annotations" (fun _ _ h => ⟨rfl, h⟩) [] []
      [("kind", .string "method"), ("name", .string "Save")] (Mark.reworded_shuffledLink hnote)
  refine .head (.reorder ((List.reverse_perm _).symm.trans (.swap ..))) ?_
  refine .head (.dropDefault (by simp [keys, linkedSave])) (hmark.tail ?_)
  exact .writeDefault (by simp [keys]) (by decide)

namespace Snapshot

def linkedSave : Snapshot := ⟨"Editor", [Member.linkedSave]⟩

def shuffledSave : Json :=
  .object [("version", .null), ("members", .array [Member.shuffledSave]),
    ("name", .string "Editor")]

theorem reworded_shuffledSave {Spare : Json → Prop} (hnote : Spare (.array [.bool true])) :
    Relation.ReflTransGen (Reworded Spare) linkedSave.toJson shuffledSave := by
  have hmember : Relation.ReflTransGen (Reworded Spare) _ _ :=
    Json.Reworded.items "members" (fun _ _ h => ⟨rfl, h⟩) [] []
      [("name", .string "Editor")] (Member.reworded_shuffledSave hnote)
  refine .head (.reorder (.swap ..)) (hmember.tail ?_)
  exact .add (by decide) trivial

theorem numberless_shuffledSave : shuffledSave.Numberless := by
  have hlink : Mark.shuffledLink.Numberless := by
    refine .object ?_
    simp only [List.forall_mem_cons]
    exact ⟨.null, .array (List.forall_mem_singleton.2 (.bool true)), .string _, .string _,
      .string _, nofun⟩
  have hmember : Member.shuffledSave.Numberless := by
    refine .object ?_
    simp only [List.forall_mem_cons]
    exact ⟨.array nofun, .array (List.forall_mem_singleton.2 hlink), .string _, .string _, nofun⟩
  refine .object ?_
  simp only [List.forall_mem_cons]
  exact ⟨.null, .array (List.forall_mem_singleton.2 hmember), .string _, nofun⟩

theorem decode_reworded_shuffledSave :
    decode.ofValue shuffledSave = .ok linkedSave ∧
    decode.ofText shuffledSave.compactText = .ok linkedSave := by
  have haccepts := linkedSave.accepts_toJson
  constructor
  · exact decode_reworded.1 (reworded_shuffledSave trivial) (Decoder.ofValue_eq haccepts)
  · have hnote : (Json.array [.bool true]).depth ≤ 122 := by decide
    have hnumberless := linkedSave.numberless_toJson
    refine decode_reworded.2 _ _ (reworded_shuffledSave hnote) (Json.ofText_compactText hnumberless)
      (Json.ofText_compactText numberless_shuffledSave) ?_
    exact Decoder.ofText_compactText (haccepts.mono (by decide)) hnumberless

end Snapshot
end MemberBinding
