import Mathlib.Data.List.Forall2
import Mathlib.Data.List.Nodup
import MemberBinding.Json.Decoder
import MemberBinding.Proofs.Json.Reader

/-!
# What decoders accept

How deep a text may nest is the only thing that a decoder asks of the place it is used in. Main
statement: `Shape.Builds.accepts`, by which the fields of a record may come in any order.
-/

namespace MemberBinding

section

variable {α β γ : Type}

theorem forall₂_map_right {R : α → β → Prop} {f : α → β} {as : List α} (h : ∀ a ∈ as, R a (f a)) :
    List.Forall₂ R as (as.map f) :=
  List.forall₂_map_right_iff.2 (List.forall₂_same.2 h)

theorem forall₂_map_map {R : β → γ → Prop} {f : α → β} {g : α → γ} {as : List α}
    (h : ∀ a ∈ as, R (f a) (g a)) : List.Forall₂ R (as.map f) (as.map g) :=
  List.forall₂_map_left_iff.2 (forall₂_map_right h)

end

/-- Here `n` more containers, one in the other, can be opened. -/
def Place.HasRoom (p : Place) (n : Nat) : Prop := p.source = .text → n < p.room

theorem Place.HasRoom.enter {p : Place} {n : Nat} (h : p.HasRoom (n + 1)) :
    ∃ q : Place, p.enter = .ok q ∧ q.HasRoom n := by
  obtain ⟨source, room⟩ := p
  cases source with
  | text =>
    have hroom : n + 1 < room := h rfl
    refine ⟨⟨.text, room - 1⟩, ?_, fun _ => Nat.lt_sub_of_add_lt hroom⟩
    have hle : ¬room ≤ 1 := by omega
    exact if_neg hle
  | value => exact ⟨_, rfl, nofun⟩
  | content => exact ⟨_, rfl, nofun⟩

namespace Decoder

variable {α : Type} {d : Decoder α} {n : Nat} {j : Json} {a : α}

/-- The decoder makes `a` of the value wherever `n` more containers can be opened. -/
def Accepts (d : Decoder α) (n : Nat) (j : Json) (a : α) : Prop :=
  ∀ p : Place, p.HasRoom n → d p j.toReading = .ok a

theorem Accepts.mono {m : Nat} (h : d.Accepts m j a) (hle : m ≤ n) : d.Accepts n j a :=
  fun p hp => h p fun htext => Nat.lt_of_le_of_lt hle (hp htext)

theorem accepts_string (s : String) : string.Accepts n (.string s) s := fun _ _ => rfl

theorem accepts_bool (b : Bool) : bool.Accepts n (.bool b) b := fun _ _ => rfl

theorem accepts_optional_string (s : String) :
    (optional string).Accepts n (.string s) (some s) := fun _ _ => rfl

theorem accepts_enumeration {v : Vocabulary α} (h : v.find? (v.spell a) = some a) :
    (enumeration v).Accepts n (.string (v.spell a)) a := by
  intro p _
  have hvariant : variant v (v.spell a) = .ok a := by rw [variant, h]
  cases p with
  | mk source room => cases source <;> exact hvariant

/-- A list is decoded item by item. -/
theorem accepts_list {js : List Json} {as : List α}
    (h : List.Forall₂ (fun a j => d.Accepts n j a) as js) :
    (list d).Accepts (n + 1) (.array js) as := by
  intro p hp
  obtain ⟨q, henter, hq⟩ := hp.enter
  have hitems : (Json.toReadings js).mapM (d q) = .ok as := by
    induction h with
    | nil => rfl
    | cons ha _ ih =>
      rw [Json.toReadings, List.mapM_cons, ha q hq, ih]
      rfl
  simp only [Json.toReading, list, henter]
  exact congrArg (· >>= endOf none) hitems

theorem accepts_strings (ss : List String) :
    (list string).Accepts (n + 1) (.array (ss.map .string)) ss :=
  accepts_list (forall₂_map_right fun s _ => accepts_string s)

theorem ofText_compactText (h : d.Accepts 127 j a) (hj : j.Numberless) :
    d.ofText j.compactText = .ok a := by
  have hdecode := h ⟨.text, 128⟩ fun _ => by decide
  simp only [ofText, Json.ofText_compactText hj, hdecode]
  rfl

theorem ofValue_eq (h : d.Accepts n j a) : d.ofValue j = .ok a := h _ nofun

end Decoder

theorem Field.accepts_of {α β : Type} {key : String} {d : Decoder β} {set : β → α → α}
    {required : Bool} {n : Nat} {j : Json} {b : β} (h : d.Accepts n j b) :
    (Field.of key d set required).decode.Accepts n j (set b) := by
  intro p hp
  exact congrArg (Except.map set) (h p hp)

namespace Shape

variable {α : Type} {shape : Shape α} {n : Nat} {entries : List (String × Json)} {a : α}

/-- The entries make up `a`: `part seen` is the record with the fields of the keys in `seen`, and
its blank values elsewhere. -/
structure Builds (shape : Shape α) (n : Nat) (entries : List (String × Json))
    (part : List String → α) (a : α) : Prop where
  blank : part [] = shape.blank
  nodup : (entries.map (·.1)).Nodup
  step : ∀ key j, (key, j) ∈ entries → ∃ f, shape.field? key = some f ∧
    ∃ set, f.decode.Accepts n j set ∧ ∀ seen, set (part seen) = part (key :: seen)
  required : ∀ f ∈ shape.fields, f.required = true → f.key ∈ entries.map (·.1)
  whole : ∀ seen, (∀ key, key ∈ seen ↔ key ∈ entries.map (·.1)) → part seen = a

namespace Builds

variable {part : List String → α} (h : shape.Builds n entries part a)

include h

theorem decodeFields_eq {p : Place} (hp : p.HasRoom n) {fields : List (String × Json)}
    (hsubset : fields ⊆ entries) {seen : List String}
    (hnodup : (fields.map (·.1) ++ seen).Nodup) :
    shape.decodeFields p (part seen) seen (Json.toReadingFields fields) =
      .ok (part ((fields.map (·.1)).reverse ++ seen), (fields.map (·.1)).reverse ++ seen) := by
  induction fields generalizing seen with
  | nil => rfl
  | cons e fields ih =>
    obtain ⟨key, j⟩ := e
    obtain ⟨f, hf, set, haccepts, hset⟩ := h.step key j (hsubset List.mem_cons_self)
    have hnew : key ∉ fields.map (·.1) ++ seen := (List.nodup_cons.1 hnodup).1
    have hseen : seen.contains key = false := by
      simpa using fun hkey => hnew (List.mem_append_right _ hkey)
    have hfields : fields ⊆ entries := fun e he => hsubset (List.mem_cons_of_mem _ he)
    have hrest : shape.decodeFields p (set (part seen)) (key :: seen)
        (Json.toReadingFields fields) = .ok (part ((key :: fields.map (·.1)).reverse ++ seen),
          (key :: fields.map (·.1)).reverse ++ seen) := by
      rw [hset, ih hfields (List.nodup_middle.2 hnodup), List.reverse_cons, List.append_assoc]
      rfl
    rw [Json.toReadingFields, decodeFields]
    simp only [hf, hseen, haccepts p hp, Bool.false_eq_true, if_false]
    exact hrest

theorem accepts {j : Json} (hj : j.HasFields entries) : shape.decode.Accepts (n + 1) j a := by
  intro p hp
  obtain ⟨fields, rfl, hperm⟩ := hj
  obtain ⟨q, henter, hq⟩ := hp.enter
  have hkeys : (fields.map (·.1)).Perm (entries.map (·.1)) := hperm.map _
  have hmem (key : String) : key ∈ (fields.map (·.1)).reverse ↔ key ∈ entries.map (·.1) := by
    rw [List.mem_reverse, hkeys.mem_iff]
  have hnodup : (fields.map (·.1) ++ ([] : List String)).Nodup := by
    rw [List.append_nil]
    exact hkeys.nodup_iff.2 h.nodup
  have hfields := h.decodeFields_eq hq hperm.subset hnodup
  rw [List.append_nil, h.blank] at hfields
  have hmissing : shape.firstMissing? (fields.map (·.1)).reverse = none := by
    rw [firstMissing?, Option.map_eq_none_iff, List.find?_eq_none]
    intro f hf
    have hrequired := h.required f hf
    rw [← hmem] at hrequired
    simpa using hrequired
  rw [← h.whole _ hmem]
  simp only [Json.toReading, decode, henter, bind, Except.bind, hfields, endOf, hmissing]

end Builds
end Shape
end MemberBinding
