import Mathlib.Data.List.Forall2
import Mathlib.Data.List.Nodup
import MemberBinding.Json.Value
import MemberBinding.Proofs.Json.Reader

/-!
# What is written is a value again

Reading a text as a value puts the keys of its objects in order and changes nothing else. Main
statements: `Json.exists_readsAs_object` and `Json.ofText?_prettyText`.
-/

namespace MemberBinding.Json

/-- The value that is made of the text of a value. -/
def ReadsAs (j j' : Json) : Prop := j.toReading.toJson? = some j'

theorem readsAs_null : null.ReadsAs null := rfl

theorem readsAs_string (s : String) : (string s).ReadsAs (string s) := rfl

theorem readsAs_array {js js' : List Json} (h : List.Forall₂ ReadsAs js js') :
    (array js).ReadsAs (array js') := by
  have hitems : Reading.toJsons? (toReadings js) = some js' := by
    induction h with
    | nil => rfl
    | cons hj _ ih =>
      rw [toReadings, Reading.toJsons?, hj, ih]
      rfl
  exact congrArg (Option.map array) hitems

/-- A new key is put among the others, all of which stay. -/
theorem put_perm {key : String} {value : Json} {fields : List (String × Json)}
    (h : key ∉ fields.map (·.1)) : (put key value fields).Perm ((key, value) :: fields) := by
  induction fields with
  | nil => exact .refl _
  | cons f fields ih =>
    obtain ⟨k, v⟩ := f
    simp only [List.map_cons, List.mem_cons, not_or] at h
    unfold put
    rw [if_neg h.1]
    split
    · exact .refl _
    · exact ((ih h.2).cons (k, v)).trans (.swap _ _ _)

/-- The same key, and the value that is made of the text of the other. -/
def FieldReadsAs (f f' : String × Json) : Prop := f.1 = f'.1 ∧ f.2.ReadsAs f'.2

theorem exists_toJsonFields?_eq {fields fields' : List (String × Json)}
    (h : List.Forall₂ FieldReadsAs fields fields') {done : List (String × Json)}
    (hnodup : (fields'.map (·.1) ++ done.map (·.1)).Nodup) :
    ∃ entries, Reading.toJsonFields? done (toReadingFields fields) = some entries ∧
      entries.Perm (fields' ++ done) := by
  induction h generalizing done with
  | nil => exact ⟨done, rfl, .refl _⟩
  | @cons f f' fields fields' hf _ ih =>
    obtain ⟨key, value⟩ := f
    obtain ⟨_, value'⟩ := f'
    obtain ⟨rfl, hvalue⟩ := hf
    have hnew : key ∉ done.map (·.1) := fun hkey =>
      (List.nodup_cons.1 hnodup).1 (List.mem_append_right _ hkey)
    have hput : (put key value' done).Perm ((key, value') :: done) := put_perm hnew
    have hkeys : (fields'.map (·.1) ++ (put key value' done).map (·.1)).Nodup := by
      rw [((hput.map (·.1)).append_left _).nodup_iff, List.map_cons, List.nodup_middle]
      exact hnodup
    obtain ⟨entries, hentries, hperm⟩ := ih hkeys
    refine ⟨entries, ?_, ?_⟩
    · rw [toReadingFields, Reading.toJsonFields?, hvalue]
      exact hentries
    · exact hperm.trans ((hput.append_left fields').trans List.perm_middle)

/-- An object keeps its keys, unless it has one twice. -/
theorem exists_readsAs_object {fields fields' : List (String × Json)}
    (h : List.Forall₂ FieldReadsAs fields fields') (hnodup : (fields'.map (·.1)).Nodup) :
    ∃ j, (object fields).ReadsAs j ∧ j.HasFields fields' := by
  have hnil : (fields'.map (·.1) ++ ([] : List (String × Json)).map (·.1)).Nodup := by
    rwa [List.map_nil, List.append_nil]
  obtain ⟨entries, hentries, hperm⟩ := exists_toJsonFields?_eq h hnil
  rw [List.append_nil] at hperm
  exact ⟨object entries, congrArg (Option.map object) hentries, entries, rfl, hperm⟩

theorem ofText?_prettyText {j j' : Json} (hj : j.Numberless) (h : j.ReadsAs j') :
    ofText? j.prettyText = some j' := by
  simp only [ofText?, ofText_prettyText hj]
  exact h

/-- In an object without repeated keys, a key is looked up wherever it stands. -/
theorem HasFields.get?_eq {j : Json} {entries : List (String × Json)} (h : j.HasFields entries)
    (hnodup : (entries.map (·.1)).Nodup) {key : String} {value : Json}
    (hmem : (key, value) ∈ entries) : j.get? key = some value := by
  obtain ⟨fields, rfl, hperm⟩ := h
  obtain ⟨before, after, rfl⟩ := List.append_of_mem (hperm.mem_iff.2 hmem)
  have hkeys := (hperm.map (·.1)).nodup_iff.2 hnodup
  rw [List.map_append, List.map_cons, List.nodup_middle, List.nodup_cons] at hkeys
  refine List.lookup_eq_some_iff.2 ⟨before, after, rfl, ?_⟩
  intro f hf
  have hne : key ≠ f.1 := by
    intro hkey
    exact hkeys.1 (List.mem_append_left _ (List.mem_map.2 ⟨f, hf, hkey.symm⟩))
  simpa using hne

end MemberBinding.Json
