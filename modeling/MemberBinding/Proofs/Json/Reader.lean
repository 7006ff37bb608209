import Mathlib.Data.List.DropRight
import MemberBinding.Proofs.Json.Layout

/-!
# What is written is read

Strings are read whatever their characters, and so is every value without numbers in every layout.
Main statement: `ofText_write`.
-/

namespace MemberBinding

/-- A value without numbers. -/
inductive Json.Numberless : Json → Prop
  | null : Numberless .null
  | bool (b : Bool) : Numberless (.bool b)
  | string (s : String) : Numberless (.string s)
  | array {items : List Json} (h : ∀ j ∈ items, Numberless j) : Numberless (.array items)
  | object {fields : List (String × Json)} (h : ∀ f ∈ fields, Numberless f.2) :
      Numberless (.object fields)

/-- An object with these fields, in any order. -/
def Json.HasFields (j : Json) (entries : List (String × Json)) : Prop :=
  ∃ fields, j = .object fields ∧ fields.Perm entries

theorem Json.hasFields_object (entries : List (String × Json)) :
    (Json.object entries).HasFields entries := ⟨entries, rfl, .refl _⟩

namespace Json

theorem toReadings_eq_map (js : List Json) : toReadings js = js.map toReading := by
  induction js with
  | nil => rfl
  | cons j js ih => rw [toReadings, ih, List.map_cons]

theorem toReadingFields_eq_map (fields : List (String × Json)) :
    toReadingFields fields = fields.map fun f => (.string f.1, f.2.toReading) := by
  induction fields with
  | nil => rfl
  | cons f fields ih => rw [toReadingFields, ih, List.map_cons]

theorem toReadingFields_append (fields fields' : List (String × Json)) :
    toReadingFields (fields ++ fields') = toReadingFields fields ++ toReadingFields fields' := by
  simp only [toReadingFields_eq_map, List.map_append]

theorem length_pos_escape (c : Char) : 0 < (escape c).length := by
  unfold escape
  split
  case h_8 => split <;> simp
  all_goals decide

theorem length_lt_quote (s : String) : s.toList.length + 1 < (quote s).length := by
  have hbody : s.toList.length ≤ (s.toList.flatMap escape).length := by
    induction s.toList with
    | nil => rfl
    | cons c cs ih =>
      have hescape := length_pos_escape c
      rw [List.flatMap_cons, List.length_append, List.length_cons]
      omega
  simp only [quote, List.length_cons, List.length_append, List.length_nil]
  omega

theorem quote_append (s : String) (rest : List Char) :
    quote s ++ rest = '"' :: (s.toList.flatMap escape ++ '"' :: rest) := by
  simp [quote]

end Json

namespace Reading

open Json (escape quote)

/-! ## Blanks -/

theorem skipBlank_append {bs : List Char} (h : ∀ c ∈ bs, isBlank c = true) (cs : List Char) :
    skipBlank (bs ++ cs) = skipBlank cs :=
  List.dropWhile_append_of_pos h

theorem skipBlank_cons {c : Char} (h : isBlank c = false) (cs : List Char) :
    skipBlank (c :: cs) = c :: cs :=
  List.dropWhile_cons_of_neg (by simp [h])

theorem skipBlank_skipBlank (cs : List Char) : skipBlank (skipBlank cs) = skipBlank cs :=
  List.dropWhile_idempotent _ cs

theorem value_skipBlank (fuel : Nat) (cs : List Char) :
    value fuel (skipBlank cs) = value fuel cs := by
  cases fuel with
  | zero => rfl
  | succ fuel => rw [value, value, skipBlank_skipBlank]

theorem value_append {bs : List Char} (h : ∀ c ∈ bs, isBlank c = true) (fuel : Nat)
    (cs : List Char) : value fuel (bs ++ cs) = value fuel cs := by
  rw [← value_skipBlank, skipBlank_append h, value_skipBlank]

theorem items_skipBlank (fuel : Nat) (done : List Reading) (cs : List Char) :
    items fuel done (skipBlank cs) = items fuel done cs := by
  cases fuel with
  | zero => rfl
  | succ fuel => rw [items, items, value_skipBlank]

theorem fields_skipBlank (fuel : Nat) (done : List (Reading × Reading)) (cs : List Char) :
    fields fuel done (skipBlank cs) = fields fuel done cs := by
  cases fuel with
  | zero => rfl
  | succ fuel => rw [fields, fields, skipBlank_skipBlank]

/-! ## Strings -/

theorem fourHex?_of_lt : ∀ n < 32,
    fourHex? '0' '0' (Nat.digitChar (n / 16)) (Nat.digitChar (n % 16)) = some n := by
  decide

theorem not_surrogate_of_lt : ∀ n < 32, isLeading n = false ∧ isTrailing n = false := by
  decide

/-- One step for one character, however it is written. -/
theorem text_escape (fuel : Nat) (done : List Char) (c : Char) (cs : List Char) :
    text (fuel + 1) done none (escape c ++ cs) = text fuel (c :: done) none cs := by
  unfold escape
  split
  case h_8 hquote hslash _ _ _ _ _ =>
    split
    · rename_i h
      obtain ⟨hleading, htrailing⟩ := not_surrogate_of_lt _ h
      simp [text, codeUnit, fourHex?_of_lt _ h, hleading, htrailing]
    · rename_i h
      have hprintable : 0x20 ≤ c.toNat := Nat.not_lt.1 h
      rw [List.singleton_append, text.eq_def]
      simp_all [Nat.not_lt.2 hprintable]
  all_goals rfl

theorem text_flatMap_escape (s done rest : List Char) {fuel : Nat} (h : s.length < fuel) :
    text fuel done none (s.flatMap escape ++ '"' :: rest) =
      ⟨.string (String.ofList (done.reverse ++ s)), some rest⟩ := by
  induction s generalizing done fuel with
  | nil =>
    obtain ⟨fuel, rfl⟩ := Nat.exists_eq_succ_of_ne_zero (Nat.ne_zero_of_lt h)
    simp [text]
  | cons c s ih =>
    obtain ⟨fuel, rfl⟩ := Nat.exists_eq_succ_of_ne_zero (Nat.ne_zero_of_lt h)
    rw [List.flatMap_cons, List.append_assoc, text_escape, ih (c :: done) (by simpa using h)]
    simp

theorem text_string {s : String} {fuel : Nat} (h : s.toList.length < fuel) (rest : List Char) :
    text fuel [] none (s.toList.flatMap escape ++ '"' :: rest) = ⟨.string s, some rest⟩ := by
  simp [text_flatMap_escape _ _ _ h]

/-! ## Containers -/

section

variable {fuel : Nat} {cs next rest : List Char} {v : Reading}

theorem value_array {c : Char} (h : skipBlank cs = c :: next) (hc : c ≠ ']') :
    value (fuel + 1) ('[' :: cs) = items fuel [] cs := by
  rw [value, skipBlank_cons rfl, ← items_skipBlank]
  simp only [h]
  split
  · contradiction
  · simp_all
  · rfl

theorem value_object (h : skipBlank cs = '"' :: next) :
    value (fuel + 1) ('\x7b' :: cs) = fields fuel [] cs := by
  rw [value, skipBlank_cons rfl, ← fields_skipBlank]
  simp only [h]
  rfl

theorem items_more {done : List Reading} (h : value fuel cs = ⟨v, some (',' :: rest)⟩) :
    items (fuel + 1) done cs = items fuel (v :: done) rest := by
  rw [items, h]
  rfl

theorem items_end {done : List Reading} (h : value fuel cs = ⟨v, some next⟩)
    (hend : skipBlank next = ']' :: rest) :
    items (fuel + 1) done cs = ⟨.array (v :: done).reverse none, some rest⟩ := by
  rw [items, h]
  simp only [hend]

theorem fields_more {done : List (Reading × Reading)} {k : String} (hk : k.toList.length < fuel)
    (hkey : skipBlank cs = quote k ++ ':' :: next) (h : value fuel next = ⟨v, some (',' :: rest)⟩) :
    fields (fuel + 1) done cs = fields fuel ((.string k, v) :: done) rest := by
  have hcolon : skipBlank (':' :: next) = ':' :: next := skipBlank_cons rfl next
  rw [fields, hkey, Json.quote_append]
  simp only [text_string hk, hcolon, h]
  rfl

theorem fields_end {done : List (Reading × Reading)} {k : String} (hk : k.toList.length < fuel)
    (hkey : skipBlank cs = quote k ++ ':' :: next) {after : List Char}
    (h : value fuel next = ⟨v, some after⟩) (hend : skipBlank after = '\x7d' :: rest) :
    fields (fuel + 1) done cs = ⟨.object ((.string k, v) :: done).reverse none, some rest⟩ := by
  have hcolon : skipBlank (':' :: next) = ':' :: next := skipBlank_cons rfl next
  rw [fields, hkey, Json.quote_append]
  simp only [text_string hk, hcolon, h, hend]

end

end Reading

/-! ## Whole values -/

namespace Layout

open Reading

variable (L : Layout)

/-- Whatever follows it, the text of the value is read as the value. -/
def ReadsBack (j : Json) : Prop :=
  ∀ depth fuel rest, (L.write depth j).length ≤ fuel →
    value fuel (L.write depth j ++ rest) = ⟨j.toReading, some rest⟩

theorem exists_write_cons {j : Json} (h : j.Numberless) (depth : Nat) :
    ∃ c cs, L.write depth j = c :: cs ∧ isBlank c = false ∧ c ≠ ']' := by
  cases h with
  | null => exact ⟨_, _, rfl, by decide⟩
  | bool b => cases b <;> exact ⟨_, _, rfl, by decide⟩
  | string s => exact ⟨_, _, rfl, by decide⟩
  | @array items => cases items <;> exact ⟨_, _, rfl, by decide⟩
  | @object fields => cases fields <;> exact ⟨_, _, rfl, by decide⟩

variable {L}

theorem exists_skipBlank_writeItems {j : Json} (h : j.Numberless) (depth : Nat) (js : List Json)
    (rest : List Char) :
    ∃ c cs, skipBlank (L.writeItems depth (j :: js) ++ rest) = c :: cs ∧ c ≠ ']' := by
  obtain ⟨c, cs, hwrite, hblank, hc⟩ := L.exists_write_cons h depth
  obtain ⟨tail, htail⟩ := L.exists_writeItems_eq depth j js
  refine ⟨c, cs ++ (tail ++ rest), ?_, hc⟩
  rw [htail, List.append_assoc, List.append_assoc, skipBlank_append (L.blank_of_mem_gap depth),
    hwrite, List.cons_append, skipBlank_cons hblank]

theorem items_write {depth : Nat} {blanks rest : List Char}
    (hblanks : ∀ c ∈ blanks, isBlank c = true) {js : List Json} (hne : js ≠ [])
    (h : ∀ j ∈ js, L.ReadsBack j) (done : List Reading) {fuel : Nat}
    (hfuel : (L.writeItems depth js).length < fuel) :
    items fuel done (L.writeItems depth js ++ (blanks ++ ']' :: rest)) =
      ⟨.array (done.reverse ++ js.map Json.toReading) none, some rest⟩ := by
  induction js generalizing done fuel with
  | nil => contradiction
  | cons j js ih =>
    obtain ⟨fuel, rfl⟩ := Nat.exists_eq_succ_of_ne_zero (Nat.ne_zero_of_lt hfuel)
    have hend : skipBlank (blanks ++ ']' :: rest) = ']' :: rest := by
      rw [skipBlank_append hblanks, skipBlank_cons rfl]
    have hread : ∀ tail, (L.write depth j).length ≤ fuel →
        value fuel (L.gap depth ++ L.write depth j ++ tail) = ⟨j.toReading, some tail⟩ := by
      intro tail hlength
      rw [List.append_assoc, value_append (L.blank_of_mem_gap depth),
        h j List.mem_cons_self depth fuel tail hlength]
    cases js with
    | nil =>
      simp only [writeItems, List.length_append] at hfuel ⊢
      rw [items_end (hread _ (by omega)) hend]
      simp
    | cons j' js =>
      simp only [writeItems_cons_cons, List.length_append, List.length_cons] at hfuel
      have hmore : ∀ i ∈ j' :: js, L.ReadsBack i := fun i hi => h i (List.mem_cons_of_mem j hi)
      rw [writeItems_cons_cons, List.append_assoc _ (',' :: _), List.cons_append,
        items_more (hread _ (by omega)), ih (List.cons_ne_nil _ _) hmore _ (by omega)]
      simp

theorem skipBlank_gap_quote (L : Layout) (depth : Nat) (k : String) (tail : List Char) :
    skipBlank (L.gap depth ++ (Json.quote k ++ tail)) = Json.quote k ++ tail := by
  rw [skipBlank_append (L.blank_of_mem_gap depth), Json.quote_append, skipBlank_cons rfl]

theorem exists_skipBlank_writeFields (f : String × Json) (depth : Nat)
    (fields : List (String × Json)) (rest : List Char) :
    ∃ cs, skipBlank (L.writeFields depth (f :: fields) ++ rest) = '"' :: cs := by
  obtain ⟨tail, htail⟩ := L.exists_writeFields_eq depth f fields
  refine ⟨f.1.toList.flatMap Json.escape ++ '"' :: (tail ++ rest), ?_⟩
  rw [htail, List.append_assoc, List.append_assoc, skipBlank_gap_quote, Json.quote_append]

theorem fields_write {depth : Nat} {blanks rest : List Char}
    (hblanks : ∀ c ∈ blanks, isBlank c = true) {fs : List (String × Json)} (hne : fs ≠ [])
    (h : ∀ f ∈ fs, L.ReadsBack f.2) (done : List (Reading × Reading)) {fuel : Nat}
    (hfuel : (L.writeFields depth fs).length < fuel) :
    fields fuel done (L.writeFields depth fs ++ (blanks ++ '\x7d' :: rest)) =
      ⟨.object (done.reverse ++ fs.map fun f => (.string f.1, f.2.toReading)) none, some rest⟩ := by
  induction fs generalizing done fuel with
  | nil => contradiction
  | cons f fs ih =>
    obtain ⟨k, j⟩ := f
    obtain ⟨fuel, rfl⟩ := Nat.exists_eq_succ_of_ne_zero (Nat.ne_zero_of_lt hfuel)
    have hend : skipBlank (blanks ++ '\x7d' :: rest) = '\x7d' :: rest := by
      rw [skipBlank_append hblanks, skipBlank_cons rfl]
    have hquote := Json.length_lt_quote k
    have hkey := L.skipBlank_gap_quote depth k
    have hread : ∀ tail, (L.write depth j).length ≤ fuel →
        value fuel (L.space ++ (L.write depth j ++ tail)) = ⟨j.toReading, some tail⟩ := by
      intro tail hlength
      rw [value_append L.blank_of_mem_space,
        h (k, j) List.mem_cons_self depth fuel tail hlength]
    cases fs with
    | nil =>
      simp only [writeFields, List.length_append, List.length_cons] at hfuel
      simp only [writeFields, List.append_assoc, List.cons_append]
      rw [fields_end (by omega) (hkey _) (hread _ (by omega)) hend]
      simp
    | cons f fs =>
      have hmore : ∀ g ∈ f :: fs, L.ReadsBack g.2 := fun g hg => h g (List.mem_cons_of_mem _ hg)
      simp only [writeFields_cons_cons, List.length_append, List.length_cons] at hfuel
      simp only [writeFields_cons_cons, List.append_assoc, List.cons_append]
      rw [fields_more (by omega) (hkey _) (hread _ (by omega)), ih (List.cons_ne_nil _ _) hmore _
        (by omega)]
      simp

theorem exists_fuel_eq {j : Json} (h : j.Numberless) {depth fuel : Nat}
    (hfuel : (L.write depth j).length ≤ fuel) : ∃ n, fuel = n + 1 := by
  obtain ⟨c, cs, hwrite, -⟩ := L.exists_write_cons h depth
  rw [hwrite, List.length_cons] at hfuel
  exact Nat.exists_eq_add_of_le' (Nat.le_of_add_left_le hfuel)

/-- Numbers apart, every value is read back from its text. -/
theorem readsBack {j : Json} (h : j.Numberless) : L.ReadsBack j := by
  induction h with
  | null =>
    intro depth fuel rest hfuel
    obtain ⟨fuel, rfl⟩ := exists_fuel_eq .null hfuel
    rfl
  | bool b =>
    intro depth fuel rest hfuel
    obtain ⟨fuel, rfl⟩ := exists_fuel_eq (.bool b) hfuel
    cases b <;> rfl
  | string s =>
    intro depth fuel rest hfuel
    obtain ⟨fuel, rfl⟩ := exists_fuel_eq (.string s) hfuel
    have hwrite : L.write depth (.string s) = Json.quote s := rfl
    have hquote := Json.length_lt_quote s
    rw [hwrite] at hfuel ⊢
    rw [Json.quote_append, value, skipBlank_cons rfl]
    exact text_string (by omega) rest
  | @array items h ih =>
    intro depth fuel rest hfuel
    obtain ⟨fuel, rfl⟩ := exists_fuel_eq (.array h) hfuel
    cases items with
    | nil => rfl
    | cons j js =>
      obtain ⟨c, cs, hskip, hc⟩ := exists_skipBlank_writeItems (h j List.mem_cons_self) (depth + 1)
        js (L.gap depth ++ ']' :: rest)
      simp only [write, List.length_append, List.length_cons] at hfuel
      simp only [write, List.append_assoc, List.cons_append, List.nil_append]
      rw [value_array hskip hc, items_write (L.blank_of_mem_gap depth) (List.cons_ne_nil _ _) ih []
        (by omega), Json.toReading, Json.toReadings_eq_map]
      rfl
  | @object fields h ih =>
    intro depth fuel rest hfuel
    obtain ⟨fuel, rfl⟩ := exists_fuel_eq (.object h) hfuel
    cases fields with
    | nil => rfl
    | cons f fs =>
      obtain ⟨cs, hskip⟩ := exists_skipBlank_writeFields f (depth + 1) fs
        (L.gap depth ++ '\x7d' :: rest)
      simp only [write, List.length_append, List.length_cons] at hfuel
      simp only [write, List.append_assoc, List.cons_append, List.nil_append]
      rw [value_object hskip, fields_write (L.blank_of_mem_gap depth) (List.cons_ne_nil _ _) ih []
        (by omega), Json.toReading, Json.toReadingFields_eq_map]
      rfl

/-- The whole text is the value, with nothing after it. -/
theorem ofText_write {j : Json} (h : j.Numberless) :
    Reading.ofText (String.ofList (L.write 0 j)) = ⟨j.toReading, false⟩ := by
  have hread := readsBack (L := L) h 0 (2 * (L.write 0 j).length + 1) [] (by omega)
  rw [List.append_nil] at hread
  simp only [Reading.ofText, String.toList_ofList, hread]
  rfl

end Layout

namespace Json

theorem ofText_compactText {j : Json} (h : j.Numberless) :
    Reading.ofText j.compactText = ⟨j.toReading, false⟩ := by
  rw [compactText, ← Layout.write_compact 0 j, Layout.ofText_write h]

theorem ofText_prettyText {j : Json} (h : j.Numberless) :
    Reading.ofText j.prettyText = ⟨j.toReading, false⟩ := by
  rw [prettyText, ← Layout.write_pretty 0 j, Layout.ofText_write h]

end Json
end MemberBinding
