import Mathlib.Data.List.Pairwise
import Mathlib.Data.List.Perm.Basic
import MemberBinding.Proofs.Codec.Member
import MemberBinding.Proofs.Results

/-!
# What a decoded object was made of

The fields of an object set those of a record one after the other, and the order does not matter
when they are set independently. Main statements: `Shape.decode_object_eq_ok_iff` and
`Mark.decode_object_eq_ok_iff`.
-/

namespace MemberBinding

theorem Place.HasRoom.of_enter {p q : Place} {n : Nat} (h : p.HasRoom (n + 1))
    (henter : p.enter = .ok q) : q.HasRoom n := by
  obtain ⟨q', henter', hq'⟩ := h.enter
  rw [henter, Except.ok.injEq] at henter'
  rwa [henter']

/-! ## Values that are skipped or read through -/

namespace Json

mutual

/-- How many containers stand one in the other. -/
def depth : Json → Nat
  | array items => depths items + 1
  | object fields => fieldDepths fields + 1
  | _ => 0

def depths : List Json → Nat
  | [] => 0
  | j :: js => max j.depth (depths js)

def fieldDepths : List (String × Json) → Nat
  | [] => 0
  | (_, j) :: fields => max j.depth (fieldDepths fields)

end

mutual

/-- Skipping a value meets no fault. -/
theorem skipFault_toReading : ∀ j : Json, j.toReading.skipFault = none
  | null | bool _ | number _ | string _ => rfl
  | array items => by rw [toReading, Reading.skipFault, skipItems_toReadings items]; rfl
  | object fields => by rw [toReading, Reading.skipFault, skipFields_toReadingFields fields]; rfl

theorem skipItems_toReadings : ∀ js : List Json, Reading.skipItems (toReadings js) = none
  | [] => rfl
  | j :: js => by
    rw [toReadings, Reading.skipItems, skipFault_toReading j, skipItems_toReadings js]
    rfl

theorem skipFields_toReadingFields :
    ∀ fields : List (String × Json), Reading.skipFields (toReadingFields fields) = none
  | [] => rfl
  | (_, j) :: fields => by
    rw [toReadingFields, Reading.skipFields, skipFault_toReading j,
      skipFields_toReadingFields fields]
    rfl

end

mutual

/-- A value is read through where there is room for it. -/
theorem readThrough_toReading :
    ∀ (j : Json) {p : Place}, p.HasRoom j.depth → j.toReading.readThrough p = .ok ()
  | null, _, _ | bool _, _, _ | number _, _, _ | string _, _, _ => rfl
  | array items, p, h => by
    obtain ⟨q, henter, hq⟩ := h.enter
    simp only [toReading, Reading.readThrough, henter, bind, Except.bind,
      readItems_toReadings items hq]
    rfl
  | object fields, p, h => by
    obtain ⟨q, henter, hq⟩ := h.enter
    simp only [toReading, Reading.readThrough, henter, bind, Except.bind,
      readFields_toReadingFields fields hq]
    rfl

theorem readItems_toReadings :
    ∀ (js : List Json) {p : Place}, p.HasRoom (depths js) →
      Reading.readItems p (toReadings js) = .ok ()
  | [], _, _ => rfl
  | j :: js, p, h => by
    have hj : p.HasRoom j.depth := fun htext => lt_of_le_of_lt (le_max_left ..) (h htext)
    have hjs : p.HasRoom (depths js) := fun htext => lt_of_le_of_lt (le_max_right ..) (h htext)
    simp only [toReadings, Reading.readItems, readThrough_toReading j hj, bind, Except.bind,
      readItems_toReadings js hjs]

theorem readFields_toReadingFields :
    ∀ (fields : List (String × Json)) {p : Place}, p.HasRoom (fieldDepths fields) →
      Reading.readFields p (toReadingFields fields) = .ok ()
  | [], _, _ => rfl
  | (_, j) :: fields, p, h => by
    have hj : p.HasRoom j.depth := fun htext => lt_of_le_of_lt (le_max_left ..) (h htext)
    have hfields : p.HasRoom (fieldDepths fields) :=
      fun htext => lt_of_le_of_lt (le_max_right ..) (h htext)
    simp only [toReadingFields, Reading.readFields, readThrough_toReading j hj, bind, Except.bind,
      readFields_toReadingFields fields hfields]

end

end Json

/-! ## Lists -/

theorem mapM_toReadings_eq_ok_iff {α : Type} {d : Reading → Except DecodeError α} {js : List Json}
    {as : List α} : (Json.toReadings js).mapM d = .ok as ↔
      List.Forall₂ (fun j a => d j.toReading = .ok a) js as := by
  induction js generalizing as with
  | nil => simp [Json.toReadings, pure, Except.pure, eq_comm]
  | cons j js ih =>
    simp only [Json.toReadings, List.mapM_cons, bind_eq_ok_iff, ih, List.forall₂_cons_left_iff,
      pure, Except.pure, Except.ok.injEq]
    constructor
    · rintro ⟨a, ha, as, has, rfl⟩
      exact ⟨a, as, ha, has, rfl⟩
    · rintro ⟨a, as, ha, has, rfl⟩
      exact ⟨a, ha, as, has, rfl⟩

theorem Decoder.list_array_eq_ok_iff {α : Type} {d : Decoder α} {p : Place} {js : List Json}
    {as : List α} : list d p (Json.array js).toReading = .ok as ↔
      ∃ q, p.enter = .ok q ∧ List.Forall₂ (fun j a => d q j.toReading = .ok a) js as := by
  simp only [Json.toReading, list, bind_eq_ok_iff, mapM_toReadings_eq_ok_iff, endOf,
    Except.ok.injEq, exists_eq_right]

/-! ## Records -/

namespace Shape

variable {α : Type} (shape : Shape α) (p : Place)

/-- What the fields of an object do to a record, in their order: each sets the field of its key, or
is skipped if there is none. -/
inductive Steps : List (String × Json) → List (String × (α → α)) → Prop
  | nil : Steps [] []
  | set {key : String} {j : Json} {f : Field α} {set : α → α} {fields : List (String × Json)}
      {steps : List (String × (α → α))} (hf : shape.field? key = some f)
      (hset : f.decode p j.toReading = .ok set) (h : Steps fields steps) :
      Steps ((key, j) :: fields) ((key, set) :: steps)
  | skip {key : String} {j : Json} {fields : List (String × Json)}
      {steps : List (String × (α → α))} (hf : shape.field? key = none) (h : Steps fields steps) :
      Steps ((key, j) :: fields) steps

/-- The fields of an object make up the record. -/
def Makes (fields : List (String × Json)) (a : α) : Prop :=
  ∃ steps, shape.Steps p fields steps ∧ (steps.map (·.1)).Nodup ∧
    (∀ f ∈ shape.fields, f.required = true → f.key ∈ steps.map (·.1)) ∧
    steps.foldl (fun a step => step.2 a) shape.blank = a

variable {shape p}

/-! ## One field -/

section

variable {key : String} {j : Json} {f : Field α} {fields : List (String × Json)}
  {steps : List (String × (α → α))}

theorem steps_cons_iff_of_none (hf : shape.field? key = none) :
    shape.Steps p ((key, j) :: fields) steps ↔ shape.Steps p fields steps := by
  constructor
  · intro h
    cases h with
    | set hf' => cases hf.symm.trans hf'
    | skip _ h => exact h
  · exact .skip hf

theorem steps_cons_iff_of_some (hf : shape.field? key = some f) :
    shape.Steps p ((key, j) :: fields) steps ↔ ∃ set steps', f.decode p j.toReading = .ok set ∧
      shape.Steps p fields steps' ∧ steps = (key, set) :: steps' := by
  constructor
  · intro h
    cases h with
    | set hf' hset h =>
      obtain rfl := Option.some.inj (hf.symm.trans hf')
      exact ⟨_, _, hset, h, rfl⟩
    | skip hf' => cases hf.symm.trans hf'
  · rintro ⟨set, steps', hset, h, rfl⟩
    exact .set hf hset h

variable {acc : α} {seen : List String}

/-- A key that is no field changes nothing. -/
theorem decodeFields_cons_of_none (hf : shape.field? key = none) :
    shape.decodeFields p acc seen (Json.toReadingFields ((key, j) :: fields)) =
      shape.decodeFields p acc seen (Json.toReadingFields fields) := by
  rw [Json.toReadingFields, decodeFields]
  simp only [hf, Json.skipFault_toReading]

/-- The key of a field has to be new, and its value sets the field. -/
theorem decodeFields_cons_eq_ok_iff_of_some (hf : shape.field? key = some f)
    {result : α × List String} :
    shape.decodeFields p acc seen (Json.toReadingFields ((key, j) :: fields)) = .ok result ↔
      key ∉ seen ∧ ∃ set, f.decode p j.toReading = .ok set ∧
        shape.decodeFields p (set acc) (key :: seen) (Json.toReadingFields fields) =
          .ok result := by
  rw [Json.toReadingFields, decodeFields]
  simp only [hf, List.contains_iff_mem]
  split
  case isTrue hseen => simp [hseen, Mismatch.refuse]
  case isFalse hseen => simp only [hseen, bind_eq_ok_iff, not_false_eq_true, true_and]

end

/-! ## All fields -/

theorem decodeFields_eq_ok_iff {fields : List (String × Json)} {acc a : α}
    {seen keys : List String} :
    shape.decodeFields p acc seen (Json.toReadingFields fields) = .ok (a, keys) ↔
      ∃ steps, shape.Steps p fields steps ∧ (steps.map (·.1)).Nodup ∧
        (steps.map (·.1)).Disjoint seen ∧ steps.foldl (fun a step => step.2 a) acc = a ∧
        (steps.map (·.1)).reverse ++ seen = keys := by
  induction fields generalizing acc seen with
  | nil =>
    constructor
    · intro h
      cases h
      exact ⟨[], .nil, .nil, List.disjoint_nil_left _, rfl, rfl⟩
    · rintro ⟨steps, hsteps, -, -, rfl, rfl⟩
      cases hsteps
      rfl
  | cons e fields ih =>
    obtain ⟨key, j⟩ := e
    cases hf : shape.field? key with
    | none => simp only [decodeFields_cons_of_none hf, ih, steps_cons_iff_of_none hf]
    | some f =>
      simp only [decodeFields_cons_eq_ok_iff_of_some hf, ih, steps_cons_iff_of_some hf]
      constructor
      · rintro ⟨hkey, set, hset, steps, hsteps, hnodup, hnew, rfl, rfl⟩
        obtain ⟨hkeys, hnew⟩ := List.disjoint_cons_right.1 hnew
        exact ⟨_, ⟨set, steps, hset, hsteps, rfl⟩, List.nodup_cons.2 ⟨hkeys, hnodup⟩,
          List.disjoint_cons_left.2 ⟨hkey, hnew⟩, rfl, by simp⟩
      · rintro ⟨_, ⟨set, steps, hset, hsteps, rfl⟩, hnodup, hnew, rfl, rfl⟩
        obtain ⟨hkeys, hnodup⟩ := List.nodup_cons.1 hnodup
        obtain ⟨hkey, hnew⟩ := List.disjoint_cons_left.1 hnew
        exact ⟨hkey, set, hset, steps, hsteps, hnodup,
          List.disjoint_cons_right.2 ⟨hkeys, hnew⟩, rfl, by simp⟩

theorem firstMissing?_eq_none_iff {seen : List String} :
    shape.firstMissing? seen = none ↔ ∀ f ∈ shape.fields, f.required = true → f.key ∈ seen := by
  simp [firstMissing?]

theorem decode_object_eq_ok_iff {fields : List (String × Json)} {a : α} :
    shape.decode p (Json.object fields).toReading = .ok a ↔
      ∃ q, p.enter = .ok q ∧ shape.Makes q fields a := by
  simp only [Json.toReading, decode, bind_eq_ok_iff, Prod.exists, decodeFields_eq_ok_iff, endOf,
    exists_const, true_and]
  refine exists_congr fun q => and_congr_right fun _ => ?_
  constructor
  · rintro ⟨b, keys, ⟨steps, hsteps, hnodup, -, rfl, rfl⟩, h⟩
    split at h
    · cases h
    case h_2 hmissing =>
      cases h
      refine ⟨steps, hsteps, hnodup, ?_, rfl⟩
      simpa using firstMissing?_eq_none_iff.1 hmissing
  · rintro ⟨steps, hsteps, hnodup, hrequired, rfl⟩
    refine ⟨_, _, ⟨steps, hsteps, hnodup, List.disjoint_nil_right _, rfl, rfl⟩, ?_⟩
    have hmissing : shape.firstMissing? ((steps.map (·.1)).reverse ++ []) = none :=
      firstMissing?_eq_none_iff.2 (by simpa using hrequired)
    rw [hmissing]

/-! ## The order of the fields -/

namespace Steps

variable {fields fields' : List (String × Json)} {steps : List (String × (α → α))}

theorem exists_perm (h : shape.Steps p fields steps) (hperm : fields.Perm fields') :
    ∃ steps', shape.Steps p fields' steps' ∧ steps.Perm steps' := by
  induction hperm generalizing steps with
  | nil => exact ⟨steps, h, .refl _⟩
  | cons e _ ih =>
    cases h with
    | set hf hset h =>
      obtain ⟨steps', h', hperm⟩ := ih h
      exact ⟨_, .set hf hset h', hperm.cons _⟩
    | skip hf h =>
      obtain ⟨steps', h', hperm⟩ := ih h
      exact ⟨_, .skip hf h', hperm⟩
  | swap e e' fields =>
    cases h with
    | set hf hset h =>
      cases h with
      | set hf' hset' h => exact ⟨_, .set hf' hset' (.set hf hset h), .swap ..⟩
      | skip hf' h => exact ⟨_, .skip hf' (.set hf hset h), .refl _⟩
    | skip hf h =>
      cases h with
      | set hf' hset' h => exact ⟨_, .set hf' hset' (.skip hf h), .refl _⟩
      | skip hf' h => exact ⟨_, .skip hf' (.skip hf h), .refl _⟩
  | trans _ _ ih ih' =>
    obtain ⟨steps', h', hperm⟩ := ih h
    obtain ⟨steps'', h'', hperm'⟩ := ih' h'
    exact ⟨steps'', h'', hperm.trans hperm'⟩

theorem keys_sublist (h : shape.Steps p fields steps) :
    (steps.map (·.1)).Sublist (fields.map (·.1)) := by
  induction h with
  | nil => exact .slnil
  | set _ _ _ ih => exact ih.cons_cons _
  | skip _ _ ih => exact ih.cons _

theorem exists_field (h : shape.Steps p fields steps) {step : String × (α → α)}
    (hstep : step ∈ steps) :
    ∃ f ∈ shape.fields, f.key = step.1 ∧ ∃ r, f.decode p r = .ok step.2 := by
  induction h with
  | nil => cases hstep
  | set hf hset _ ih =>
    rcases List.mem_cons.1 hstep with rfl | hstep
    · exact ⟨_, List.mem_of_find?_eq_some hf, by simpa using List.find?_some hf, _, hset⟩
    · exact ih hstep
  | skip _ _ ih => exact ih hstep

end Steps

end Shape

/-- The two fields can be set in either order. -/
def Field.Commutes {α : Type} (f g : Field α) : Prop :=
  ∀ p r r' set set', f.decode p r = .ok set → g.decode p r' = .ok set' →
    ∀ a, set (set' a) = set' (set a)

instance {α : Type} : Std.Symm (Field.Commutes (α := α)) where
  symm _ _ h p r r' set set' hset hset' a := (h p r' r set' set hset' hset a).symm

theorem Field.commutes_of {α β γ : Type} {key key' : String} {d : Decoder β} {d' : Decoder γ}
    {set : β → α → α} {set' : γ → α → α} {required required' : Bool}
    (h : ∀ b c a, set b (set' c a) = set' c (set b a)) :
    (Field.of key d set required).Commutes (Field.of key' d' set' required') := by
  intro p r r' s s' hs hs' a
  obtain ⟨b, -, rfl⟩ := map_eq_ok_iff.1 hs
  obtain ⟨c, -, rfl⟩ := map_eq_ok_iff.1 hs'
  exact h b c a

namespace Shape

variable {α : Type} {shape : Shape α} {p : Place} {fields fields' : List (String × Json)} {a : α}

/-- The order in which the fields of an object stand does not matter. -/
theorem Makes.perm (hcommutes : shape.fields.Pairwise Field.Commutes)
    (h : shape.Makes p fields a) (hperm : fields.Perm fields') : shape.Makes p fields' a := by
  obtain ⟨steps, hsteps, hnodup, hrequired, rfl⟩ := h
  obtain ⟨steps', hsteps', hperm'⟩ := hsteps.exists_perm hperm
  have hkeys : (steps.map (·.1)).Perm (steps'.map (·.1)) := hperm'.map _
  refine ⟨steps', hsteps', hkeys.nodup_iff.1 hnodup, ?_, ?_⟩
  · exact fun f hf h => hkeys.mem_iff.1 (hrequired f hf h)
  · refine (hperm'.foldl_eq' ?_ _).symm
    intro x hx y hy a
    obtain ⟨f, hf, hfx, r, hset⟩ := hsteps.exists_field hx
    obtain ⟨g, hg, hgy, r', hset'⟩ := hsteps.exists_field hy
    -- No key is set twice, so steps of one key are one step.
    by_cases hkey : x.1 = y.1
    · rw [List.inj_on_of_nodup_map hnodup hx hy hkey]
    · have hne : f ≠ g := by
        rintro rfl
        exact hkey (hfx.symm.trans hgy)
      exact (hcommutes.forall hf hg hne p r r' x.2 y.2 hset hset' a).symm

theorem decode_perm (hcommutes : shape.fields.Pairwise Field.Commutes)
    (hperm : fields.Perm fields') (h : shape.decode p (Json.object fields).toReading = .ok a) :
    shape.decode p (Json.object fields').toReading = .ok a := by
  rw [decode_object_eq_ok_iff] at h ⊢
  obtain ⟨q, henter, hmakes⟩ := h
  exact ⟨q, henter, hmakes.perm hcommutes hperm⟩

end Shape

/-! ## Marks -/

theorem Link.commutes : shape.fields.Pairwise Field.Commutes := by
  simp [shape, Field.commutes_of]

/-- What stands beside the tag may come in any order. -/
theorem MarkTag.mark_perm {tag : MarkTag} {mark : Mark} {fields fields' : List (String × Json)}
    (hperm : fields.Perm fields') (h : tag.mark (Json.object fields).toReading = .ok mark) :
    tag.mark (Json.object fields').toReading = .ok mark := by
  cases tag with
  | link =>
    obtain ⟨l, hl, rfl⟩ := map_eq_ok_iff.1 h
    exact map_eq_ok_iff.2 ⟨l, Shape.decode_perm Link.commutes hperm hl, rfl⟩
  | _ => exact h

namespace Mark

variable {p : Place} {fields : List (String × Json)} {tag : MarkTag}

/-- The fields of an object are the tag of the mark and what belongs to it. -/
def Makes (p : Place) (fields : List (String × Json)) (mark : Mark) : Prop :=
  ∃ value tag beside, fields.Perm (("type", value) :: beside) ∧
    Decoder.identifier MarkTag.vocabulary value.toReading = .ok tag ∧
    (∀ e ∈ beside, Beside p e) ∧ tag.mark (Json.object beside).toReading = .ok mark

theorem beside_of_splitTag_some {others : List (Reading × Reading)}
    {r : Option MarkTag × List (Reading × Reading)}
    (h : splitTag p (some tag) others (Json.toReadingFields fields) = .ok r) :
    ∀ e ∈ fields, Beside p e := by
  induction fields generalizing others with
  | nil => exact List.forall_mem_nil _
  | cons e fields ih =>
    obtain ⟨key, j⟩ := e
    rw [Json.toReadingFields, splitTag] at h
    by_cases hkey : key = "type"
    · simp only [if_pos hkey] at h
      cases h
    · simp only [if_neg hkey] at h
      obtain ⟨_, hread, hrest⟩ := bind_eq_ok_iff.1 h
      exact List.forall_mem_cons.2 ⟨⟨hkey, hread⟩, ih hrest⟩

/-- An object with a tag is split where the tag stands. -/
theorem exists_of_splitTag_none {others kept : List (Reading × Reading)}
    (h : splitTag p none others (Json.toReadingFields fields) = .ok (some tag, kept)) :
    ∃ before value after, fields = before ++ ("type", value) :: after ∧
      Decoder.identifier MarkTag.vocabulary value.toReading = .ok tag ∧
      ∀ e ∈ before ++ after, Beside p e := by
  induction fields generalizing others with
  | nil => cases h
  | cons e fields ih =>
    obtain ⟨key, j⟩ := e
    rw [Json.toReadingFields, splitTag] at h
    by_cases hkey : key = "type"
    · simp only [if_pos hkey] at h
      obtain ⟨t, ht, hrest⟩ := bind_eq_ok_iff.1 h
      have hbeside := beside_of_splitTag_some hrest
      have htag := splitTag_append hbeside (some t) others []
      rw [List.append_nil, hrest, splitTag, Except.ok.injEq, Prod.mk.injEq] at htag
      obtain rfl := Option.some.inj htag.1
      exact ⟨[], j, fields, by rw [hkey]; rfl, ht, hbeside⟩
    · simp only [if_neg hkey] at h
      obtain ⟨_, hread, hrest⟩ := bind_eq_ok_iff.1 h
      obtain ⟨before, value, after, rfl, htag, hbeside⟩ := ih hrest
      exact ⟨(key, j) :: before, value, after, rfl, htag,
        List.forall_mem_cons.2 ⟨⟨hkey, hread⟩, hbeside⟩⟩

theorem decode_object_eq_ok_iff {mark : Mark} :
    decode p (Json.object fields).toReading = .ok mark ↔
      ∃ q, p.enter = .ok q ∧ Makes q fields mark := by
  simp only [Json.toReading, decode, bind_eq_ok_iff, Prod.exists, endOf, exists_const, true_and]
  refine exists_congr fun q => and_congr_right fun _ => ?_
  constructor
  · rintro ⟨tag?, kept, hsplit, hmark⟩
    cases tag? with
    | none => cases hmark
    | some tag =>
      obtain ⟨before, value, after, rfl, htag, hbeside⟩ := exists_of_splitTag_none hsplit
      rw [splitTag_eq htag hbeside, Except.ok.injEq, Prod.mk.injEq] at hsplit
      obtain ⟨-, rfl⟩ := hsplit
      exact ⟨value, tag, before ++ after, List.perm_middle, htag, hbeside, hmark⟩
  · rintro ⟨value, tag, beside, hperm, htag, hbeside, hmark⟩
    obtain ⟨before, after, rfl⟩ := List.append_of_mem (hperm.mem_iff.2 List.mem_cons_self)
    have hcontent : (before ++ after).Perm beside :=
      (List.perm_middle.symm.trans hperm).cons_inv
    refine ⟨some tag, _, splitTag_eq htag fun e he => hbeside e (hcontent.mem_iff.1 he), ?_⟩
    exact MarkTag.mark_perm hcontent.symm hmark

end Mark
end MemberBinding
