import MemberBinding.Diagnostics

/-!
# What a collection of violations keeps

Two violations are the same when their messages are, so a collection may drop a violation but never
a message. Main statement: `Diagnostics.finish_ofList_eq_error`.
-/

namespace MemberBinding

/-- The same report, up to the order in which a report of several candidates lists them. -/
inductive Violation.Alike : Violation → Violation → Prop
  | refl (v : Violation) : Alike v v
  | multiConnect {role owner target : String} {names names' : List String}
      (perm : names.Perm names') :
      Alike (.multiConnect role owner target names) (.multiConnect role owner target names')

/-- The failure reports what arises: nothing else, and none of it hidden by another report. -/
structure Failure.Reports (f : Failure) (Arises : Violation → Prop) : Prop where
  ne_nil : f.violations ≠ []
  sound : ∀ v ∈ f.violations, Arises v
  complete : ∀ v, Arises v → ∃ w, v.Alike w ∧ w.message ∈ f.messages
  nodup : f.messages.Nodup

/-- The messages that an outcome comes with: none if there is a result. -/
def messagesOf {α : Type} : Except Failure α → List String
  | .ok _ => []
  | .error f => f.messages

theorem messagesOf_map {α β : Type} (f : α → β) (o : Except Failure α) :
    messagesOf (o.map f) = messagesOf o := by
  cases o <;> rfl

/-- The violations that an outcome comes with: none if there is a result. -/
def violationsOf {α : Type} : Except Failure α → List Violation
  | .ok _ => []
  | .error f => f.violations

theorem violationsOf_map {α β : Type} (f : α → β) (o : Except Failure α) :
    violationsOf (o.map f) = violationsOf o := by
  cases o <;> rfl

namespace Diagnostics

/-- What a collection holds once all of `vs` were reported. -/
structure Collects (d : Diagnostics) (vs : List Violation) : Prop where
  seen_eq : d.seen = d.kept.map Violation.message
  subset : ∀ v ∈ d.kept, v ∈ vs
  complete : ∀ v ∈ vs, v.message ∈ d.seen
  nodup : d.seen.Nodup

variable {d : Diagnostics} {vs : List Violation}

theorem Collects.push (h : d.Collects vs) (v : Violation) : (d.push v).Collects (vs ++ [v]) := by
  have hsubset : ∀ w ∈ d.kept, w ∈ vs ++ [v] := fun w hw => List.mem_append_left _ (h.subset w hw)
  by_cases hseen : v.message ∈ d.seen
  · have hpush : d.push v = d := by simp [Diagnostics.push, hseen]
    rw [hpush]
    refine ⟨h.seen_eq, hsubset, ?_, h.nodup⟩
    intro w hw
    rcases List.mem_append.1 hw with hw | hw
    · exact h.complete w hw
    · exact List.mem_singleton.1 hw ▸ hseen
  · have hpush : d.push v = ⟨d.kept ++ [v], d.seen ++ [v.message]⟩ := by
      simp [Diagnostics.push, hseen]
    rw [hpush]
    refine ⟨by simp [h.seen_eq], ?_, ?_, ?_⟩
    · intro w hw
      rcases List.mem_append.1 hw with hw | hw
      · exact hsubset w hw
      · exact List.mem_append_right _ hw
    · intro w hw
      rcases List.mem_append.1 hw with hw | hw
      · exact List.mem_append_left _ (h.complete w hw)
      · rw [List.mem_singleton.1 hw]
        exact List.mem_append_right _ (List.mem_singleton_self _)
    · refine List.nodup_append.2 ⟨h.nodup, by simp, ?_⟩
      intro text htext other hother heq
      exact hseen (List.mem_singleton.1 hother ▸ heq ▸ htext)

theorem Collects.extend (h : d.Collects vs) (ws : List Violation) :
    (d.extend ws).Collects (vs ++ ws) := by
  induction ws generalizing d vs with
  | nil => simpa using h
  | cons w ws ih =>
    have hrest := ih (h.push w)
    rwa [List.append_assoc] at hrest

theorem collects_ofList (vs : List Violation) : (ofList vs).Collects vs := by
  have hempty : Collects {} [] := ⟨rfl, nofun, nofun, List.nodup_nil⟩
  exact hempty.extend vs

theorem Collects.mem_seen_iff (h : d.Collects vs) {text : String} :
    text ∈ d.seen ↔ ∃ v ∈ vs, v.message = text := by
  constructor
  · intro htext
    rw [h.seen_eq] at htext
    obtain ⟨v, hv, rfl⟩ := List.mem_map.1 htext
    exact ⟨v, h.subset v hv, rfl⟩
  · intro htext
    obtain ⟨v, hv, rfl⟩ := htext
    exact h.complete v hv

theorem kept_ofList_eq_nil_iff : (ofList vs).kept = [] ↔ vs = [] := by
  have h := collects_ofList vs
  constructor
  · intro hkept
    rw [List.eq_nil_iff_forall_not_mem]
    intro v hv
    have hseen := h.complete v hv
    simp [h.seen_eq, hkept] at hseen
  · intro hvs
    rw [List.eq_nil_iff_forall_not_mem]
    intro v hv
    have hmem := h.subset v hv
    simp [hvs] at hmem

/-- A run has a result exactly when nothing was ever reported. -/
theorem finish_ofList_eq_ok_iff {α : Type} {kind : BindingKind} {result a : α} :
    (ofList vs).finish kind result = .ok a ↔ vs = [] ∧ result = a := by
  rw [← kept_ofList_eq_nil_iff, finish, isEmpty]
  cases (ofList vs).kept <;> simp

theorem violationsOf_finish {α : Type} (kind : BindingKind) (result : α) :
    violationsOf (d.finish kind result) = d.kept := by
  rw [finish, isEmpty]
  cases d.kept <;> rfl

/-- A run that comes with no violations has a result. -/
theorem finish_eq_ok_of_violationsOf_eq_nil {α : Type} {kind : BindingKind} {result : α}
    (h : violationsOf (d.finish kind result) = []) : d.finish kind result = .ok result := by
  rw [violationsOf_finish] at h
  rw [finish, isEmpty, h]
  rfl

theorem mem_messagesOf_finish_iff {α : Type} {kind : BindingKind} {result : α} {text : String} :
    text ∈ messagesOf ((ofList vs).finish kind result) ↔ ∃ v ∈ vs, v.message = text := by
  have hcollects := collects_ofList vs
  rw [← hcollects.mem_seen_iff, hcollects.seen_eq, finish, isEmpty]
  cases (ofList vs).kept with
  | nil => rfl
  | cons v rest => rfl

/-- A failed run lists the violations of `P` when what it reported were these. -/
theorem finish_ofList_eq_error {α : Type} {kind : BindingKind} {result : α} {f : Failure}
    (h : (ofList vs).finish kind result = .error f) {P : Violation → Prop}
    (sound : ∀ v ∈ vs, P v) (complete : ∀ v, P v → ∃ w ∈ vs, v.Alike w) :
    f.kind = kind ∧ f.Reports P := by
  have hcollects := collects_ofList vs
  rw [finish, isEmpty] at h
  split at h
  · cases h
  · rename_i hempty
    cases h
    have hmessages : (ofList vs).kept.map Violation.message = (ofList vs).seen :=
      hcollects.seen_eq.symm
    refine ⟨rfl, by simpa using hempty, ?_, ?_, ?_⟩
    · intro v hv
      exact sound v (hcollects.subset v hv)
    · intro v hv
      obtain ⟨w, hw, halike⟩ := complete v hv
      refine ⟨w, halike, ?_⟩
      rw [Failure.messages, hmessages]
      exact hcollects.complete w hw
    · rw [Failure.messages, hmessages]
      exact hcollects.nodup

/-! ## Violations of some sort -/

/-- A collection without the violations that `p` is not true of. -/
def filter (p : Violation → Bool) (d : Diagnostics) : Diagnostics where
  kept := d.kept.filter p
  seen := (d.kept.filter p).map Violation.message

section

variable {p : Violation → Bool} (hp : ∀ v w, v.message = w.message → p v = p w)

include hp

theorem Collects.mem_seen_filter_iff (h : d.Collects vs) {v : Violation} (hv : p v = true) :
    v.message ∈ (d.filter p).seen ↔ v.message ∈ d.seen := by
  rw [h.seen_eq, Diagnostics.filter, List.mem_map, List.mem_map]
  constructor
  · intro hseen
    obtain ⟨w, hw, hmessage⟩ := hseen
    exact ⟨w, (List.mem_filter.1 hw).1, hmessage⟩
  · intro hseen
    obtain ⟨w, hw, hmessage⟩ := hseen
    exact ⟨w, List.mem_filter.2 ⟨hw, (hp w v hmessage).trans hv⟩, hmessage⟩

theorem Collects.filter_push (h : d.Collects vs) (v : Violation) :
    (d.push v).filter p = if p v then (d.filter p).push v else d.filter p := by
  by_cases hseen : v.message ∈ d.seen
  · have hpush : d.push v = d := by simp [Diagnostics.push, hseen]
    rw [hpush]
    split
    · rename_i hv
      have hfiltered := (h.mem_seen_filter_iff hp hv).2 hseen
      simp [Diagnostics.push, hfiltered]
    · rfl
  · have hpush : d.push v = ⟨d.kept ++ [v], d.seen ++ [v.message]⟩ := by
      simp [Diagnostics.push, hseen]
    rw [hpush]
    split
    · rename_i hv
      have hfiltered := mt (h.mem_seen_filter_iff hp hv).1 hseen
      rw [Diagnostics.push, if_neg (by simpa using hfiltered)]
      simp [Diagnostics.filter, hv]
    · rename_i hv
      simp [Diagnostics.filter, hv]

theorem Collects.filter_extend (h : d.Collects vs) (ws : List Violation) :
    (d.extend ws).filter p = (d.filter p).extend (ws.filter p) := by
  induction ws generalizing d vs with
  | nil => rfl
  | cons w ws ih =>
    rw [extend_cons, ih (h.push w), h.filter_push hp, List.filter_cons]
    split
    · rw [extend_cons]
    · rfl

/-- Messages are told apart, so repeats can be dropped before or after a sort of violations is. -/
theorem kept_ofList_filter (vs : List Violation) :
    (ofList (vs.filter p)).kept = (ofList vs).kept.filter p := by
  have hempty : Collects {} [] := ⟨rfl, nofun, nofun, List.nodup_nil⟩
  exact congrArg kept (hempty.filter_extend hp vs).symm

end

end Diagnostics
end MemberBinding
