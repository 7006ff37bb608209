import MemberBinding.Proofs.Lists.FirstOccurrences
import MemberBinding.Proofs.Reports.Collection

/-!
# Calls on a collection

However violations are handed in, one at a time or many, a collection keeps the first report of
each message, in order, and its failure numbers these messages. Main statement:
`Diagnostics.ofCalls_keeps_first_reports`.
-/

namespace MemberBinding

def Violation.sameMessage (v w : Violation) : Bool := v.message == w.message

namespace Failure

theorem numbered_eq (texts : List String) :
    numbered texts =
      String.join (List.ofFn fun k : Fin texts.length => s!"\n{k.val + 1}. {texts.get k}") := by
  have hlines : (texts.zipIdx.map fun e => s!"\n{e.2 + 1}. {e.1}") =
      List.ofFn fun k : Fin texts.length => s!"\n{k.val + 1}. {texts.get k}" := by
    apply List.ext_getElem
    · simp only [List.length_map, List.length_zipIdx, List.length_ofFn]
    · intro k _ _
      simp only [List.getElem_map, List.getElem_zipIdx, List.getElem_ofFn, List.get_eq_getElem,
        Nat.zero_add]
  rw [numbered, hlines]

theorem message_mk (kind : BindingKind) (violations : List Violation) :
    message ⟨kind, violations⟩ = s!"internal errors of {kind.label} patching:" ++
      numbered (violations.map Violation.message) := rfl

end Failure

namespace Diagnostics

inductive Call
  | push (v : Violation)
  | extend (vs : List Violation)

/-- What a call hands in. -/
def Call.violations : Call → List Violation
  | push v => [v]
  | extend vs => vs

def call (d : Diagnostics) : Call → Diagnostics
  | .push v => d.push v
  | .extend vs => d.extend vs

/-- A new collection after all of the calls. -/
def ofCalls (calls : List Call) : Diagnostics := calls.foldl call {}

/-- The collection that holds these violations. -/
def ofKept (kept : List Violation) : Diagnostics := ⟨kept, kept.map Violation.message⟩

theorem call_eq_extend (d : Diagnostics) (c : Call) : d.call c = d.extend c.violations := by
  cases c <;> rfl

theorem foldl_call_eq_extend (d : Diagnostics) (calls : List Call) :
    calls.foldl call d = d.extend (calls.flatMap Call.violations) := by
  induction calls generalizing d with
  | nil => rfl
  | cons c calls ih => rw [List.foldl_cons, ih, call_eq_extend, List.flatMap_cons, extend_append]

/-- Only what is handed in counts, and not by which calls. -/
theorem ofCalls_eq_ofList (calls : List Call) :
    ofCalls calls = ofList (calls.flatMap Call.violations) :=
  foldl_call_eq_extend {} calls

/-- The list and the set of messages grow together. -/
theorem push_ofKept (kept : List Violation) (v : Violation) :
    (ofKept kept).push v = ofKept (appendNew Violation.message kept v) := by
  unfold push ofKept appendNew
  by_cases hold : v.message ∈ kept.map Violation.message
  · simp only [List.contains_iff_mem, if_pos hold]
  · simp only [List.contains_iff_mem, if_neg hold, List.map_append, List.map_singleton]

theorem ofList_eq_ofKept (vs : List Violation) :
    ofList vs = ofKept (vs.eraseDupsBy Violation.sameMessage) := by
  have hfold : vs.foldl push (ofKept []) = ofKept (vs.foldl (appendNew Violation.message) []) :=
    List.foldl_hom ofKept push_ofKept
  rw [foldl_appendNew_nil] at hfold
  exact hfold

theorem map_eraseDupsBy_sameMessage (vs : List Violation) :
    (vs.eraseDupsBy Violation.sameMessage).map Violation.message =
      (vs.map Violation.message).eraseDups := by
  have hkeys := map_foldl_appendNew Violation.message [] vs
  rw [List.map_nil, foldl_appendNew_nil, foldl_appendNew_nil] at hkeys
  exact hkeys

/-- Whatever the calls, a collection keeps the violations handed in without those whose message
came before. It has seen the messages that it keeps, each once. It comes to a result if nothing
was handed in, and otherwise to a failure with all that was kept, which numbers the distinct
messages from one. -/
theorem ofCalls_keeps_first_reports {α : Type} (calls : List Call) (kind : BindingKind)
    (result : α) :
    let vs := calls.flatMap Call.violations
    let d := ofCalls calls
    let texts := (vs.map Violation.message).eraseDups
    d.kept = vs.eraseDupsBy Violation.sameMessage ∧
      d.seen = d.kept.map Violation.message ∧ d.seen.Nodup ∧ d.seen = texts ∧
      (∀ other : List Call, other.flatMap Call.violations = vs → ofCalls other = d) ∧
      d.finish kind result = (if vs = [] then .ok result else .error ⟨kind, d.kept⟩) ∧
      (Failure.mk kind d.kept).message = s!"internal errors of {kind.label} patching:" ++
        String.join (List.ofFn fun k : Fin texts.length => s!"\n{k.val + 1}. {texts.get k}") := by
  intro vs d texts
  have hlist : d = ofList vs := ofCalls_eq_ofList calls
  have hkept : d = ofKept (vs.eraseDupsBy Violation.sameMessage) := by rw [hlist, ofList_eq_ofKept]
  have hcollects : d.Collects vs := hlist ▸ collects_ofList vs
  have htexts : d.kept.map Violation.message = texts := by
    rw [hkept]
    exact map_eraseDupsBy_sameMessage vs
  have hempty : d.isEmpty = true ↔ vs = [] := by
    rw [isEmpty, List.isEmpty_iff, hlist, kept_ofList_eq_nil_iff]
  refine ⟨congrArg kept hkept, hcollects.seen_eq, hcollects.nodup, hcollects.seen_eq.trans htexts,
    ?_, ?_, ?_⟩
  · intro other hother
    rw [hlist, ofCalls_eq_ofList, hother]
  · simp only [finish, hempty]
  · rw [Failure.message_mk, htexts, Failure.numbered_eq]

/-- Names with quotes, which make one message of two different lists. -/
def quotedCalls : List Call :=
  [.push (.multiConnect "property" "Title" "field" ["a", "b', 'c"]),
    .extend [.invalidName "property" "title",
      .multiConnect "property" "Title" "field" ["a', 'b", "c"]],
    .push (.invalidName "property" "title")]

theorem ofCalls_keeps_first_reports_quotedCalls :
    ([.extend (quotedCalls.flatMap Call.violations)] : List Call).flatMap Call.violations =
      quotedCalls.flatMap Call.violations ∧
    ofCalls [.extend (quotedCalls.flatMap Call.violations)] = ofCalls quotedCalls ∧
    (ofCalls quotedCalls).kept = [.multiConnect "property" "Title" "field" ["a", "b', 'c"],
      .invalidName "property" "title"] ∧
    (ofCalls quotedCalls).finish .property () =
      .error ⟨.property, (ofCalls quotedCalls).kept⟩ := by
  have hfirst := ofCalls_keeps_first_reports quotedCalls .property ()
  obtain ⟨-, -, -, -, hsame, hfinish, -⟩ := hfirst
  have hextended : ([.extend (quotedCalls.flatMap Call.violations)] : List Call).flatMap
      Call.violations = quotedCalls.flatMap Call.violations := rfl
  exact ⟨hextended, hsame _ hextended, rfl, hfinish⟩

end Diagnostics
end MemberBinding
