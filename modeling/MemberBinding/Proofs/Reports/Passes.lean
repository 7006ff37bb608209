import MemberBinding.Binding.Shape
import MemberBinding.Proofs.Reports.Links
import MemberBinding.Proofs.Resolution.Run

/-!
# What each pass of a run reports

Marks clash on a member, and the forward links of a source are reported with the names that
designate nothing. A role is reported for several candidates and checked for a sole one, which a
list without repeats shows by its length. Main statements: `Rules.mem_markFaults_iff` and
`Rules.mem_linkFaults_iff`.
-/

namespace MemberBinding

/-- An excluded member of one of the kinds that is also included, or that carries one of the
links. -/
inductive Snapshot.MarkClash (s : Snapshot) (kinds : List MemberKind) (links : List LinkKind) :
    Violation → Prop
  | included {id} (lt : id < s.members.length) (kind : (s.member id).kind ∈ kinds)
      (excluded : (s.member id).isExcluded = true) (included : (s.member id).isIncluded = true) :
      MarkClash s kinds links (.includeAndExclude (s.member id).kind.label (s.member id).name)
  | linked {id l} (lt : id < s.members.length) (kind : (s.member id).kind ∈ kinds)
      (excluded : (s.member id).isExcluded = true) (carried : l ∈ (s.member id).links)
      (link : l.kind ∈ links) :
      MarkClash s kinds links
        (.excludedWithLink l.kind (s.member id).kind.label (s.member id).name)

theorem Snapshot.MarkClash.mono {s : Snapshot} {kinds kinds' : List MemberKind}
    {links links' : List LinkKind} {v : Violation} (hkinds : ∀ kind ∈ kinds, kind ∈ kinds')
    (hlinks : ∀ link ∈ links, link ∈ links') (h : s.MarkClash kinds links v) :
    s.MarkClash kinds' links' v := by
  cases h with
  | included lt kind excluded included => exact .included lt (hkinds _ kind) excluded included
  | linked lt kind excluded carried link =>
    exact .linked lt (hkinds _ kind) excluded carried (hlinks _ link)

/-- The property and the field have different types. -/
inductive TypeFault (property field : Member) : Violation → Prop
  | mismatch (ne : property.declaredType ≠ field.declaredType) :
      TypeFault property field (.typeMismatch "property" property.name "field" field.name)

theorem mem_sameTypeFaults_iff {property field : Member} {v : Violation} :
    v ∈ sameTypeFaults "property" property "field" field ↔ TypeFault property field v := by
  unfold sameTypeFaults
  constructor
  · intro h
    split at h
    · cases h
    · rename_i hne
      rw [List.mem_singleton.1 h]
      exact .mismatch (by simpa using hne)
  · intro h
    cases h with
    | mismatch ne => simp [ne]

/-- The only candidate. -/
structure Sole (Candidate : Nat → Prop) (id : Nat) : Prop where
  candidate : Candidate id
  unique : ∀ other, Candidate other → other = id

/-- There are several candidates, and these are the names of all of them, in some order. -/
def Snapshot.Several (s : Snapshot) (Candidate : Nat → Prop) (names : List String) : Prop :=
  ∃ ids : List Nat, ids.Nodup ∧ (∀ id, id ∈ ids ↔ Candidate id) ∧ 2 ≤ ids.length ∧
    names = ids.map fun id => (s.member id).name

section

variable {s : Snapshot} {Candidate : Nat → Prop} {cs : List Nat}

theorem eq_singleton_iff_sole (hnodup : cs.Nodup) (hmem : ∀ id, id ∈ cs ↔ Candidate id) {id : Nat} :
    cs = [id] ↔ Sole Candidate id := by
  constructor
  · rintro rfl
    exact ⟨(hmem id).1 (by simp), fun other h => List.mem_singleton.1 ((hmem other).2 h)⟩
  · intro h
    have hid := (hmem id).2 h.candidate
    have hall : ∀ other ∈ cs, other = id := fun other ho => h.unique other ((hmem other).1 ho)
    match cs, hnodup, hid, hall with
    | [other], _, _, hall => rw [hall other (by simp)]
    | i :: j :: _, hnodup, _, hall =>
      have hij : i = j := (hall i (by simp)).trans (hall j (by simp)).symm
      simp [hij] at hnodup

theorem several_of_nodup (hnodup : cs.Nodup) (hmem : ∀ id, id ∈ cs ↔ Candidate id)
    (hlen : 2 ≤ cs.length) : s.Several Candidate (cs.map fun id => (s.member id).name) :=
  ⟨cs, hnodup, hmem, hlen, rfl⟩

theorem Snapshot.Several.perm (hnodup : cs.Nodup) (hmem : ∀ id, id ∈ cs ↔ Candidate id)
    {names : List String} (h : s.Several Candidate names) :
    2 ≤ cs.length ∧ names.Perm (cs.map fun id => (s.member id).name) := by
  obtain ⟨ids, hids, hmem', hlen, rfl⟩ := h
  have hperm : ids.Perm cs := by
    rw [List.perm_ext_iff_of_nodup hids hnodup]
    intro id
    rw [hmem', hmem]
  exact ⟨hperm.length_eq ▸ hlen, hperm.map _⟩

end

namespace Rules

variable {rules : Rules} {ctx : Context} {v : Violation}

theorem mem_markFaultsOf_iff {m : Member} :
    v ∈ rules.markFaultsOf m ↔ (m.kind ∈ rules.memberKinds ∧ m.isExcluded = true) ∧
      ((m.isIncluded = true ∧ v = .includeAndExclude m.kind.label m.name) ∨
        ∃ l ∈ m.links, l.kind ∈ rules.linkKinds ∧
          v = .excludedWithLink l.kind m.kind.label m.name) := by
  have hlinks : v ∈ (m.links.filter fun l => rules.linkKinds.contains l.kind).map
        (fun l => Violation.excludedWithLink l.kind m.kind.label m.name) ↔
      ∃ l ∈ m.links, l.kind ∈ rules.linkKinds ∧
        v = .excludedWithLink l.kind m.kind.label m.name := by
    simp [and_assoc, eq_comm]
  unfold markFaultsOf
  split
  · rename_i h
    rw [Bool.and_eq_true, List.contains_iff_mem] at h
    rw [and_iff_right h, List.mem_append, hlinks]
    cases m.isIncluded <;> simp
  · rename_i h
    rw [Bool.and_eq_true, List.contains_iff_mem] at h
    exact ⟨nofun, fun hv => absurd hv.1 h⟩

theorem mem_markFaults_iff :
    v ∈ rules.markFaults ctx ↔ ctx.snapshot.MarkClash rules.memberKinds rules.linkKinds v := by
  simp only [markFaults, List.mem_flatMap, mem_markFaultsOf_iff]
  constructor
  · intro h
    obtain ⟨m, hm, ⟨hk, hx⟩, h⟩ := h
    obtain ⟨id, hlt, rfl⟩ := Snapshot.exists_member_eq hm
    rcases h with ⟨hi, rfl⟩ | ⟨l, hl, hkind, rfl⟩
    · exact .included hlt hk hx hi
    · exact .linked hlt hk hx hl hkind
  · intro h
    cases h with
    | included hlt hk hx hi => exact ⟨_, Snapshot.member_mem hlt, ⟨hk, hx⟩, .inl ⟨hi, rfl⟩⟩
    | linked hlt hk hx hl hkind =>
      exact ⟨_, Snapshot.member_mem hlt, ⟨hk, hx⟩, .inr ⟨_, hl, hkind, rfl⟩⟩

theorem mem_linkFaults_iff {spec : RoleSpec} {g : Group} :
    v ∈ rules.linkFaults ctx spec g ↔ ∃ source, g.sourceOf spec = some source ∧
      ∃ l ∈ (ctx.snapshot.member source).linksOf spec.forward,
        ctx.snapshot.Undesignated spec.kind spec.label l.name
          ⟨l.kind, (rules.source spec).label, (ctx.snapshot.member source).name⟩ v := by
  unfold linkFaults
  cases g.sourceOf spec with
  | none => simp
  | some source =>
    simp only [forwardOutcomes, List.flatMap_map, List.mem_flatMap, mem_reported_iff,
      Context.linkTarget_eq_error_iff, Context.member_eq, Option.some.injEq, exists_eq_left']

end Rules
end MemberBinding
