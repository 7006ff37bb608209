import MemberBinding.Proofs.Resolution.Ties
import MemberBinding.Proofs.Snapshot.LinkEdits

/-!
# Forward and reverse links do the same

A forward link on a source and a reverse link on the member it names add one and the same tie. So
either can stand for the other, or beside it. Main statement: `placements_redirect`.
-/

namespace MemberBinding

def RoleSpec.forwardLink (spec : RoleSpec) (target : Member) : Link :=
  ⟨spec.forward, target.name, none⟩

def RoleSpec.reverseLink (spec : RoleSpec) (source : Member) : Link :=
  ⟨spec.reverse, source.name, none⟩

namespace Rules

/-- Each kind of link is read for one role, in one direction. -/
structure Directed (rules : Rules) : Prop where
  forward_inj : ∀ spec ∈ rules.roles, ∀ other ∈ rules.roles,
    spec.forward = other.forward → other = spec
  reverse_inj : ∀ spec ∈ rules.roles, ∀ other ∈ rules.roles,
    spec.reverse = other.reverse → other = spec
  forward_ne_reverse : ∀ spec ∈ rules.roles, ∀ other ∈ rules.roles, spec.forward ≠ other.reverse

theorem Directed.of_singleton {rules : Rules} {spec : RoleSpec} (hroles : rules.roles = [spec])
    (hne : spec.forward ≠ spec.reverse) : rules.Directed where
  forward_inj := by simp [hroles]
  reverse_inj := by simp [hroles]
  forward_ne_reverse := by simpa [hroles] using hne

/-- A possible source of a role and a possible member of it, each known by its name. -/
structure Ends (rules : Rules) (s : Snapshot) (spec : RoleSpec) (source target : Nat) : Prop where
  mem : spec ∈ rules.roles
  source : s.Designates (rules.source spec).kind (s.member source).name source
  target : s.Designates spec.kind (s.member target).name target

/-- One more tie, and no fault that was not there. -/
structure AddsTie (rules : Rules) (ctx ctx' : Context) (spec : RoleSpec) (source target : Nat) :
    Prop extends rules.SameStanding ctx ctx' where
  held_iff : ∀ other ∈ rules.roles, ∀ x,
    rules.Held ctx' other x ↔ rules.Held ctx other x ∨ other = spec ∧ x = source
  tied_iff : ∀ other ∈ rules.roles, ∀ x y,
    rules.Tied ctx' other x y ↔ rules.Tied ctx other x y ∨ other = spec ∧ x = source ∧ y = target

variable {rules : Rules} {ctx ctx' ctx'' : Context} {spec : RoleSpec} {source target : Nat}

/-- The same tie twice is the tie once. -/
theorem AddsTie.trans (h : rules.AddsTie ctx ctx' spec source target)
    (h' : rules.AddsTie ctx' ctx'' spec source target) :
    rules.AddsTie ctx ctx'' spec source target where
  toSameStanding := h.toSameStanding.trans h'.toSameStanding
  held_iff other hother x := by
    rw [h'.held_iff other hother, h.held_iff other hother, or_assoc, or_self]
  tied_iff other hother x y := by
    rw [h'.tied_iff other hother, h.tied_iff other hother, or_assoc, or_self]

theorem AddsTie.sameTies (h : rules.AddsTie ctx ctx' spec source target)
    (h' : rules.AddsTie ctx ctx'' spec source target) : rules.SameTies ctx' ctx'' where
  toSameStanding := h.toSameStanding.symm.trans h'.toSameStanding
  held_iff other hother x := by rw [h.held_iff other hother, h'.held_iff other hother]
  tied_iff other hother x y := by rw [h.tied_iff other hother, h'.tied_iff other hother]

/-! ## The ties of one link -/

variable {config : Config} {s : Snapshot} {mode : Mode} {n : Nat}

theorem Ends.sameButLinks {t : Snapshot} (h : rules.Ends s spec source target)
    (hst : s.SameButLinks t) : rules.Ends t spec source target where
  mem := h.mem
  source := by
    rw [(hst.member source).name_eq]
    exact hst.designates_iff.2 h.source
  target := by
    rw [(hst.member target).name_eq]
    exact hst.designates_iff.2 h.target

section

variable {id : Nat} {l : Link}

theorem sameButLinks_insertLink (config : Config) (mode : Mode) (hlt : id < s.members.length)
    (n : Nat) (l : Link) :
    (Context.of config s mode).SameButLinks (.of config (s.insertLink id n l) mode) :=
  ⟨Snapshot.sameButLinks_insertLink hlt, rfl, rfl⟩

/-- Links on a member that is not excluded contradict no mark. -/
theorem markFaults_insertLink_iff (hlt : id < s.members.length)
    (hexcluded : (s.member id).isExcluded = false) :
    rules.markFaults (.of config (s.insertLink id n l) mode) = [] ↔
      rules.markFaults (.of config s mode) = [] := by
  have h : s.SameButLinks (s.insertLink id n l) := Snapshot.sameButLinks_insertLink hlt
  rw [markFaults_eq_nil_iff, markFaults_eq_nil_iff, Context.snapshot_of, Context.snapshot_of,
    h.length_eq]
  refine forall₂_congr fun i _ => ?_
  rw [(h.member i).kind_eq, (h.member i).isExcluded_eq, (h.member i).isIncluded_eq]
  refine imp_congr_right fun _ => imp_congr_right fun hi => and_congr_right fun _ => ?_
  have hne : id ≠ i := by
    rintro rfl
    rw [hexcluded] at hi
    cases hi
  rw [Snapshot.member_insertLink hlt, if_neg hne]

theorem reverseOutcomes_insertLink_of_ne (hblind : rules.LinkBlind) (hspec : spec ∈ rules.roles)
    (hlt : id < s.members.length) (hne : l.kind ≠ spec.reverse) :
    rules.reverseOutcomes (.of config (s.insertLink id n l) mode) spec =
      rules.reverseOutcomes (.of config s mode) spec := by
  have h := sameButLinks_insertLink config mode hlt n l
  apply reverseOutcomes_eq h.sameNames.toSnapshot
  intro i _
  have hlinks : ((s.insertLink id n l).member i).linksOf spec.reverse =
      (s.member i).linksOf spec.reverse := Snapshot.linksOf_insertLink_of_ne hlt hne
  rw [Context.snapshot_of, Context.snapshot_of, hlinks]
  exact List.map_congr_left fun l' _ => reverseLink_eq hblind h hspec i l'

end

namespace Ends

theorem mem_forward_iff (h : rules.Ends s spec source target) (hdirected : rules.Directed)
    {other : RoleSpec} (hother : other ∈ rules.roles) {x : Nat} {l : Link} :
    l ∈ ((s.insertLink source n (spec.forwardLink (s.member target))).member x).linksOf
        other.forward ↔
      l ∈ (s.member x).linksOf other.forward ∨
        other = spec ∧ x = source ∧ l = spec.forwardLink (s.member target) := by
  rw [Snapshot.mem_linksOf_insertLink h.source.lt]
  have hkind : (spec.forwardLink (s.member target)).kind = other.forward ↔ other = spec := by
    constructor
    · exact hdirected.forward_inj spec h.mem other hother
    · rintro rfl
      rfl
  rw [hkind, ← and_assoc, and_comm (b := other = spec)]

/-- A forward link adds its tie. -/
theorem addsTie_forwardLink (h : rules.Ends s spec source target) (hblind : rules.LinkBlind)
    (hdirected : rules.Directed) (n : Nat) :
    rules.AddsTie (.of config s mode)
      (.of config (s.insertLink source n (spec.forwardLink (s.member target))) mode)
      spec source target := by
  have hlt := h.source.lt
  have hsame : s.SameButLinks (s.insertLink source n (spec.forwardLink (s.member target))) :=
    Snapshot.sameButLinks_insertLink hlt
  have houtcomes : ∀ other ∈ rules.roles, rules.reverseOutcomes
      (.of config (s.insertLink source n (spec.forwardLink (s.member target))) mode) other =
        rules.reverseOutcomes (.of config s mode) other :=
    fun other hother => reverseOutcomes_insertLink_of_ne hblind hother hlt
      (hdirected.forward_ne_reverse spec h.mem other hother)
  have hreverse : ∀ other ∈ rules.roles, rules.reverseLinks
      (.of config (s.insertLink source n (spec.forwardLink (s.member target))) mode) other =
        rules.reverseLinks (.of config s mode) other := by
    intro other hother
    rw [reverseLinks, reverseLinks, houtcomes other hother]
  refine ⟨⟨⟨hsame, rfl, rfl⟩, ?carrier, ?marks, ?reverse, ?forward⟩, ?held, ?tied⟩
  case carrier =>
    intro other hother r _
    rw [hreverse other hother]
  case marks => exact markFaults_insertLink_iff hlt h.source.not_excluded
  case reverse =>
    intro other hother
    rw [reverseFaults, reverseFaults, houtcomes other hother]
  case forward =>
    intro other hother x
    simp only [Context.snapshot_of, h.mem_forward_iff hdirected hother, hsame.designates_iff,
      or_imp, forall_and]
    refine and_iff_left_of_imp fun _ => ?_
    rintro l ⟨rfl, -, rfl⟩
    exact ⟨target, h.target⟩
  case held =>
    intro other hother x
    unfold Held
    simp only [Context.snapshot_of, hreverse other hother, ← List.isEmpty_eq_false_iff,
      List.isEmpty_eq_false_iff_exists_mem, h.mem_forward_iff hdirected hother, exists_or]
    rw [or_right_comm]
    simp
  case tied =>
    intro other hother x y
    have htarget : other = spec ∧ x = source ∧ s.Designates other.kind (s.member target).name y ↔
        other = spec ∧ x = source ∧ y = target := by
      refine and_congr_right ?_
      rintro rfl
      exact and_congr_right fun _ => ⟨fun hy => hy.eq h.target, fun hy => hy ▸ h.target⟩
    unfold Tied
    simp only [Context.snapshot_of, hreverse other hother, hsame.designates_iff,
      h.mem_forward_iff hdirected hother, or_and_right, exists_or]
    rw [or_right_comm, ← htarget]
    simp [and_assoc, RoleSpec.forwardLink]

/-- The outcome of a reverse link that names the source. -/
theorem reverseLink_eq_ok (h : rules.Ends s spec source target) :
    rules.reverseLink (.of config s mode) spec (s.member target, target)
      (spec.reverseLink (s.member source)) = .ok ⟨⟨source, none⟩, target⟩ :=
  reverseLink_eq_ok_iff.2 ⟨rfl, source, none, ⟨h.source, .none⟩, rfl⟩

theorem mem_reverseOutcomes_iff (h : rules.Ends s spec source target) (hblind : rules.LinkBlind)
    (hdirected : rules.Directed) {other : RoleSpec} (hother : other ∈ rules.roles)
    {o : Except (List Violation) ReverseLink} :
    o ∈ rules.reverseOutcomes
        (.of config (s.insertLink target n (spec.reverseLink (s.member source))) mode) other ↔
      o ∈ rules.reverseOutcomes (.of config s mode) other ∨
        other = spec ∧ o = .ok ⟨⟨source, none⟩, target⟩ := by
  have hlt := h.target.lt
  have hsame : s.SameButLinks (s.insertLink target n (spec.reverseLink (s.member source))) :=
    Snapshot.sameButLinks_insertLink hlt
  have hlink (id : Nat) (l : Link) := reverseLink_eq hblind
    (sameButLinks_insertLink config mode hlt n (spec.reverseLink (s.member source))) hother id l
  have hkind : (spec.reverseLink (s.member source)).kind = other.reverse ↔ other = spec := by
    constructor
    · exact hdirected.reverse_inj spec h.mem other hother
    · rintro rfl
      rfl
  rw [Rules.mem_reverseOutcomes_iff, Rules.mem_reverseOutcomes_iff]
  simp only [Context.snapshot_of] at hlink ⊢
  simp only [hsame.available_iff, hlink, Snapshot.mem_linksOf_insertLink hlt, hkind, or_and_right,
    exists_or, and_or_left]
  refine or_congr_right ?_
  constructor
  · rintro ⟨id, ha, l, ⟨rfl, rfl, rfl⟩, rfl⟩
    exact ⟨rfl, h.reverseLink_eq_ok⟩
  · rintro ⟨rfl, rfl⟩
    exact ⟨target, h.target.toAvailable, _, ⟨rfl, rfl, rfl⟩, h.reverseLink_eq_ok⟩

theorem mem_reverseLinks_iff (h : rules.Ends s spec source target) (hblind : rules.LinkBlind)
    (hdirected : rules.Directed) {other : RoleSpec} (hother : other ∈ rules.roles)
    {r : ReverseLink} :
    r ∈ rules.reverseLinks
        (.of config (s.insertLink target n (spec.reverseLink (s.member source))) mode) other ↔
      r ∈ rules.reverseLinks (.of config s mode) other ∨
        other = spec ∧ r = ⟨⟨source, none⟩, target⟩ := by
  simp only [reverseLinks, List.mem_filterMap, toOption_eq_some_iff, exists_eq_right,
    h.mem_reverseOutcomes_iff hblind hdirected hother, Except.ok.injEq]

/-- A reverse link adds the tie of the forward one. -/
theorem addsTie_reverseLink (h : rules.Ends s spec source target) (hblind : rules.LinkBlind)
    (hdirected : rules.Directed) (n : Nat) :
    rules.AddsTie (.of config s mode)
      (.of config (s.insertLink target n (spec.reverseLink (s.member source))) mode)
      spec source target := by
  have hlt := h.target.lt
  have hsame : s.SameButLinks (s.insertLink target n (spec.reverseLink (s.member source))) :=
    Snapshot.sameButLinks_insertLink hlt
  have hforward : ∀ other ∈ rules.roles, ∀ x,
      ((s.insertLink target n (spec.reverseLink (s.member source))).member x).linksOf
        other.forward = (s.member x).linksOf other.forward :=
    fun other hother x => Snapshot.linksOf_insertLink_of_ne hlt
      (hdirected.forward_ne_reverse other hother spec h.mem).symm
  refine ⟨⟨⟨hsame, rfl, rfl⟩, ?carrier, ?marks, ?reverse, ?forward⟩, ?held, ?tied⟩
  case carrier =>
    intro other hother r hr
    refine (h.mem_reverseLinks_iff hblind hdirected hother).trans (or_iff_left ?_)
    rintro ⟨-, rfl⟩
    exact hr rfl
  case marks => exact markFaults_insertLink_iff hlt h.target.not_excluded
  case reverse =>
    intro other hother
    simp only [reverseFaults, List.flatMap_eq_nil_iff,
      h.mem_reverseOutcomes_iff hblind hdirected hother, or_imp, forall_and]
    refine and_iff_left_of_imp fun _ => ?_
    rintro o ⟨-, rfl⟩
    rfl
  case forward =>
    intro other hother x
    simp only [Context.snapshot_of, hforward other hother, hsame.designates_iff]
  case held =>
    intro other hother x
    have hnew : (∃ r : ReverseLink, (other = spec ∧ r = ⟨⟨source, none⟩, target⟩) ∧ r.source = x) ↔
        other = spec ∧ x = source := by
      constructor
      · rintro ⟨_, ⟨ho, rfl⟩, rfl⟩
        exact ⟨ho, rfl⟩
      · rintro ⟨ho, rfl⟩
        exact ⟨_, ⟨ho, rfl⟩, rfl⟩
    unfold Held
    simp only [Context.snapshot_of, hforward other hother,
      h.mem_reverseLinks_iff hblind hdirected hother, or_and_right, exists_or, hnew, or_assoc]
  case tied =>
    intro other hother x y
    have hnew : (∃ r : ReverseLink, (other = spec ∧ r = ⟨⟨source, none⟩, target⟩) ∧
        r.source = x ∧ r.owner = y) ↔ other = spec ∧ x = source ∧ y = target := by
      constructor
      · rintro ⟨_, ⟨ho, rfl⟩, rfl, rfl⟩
        exact ⟨ho, rfl, rfl⟩
      · rintro ⟨ho, rfl, rfl⟩
        exact ⟨_, ⟨ho, rfl⟩, rfl, rfl⟩
    unfold Tied
    simp only [Context.snapshot_of, hforward other hother, hsame.designates_iff,
      h.mem_reverseLinks_iff hblind hdirected hother, or_and_right, exists_or, hnew, or_assoc]

end Ends

end Rules

theorem BindingKind.directed_rules (kind : BindingKind) : kind.rules.Directed := by
  cases kind with
  | property | dependency => exact .of_singleton rfl nofun
  | command =>
    have hroles : command.rules.roles =
        [Command.canExecuteSpec, Command.propertySpec, Command.fieldSpec] := rfl
    constructor
    · simp [hroles, Command.canExecuteSpec, Command.propertySpec, Command.fieldSpec]
    · simp [hroles, Command.canExecuteSpec, Command.propertySpec, Command.fieldSpec]
    · simp [hroles, Command.canExecuteSpec, Command.propertySpec, Command.fieldSpec]

/-- A reverse link can take the place of a forward link between the same members, or stand beside
it. -/
theorem BindingKind.placements_redirect (kind : BindingKind) (config : Config) (mode : Mode)
    {s : Snapshot} {spec : RoleSpec} {source target n : Nat}
    (hends : kind.rules.Ends s spec source target)
    (hlink : (s.member source).marks[n]? = some (.link (spec.forwardLink (s.member target))))
    (i j : Nat) :
    SamePlacements (kind.placements config s mode)
        (kind.placements config ((s.eraseMark source n).insertLink target i
          (spec.reverseLink (s.member source))) mode) ∧
      SamePlacements (kind.placements config s mode)
        (kind.placements config (s.insertLink target j (spec.reverseLink (s.member source)))
          mode) := by
  have hblind := kind.linkBlind_rules
  have hdirected := kind.directed_rules
  -- All three are the snapshot without the link and one or two of the links that add the tie.
  have hsame : (s.eraseMark source n).SameButLinks s :=
    Snapshot.sameButLinks_eraseMark hends.source.lt hlink
  have hforward : spec.forwardLink ((s.eraseMark source n).member target) =
      spec.forwardLink (s.member target) := by
    rw [RoleSpec.forwardLink, RoleSpec.forwardLink, (hsame.member target).name_eq]
  have hreverse : spec.reverseLink ((s.eraseMark source n).member source) =
      spec.reverseLink (s.member source) := by
    rw [RoleSpec.reverseLink, RoleSpec.reverseLink, (hsame.member source).name_eq]
  have herased := hends.sameButLinks hsame.symm
  have hforwardTie : kind.rules.AddsTie (.of config (s.eraseMark source n) mode)
      (.of config s mode) spec source target := by
    have h : kind.rules.AddsTie (.of config (s.eraseMark source n) mode)
        (.of config ((s.eraseMark source n).insertLink source n
          (spec.forwardLink ((s.eraseMark source n).member target))) mode) spec source target :=
      herased.addsTie_forwardLink hblind hdirected n
    rwa [hforward, Snapshot.insertLink_eraseMark hends.source.lt hlink] at h
  have hreverseTie : kind.rules.AddsTie (.of config (s.eraseMark source n) mode)
      (.of config ((s.eraseMark source n).insertLink target i
        (spec.reverseLink (s.member source))) mode) spec source target := by
    rw [← hreverse]
    exact herased.addsTie_reverseLink hblind hdirected i
  have hboth := hforwardTie.trans (hends.addsTie_reverseLink hblind hdirected j)
  exact ⟨(hforwardTie.sameTies hreverseTie).samePlacements,
    (hforwardTie.sameTies hboth).samePlacements⟩

/-- A property linked to a field that its name would not give it. -/
def linkedTitle : Snapshot where
  name := "Document"
  members := [(Member.property "Title" "System.String").withLink ⟨.field, "caption", none⟩,
    .field "caption" "System.String"]

theorem BindingKind.placements_redirect_linkedTitle :
    SamePlacements (.ok [⟨0, [some 1]⟩])
        (property.placements {} ((linkedTitle.eraseMark 0 0).insertLink 1 0
          ⟨.property, "Title", none⟩) .all) ∧
      SamePlacements (.ok [⟨0, [some 1]⟩])
        (property.placements {} (linkedTitle.insertLink 1 0 ⟨.property, "Title", none⟩) .all) := by
  have hplacements : property.placements {} linkedTitle .all = .ok [⟨0, [some 1]⟩] := rfl
  have hsource : (Context.of {} linkedTitle .all).target .property "Title" = .ok 0 := rfl
  have htarget : (Context.of {} linkedTitle .all).target .field "caption" = .ok 1 := rfl
  have hends : property.rules.Ends linkedTitle Property.profile.fieldSpec 0 1 :=
    ⟨List.mem_singleton_self _, Context.target_eq_ok_iff.1 hsource,
      Context.target_eq_ok_iff.1 htarget⟩
  have h := placements_redirect property {} .all hends rfl 0 0 (n := 0)
  rwa [hplacements] at h

end MemberBinding
