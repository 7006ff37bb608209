import MemberBinding.CommandLine.Outcome
import MemberBinding.Proofs.Command.Soundness
import MemberBinding.Proofs.CommandLine.Lines
import MemberBinding.Proofs.FieldBinding.Exact

/-!
# What a resolve command reports

The command adds nothing to a resolution and hides nothing of it: its outcome, its exit code and the
text it prints say what was bound, or why nothing was. Main statement: `resolve_reported`.
-/

namespace MemberBinding

theorem Content.text_toUTF8 (text : String) : Content.text (some text.toUTF8) = .ok text := by
  have h : String.fromUTF8? text.toUTF8 = some text := dif_pos text.isValidUTF8
  simp only [Content.text, h]

namespace ResolveRequest

variable (r : ResolveRequest) (content : Content) (text : String)

/-- The resolution that the command stands for. -/
def resolved (s : Snapshot) : Except Failure Bindings :=
  Bindings.resolve r.kind { options := r.options } s r.mode

/-- The three outcomes of a command that reads `text`. -/
structure Decided : Prop where
  failed_iff : (∃ fault, r.run content = .error fault) ↔
    ∀ s, Snapshot.decode.ofText text ≠ .ok s
  rejected_iff : ∀ out, r.run content = .ok (.rejected out) ↔
    ∃ s, Snapshot.decode.ofText text = .ok s ∧
      ∃ failure, r.resolved s = .error failure ∧ out = failure.message
  success_iff : ∀ out, r.run content = .ok (.success out) ↔
    ∃ s, Snapshot.decode.ofText text = .ok s ∧
      ∃ bs, r.resolved s = .ok bs ∧ out = bs.render r.json

/-- The exit code and the streams of each outcome. -/
structure Ends : Prop where
  failed : (∃ fault, r.run content = .error fault) →
    ((Invocation.resolve r).run content).exitCode = 2 ∧
      ((Invocation.resolve r).run content).stdout = ""
  rejected : ∀ out, r.run content = .ok (.rejected out) →
    ((Invocation.resolve r).run content).exitCode = 1 ∧
      ((Invocation.resolve r).run content).stdout = "" ∧
      ((Invocation.resolve r).run content).stderr = out ++ "\n"
  success : ∀ out, r.run content = .ok (.success out) →
    ((Invocation.resolve r).run content).exitCode = 0 ∧
      ((Invocation.resolve r).run content).stdout = (if out.isEmpty then "" else out ++ "\n") ∧
      ((Invocation.resolve r).run content).stderr = ""

/-- The text of a success shows the bindings, line by line or as values. -/
structure Shown (s : Snapshot) (bs : Bindings) (out : String) : Prop where
  members : ∀ roles ∈ bs.roles, ∀ role m, (role, some m) ∈ roles → m ∈ s.members
  lines : r.json = false → ∃ lines, out = "\n".intercalate lines ∧
    List.Forall₂ r.kind.Prints bs.roles lines ∧
    (bs.roles ≠ [] → (∀ roles ∈ bs.roles, OneLined roles) →
      out.toList.splitOn '\n' = lines.map String.toList)
  values : r.json = true → ∃ items, Json.ofText? out = some (.array items) ∧
    List.Forall₂ (fun roles j => j.Shows roles) bs.roles items

variable {r content text}

theorem run_eq (h : content.text = .ok text) : r.run content =
    ((Snapshot.decode.ofText text).mapError (LoadFault.unparsable r.snapshot)).map r.outcome := by
  rw [run, Snapshot.load, h]
  rfl

theorem outcome_eq (r : ResolveRequest) (s : Snapshot) : r.outcome s =
    match r.resolved s with
    | .ok bs => .success (bs.render r.json)
    | .error failure => .rejected failure.message := rfl

theorem outcome_eq_rejected_iff {s : Snapshot} {out : String} : r.outcome s = .rejected out ↔
    ∃ failure, r.resolved s = .error failure ∧ out = failure.message := by
  rw [outcome_eq]
  cases r.resolved s with
  | ok bs => simp
  | error failure => simp [eq_comm]

theorem outcome_eq_success_iff {s : Snapshot} {out : String} :
    r.outcome s = .success out ↔ ∃ bs, r.resolved s = .ok bs ∧ out = bs.render r.json := by
  rw [outcome_eq]
  cases r.resolved s with
  | ok bs => simp [eq_comm]
  | error failure => simp

theorem run_eq_ok_iff (h : content.text = .ok text) {outcome : Outcome} :
    r.run content = .ok outcome ↔
      ∃ s, Snapshot.decode.ofText text = .ok s ∧ r.outcome s = outcome := by
  rw [run_eq h, map_eq_ok_iff]
  cases Snapshot.decode.ofText text with
  | ok s => simp [Except.mapError]
  | error e => simp [Except.mapError]

theorem decided (h : content.text = .ok text) : r.Decided content text where
  failed_iff := by
    rw [run_eq h]
    cases Snapshot.decode.ofText text with
    | ok s => simp [Except.mapError, Except.map]
    | error e => simp [Except.mapError, Except.map]
  rejected_iff out := by simp only [run_eq_ok_iff h, outcome_eq_rejected_iff]
  success_iff out := by simp only [run_eq_ok_iff h, outcome_eq_success_iff]

theorem ends (r : ResolveRequest) (content : Content) : r.Ends content where
  failed h := by
    obtain ⟨fault, h⟩ := h
    simp only [Invocation.run, h]
    exact ⟨rfl, rfl⟩
  rejected out h := by
    simp only [Invocation.run, h]
    exact ⟨rfl, rfl, rfl⟩
  success out h := by
    simp only [Invocation.run, h]
    exact ⟨rfl, rfl, rfl⟩

end ResolveRequest

/-! ## What is shown -/

theorem FieldBinding.Profile.mem_members_of_resolve {profile : Profile} {law : Law}
    {config : Config} {s : Snapshot} {mode : Mode} (hlaw : profile.Obeys law)
    {bs : List (FieldBinding Member)} (h : profile.resolve config s mode = .ok bs)
    {b : FieldBinding Member} (hb : b ∈ bs) {role : String} {m : Member}
    (hm : (role, some m) ∈ b.roles) : m ∈ s.members := by
  obtain ⟨ps, hps, rfl⟩ := map_eq_ok_iff.1 h
  obtain ⟨p, hp, rfl⟩ := List.mem_map.1 hb
  have houtcome := outcome_of_positions_eq_ok hlaw hps
  simp only [roles, FieldBinding.map, List.mem_cons, List.not_mem_nil, or_false, Prod.mk.injEq,
    Option.some.injEq] at hm
  rcases hm with ⟨-, rfl⟩ | ⟨-, hfield⟩
  · exact (houtcome.selected hp).1.offers.mem
  · obtain ⟨f, hf, rfl⟩ := Option.map_eq_some_iff.1 hfield.symm
    exact (FieldCandidate.available ((houtcome.field_iff p hp f).1 hf)).offers.mem

theorem Command.mem_members_of_resolve {config : Config} {s : Snapshot} {mode : Mode}
    {bs : List (CommandBinding Member)} (h : Command.resolve config s mode = .ok bs)
    {b : CommandBinding Member} (hb : b ∈ bs) {role : String} {m : Member}
    (hm : (role, some m) ∈ b.roles) : m ∈ s.members := by
  obtain ⟨ps, hps, rfl⟩ := map_eq_ok_iff.1 h
  obtain ⟨p, hp, rfl⟩ := List.mem_map.1 hb
  have hsound := (justified_of_mem hps hp).sound
  simp only [CommandBinding.roles, List.mem_cons, List.not_mem_nil, or_false, Prod.mk.injEq,
    Option.some.injEq] at hm
  rcases hm with ⟨-, rfl⟩ | ⟨-, hc⟩ | ⟨-, hproperty⟩ | ⟨-, hfield⟩
  · exact hsound.execute.mem
  · exact (hsound.canExecute m hc.symm).mem
  · exact (hsound.property m hproperty.symm).1.mem
  · exact (hsound.field m hfield.symm).1.mem

/-- The roles of bindings are filled by members of the snapshot. -/
theorem Bindings.mem_members_of_resolve {kind : BindingKind} {config : Config} {s : Snapshot}
    {mode : Mode} {bs : Bindings} (h : Bindings.resolve kind config s mode = .ok bs)
    {roles : List (String × Option Member)} (hroles : roles ∈ bs.roles) {role : String} {m : Member}
    (hm : (role, some m) ∈ roles) : m ∈ s.members := by
  cases kind with
  | property =>
    obtain ⟨bs, hbs, rfl⟩ := map_eq_ok_iff.1 h
    obtain ⟨b, hb, rfl⟩ := List.mem_map.1 hroles
    exact FieldBinding.Profile.mem_members_of_resolve FieldBinding.Profile.obeys_ofProperty hbs hb
      hm
  | dependency =>
    obtain ⟨bs, hbs, rfl⟩ := map_eq_ok_iff.1 h
    obtain ⟨b, hb, rfl⟩ := List.mem_map.1 hroles
    exact FieldBinding.Profile.mem_members_of_resolve FieldBinding.Profile.obeys_ofDependency hbs hb
      hm
  | command =>
    obtain ⟨bs, hbs, rfl⟩ := map_eq_ok_iff.1 h
    obtain ⟨b, hb, rfl⟩ := List.mem_map.1 hroles
    exact Command.mem_members_of_resolve hbs hb hm

theorem Bindings.kind_of_resolve {kind : BindingKind} {config : Config} {s : Snapshot}
    {mode : Mode} {bs : Bindings} (h : Bindings.resolve kind config s mode = .ok bs) :
    bs.kind = kind := by
  cases kind with
  | property | dependency | command =>
    obtain ⟨bs, -, rfl⟩ := map_eq_ok_iff.1 h
    rfl

namespace ResolveRequest

theorem shown {r : ResolveRequest} {s : Snapshot} {bs : Bindings} (h : r.resolved s = .ok bs) :
    r.Shown s bs (bs.render r.json) where
  members _ hroles _ _ hm := Bindings.mem_members_of_resolve h hroles hm
  lines hjson := by
    have hlines : List.Forall₂ r.kind.Prints bs.roles bs.lines :=
      Bindings.kind_of_resolve h ▸ bs.forall₂_lines
    rw [hjson]
    exact ⟨bs.lines, rfl, hlines, BindingKind.splitOn_intercalate hlines⟩
  values hjson := by
    rw [hjson]
    exact bs.exists_ofText?_prettyText

/-- A command fails when its text is no snapshot, is rejected with the message of the resolution
that it stands for, and otherwise shows the bindings of that resolution. The exit code and the
streams tell the three apart. -/
theorem resolve_reported (r : ResolveRequest) {content : Content} {text : String}
    (h : content.text = .ok text) :
    r.Decided content text ∧ r.Ends content ∧
    ∀ s, Snapshot.decode.ofText text = .ok s → ∀ bs, r.resolved s = .ok bs →
      r.run content = .ok (.success (bs.render r.json)) ∧ r.Shown s bs (bs.render r.json) := by
  refine ⟨decided h, r.ends content, ?_⟩
  intro s hs bs hbs
  exact ⟨((decided h).success_iff _).2 ⟨s, hs, bs, hbs, rfl⟩, shown hbs⟩

/-- A property with its field, and one that has none. -/
def titledDocument : Snapshot where
  name := "Document"
  members := [.property "Title" "System.String", .field "title" "System.String",
    .property "Size" "System.Int32"]

theorem resolve_reported_titledDocument :
    let text := titledDocument.toJson.compactText
    let content : Content := some text.toUTF8
    let bs : Bindings := .property [
      ⟨.property "Title" "System.String", some (.field "title" "System.String")⟩,
      ⟨.property "Size" "System.Int32", none⟩]
    let inLines : ResolveRequest := { snapshot := "document.json" }
    let inJson : ResolveRequest := { snapshot := "document.json", json := true }
    content.text = .ok text ∧ Snapshot.decode.ofText text = .ok titledDocument ∧
    (inLines.resolved titledDocument = .ok bs ∧ inLines.Decided content text ∧
      inLines.Ends content ∧
      inLines.run content = .ok (.success "Title -> field: title\nSize -> field: -") ∧
      inLines.Shown titledDocument bs "Title -> field: title\nSize -> field: -") ∧
    (inJson.resolved titledDocument = .ok bs ∧ inJson.Decided content text ∧
      inJson.Ends content ∧ inJson.run content = .ok (.success (bs.render true)) ∧
      inJson.Shown titledDocument bs (bs.render true)) := by
  intro text content bs inLines inJson
  have htext : content.text = .ok text := Content.text_toUTF8 text
  have hdecode : Snapshot.decode.ofText text = .ok titledDocument :=
    Decoder.ofText_compactText (titledDocument.accepts_toJson.mono (by decide))
      titledDocument.numberless_toJson
  have hpositions : Property.positions {} titledDocument .all = .ok [⟨0, some 1⟩, ⟨2, none⟩] := rfl
  have hresolved : Bindings.resolve .property {} titledDocument .all = .ok bs :=
    congrArg (fun outcome => (outcome.map (·.map (·.map titledDocument.member))).map
      Bindings.property) hpositions
  refine ⟨htext, hdecode, ?_, ?_⟩
  · obtain ⟨hdecided, hends, hsuccess⟩ := resolve_reported inLines htext
    obtain ⟨hrun, hshown⟩ := hsuccess titledDocument hdecode bs hresolved
    exact ⟨hresolved, hdecided, hends, hrun, hshown⟩
  · obtain ⟨hdecided, hends, hsuccess⟩ := resolve_reported inJson htext
    obtain ⟨hrun, hshown⟩ := hsuccess titledDocument hdecode bs hresolved
    exact ⟨hresolved, hdecided, hends, hrun, hshown⟩

end ResolveRequest
end MemberBinding
