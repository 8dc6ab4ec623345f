import PortableRuntime.Observation.Bridge

/-!
# What the two adapters have in common

Of all that the adapters project, two coordinates can be compared: that a referent has a trace, and
whether an assertion is currently qualified.
-/

namespace PortableRuntime

structure BundleCase where
  runtime : RuntimeObservationBundle0
  formal : FormalObservationBundle0
  runtimeToFormalIds : Dict String String

namespace BundleCase

def snapshots (c : BundleCase) : O0ComparisonCase where
  runtime := alphaR0 c.runtime
  formal := alphaF0 c.formal
  runtimeToFormalIds := c.runtimeToFormalIds

/-- The ids that a runtime bundle has a trace of. -/
def traced (c : BundleCase) : List String :=
  c.runtime.records.map BaseRecord.id ++ c.runtime.authorizationGrants.map AuthorizationGrant.id ++
    c.runtime.authorizationUses.map AuthorizationUse.id

/-- An id that is mapped to a subject the formal side has a trace of. -/
def TracePartner (c : BundleCase) (id : String) : Prop :=
  ∃ t ∈ c.formal.historicalTraces, c.runtimeToFormalIds.get? id = some t.subjectRef

/-- An assertion mapped to a warrant whose usability is what the assertion's status says. -/
def StatusPartner (c : BundleCase) (r : BaseRecord) : Prop :=
  r.cls = .assertion ∧ ∃ s ∈ c.formal.operativeStatuses, s.layer = "warrant.usable" ∧
    r.epistemicStatus.bind runtimeAssertionBridgeValue = some s.status ∧
      c.runtimeToFormalIds.get? r.id = some s.subjectRef

instance (c : BundleCase) : DecidablePred c.TracePartner := fun id =>
  inferInstanceAs (Decidable (∃ t ∈ c.formal.historicalTraces,
    c.runtimeToFormalIds.get? id = some t.subjectRef))

instance (c : BundleCase) : DecidablePred c.StatusPartner := fun r =>
  inferInstanceAs (Decidable (r.cls = .assertion ∧ ∃ s ∈ c.formal.operativeStatuses,
    s.layer = "warrant.usable" ∧
      r.epistemicStatus.bind runtimeAssertionBridgeValue = some s.status ∧
        c.runtimeToFormalIds.get? r.id = some s.subjectRef))

end BundleCase

namespace Discovery

/-- The coordinate of a trace, and the one of a qualification. -/
def traceCoordinate : ObservationFamily × String := (.historicalTrace, "trace.referent-present")

def statusCoordinate : ObservationFamily × String := (.operativeStatus, "qualification.current")

theorem bridged_traceObservation (id tag : String) (sourceRefs : List String)
    (coordinates : List (String × String)) :
    (traceObservation id tag sourceRefs coordinates).bridged =
      some ("trace.referent-present", "present") := rfl

/-- What the formal side says of a status that can be compared. -/
theorem bridged_observeStatus (s : FormalOperativeStatusInput) :
    (observeStatus s).bridged =
      if s.layer = "warrant.usable" ∧ ["qualified", "withdrawn"].contains s.status = true then
        some ("qualification.current", s.status) else none := by
  unfold observeStatus
  by_cases hlayer : s.layer = "warrant.usable"
  · cases hstatus : ["qualified", "withdrawn"].contains s.status with
    | true => simp [O0Observation.bridged, FormalInput.observed, hlayer]
    | false => simp [O0Observation.bridged, hlayer]
  · simp [O0Observation.bridged, hlayer]

/-- The formal observations that can be compared are traces and usable warrants. -/
theorem bridged_of_mem_alphaF0 {bundle : FormalObservationBundle0} {f : O0Observation}
    (hf : f ∈ (alphaF0 bundle).observations) {kv : String × String}
    (hbridged : f.bridged = some kv) :
    (f.family = .historicalTrace ∧ kv = ("trace.referent-present", "present") ∧
        ∃ t ∈ bundle.historicalTraces, f.subjectRef = t.subjectRef) ∨
      (f.family = .operativeStatus ∧ ∃ s ∈ bundle.operativeStatuses, s.layer = "warrant.usable" ∧
        kv = ("qualification.current", s.status) ∧ f.subjectRef = s.subjectRef) := by
  simp only [alphaF0, List.mem_append, List.mem_map] at hf
  rcases hf with (((((((⟨t, ht, rfl⟩ | ⟨x, -, rfl⟩) | ⟨s, hs, rfl⟩) | ⟨x, -, rfl⟩) |
    ⟨x, -, rfl⟩) | ⟨x, -, rfl⟩) | ⟨x, -, rfl⟩) | ⟨x, -, rfl⟩) | ⟨x, -, rfl⟩
  · exact Or.inl ⟨rfl, (Option.some.inj hbridged).symm, t, ht, rfl⟩
  · cases hbridged
  · rw [bridged_observeStatus] at hbridged
    split at hbridged
    · rename_i hcompared
      exact Or.inr ⟨rfl, s, hs, hcompared.1, (Option.some.inj hbridged).symm, rfl⟩
    · cases hbridged
  · cases hbridged
  · cases hbridged
  · cases hbridged
  · cases hbridged
  · cases hbridged
  · cases hbridged

theorem mem_alphaF0_trace {bundle : FormalObservationBundle0} {t : FormalHistoricalTraceInput}
    (ht : t ∈ bundle.historicalTraces) :
    ∃ f ∈ (alphaF0 bundle).observations, f.family = .historicalTrace ∧
      f.bridged = some ("trace.referent-present", "present") ∧ f.subjectRef = t.subjectRef := by
  refine ⟨{ t.observed .historicalTrace ("formal.trace." ++ t.traceKind) .abstraction [] with
    bridgeKey := some "trace.referent-present", bridgeValue := some "present" }, ?_, rfl, rfl, rfl⟩
  simp only [alphaF0, List.append_assoc]
  exact List.mem_append_left _ (List.mem_map.mpr ⟨t, ht, rfl⟩)

theorem mem_alphaF0_status {bundle : FormalObservationBundle0} {s : FormalOperativeStatusInput}
    (hs : s ∈ bundle.operativeStatuses) : observeStatus s ∈ (alphaF0 bundle).observations := by
  simp only [alphaF0, List.append_assoc]
  exact List.mem_append_right _ (List.mem_append_right _
    (List.mem_append_left _ (List.mem_map.mpr ⟨s, hs, rfl⟩)))

/-! ## The partners of a runtime observation -/

variable {c : BundleCase} {coordinate : ObservationFamily × String}

theorem not_partnered_of_no_key {o : O0Observation} (h : o.bridgeKey = none) :
    ¬ c.snapshots.Partnered coordinate o := by
  rintro ⟨-, hkey, -⟩
  rw [h] at hkey
  cases hkey

theorem partnered_trace_iff (id tag : String) (sourceRefs : List String)
    (coordinates : List (String × String)) :
    c.snapshots.Partnered coordinate (traceObservation id tag sourceRefs coordinates) ↔
      coordinate = traceCoordinate ∧ c.TracePartner id := by
  constructor
  · rintro ⟨hfamily, hkey, f, hf, -, hbridged, hfamily', hid⟩
    refine ⟨Prod.ext hfamily.symm (Option.some.inj hkey).symm, ?_⟩
    rw [bridged_traceObservation] at hbridged
    rcases bridged_of_mem_alphaF0 hf hbridged with ⟨-, -, t, ht, hsubject⟩ | ⟨hstatus, -⟩
    · exact ⟨t, ht, hid.trans (congrArg some hsubject)⟩
    · rw [hfamily'] at hstatus
      cases hstatus
  · rintro ⟨rfl, t, ht, hid⟩
    obtain ⟨f, hf, hfamily, hbridged, hsubject⟩ := mem_alphaF0_trace ht
    exact ⟨rfl, rfl, f, hf, rfl, hbridged, hfamily, hid.trans (congrArg some hsubject.symm)⟩

/-- What the runtime says of the status of an assertion. -/
def statusObservation (r : BaseRecord) (status : EpistemicStatus) : O0Observation :=
  { origin := .runtime, family := .operativeStatus, subjectRef := r.id,
    semanticsTag := "runtime.assertion-epistemic-status", quality := .abstraction,
    bridgeKey := if (runtimeAssertionBridgeValue status).isSome then some "qualification.current"
      else none,
    bridgeValue := runtimeAssertionBridgeValue status, sourceRefs := [r.id],
    coordinates := .ofPairs [("layer", "assertion.epistemic_status"), ("status", status.text)] }

theorem bridged_statusObservation (r : BaseRecord) (status : EpistemicStatus) :
    (statusObservation r status).bridged =
      (runtimeAssertionBridgeValue status).map (fun value => ("qualification.current", value)) := by
  unfold O0Observation.bridged statusObservation
  cases runtimeAssertionBridgeValue status with
  | none => rfl
  | some value => rfl

theorem runtimeAssertionBridgeValue_mem {status : EpistemicStatus} {value : String}
    (h : runtimeAssertionBridgeValue status = some value) :
    ["qualified", "withdrawn"].contains value = true := by
  cases status <;> cases h <;> decide

theorem partnered_status_iff {r : BaseRecord} {status : EpistemicStatus}
    (hcls : r.cls = .assertion) (hstatus : r.epistemicStatus = some status) :
    c.snapshots.Partnered coordinate (statusObservation r status) ↔
      coordinate = statusCoordinate ∧ c.StatusPartner r := by
  constructor
  · rintro ⟨hfamily, hkey, f, hf, hsome, hbridged, hfamily', hid⟩
    rw [bridged_statusObservation] at hsome hbridged
    cases hvalue : runtimeAssertionBridgeValue status with
    | none =>
      rw [hvalue] at hsome
      cases hsome
    | some value =>
      rw [hvalue, Option.map_some] at hbridged
      have hkey' : some "qualification.current" = some coordinate.2 := by
        rw [← hkey]
        simp [statusObservation, hvalue]
      refine ⟨Prod.ext hfamily.symm (Option.some.inj hkey').symm, hcls, ?_⟩
      rcases bridged_of_mem_alphaF0 hf hbridged with ⟨htrace, -⟩ | ⟨-, s, hs, hlayer, hkv, hsubject⟩
      · rw [hfamily'] at htrace
        cases htrace
      · refine ⟨s, hs, hlayer, ?_, hid.trans (congrArg some hsubject)⟩
        rw [hstatus, Option.bind_some, hvalue, (Prod.mk.inj hkv).2]
  · rintro ⟨rfl, -, s, hs, hlayer, hvalue, hid⟩
    rw [hstatus, Option.bind_some] at hvalue
    have hkey : (statusObservation r status).bridgeKey = some "qualification.current" := by
      simp [statusObservation, hvalue]
    have hbridged : (statusObservation r status).bridged =
        some ("qualification.current", s.status) := by
      rw [bridged_statusObservation, hvalue, Option.map_some]
    refine ⟨rfl, hkey, observeStatus s, mem_alphaF0_status hs, ?_, ?_, rfl, hid⟩
    · rw [hbridged]
      rfl
    · rw [hbridged, bridged_observeStatus, if_pos ⟨hlayer, runtimeAssertionBridgeValue_mem hvalue⟩]

/-! ## Counting -/

/-- A list of lists, each with as many as its source counts for. -/
theorem countP_flatMap_eq {α β : Type} {p : β → Bool} {f : α → List β} {n : α → Nat} {l : List α}
    (h : ∀ a ∈ l, (f a).countP p = n a) : (l.flatMap f).countP p = (l.map n).sum := by
  rw [List.countP_flatMap]
  exact congrArg List.sum (List.map_congr_left h)

theorem sum_indicator {α : Type} (p : α → Prop) [DecidablePred p] (l : List α) :
    (l.map (fun a => if p a then 1 else 0)).sum = l.countP (fun a => p a) := by
  induction l with
  | nil => rfl
  | cons a rest ih =>
    rw [List.map_cons, List.sum_cons, ih]
    by_cases ha : p a
    · rw [if_pos ha, List.countP_cons_of_pos (by simpa using ha)]
      omega
    · rw [if_neg ha, List.countP_cons_of_neg (by simpa using ha)]
      omega

/-- A condition that does not depend on the counted values. -/
theorem countP_and_const {α : Type} (P : Prop) [Decidable P] (q : α → Prop) [DecidablePred q]
    (l : List α) : l.countP (fun a => P ∧ q a) = if P then l.countP (fun a => q a) else 0 := by
  by_cases hP : P
  · simp [hP]
  · simp [hP]

theorem sum_ite_const {α : Type} (P : Prop) [Decidable P] (n : α → Nat) (l : List α) :
    (l.map (fun a => if P then n a else 0)).sum = if P then (l.map n).sum else 0 := by
  by_cases hP : P
  · simp [hP]
  · simp [hP]

variable (c : BundleCase) (coordinate : ObservationFamily × String)

/-- How many of some observations have a partner on a coordinate. -/
def partnered (observations : List O0Observation) : Nat :=
  observations.countP (fun o => c.snapshots.Partnered coordinate o)

theorem partnered_append (l l' : List O0Observation) :
    partnered c coordinate (l ++ l') = partnered c coordinate l + partnered c coordinate l' :=
  List.countP_append

theorem partnered_of_no_key {l : List O0Observation} (h : ∀ o ∈ l, o.bridgeKey = none) :
    partnered c coordinate l = 0 := by
  rw [partnered, List.countP_eq_zero]
  intro o ho
  simpa using not_partnered_of_no_key (h o ho)

theorem partnered_cons_trace (id tag : String) (sourceRefs : List String)
    (coordinates : List (String × String)) (l : List O0Observation) :
    partnered c coordinate (traceObservation id tag sourceRefs coordinates :: l) =
      (if coordinate = traceCoordinate ∧ c.TracePartner id then 1 else 0) +
        partnered c coordinate l := by
  rw [partnered, List.countP_cons, Nat.add_comm, partnered]
  congr 1
  simp only [decide_eq_true_eq, partnered_trace_iff]

theorem partnered_record (r : BaseRecord) :
    partnered c coordinate (observeRecord r) =
      (if coordinate = traceCoordinate ∧ c.TracePartner r.id then 1 else 0) +
        if coordinate = statusCoordinate ∧ c.StatusPartner r then 1 else 0 := by
  rw [observeRecord, partnered_append, partnered_append, partnered_append, partnered_cons_trace]
  have hversions : partnered c coordinate (r.environmentVersions.map (fun e =>
      ({ origin := .runtime, family := .regimeReference, subjectRef := r.id,
         semanticsTag := "runtime.environment-version", quality := .abstraction,
         sourceRefs := [r.id], coordinates := .ofPairs [("name", e.1), ("version", e.2)] } :
        O0Observation))) = 0 := by
    apply partnered_of_no_key
    intro o ho
    obtain ⟨e, -, rfl⟩ := List.mem_map.mp ho
    rfl
  have hrevision : ∀ {P : Prop} [Decidable P] {o : O0Observation}, o.bridgeKey = none →
      partnered c coordinate (if P then [o] else []) = 0 := by
    intro P _ o ho
    split
    · exact partnered_of_no_key c coordinate (fun o' ho' => List.mem_singleton.mp ho' ▸ ho)
    · rfl
  rw [hversions, hrevision rfl]
  show _ + 0 + partnered c coordinate _ + 0 + 0 = _
  simp only [Nat.add_zero]
  congr 1
  by_cases hcls : r.cls = .assertion
  · rw [if_pos hcls]
    cases hstatus : r.epistemicStatus with
    | none =>
      have hnone : ¬ c.StatusPartner r := by
        rintro ⟨-, s, -, -, hvalue, -⟩
        rw [hstatus] at hvalue
        cases hvalue
      rw [if_neg (fun h => hnone h.2)]
      rfl
    | some status =>
      show partnered c coordinate [statusObservation r status] = _
      rw [partnered, List.countP_singleton]
      simp only [decide_eq_true_eq, partnered_status_iff hcls hstatus]
  · rw [if_neg hcls, if_neg (fun h => hcls h.2.1)]
    rfl

theorem partnered_grant (observedAt : Time) (g : AuthorizationGrant) :
    partnered c coordinate (observeGrant observedAt g) =
      if coordinate = traceCoordinate ∧ c.TracePartner g.id then 1 else 0 := by
  rw [observeGrant, partnered_cons_trace, partnered_of_no_key, Nat.add_zero]
  intro o ho
  rw [List.mem_singleton.mp ho]

theorem partnered_use (u : AuthorizationUse) :
    partnered c coordinate (observeUse u) =
      if coordinate = traceCoordinate ∧ c.TracePartner u.id then 1 else 0 := by
  rw [observeUse, partnered_cons_trace, partnered_of_no_key, Nat.add_zero]
  intro o ho
  rw [List.mem_singleton.mp ho]

theorem bridgeKey_of_mem_observeAssessment {assessment : AffectedAssessment} {o : O0Observation}
    (h : o ∈ observeAssessment assessment) : o.bridgeKey = none := by
  unfold observeAssessment at h
  split at h
  · cases h
  · rcases List.mem_append.mp h with h | h
    · exact List.mem_singleton.mp h ▸ rfl
    · split at h
      · exact List.mem_singleton.mp h ▸ rfl
      · cases h

theorem bridgeKey_of_mem_observeReopen {reopen : ReasonedReopen} {o : O0Observation}
    (h : o ∈ observeReopen reopen) : o.bridgeKey = none := by
  unfold observeReopen at h
  rcases List.mem_cons.mp h with rfl | h
  · rfl
  · exact List.mem_singleton.mp h ▸ rfl

/-- What a bundle's observations count for, on any coordinate. -/
theorem partnered_alphaR0 :
    partnered c coordinate (alphaR0 c.runtime).observations =
      c.traced.countP (fun id => coordinate = traceCoordinate ∧ c.TracePartner id) +
        c.runtime.records.countP (fun r => coordinate = statusCoordinate ∧ c.StatusPartner r) := by
  have hrecords : partnered c coordinate (c.runtime.records.flatMap observeRecord) =
      (c.runtime.records.map BaseRecord.id).countP
          (fun id => coordinate = traceCoordinate ∧ c.TracePartner id) +
        c.runtime.records.countP (fun r => coordinate = statusCoordinate ∧ c.StatusPartner r) := by
    rw [partnered, countP_flatMap_eq (fun r _ => partnered_record c coordinate r),
      List.sum_map_add, sum_indicator, sum_indicator, List.countP_map]
    rfl
  have hgrants : partnered c coordinate
      (c.runtime.authorizationGrants.flatMap (observeGrant c.runtime.observedAt)) =
      (c.runtime.authorizationGrants.map AuthorizationGrant.id).countP
        (fun id => coordinate = traceCoordinate ∧ c.TracePartner id) := by
    rw [partnered, countP_flatMap_eq (fun g _ => partnered_grant c coordinate c.runtime.observedAt g), sum_indicator,
      List.countP_map]
    rfl
  have huses : partnered c coordinate (c.runtime.authorizationUses.flatMap observeUse) =
      (c.runtime.authorizationUses.map AuthorizationUse.id).countP
        (fun id => coordinate = traceCoordinate ∧ c.TracePartner id) := by
    rw [partnered, countP_flatMap_eq (fun u _ => partnered_use c coordinate u), sum_indicator,
      List.countP_map]
    rfl
  have hrelations : partnered c coordinate (c.runtime.relations.map observeRelation) = 0 := by
    apply partnered_of_no_key
    intro o ho
    obtain ⟨relation, -, rfl⟩ := List.mem_map.mp ho
    rfl
  have himpacts : partnered c coordinate (c.runtime.impacts.map observeImpact) = 0 := by
    apply partnered_of_no_key
    intro o ho
    obtain ⟨impact, -, rfl⟩ := List.mem_map.mp ho
    rfl
  have hassessments :
      partnered c coordinate (c.runtime.assessments.flatMap observeAssessment) = 0 := by
    apply partnered_of_no_key
    intro o ho
    obtain ⟨assessment, -, ho⟩ := List.mem_flatMap.mp ho
    exact bridgeKey_of_mem_observeAssessment ho
  have hreopens :
      partnered c coordinate (c.runtime.reopenAssessments.flatMap observeReopen) = 0 := by
    apply partnered_of_no_key
    intro o ho
    obtain ⟨reopen, -, ho⟩ := List.mem_flatMap.mp ho
    exact bridgeKey_of_mem_observeReopen ho
  rw [alphaR0, BundleCase.traced, List.countP_append, List.countP_append]
  simp only [partnered_append, hrecords, hgrants, huses, hrelations, himpacts, hassessments,
    hreopens]
  omega

/-- The cases' partners, on a coordinate of the traces, of the statuses, or on any other. -/
theorem partners_snapshots (cases : List BundleCase) (coordinate : ObservationFamily × String) :
    partners (cases.map BundleCase.snapshots) coordinate =
      (if coordinate = traceCoordinate then
        (cases.map (fun c => c.traced.countP (fun id => c.TracePartner id))).sum else 0) +
      if coordinate = statusCoordinate then
        (cases.map (fun c => c.runtime.records.countP (fun r => c.StatusPartner r))).sum else 0 := by
  have hcase : ∀ c ∈ cases,
      (c.snapshots.runtime.observations.countP (fun o => c.snapshots.Partnered coordinate o)) =
        (if coordinate = traceCoordinate then c.traced.countP (fun id => c.TracePartner id) else 0) +
        if coordinate = statusCoordinate then
          c.runtime.records.countP (fun r => c.StatusPartner r) else 0 := by
    intro c _
    have hpartnered := partnered_alphaR0 c coordinate
    rw [countP_and_const, countP_and_const] at hpartnered
    exact hpartnered
  rw [partners, List.map_map, ← sum_ite_const, ← sum_ite_const, ← List.sum_map_add]
  exact congrArg List.sum (List.map_congr_left hcase)

/-- A coordinate with its witnesses, when there are any. -/
def listed (coordinate : ObservationFamily × String) (n : Nat) : List B0Coordinate :=
  if n = 0 then []
  else [{ key := coordinate.1.text ++ ":" ++ coordinate.2, family := coordinate.1,
          bridgeKey := coordinate.2, witnesses := n }]

theorem mem_listed {coordinate : ObservationFamily × String} {n : Nat} {b : B0Coordinate} :
    b ∈ listed coordinate n ↔ b.key = b.family.text ++ ":" ++ b.bridgeKey ∧ 0 < b.witnesses ∧
      (b.family, b.bridgeKey) = coordinate ∧ b.witnesses = n := by
  unfold listed
  constructor
  · intro h
    split at h
    · cases h
    · rename_i hn
      obtain rfl := List.mem_singleton.mp h
      exact ⟨rfl, Nat.pos_of_ne_zero hn, rfl, rfl⟩
  · rintro ⟨hkey, hpos, rfl, rfl⟩
    rw [if_neg (Nat.pos_iff_ne_zero.mp hpos), List.mem_singleton]
    show b = ⟨b.family.text ++ ":" ++ b.bridgeKey, _, _, _⟩
    rw [← hkey]

theorem pairwise_listed (n m : Nat) :
    (listed traceCoordinate n ++ listed statusCoordinate m).Pairwise Before := by
  have hsingle : ∀ coordinate n, (listed coordinate n).Pairwise Before := by
    intro coordinate n
    unfold listed
    split
    · exact List.Pairwise.nil
    · exact List.pairwise_singleton _ _
  rw [List.pairwise_append]
  refine ⟨hsingle _ _, hsingle _ _, ?_⟩
  intro b hb b' hb'
  obtain ⟨-, -, hcoordinate, -⟩ := mem_listed.mp hb
  obtain ⟨-, -, hcoordinate', -⟩ := mem_listed.mp hb'
  have hfamily : b.family = .historicalTrace := (Prod.mk.inj hcoordinate).1
  have hfamily' : b'.family = .operativeStatus := (Prod.mk.inj hcoordinate').1
  refine Or.inl ?_
  rw [hfamily, hfamily']
  decide

end Discovery

/-- Of whatever the two adapters project, discovery finds at most two coordinates: that a record, a
grant or a use is mapped to something with a formal trace, and that an assertion is mapped to a
warrant whose usability is what the assertion's status says; each with the number of these. -/
theorem discovery_of_adapters (cases : List BundleCase) :
    discoverB0 (cases.map BundleCase.snapshots) =
      Discovery.listed (.historicalTrace, "trace.referent-present")
        (cases.map (fun c => c.traced.countP (fun id => c.TracePartner id))).sum ++
      Discovery.listed (.operativeStatus, "qualification.current")
        (cases.map (fun c => c.runtime.records.countP (fun r => c.StatusPartner r))).sum := by
  refine Discovery.eq_of_before (Discovery.pairwise_discoverB0 _) (Discovery.pairwise_listed _ _) ?_
  intro b
  rw [Discovery.mem_discoverB0, List.mem_append, Discovery.mem_listed, Discovery.mem_listed,
    Discovery.partners_snapshots]
  show _ ↔ (_ ∧ _ ∧ (b.family, b.bridgeKey) = Discovery.traceCoordinate ∧ _) ∨
    (_ ∧ _ ∧ (b.family, b.bridgeKey) = Discovery.statusCoordinate ∧ _)
  by_cases htrace : (b.family, b.bridgeKey) = Discovery.traceCoordinate
  · have hstatus : (b.family, b.bridgeKey) ≠ Discovery.statusCoordinate := htrace ▸ by decide
    simp only [htrace, if_true, if_neg (htrace ▸ hstatus), Nat.add_zero, true_and]
    simp only [htrace ▸ hstatus, false_and, and_false, or_false]
  · by_cases hstatus : (b.family, b.bridgeKey) = Discovery.statusCoordinate
    · simp only [hstatus, if_true, if_neg (hstatus ▸ htrace), Nat.zero_add, true_and]
      simp only [hstatus ▸ htrace, false_and, and_false, false_or]
    · simp only [htrace, hstatus, if_false, false_and, and_false, or_false, iff_false]
      omega

end PortableRuntime
