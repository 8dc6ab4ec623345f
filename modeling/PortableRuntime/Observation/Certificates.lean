import PortableRuntime.Observation.Adapters

/-!
# Certificates of withdrawn qualification

A certificate says that something kept its trace while it lost its qualification.  It is extracted
from two runtime snapshots, from the first observation of each kind that can be compared.
-/

namespace PortableRuntime

inductive QualificationState where
  | qualified | withdrawn
deriving Repr, DecidableEq, Inhabited

structure QualificationWithdrawalCertificate where
  subjectRef : String
  historicalTraceBefore : Bool
  historicalTraceAfter : Bool
  qualificationBefore : QualificationState
  qualificationAfter : QualificationState
  acceptedDischargeEvidenceAfter : Bool := false
  b0Coordinates : List String := []
  sourceSemanticsTags : List String := []
deriving Repr, DecidableEq

def O0Observation.comparable (o : O0Observation) : Bool :=
  !([ObservationQuality.semanticMismatch, .notRepresented].contains o.quality)

def findBridgeObservation (snapshot : O0Snapshot) (family : ObservationFamily)
    (subjectRef bridgeKey : String) : Option O0Observation :=
  snapshot.observations.find? (fun o =>
    o.family = family && o.subjectRef = subjectRef && o.bridgeKey = some bridgeKey && o.comparable)

def acceptedDischargeEvidence (snapshot : O0Snapshot) (subjectRef : String) : Bool :=
  snapshot.observations.any (fun o =>
    o.family = .dischargeEvidence && o.subjectRef = subjectRef &&
      o.bridgeKey = some "discharge.accepted" && o.bridgeValue = some "accepted" && o.comparable)

def findTrace (snapshot : O0Snapshot) (subjectRef : String) : Option O0Observation :=
  findBridgeObservation snapshot .historicalTrace subjectRef "trace.referent-present"

def findStatus (snapshot : O0Snapshot) (subjectRef : String) : Option O0Observation :=
  findBridgeObservation snapshot .operativeStatus subjectRef "qualification.current"

def buildQualificationWithdrawalCertificate (before after : O0Snapshot) (subjectRef : String) :
    Result QualificationWithdrawalCertificate := do
  guardValue (before.origin = .runtime && after.origin = .runtime)
    "qualification withdrawal certificates require runtime O0 snapshots"
  guardValue (!decide (after.observedAt < before.observedAt))
    "after snapshot must not precede before snapshot"
  let some traceBefore := findTrace before subjectRef
    | raiseValue "B0 historical-trace coordinate is missing"
  let some traceAfter := findTrace after subjectRef
    | raiseValue "B0 historical-trace coordinate is missing"
  let some statusBefore := findStatus before subjectRef
    | raiseValue "B0 qualification coordinate is missing"
  let some statusAfter := findStatus after subjectRef
    | raiseValue "B0 qualification coordinate is missing"
  guardValue (statusBefore.bridgeValue = some "qualified") "before snapshot is not B0-qualified"
  guardValue (statusAfter.bridgeValue = some "withdrawn") "after snapshot is not B0-withdrawn"
  return {
    subjectRef
    historicalTraceBefore := traceBefore.bridgeValue = some "present"
    historicalTraceAfter := traceAfter.bridgeValue = some "present"
    qualificationBefore := .qualified
    qualificationAfter := .withdrawn
    acceptedDischargeEvidenceAfter := acceptedDischargeEvidence after subjectRef
    b0Coordinates :=
      ["historicalTrace:trace.referent-present", "operativeStatus:qualification.current"]
    sourceSemanticsTags := [traceBefore.semanticsTag, traceAfter.semanticsTag,
      statusBefore.semanticsTag, statusAfter.semanticsTag] }

theorem buildQualificationWithdrawalCertificate_eq_ok {before after : O0Snapshot}
    {subjectRef : String} {certificate : QualificationWithdrawalCertificate} :
    buildQualificationWithdrawalCertificate before after subjectRef = .ok certificate ↔
      (before.origin = .runtime ∧ after.origin = .runtime) ∧
      ¬ after.observedAt < before.observedAt ∧
      ∃ traceBefore traceAfter statusBefore statusAfter,
        findTrace before subjectRef = some traceBefore ∧
        findTrace after subjectRef = some traceAfter ∧
        findStatus before subjectRef = some statusBefore ∧
        findStatus after subjectRef = some statusAfter ∧
        statusBefore.bridgeValue = some "qualified" ∧ statusAfter.bridgeValue = some "withdrawn" ∧
        certificate = {
          subjectRef
          historicalTraceBefore := traceBefore.bridgeValue = some "present"
          historicalTraceAfter := traceAfter.bridgeValue = some "present"
          qualificationBefore := .qualified
          qualificationAfter := .withdrawn
          acceptedDischargeEvidenceAfter := acceptedDischargeEvidence after subjectRef
          b0Coordinates :=
            ["historicalTrace:trace.referent-present", "operativeStatus:qualification.current"]
          sourceSemanticsTags := [traceBefore.semanticsTag, traceAfter.semanticsTag,
            statusBefore.semanticsTag, statusAfter.semanticsTag] } := by
  rw [buildQualificationWithdrawalCertificate, Result.check_eq_ok, Result.check_eq_ok,
    guardValue_eq_ok, guardValue_eq_ok]
  simp only [Bool.and_eq_true, decide_eq_true_eq, Bool.not_eq_true', decide_eq_false_iff_not]
  refine and_congr_right (fun _ => and_congr_right (fun _ => ?_))
  cases findTrace before subjectRef with
  | none => simp [raiseValue]
  | some traceBefore =>
    cases findTrace after subjectRef with
    | none => simp [raiseValue]
    | some traceAfter =>
      cases findStatus before subjectRef with
      | none => simp [raiseValue]
      | some statusBefore =>
        cases findStatus after subjectRef with
        | none => simp [raiseValue]
        | some statusAfter =>
          simp only [Result.check_eq_ok, guardValue_eq_ok, decide_eq_true_eq, Result.pure_eq_ok,
            Option.some.injEq, eq_comm (a := certificate)]
          constructor
          · intro h
            exact ⟨_, _, _, _, rfl, rfl, rfl, rfl, h⟩
          · rintro ⟨_, _, _, _, rfl, rfl, rfl, rfl, h⟩
            exact h

/-! ## What is found in a runtime bundle -/

namespace Certificate

/-- The status of an assertion, when it can be compared. -/
def status (r : BaseRecord) : Option String :=
  if r.cls = .assertion then r.epistemicStatus.bind runtimeAssertionBridgeValue else none

/-- What a bundle says of the qualification of a subject: the first of its assertions whose status
can be compared. -/
def qualification (bundle : RuntimeObservationBundle0) (subjectRef : String) : Option String :=
  bundle.records.findSome? (fun r => if r.id = subjectRef then status r else none)

/-- The type of the first record of an id, as a trace of it is tagged. -/
def traceTag (bundle : RuntimeObservationBundle0) (subjectRef : String) : String :=
  ((bundle.records.find? (fun r => r.id = subjectRef)).map
    (fun r => "runtime.record." ++ r.recordType.text)).getD ""

/-- What is looked for. -/
def sought (family : ObservationFamily) (subjectRef bridgeKey : String) (o : O0Observation) :
    Bool :=
  o.family = family && o.subjectRef = subjectRef && o.bridgeKey = some bridgeKey && o.comparable

variable {family : ObservationFamily} {subjectRef bridgeKey : String}

theorem not_sought_of_no_key {o : O0Observation} (h : o.bridgeKey = none) :
    sought family subjectRef bridgeKey o = false := by
  simp [sought, h]

theorem not_sought_of_family {o : O0Observation} (h : o.family ≠ family) :
    sought family subjectRef bridgeKey o = false := by
  simp [sought, h]

theorem find?_of_not_sought {l : List O0Observation}
    (h : ∀ o ∈ l, sought family subjectRef bridgeKey o = false) :
    l.find? (sought family subjectRef bridgeKey) = none := by
  rw [List.find?_eq_none]
  intro o ho hsought
  rw [h o ho] at hsought
  cases hsought

/-- What a record's observations have besides its trace and its status cannot be compared. -/
theorem find?_observeRecord (r : BaseRecord) :
    (observeRecord r).find? (sought family subjectRef bridgeKey) =
      ((traceObservation r.id ("runtime.record." ++ r.recordType.text) [r.id]
          [("record_type", r.recordType.text), ("version", toString r.version),
           ("lifecycle", r.lifecycleStatus.text)] ::
        (if r.cls = .assertion then
          r.epistemicStatus.toList.map (Discovery.statusObservation r) else [])).find?
        (sought family subjectRef bridgeKey)) := by
  have hversions : (r.environmentVersions.map (fun e =>
      ({ origin := .runtime, family := .regimeReference, subjectRef := r.id,
         semanticsTag := "runtime.environment-version", quality := .abstraction,
         sourceRefs := [r.id], coordinates := .ofPairs [("name", e.1), ("version", e.2)] } :
        O0Observation))).find? (sought family subjectRef bridgeKey) = none := by
    apply find?_of_not_sought
    intro o ho
    obtain ⟨e, -, rfl⟩ := List.mem_map.mp ho
    exact not_sought_of_no_key rfl
  have hrevision : ∀ {P : Prop} [Decidable P] {o : O0Observation}, o.bridgeKey = none →
      (if P then [o] else []).find? (sought family subjectRef bridgeKey) = none := by
    intro P _ o ho
    apply find?_of_not_sought
    intro o' ho'
    split at ho'
    · rw [List.mem_singleton.mp ho']
      exact not_sought_of_no_key ho
    · cases ho'
  rw [observeRecord, List.find?_append, List.find?_append, hversions, hrevision rfl,
    Option.or_none, Option.or_none]
  show List.find? _ (_ :: _) = _
  congr 2
  show (if r.cls = .assertion then _ else []) = _
  congr 1
  cases r.epistemicStatus with
  | none => rfl
  | some status => rfl

/-- The observation that says a record's status. -/
def recordStatus (subjectRef : String) (r : BaseRecord) : Option O0Observation :=
  if r.id = subjectRef ∧ (status r).isSome then
    r.epistemicStatus.map (Discovery.statusObservation r)
  else none

theorem find?_status_observeRecord (r : BaseRecord) :
    (observeRecord r).find? (sought .operativeStatus subjectRef "qualification.current") =
      recordStatus subjectRef r := by
  rw [find?_observeRecord, List.find?_cons_of_neg (by simp [sought, traceObservation])]
  unfold recordStatus status
  by_cases hcls : r.cls = .assertion
  · rw [if_pos hcls, if_pos hcls]
    cases r.epistemicStatus with
    | none => simp
    | some current =>
      cases hvalue : runtimeAssertionBridgeValue current with
      | none =>
        simp [sought, Discovery.statusObservation, hvalue]
      | some value =>
        by_cases hid : r.id = subjectRef
        · simp [sought, Discovery.statusObservation, hvalue, hid, O0Observation.comparable]
        · simp [sought, Discovery.statusObservation, hvalue, hid]
  · simp [hcls]

theorem find?_trace_observeRecord (r : BaseRecord) :
    (observeRecord r).find? (sought .historicalTrace subjectRef "trace.referent-present") =
      if r.id = subjectRef then (observeRecord r).head? else none := by
  rw [find?_observeRecord]
  by_cases hid : r.id = subjectRef
  · rw [if_pos hid, List.find?_cons_of_pos (by
      simp [sought, traceObservation, hid, O0Observation.comparable])]
    rfl
  · rw [if_neg hid, List.find?_cons_of_neg (by simp [sought, traceObservation, hid])]
    apply find?_of_not_sought
    intro o ho
    apply not_sought_of_family
    split at ho
    · obtain ⟨current, -, rfl⟩ := List.mem_map.mp ho
      show ObservationFamily.operativeStatus ≠ .historicalTrace
      decide
    · cases ho

theorem find?_flatMap_of_not_sought {α : Type} {l : List α} {f : α → List O0Observation}
    (h : ∀ a ∈ l, ∀ o ∈ f a, sought family subjectRef bridgeKey o = false) :
    (l.flatMap f).find? (sought family subjectRef bridgeKey) = none := by
  apply find?_of_not_sought
  intro o ho
  obtain ⟨a, ha, ho⟩ := List.mem_flatMap.mp ho
  exact h a ha o ho

/-- After the records, there is nothing but traces that can be compared. -/
theorem find?_alphaR0 (bundle : RuntimeObservationBundle0) :
    (alphaR0 bundle).observations.find? (sought family subjectRef bridgeKey) =
      ((bundle.records.findSome? (fun r =>
          (observeRecord r).find? (sought family subjectRef bridgeKey))).or
        ((bundle.authorizationGrants.flatMap (observeGrant bundle.observedAt)).find?
          (sought family subjectRef bridgeKey))).or
        ((bundle.authorizationUses.flatMap observeUse).find?
          (sought family subjectRef bridgeKey)) := by
  have hrelations : (bundle.relations.map observeRelation).find?
      (sought family subjectRef bridgeKey) = none := by
    apply find?_of_not_sought
    intro o ho
    obtain ⟨relation, -, rfl⟩ := List.mem_map.mp ho
    exact not_sought_of_no_key rfl
  have himpacts : (bundle.impacts.map observeImpact).find?
      (sought family subjectRef bridgeKey) = none := by
    apply find?_of_not_sought
    intro o ho
    obtain ⟨impact, -, rfl⟩ := List.mem_map.mp ho
    exact not_sought_of_no_key rfl
  have hassessments : (bundle.assessments.flatMap observeAssessment).find?
      (sought family subjectRef bridgeKey) = none :=
    find?_flatMap_of_not_sought (fun assessment _ o ho =>
      not_sought_of_no_key (Discovery.bridgeKey_of_mem_observeAssessment ho))
  have hreopens : (bundle.reopenAssessments.flatMap observeReopen).find?
      (sought family subjectRef bridgeKey) = none :=
    find?_flatMap_of_not_sought (fun reopen _ o ho =>
      not_sought_of_no_key (Discovery.bridgeKey_of_mem_observeReopen ho))
  simp only [alphaR0, List.find?_append, @List.find?_flatMap _ _ bundle.records, hrelations,
    himpacts, hassessments, hreopens, Option.or_none]

theorem findStatus_alphaR0 (bundle : RuntimeObservationBundle0) :
    findStatus (alphaR0 bundle) subjectRef =
      bundle.records.findSome? (recordStatus subjectRef) := by
  have hgrants : (bundle.authorizationGrants.flatMap (observeGrant bundle.observedAt)).find?
      (sought .operativeStatus subjectRef "qualification.current") = none := by
    apply find?_flatMap_of_not_sought
    intro grant _ o ho
    cases List.mem_cons.mp ho with
    | inl htrace =>
      rw [htrace]
      exact not_sought_of_family (show ObservationFamily.historicalTrace ≠ _ by decide)
    | inr hstatus =>
      rw [List.mem_singleton.mp hstatus]
      exact not_sought_of_no_key rfl
  have huses : (bundle.authorizationUses.flatMap observeUse).find?
      (sought .operativeStatus subjectRef "qualification.current") = none := by
    apply find?_flatMap_of_not_sought
    intro use _ o ho
    cases List.mem_cons.mp ho with
    | inl htrace =>
      rw [htrace]
      exact not_sought_of_family (show ObservationFamily.historicalTrace ≠ _ by decide)
    | inr huse =>
      rw [List.mem_singleton.mp huse]
      exact not_sought_of_no_key rfl
  show (alphaR0 bundle).observations.find? (sought .operativeStatus subjectRef _) = _
  rw [find?_alphaR0, hgrants, huses, Option.or_none, Option.or_none]
  congr 1
  funext r
  exact find?_status_observeRecord r

/-- A record's trace comes before those of grants and uses. -/
theorem findTrace_alphaR0 {bundle : RuntimeObservationBundle0} {r : BaseRecord}
    (h : bundle.records.find? (fun r => r.id = subjectRef) = some r) :
    findTrace (alphaR0 bundle) subjectRef = (observeRecord r).head? := by
  have hrecords : bundle.records.findSome? (fun r => (observeRecord r).find?
      (sought .historicalTrace subjectRef "trace.referent-present")) =
      (observeRecord r).head? := by
    obtain ⟨hid, before, after, hsplit, hbefore⟩ := List.find?_eq_some_iff_append.mp h
    rw [hsplit, List.findSome?_append, List.findSome?_cons, find?_trace_observeRecord,
      if_pos (by simpa using hid)]
    have hnone : before.findSome? (fun r => (observeRecord r).find?
        (sought .historicalTrace subjectRef "trace.referent-present")) = none := by
      rw [List.findSome?_eq_none_iff]
      intro r' hr'
      rw [find?_trace_observeRecord, if_neg (by simpa using hbefore r' hr')]
    rw [hnone]
    rfl
  show (alphaR0 bundle).observations.find? (sought .historicalTrace subjectRef _) = _
  rw [find?_alphaR0, hrecords]
  rfl

/-- The runtime projects evidence of a discharge, but none that can be compared. -/
theorem acceptedDischargeEvidence_alphaR0 (bundle : RuntimeObservationBundle0) :
    acceptedDischargeEvidence (alphaR0 bundle) subjectRef = false := by
  have hfamily : ∀ {o : O0Observation}, o.family ≠ .dischargeEvidence ∨ o.bridgeKey = none →
      sought .dischargeEvidence subjectRef "discharge.accepted" o = false := by
    intro o ho
    cases ho with
    | inl h => exact not_sought_of_family h
    | inr h => exact not_sought_of_no_key h
  have hnone : (alphaR0 bundle).observations.find?
      (sought .dischargeEvidence subjectRef "discharge.accepted") = none := by
    rw [find?_alphaR0]
    have hrecords : bundle.records.findSome? (fun r => (observeRecord r).find?
        (sought .dischargeEvidence subjectRef "discharge.accepted")) = none := by
      rw [List.findSome?_eq_none_iff]
      intro r _
      rw [find?_observeRecord]
      apply find?_of_not_sought
      intro o ho
      cases List.mem_cons.mp ho with
      | inl htrace =>
        rw [htrace]
        exact hfamily (.inl (show ObservationFamily.historicalTrace ≠ _ by decide))
      | inr hstatus =>
        split at hstatus
        · obtain ⟨current, -, rfl⟩ := List.mem_map.mp hstatus
          exact hfamily (.inl (show ObservationFamily.operativeStatus ≠ _ by decide))
        · cases hstatus
    rw [hrecords, find?_flatMap_of_not_sought, find?_flatMap_of_not_sought]
    · rfl
    · intro use _ o ho
      cases List.mem_cons.mp ho with
      | inl htrace =>
        rw [htrace]
        exact hfamily (.inl (show ObservationFamily.historicalTrace ≠ _ by decide))
      | inr huse =>
        rw [List.mem_singleton.mp huse]
        exact hfamily (.inr rfl)
    · intro grant _ o ho
      cases List.mem_cons.mp ho with
      | inl htrace =>
        rw [htrace]
        exact hfamily (.inl (show ObservationFamily.historicalTrace ≠ _ by decide))
      | inr hstatus =>
        rw [List.mem_singleton.mp hstatus]
        exact hfamily (.inr rfl)
  rw [acceptedDischargeEvidence, List.any_eq_false]
  intro o ho haccepted
  apply List.find?_eq_none.mp hnone o ho
  simp only [Bool.and_eq_true] at haccepted
  obtain ⟨⟨⟨⟨hfamily, hid⟩, hkey⟩, -⟩, hcomparable⟩ := haccepted
  simp only [sought, Bool.and_eq_true]
  exact ⟨⟨⟨hfamily, hid⟩, hkey⟩, hcomparable⟩

theorem recordStatus_eq (subjectRef : String) (r : BaseRecord) :
    (recordStatus subjectRef r = none ∧ (if r.id = subjectRef then status r else none) = none) ∨
      ∃ o, recordStatus subjectRef r = some o ∧ o.bridgeValue = status r ∧
        (status r).isSome = true ∧ r.id = subjectRef ∧
        o.semanticsTag = "runtime.assertion-epistemic-status" := by
  unfold recordStatus
  by_cases hid : r.id = subjectRef
  · cases hstatus : status r with
    | none => exact .inl ⟨by simp, by simp⟩
    | some value =>
      right
      have hcls : r.cls = .assertion := by
        by_contra hcls
        rw [status, if_neg hcls] at hstatus
        cases hstatus
      have hbind := hstatus
      rw [status, if_pos hcls, Option.bind_eq_some_iff] at hbind
      obtain ⟨current, hcurrent, hvalue⟩ := hbind
      refine ⟨Discovery.statusObservation r current, ?_, hvalue, rfl, hid, rfl⟩
      rw [if_pos ⟨hid, rfl⟩, hcurrent]
      rfl
  · exact .inl ⟨if_neg (fun h => hid h.1), if_neg hid⟩

/-- The status that is found is the qualification that the bundle tells. -/
theorem findStatus_eq (subjectRef : String) (bundle : RuntimeObservationBundle0) :
    (findStatus (alphaR0 bundle) subjectRef = none ∧ qualification bundle subjectRef = none) ∨
      ∃ o value, findStatus (alphaR0 bundle) subjectRef = some o ∧ o.bridgeValue = some value ∧
        qualification bundle subjectRef = some value ∧
        o.semanticsTag = "runtime.assertion-epistemic-status" ∧
        ∃ r ∈ bundle.records, r.id = subjectRef := by
  rw [findStatus_alphaR0, qualification]
  induction bundle.records with
  | nil => exact .inl ⟨rfl, rfl⟩
  | cons r rest ih =>
    rw [List.findSome?_cons, List.findSome?_cons]
    cases recordStatus_eq subjectRef r with
    | inl hnone =>
      rw [hnone.1, hnone.2]
      cases ih with
      | inl h => exact .inl h
      | inr h =>
        obtain ⟨o, value, hfound, hvalue, hstatus, htag, r', hr', hid⟩ := h
        exact .inr ⟨o, value, hfound, hvalue, hstatus, htag, r', List.mem_cons_of_mem _ hr', hid⟩
    | inr hsome =>
      obtain ⟨o, ho, hvalue, hstatus, hid, htag⟩ := hsome
      obtain ⟨value, hstatus⟩ := Option.isSome_iff_exists.mp hstatus
      rw [ho, if_pos hid, hstatus]
      exact .inr ⟨o, value, rfl, hvalue.trans hstatus, rfl, htag, r, List.mem_cons_self, hid⟩

theorem told_of_findStatus {bundle : RuntimeObservationBundle0} {o : O0Observation} {value : String}
    (h : findStatus (alphaR0 bundle) subjectRef = some o) (hvalue : o.bridgeValue = some value) :
    qualification bundle subjectRef = some value ∧
      o.semanticsTag = "runtime.assertion-epistemic-status" ∧
      ∃ r ∈ bundle.records, r.id = subjectRef := by
  cases findStatus_eq subjectRef bundle with
  | inl hnone =>
    rw [hnone.1] at h
    cases h
  | inr hsome =>
    obtain ⟨found, told, hfound, htold, hqualification, htag, hrecord⟩ := hsome
    obtain rfl := Option.some.inj (h.symm.trans hfound)
    exact ⟨hqualification.trans (htold.symm.trans hvalue), htag, hrecord⟩

theorem findStatus_of_told {bundle : RuntimeObservationBundle0} {value : String}
    (h : qualification bundle subjectRef = some value) :
    ∃ o, findStatus (alphaR0 bundle) subjectRef = some o ∧ o.bridgeValue = some value ∧
      o.semanticsTag = "runtime.assertion-epistemic-status" ∧
      ∃ r ∈ bundle.records, r.id = subjectRef := by
  cases findStatus_eq subjectRef bundle with
  | inl hnone =>
    rw [hnone.2] at h
    cases h
  | inr hsome =>
    obtain ⟨o, told, hfound, htold, hqualification, htag, hrecord⟩ := hsome
    exact ⟨o, hfound, htold.trans (hqualification.symm.trans h), htag, hrecord⟩

theorem findTrace_of_mem {bundle : RuntimeObservationBundle0} {r : BaseRecord}
    (hr : r ∈ bundle.records) (hid : r.id = subjectRef) :
    ∃ o, findTrace (alphaR0 bundle) subjectRef = some o ∧ o.bridgeValue = some "present" ∧
      o.semanticsTag = traceTag bundle subjectRef := by
  cases hfind : bundle.records.find? (fun r => r.id = subjectRef) with
  | none =>
    rw [List.find?_eq_none] at hfind
    exact absurd (decide_eq_true hid) (hfind r hr)
  | some first =>
    refine ⟨_, (findTrace_alphaR0 hfind).trans rfl, rfl, ?_⟩
    rw [traceTag, hfind]
    rfl

end Certificate

/-- A certificate is issued for two runtime bundles exactly when the earlier one has an assertion of
the subject that is qualified, and the later one has one that is withdrawn: then both have a trace,
and the later has no discharge that counts, whatever revisions it has. -/
theorem certificate_issued_iff (before after : RuntimeObservationBundle0) (subjectRef : String)
    (certificate : QualificationWithdrawalCertificate) :
    buildQualificationWithdrawalCertificate (alphaR0 before) (alphaR0 after) subjectRef =
        .ok certificate ↔
      before.observedAt ≤ after.observedAt ∧
      Certificate.qualification before subjectRef = some "qualified" ∧
      Certificate.qualification after subjectRef = some "withdrawn" ∧
      certificate = {
        subjectRef
        historicalTraceBefore := true
        historicalTraceAfter := true
        qualificationBefore := .qualified
        qualificationAfter := .withdrawn
        acceptedDischargeEvidenceAfter := false
        b0Coordinates :=
          ["historicalTrace:trace.referent-present", "operativeStatus:qualification.current"]
        sourceSemanticsTags :=
          [Certificate.traceTag before subjectRef, Certificate.traceTag after subjectRef,
            "runtime.assertion-epistemic-status", "runtime.assertion-epistemic-status"] } := by
  rw [buildQualificationWithdrawalCertificate_eq_ok]
  constructor
  · rintro ⟨-, hle, traceBefore, traceAfter, statusBefore, statusAfter, htrace, htrace', hstatus,
      hstatus', hqualified, hwithdrawn, rfl⟩
    obtain ⟨hqualified, htag, r, hr, hid⟩ := Certificate.told_of_findStatus hstatus hqualified
    obtain ⟨hwithdrawn, htag', r', hr', hid'⟩ := Certificate.told_of_findStatus hstatus' hwithdrawn
    obtain ⟨trace, hfound, hpresent, htraceTag⟩ := Certificate.findTrace_of_mem hr hid
    obtain ⟨trace', hfound', hpresent', htraceTag'⟩ := Certificate.findTrace_of_mem hr' hid'
    obtain rfl := Option.some.inj (htrace.symm.trans hfound)
    obtain rfl := Option.some.inj (htrace'.symm.trans hfound')
    refine ⟨not_lt.mp hle, hqualified, hwithdrawn, ?_⟩
    rw [hpresent, hpresent', htraceTag, htraceTag', htag, htag',
      Certificate.acceptedDischargeEvidence_alphaR0]
    rfl
  · rintro ⟨hle, hqualified, hwithdrawn, rfl⟩
    obtain ⟨status, hstatus, hvalue, htag, r, hr, hid⟩ := Certificate.findStatus_of_told hqualified
    obtain ⟨status', hstatus', hvalue', htag', r', hr', hid'⟩ :=
      Certificate.findStatus_of_told hwithdrawn
    obtain ⟨trace, hfound, hpresent, htraceTag⟩ := Certificate.findTrace_of_mem hr hid
    obtain ⟨trace', hfound', hpresent', htraceTag'⟩ := Certificate.findTrace_of_mem hr' hid'
    refine ⟨⟨rfl, rfl⟩, not_lt.mpr hle, trace, trace', status, status', hfound, hfound', hstatus,
      hstatus', hvalue, hvalue', ?_⟩
    rw [hpresent, hpresent', htraceTag, htraceTag', htag, htag',
      Certificate.acceptedDischargeEvidence_alphaR0]
    rfl

end PortableRuntime
