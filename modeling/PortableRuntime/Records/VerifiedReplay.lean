import PortableRuntime.Library.Sorting
import PortableRuntime.Protocol.Lookup
import PortableRuntime.Records.VerifiedOutcome

/-!
# What the derivation of a verified outcome reads

A derivation reads a few fields of the objects it is bound to.  Two readers whose objects agree in
these fields derive the same outcome and the same events, and an outcome that was derived can be
derived again from its own fields.
-/

namespace PortableRuntime

/-! ## The fields a derivation reads -/

/-- The keys of a proof's metadata that a derivation reads. -/
def proofKeys : List String :=
  ["proof_class", "verification_result", "work_id", "run_id", "verification_scope", "scope",
   "subject_version_refs", "action_ref", "request_id", "attempt_ref", "verifier_provenance",
   "artifact_refs", "obligation_refs"]

/-- Two objects of a kind that no derivation tells apart. -/
def Kind.SameBinding : (k : Kind) → Model k → Model k → Prop
  | .action, (a : Action), (b : Action) => a.id = b.id ∧ a.workId = b.workId ∧ a.runId = b.runId ∧
      a.requestRef = b.requestRef ∧ a.providerId = b.providerId
  | .attempt, (a : StepAttempt), (b : StepAttempt) => a.id = b.id ∧ a.stepId = b.stepId ∧
      a.requestRef = b.requestRef ∧ a.providerId = b.providerId
  | .step, (a : Step), (b : Step) => a.id = b.id ∧ a.runId = b.runId
  | .run, (a : Run), (b : Run) => a.id = b.id ∧ a.workId = b.workId
  | .work, (a : Work), (b : Work) => a.id = b.id
  | .record, (a : BaseRecord), (b : BaseRecord) => a.id = b.id ∧ a.recordType = b.recordType ∧
      a.sourceRefs = b.sourceRefs ∧
      (evidenceArtifact? a).map EvidenceArtifact.kind =
        (evidenceArtifact? b).map EvidenceArtifact.kind ∧
      ∀ key ∈ proofKeys, Fields.get? key a.metadata = Fields.get? key b.metadata
  | _, _, _ => True

theorem Kind.sameBinding_refl (k : Kind) (v : Model k) : k.SameBinding v v := by
  cases k <;> simp [Kind.SameBinding]

/-- What the second reader has wherever the first one has something that the derivation of the
request reads. -/
structure Agree (reader reader' : VerifiedOutcomeStoreReader)
    (request : VerifiedOutcomeCommitRequest) : Prop where
  action : ∀ a, reader.getAction request.actionRef = some a →
    ∃ a', reader'.getAction request.actionRef = some a' ∧ Kind.SameBinding .action a a'
  attempt : ∀ a, reader.getAttempt request.expectedAttemptRef = some a →
    ∃ a', reader'.getAttempt request.expectedAttemptRef = some a' ∧ Kind.SameBinding .attempt a a'
  step : ∀ a, reader.getAttempt request.expectedAttemptRef = some a →
    ∀ s, reader.getStep a.stepId = some s →
      ∃ s', reader'.getStep a.stepId = some s' ∧ Kind.SameBinding .step s s'
  run : ∀ r, reader.getRun request.expectedRunId = some r →
    ∃ r', reader'.getRun request.expectedRunId = some r' ∧ Kind.SameBinding .run r r'
  work : ∀ w, reader.getWork request.expectedWorkId = some w →
    ∃ w', reader'.getWork request.expectedWorkId = some w' ∧ Kind.SameBinding .work w w'
  record : ∀ ref ∈ Text.normalized request.evidenceRefs, ∀ r, reader.getRecord ref = some r →
    r.recordType = .evidenceArtifact →
    ∃ r', reader'.getRecord ref = some r' ∧ Kind.SameBinding .record r r'

theorem Agree.refl (reader : VerifiedOutcomeStoreReader) (request : VerifiedOutcomeCommitRequest) :
    Agree reader reader request where
  action a ha := ⟨a, ha, Kind.sameBinding_refl .action a⟩
  attempt a ha := ⟨a, ha, Kind.sameBinding_refl .attempt a⟩
  step _ _ s hs := ⟨s, hs, Kind.sameBinding_refl .step s⟩
  run r hr := ⟨r, hr, Kind.sameBinding_refl .run r⟩
  work w hw := ⟨w, hw, Kind.sameBinding_refl .work w⟩
  record _ _ r hr _ := ⟨r, hr, Kind.sameBinding_refl .record r⟩

section Derivation

variable {digest : Json → String} {now : Time} {reader reader' : VerifiedOutcomeStoreReader}
  {request : VerifiedOutcomeCommitRequest} {prepared : PreparedVerifiedOutcomeCommit}

/-- What the proofs of an outcome are checked against. -/
def outcomeExpectation (request : VerifiedOutcomeCommitRequest) (action : Action)
    (attempt : StepAttempt) (step : Step) (run : Run) (work : Work) : BindingExpectation :=
  { work, run, scope := request.verificationScope,
    subjectVersionRefs := some (Text.normalized request.subjectVersionRefs),
    execution := some
      { action, step, attempt, requestId := request.expectedRequestId,
        attemptRef := request.expectedAttemptRef },
    requireVerifierProvenance := true }

def outcomeDigest (digest : Json → String) (request : VerifiedOutcomeCommitRequest)
    (action : Action) (attempt : StepAttempt) (run : Run) (work : Work)
    (result : ObjectiveResult) : String :=
  digest (bindingPayload action attempt work run (Text.normalized request.evidenceRefs)
    (Text.normalized request.subjectVersionRefs) request.verificationScope result)

def sortedProofs (validated : BoundVerificationEvidence) : List BaseRecord :=
  (validated.records.map EvidenceArtifact.record).insertionSort (fun a b => a.id ≤ b.id)

/-- The authority facts that a validated binding determines. -/
def authorityFacts (digest : Json → String) (now : Time) (request : VerifiedOutcomeCommitRequest)
    (action : Action) (attempt : StepAttempt) (run : Run) (work : Work)
    (validated : BoundVerificationEvidence) : PreparedVerifiedOutcomeCommit :=
  let result := validated.objectiveResult
  let refs := Text.normalized request.evidenceRefs
  let bindingDigest := outcomeDigest digest request action attempt run work result
  let outcome := verifiedOutcome digest now action attempt work run refs
    (Text.normalized request.subjectVersionRefs) request.verificationScope result
    (sortedProofs validated)
  { outcome
    accepted := authorityEvent now "event_objective_verification_" "ObjectiveVerificationAccepted"
      bindingDigest outcome.id action.id refs result
    confirmed := authorityEvent now "event_outcome_confirmed_" "OutcomeConfirmed"
      bindingDigest outcome.id action.id refs result }

/-- The objects of a derivation. -/
structure Derivation (reader : VerifiedOutcomeStoreReader)
    (request : VerifiedOutcomeCommitRequest) where
  action : Action
  attempt : StepAttempt
  step : Step
  run : Run
  work : Work
  validated : BoundVerificationEvidence
  evidence : Text.normalized request.evidenceRefs ≠ []
  distinct : (Text.normalized request.evidenceRefs).length = request.evidenceRefs.length
  versions : Text.normalized request.subjectVersionRefs ≠ []
  getAction : reader.getAction request.actionRef = some action
  getAttempt : reader.getAttempt request.expectedAttemptRef = some attempt
  getStep : reader.getStep attempt.stepId = some step
  getRun : reader.getRun request.expectedRunId = some run
  getWork : reader.getWork request.expectedWorkId = some work
  validates : validateBinding (outcomeExpectation request action attempt step run work)
    (Text.normalized request.evidenceRefs) reader.getRecord = .ok validated

def Derivation.facts (d : Derivation reader request) (digest : Json → String) (now : Time) :
    PreparedVerifiedOutcomeCommit :=
  authorityFacts digest now request d.action d.attempt d.run d.work d.validated

theorem prepare_eq_ok : prepareVerifiedOutcomeCommit digest now reader request = .ok prepared ↔
    ∃ d : Derivation reader request, d.facts digest now = prepared := by
  rw [prepareVerifiedOutcomeCommit, Result.check_eq_ok, Result.check_eq_ok, Result.check_eq_ok]
  simp only [Result.bind_eq_ok, Result.pure_eq_ok, guardValue_eq_ok, orRaise_eq_ok]
  constructor
  · rintro ⟨hevidence, hdistinct, hversions, action, haction, attempt, hattempt, step, hstep, run,
      hrun, work, hwork, validated, hvalidated, hprepared⟩
    exact ⟨⟨action, attempt, step, run, work, validated, by simpa [Text.normalized] using hevidence,
      by simpa [Text.normalized] using hdistinct, by simpa [Text.normalized] using hversions,
      haction, hattempt, hstep, hrun, hwork, hvalidated⟩, hprepared⟩
  · rintro ⟨d, hprepared⟩
    exact ⟨by simpa [Text.normalized] using d.evidence, by simpa [Text.normalized] using d.distinct,
      by simpa [Text.normalized] using d.versions, d.action, d.getAction, d.attempt, d.getAttempt,
      d.step, d.getStep, d.run, d.getRun, d.work, d.getWork, d.validated, d.validates, hprepared⟩

/-! ## Readers that agree -/

section Proofs

variable {action action' : Action} {attempt attempt' : StepAttempt} {step step' : Step}
  {run run' : Run} {work work' : Work}

theorem evidenceArtifact?_congr {r r' : BaseRecord} (h : Kind.SameBinding .record r r')
    {artifact : EvidenceArtifact} (hartifact : evidenceArtifact? r = some artifact) :
    ∃ artifact', evidenceArtifact? r' = some artifact' ∧ artifact'.kind = artifact.kind ∧
      Kind.SameBinding .record artifact.record artifact'.record := by
  have hkind := h.2.2.2.1
  rw [hartifact] at hkind
  obtain ⟨artifact', hartifact', hkind'⟩ := Option.map_eq_some_iff.mp hkind.symm
  refine ⟨artifact', hartifact', hkind', ?_⟩
  rw [evidenceArtifact?_record hartifact, evidenceArtifact?_record hartifact']
  exact h

/-- The objects of two derivations that no derivation tells apart. -/
structure BoundAlike (action action' : Action) (attempt attempt' : StepAttempt)
    (step step' : Step) (run run' : Run) (work work' : Work) : Prop where
  action : Kind.SameBinding .action action action'
  attempt : Kind.SameBinding .attempt attempt attempt'
  step : Kind.SameBinding .step step step'
  run : Kind.SameBinding .run run run'
  work : Kind.SameBinding .work work work'

theorem checkExecutionBinding_congr
    (h : BoundAlike action action' attempt attempt' step step' run run' work work') :
    checkExecutionBinding (outcomeExpectation request action' attempt' step' run' work') =
      checkExecutionBinding (outcomeExpectation request action attempt step run work) := by
  obtain ⟨⟨-, hawork, harun, harequest, haprovider⟩, ⟨htid, htstep, htrequest, htprovider⟩,
    ⟨hsid, hsrun⟩, ⟨hrid, hrwork⟩, hwid⟩ := h
  have hwid : work.id = work'.id := hwid
  simp only [checkExecutionBinding, outcomeExpectation, ← hawork, ← harun, ← harequest,
    ← haprovider, ← htid, ← htstep, ← htrequest, ← htprovider, ← hsid, ← hsrun, ← hrid, ← hwid]
  congr

theorem checkProofMetadata_congr
    (h : BoundAlike action action' attempt attempt' step step' run run' work work')
    {artifact artifact' : EvidenceArtifact}
    (hsame : Kind.SameBinding .record artifact.record artifact'.record) (result : ObjectiveResult) :
    checkProofMetadata (outcomeExpectation request action' attempt' step' run' work') artifact' result =
      checkProofMetadata (outcomeExpectation request action attempt step run work) artifact result := by
  obtain ⟨⟨haid, -, -, harequest, -⟩, ⟨htid, -⟩, -, ⟨hrid, -⟩, hwid⟩ := h
  have hwid : work.id = work'.id := hwid
  obtain ⟨-, -, hsources, -, hkeys⟩ := hsame
  have hkey (key : String) (hmem : key ∈ proofKeys) :
      Fields.get? key artifact'.record.metadata = Fields.get? key artifact.record.metadata :=
    (hkeys key hmem).symm
  simp only [checkProofMetadata, outcomeExpectation, Fields.get, Fields.firstOf, Fields.getOr,
    ← haid, ← harequest, ← htid, ← hrid, ← hwid, ← hsources,
    hkey "work_id" (by decide), hkey "run_id" (by decide), hkey "verification_scope" (by decide),
    hkey "scope" (by decide), hkey "subject_version_refs" (by decide),
    hkey "action_ref" (by decide), hkey "request_id" (by decide), hkey "attempt_ref" (by decide),
    hkey "verifier_provenance" (by decide)]

theorem closedResult_congr {r r' : BaseRecord} (h : Kind.SameBinding .record r r') :
    closedResult r'.metadata = closedResult r.metadata := by
  have hkey := h.2.2.2.2 "verification_result" (by decide)
  simp only [closedResult, Fields.get, hkey]

theorem proofClass_congr {artifact artifact' : EvidenceArtifact}
    (hkind : artifact'.kind = artifact.kind)
    (hsame : Kind.SameBinding .record artifact.record artifact'.record) :
    proofClass artifact' = proofClass artifact := by
  have hkey := hsame.2.2.2.2 "proof_class" (by decide)
  simp only [proofClass, Fields.get, hkey, hkind]

/-- Two checked proofs of one reference. -/
def SameProof (a b : EvidenceArtifact × ObjectiveResult × ProofClass) : Prop :=
  Kind.SameBinding .record a.1.record b.1.record ∧ a.2 = b.2

theorem validateProof_congr
    (h : BoundAlike action action' attempt attempt' step step' run run' work work')
    {lookup lookup' : String → Option BaseRecord} {ref : String}
    (hlookup : ∀ r, lookup ref = some r → r.recordType = .evidenceArtifact →
      ∃ r', lookup' ref = some r' ∧ Kind.SameBinding .record r r')
    {proof : EvidenceArtifact × ObjectiveResult × ProofClass}
    (hproof : validateProof (outcomeExpectation request action attempt step run work) lookup ref =
      .ok proof) :
    ∃ proof', validateProof (outcomeExpectation request action' attempt' step' run' work') lookup'
      ref = .ok proof' ∧ SameProof proof proof' := by
  rw [validateProof] at hproof
  cases hr : lookup ref with
  | none => simp [hr, raiseValue] at hproof
  | some r =>
    simp only [hr, Result.check_eq_ok, guardValue_eq_ok, decide_eq_true_eq] at hproof
    obtain ⟨htype, hproof⟩ := hproof
    obtain ⟨r', hr', hsame⟩ := hlookup r hr htype
    cases hartifact : evidenceArtifact? r with
    | none => simp [hartifact, raiseValue] at hproof
    | some artifact =>
      simp only [hartifact, Result.check_eq_ok, guardValue_eq_ok] at hproof
      obtain ⟨hkinds, hproof⟩ := hproof
      obtain ⟨result, hresult, hproof⟩ := Result.bind_eq_ok.mp hproof
      rw [Result.check_eq_ok, Result.bind_eq_ok] at hproof
      obtain ⟨hmetadata, cls, hcls, hproof⟩ := hproof
      rw [Result.pure_eq_ok] at hproof
      obtain ⟨artifact', hartifact', hkind, hartifacts⟩ := evidenceArtifact?_congr hsame hartifact
      refine ⟨(artifact', result, cls), ?_, hproof ▸ ⟨hartifacts, rfl⟩⟩
      rw [validateProof, hr']
      simp only [Result.check_eq_ok, guardValue_eq_ok, decide_eq_true_eq]
      refine ⟨hsame.2.1.symm.trans htype, ?_⟩
      simp only [hartifact', Result.check_eq_ok, guardValue_eq_ok]
      refine ⟨hkind ▸ hkinds, Result.bind_eq_ok.mpr ⟨result, ?_, ?_⟩⟩
      · rw [closedResult_congr hartifacts]
        exact hresult
      · rw [Result.check_eq_ok, Result.bind_eq_ok]
        refine ⟨?_, cls, ?_, rfl⟩
        · rw [checkProofMetadata_congr h hartifacts]
          exact hmetadata
        · rw [proofClass_congr hkind hartifacts]
          exact hcls

theorem validateBinding_congr
    (h : BoundAlike action action' attempt attempt' step step' run run' work work')
    {lookup lookup' : String → Option BaseRecord} {refs : List String}
    (hlookup : ∀ ref ∈ refs, ∀ r, lookup ref = some r → r.recordType = .evidenceArtifact →
      ∃ r', lookup' ref = some r' ∧ Kind.SameBinding .record r r')
    {validated : BoundVerificationEvidence}
    (hvalidated : validateBinding (outcomeExpectation request action attempt step run work) refs
      lookup = .ok validated) :
    ∃ validated', validateBinding (outcomeExpectation request action' attempt' step' run' work')
        refs lookup' = .ok validated' ∧
      validated'.objectiveResult = validated.objectiveResult ∧
      List.Forall₂ (fun a b => Kind.SameBinding .record a.record b.record) validated.records
        validated'.records := by
  rw [validateBinding, Result.check_eq_ok, Result.check_eq_ok, Result.check_eq_ok,
    Result.check_eq_ok, Result.bind_eq_ok] at hvalidated
  obtain ⟨hne, hnodup, hwork, hexecution, proofs, hproofs, hrest⟩ := hvalidated
  obtain ⟨proofs', hproofs', hall⟩ := Result.mapM_rel (fun ref href proof hproof =>
    validateProof_congr h (hlookup ref (List.mem_filter.mp href).1) hproof) hproofs
  have hresults : proofs'.map (fun p => p.2.1) = proofs.map (fun p => p.2.1) :=
    (map_eq_of_forall₂ (fun a b hab => by rw [hab.2]) hall).symm
  cases hdedup : (proofs.map (fun p => p.2.1)).dedup with
  | nil => simp [hdedup, raiseValue] at hrest
  | cons result others =>
    cases others with
    | cons _ _ => simp [hdedup, raiseValue] at hrest
    | nil =>
      simp only [hdedup, Result.pure_eq_ok] at hrest
      refine ⟨⟨proofs'.map (fun p => p.1), result, proofs'.map (fun p => p.2.2)⟩, ?_,
        by rw [← hrest], ?_⟩
      · rw [validateBinding, Result.check_eq_ok, Result.check_eq_ok, Result.check_eq_ok,
          Result.check_eq_ok, Result.bind_eq_ok]
        refine ⟨hne, hnodup, ?_, ?_, proofs', hproofs', ?_⟩
        · have hwid : work.id = work'.id := h.work
          rw [guardValue_eq_ok] at hwork ⊢
          show decide (work'.id = run'.workId) = true
          rw [← hwid, ← h.run.2]
          exact hwork
        · rw [checkExecutionBinding_congr h]
          exact hexecution
        · rw [hresults, hdedup]
          rfl
      · rw [← hrest]
        show List.Forall₂ _ (proofs.map (fun p => p.1)) (proofs'.map (fun p => p.1))
        rw [List.forall₂_map_left_iff, List.forall₂_map_right_iff]
        exact hall.imp (fun _ _ hab => hab.1)

theorem get_eq_of_sameBinding {key : String} (hkey : key ∈ proofKeys) (a b : BaseRecord)
    (h : Kind.SameBinding .record a b) : a.metadata.get key = b.metadata.get key := by
  rw [Fields.get, Fields.get, h.2.2.2.2 key hkey]

theorem authorityFacts_congr
    (h : BoundAlike action action' attempt attempt' step step' run run' work work')
    {validated validated' : BoundVerificationEvidence}
    (hresult : validated'.objectiveResult = validated.objectiveResult)
    (hrecords : List.Forall₂ (fun a b => Kind.SameBinding .record a.record b.record)
      validated.records validated'.records) :
    authorityFacts digest now request action' attempt' run' work' validated' =
      authorityFacts digest now request action attempt run work validated := by
  obtain ⟨⟨haid, -, -, harequest, -⟩, ⟨htid, -⟩, -, ⟨hrid, -⟩, hwid⟩ := h
  have hwid : work.id = work'.id := hwid
  have hproofs : List.Forall₂ (Kind.SameBinding .record) (sortedProofs validated)
      (sortedProofs validated') := by
    refine forall₂_insertionSort (fun a b a' b' hab hab' => ?_) ?_
    · rw [hab.1, hab'.1]
    · rw [List.forall₂_map_left_iff, List.forall₂_map_right_iff]
      exact hrecords
  have hartifacts := flatMap_eq_of_forall₂ (f := fun r => stringList (r.metadata.get "artifact_refs"))
    (g := fun r => stringList (r.metadata.get "artifact_refs"))
    (fun a b hab => by rw [get_eq_of_sameBinding (by decide) a b hab]) hproofs
  have hobligations := flatMap_eq_of_forall₂
    (f := fun r => stringList (r.metadata.get "obligation_refs"))
    (g := fun r => stringList (r.metadata.get "obligation_refs"))
    (fun a b hab => by rw [get_eq_of_sameBinding (by decide) a b hab]) hproofs
  have hprovenance := map_eq_of_forall₂ (f := fun r => r.metadata.get "verifier_provenance")
    (g := fun r => r.metadata.get "verifier_provenance")
    (get_eq_of_sameBinding (by decide)) hproofs
  have hpayload (refs versions : List String) (scope : Fields) (result : ObjectiveResult) :
      bindingPayload action' attempt' work' run' refs versions scope result =
        bindingPayload action attempt work run refs versions scope result := by
    simp only [bindingPayload, ← haid, ← harequest, ← htid, ← hrid, ← hwid]
  simp only [authorityFacts, outcomeDigest, verifiedOutcome, proofArtifactRefs, hresult, hpayload,
    ← hartifacts, ← hobligations, ← hprovenance, ← haid, ← harequest, ← htid, ← hrid, ← hwid]

/-- Readers that agree on what a request reads derive the same outcome and events. -/
theorem prepare_congr (h : Agree reader reader' request)
    (hprepared : prepareVerifiedOutcomeCommit digest now reader request = .ok prepared) :
    prepareVerifiedOutcomeCommit digest now reader' request = .ok prepared := by
  obtain ⟨d, rfl⟩ := prepare_eq_ok.mp hprepared
  obtain ⟨action', haction', hsameAction⟩ := h.action d.action d.getAction
  obtain ⟨attempt', hattempt', hsameAttempt⟩ := h.attempt d.attempt d.getAttempt
  obtain ⟨step', hstep', hsameStep⟩ := h.step d.attempt d.getAttempt d.step d.getStep
  obtain ⟨run', hrun', hsameRun⟩ := h.run d.run d.getRun
  obtain ⟨work', hwork', hsameWork⟩ := h.work d.work d.getWork
  have hobjects : BoundAlike d.action action' d.attempt attempt' d.step step' d.run run' d.work
      work' := ⟨hsameAction, hsameAttempt, hsameStep, hsameRun, hsameWork⟩
  obtain ⟨validated', hvalidated', hresult, hrecords⟩ :=
    validateBinding_congr hobjects h.record d.validates
  refine prepare_eq_ok.mpr ⟨⟨action', attempt', step', run', work', validated', d.evidence,
    d.distinct, d.versions, haction', hattempt', ?_, hrun', hwork', hvalidated'⟩, ?_⟩
  · rw [← hsameAttempt.2.1]
    exact hstep'
  · exact authorityFacts_congr hobjects hresult hrecords

end Proofs

/-! ## Deriving an outcome again -/

/-- The same facts, created at another time. -/
def PreparedVerifiedOutcomeCommit.createdAt (now : Time) (p : PreparedVerifiedOutcomeCommit) :
    PreparedVerifiedOutcomeCommit :=
  { outcome := { p.outcome with createdAt := now }
    accepted := { p.accepted with createdAt := now }
    confirmed := { p.confirmed with createdAt := now } }

theorem prepare_later (later : Time)
    (h : prepareVerifiedOutcomeCommit digest now reader request = .ok prepared) :
    prepareVerifiedOutcomeCommit digest later reader request = .ok (prepared.createdAt later) := by
  obtain ⟨d, rfl⟩ := prepare_eq_ok.mp h
  exact prepare_eq_ok.mpr ⟨d, rfl⟩

def VerifiedOutcomeCommitRequest.normal (request : VerifiedOutcomeCommitRequest) :
    VerifiedOutcomeCommitRequest :=
  { request with
    evidenceRefs := Text.normalized request.evidenceRefs
    subjectVersionRefs := Text.normalized request.subjectVersionRefs }

theorem prepare_normal (h : prepareVerifiedOutcomeCommit digest now reader request = .ok prepared) :
    prepareVerifiedOutcomeCommit digest now reader request.normal = .ok prepared := by
  obtain ⟨d, rfl⟩ := prepare_eq_ok.mp h
  have hevidence : Text.normalized request.normal.evidenceRefs =
      Text.normalized request.evidenceRefs := Text.normalized_idem _
  have hversions : Text.normalized request.normal.subjectVersionRefs =
      Text.normalized request.subjectVersionRefs := Text.normalized_idem _
  have hexpected : outcomeExpectation request.normal d.action d.attempt d.step d.run d.work =
      outcomeExpectation request d.action d.attempt d.step d.run d.work := by
    simp only [outcomeExpectation, hversions]
    rfl
  refine prepare_eq_ok.mpr ⟨⟨d.action, d.attempt, d.step, d.run, d.work, d.validated,
    hevidence ▸ d.evidence, congrArg List.length hevidence, hversions ▸ d.versions, d.getAction,
    d.getAttempt, d.getStep, d.getRun, d.getWork, ?_⟩, ?_⟩
  · rw [hexpected, hevidence]
    exact d.validates
  · simp only [Derivation.facts, authorityFacts, outcomeDigest, hevidence, hversions]
    rfl

/-- Objects are read under their own identities. -/
structure VerifiedOutcomeStoreReader.Keyed (reader : VerifiedOutcomeStoreReader) : Prop where
  action : ∀ id a, reader.getAction id = some a → a.id = id
  run : ∀ id r, reader.getRun id = some r → r.id = id
  work : ∀ id w, reader.getWork id = some w → w.id = id

/-- The references of a request that its outcome has to carry. -/
def VerifiedOutcomeCommitRequest.Named (request : VerifiedOutcomeCommitRequest) : Prop :=
  ∀ ref ∈ [request.expectedWorkId, request.expectedRunId, request.expectedRequestId,
    request.expectedAttemptRef], Text.nonBlank ref = true

/-- What a validated binding says of the execution. -/
theorem Derivation.bound (d : Derivation reader request) :
    d.attempt.id = request.expectedAttemptRef ∧ d.action.requestRef = request.expectedRequestId := by
  have h := d.validates
  rw [validateBinding, Result.check_eq_ok, Result.check_eq_ok, Result.check_eq_ok,
    Result.check_eq_ok] at h
  have hexecution := h.2.2.2.1
  simp only [checkExecutionBinding, outcomeExpectation, Result.check_eq_ok, guardValue_eq_ok,
    Bool.and_eq_true, decide_eq_true_eq] at hexecution
  obtain ⟨-, -, hattempt, -, hrequest, -⟩ := hexecution
  exact ⟨hattempt.symm, hrequest.1⟩

theorem requiredMetadataString_eq_ok {metadata : Fields} {key value : String}
    (hget : metadata.get key = .str value) (hblank : Text.nonBlank value = true) :
    requiredMetadataString metadata key = .ok value := by
  rw [requiredMetadataString, hget]
  exact if_pos hblank

theorem stringItems?_ofStrings (values : List String) :
    stringItems? (.ofStrings values) = some values := by
  have hall : (values.map Json.str).all Json.isStr = true := by
    simp [Json.isStr, Json.asStr?]
  have hmap : (values.map Json.str).map Json.pyStr = values := by
    rw [List.map_map]
    exact List.map_id' values
  rw [Json.ofStrings, stringItems?, if_pos hall, hmap]

/-- The request of an outcome can be read off the outcome. -/
theorem reconstruct_outcome (hkeyed : reader.Keyed) (hnamed : request.Named)
    (h : prepareVerifiedOutcomeCommit digest now reader request = .ok prepared) :
    reconstructVerifiedOutcomeCommitRequest reader prepared.outcome = .ok request.normal := by
  obtain ⟨d, rfl⟩ := prepare_eq_ok.mp h
  obtain ⟨hattempt, hrequest⟩ := d.bound
  have haction := hkeyed.action _ _ d.getAction
  have hrun := hkeyed.run _ _ d.getRun
  have hwork := hkeyed.work _ _ d.getWork
  have hget : reader.getAction d.action.id = some d.action := by
    rw [haction]
    exact d.getAction
  have hworkId : requiredMetadataString (d.facts digest now).outcome.metadata "work_id" =
      .ok request.expectedWorkId :=
    requiredMetadataString_eq_ok (congrArg Json.str hwork) (hnamed _ (by simp))
  have hrunId : requiredMetadataString (d.facts digest now).outcome.metadata "run_id" =
      .ok request.expectedRunId :=
    requiredMetadataString_eq_ok (congrArg Json.str hrun) (hnamed _ (by simp))
  have hrequestId : requiredMetadataString (d.facts digest now).outcome.metadata "request_id" =
      .ok request.expectedRequestId :=
    requiredMetadataString_eq_ok (congrArg Json.str hrequest) (hnamed _ (by simp))
  have hattemptRef : requiredMetadataString (d.facts digest now).outcome.metadata "attempt_ref" =
      .ok request.expectedAttemptRef :=
    requiredMetadataString_eq_ok (congrArg Json.str hattempt) (hnamed _ (by simp))
  have hscope : ((d.facts digest now).outcome.metadata.get "verification_scope").asFields? =
      some request.verificationScope := rfl
  have hversions : stringItems? ((d.facts digest now).outcome.metadata.get "subject_version_refs") =
      some (Text.normalized request.subjectVersionRefs) := stringItems?_ofStrings _
  have hevidence : stringItems? ((d.facts digest now).outcome.getattr "evidence_refs") =
      some (Text.normalized request.evidenceRefs) := stringItems?_ofStrings _
  have hactionRef : ((d.facts digest now).outcome.getattr "action_ref").pyStr = d.action.id := rfl
  rw [reconstructVerifiedOutcomeCommitRequest, hscope, hversions, hactionRef, hget, hworkId, hrunId,
    hrequestId, hattemptRef, hevidence]
  exact congrArg (fun ref => Except.ok { request.normal with actionRef := ref }) haction

end Derivation

theorem reconstruct_congr {outcome : BaseRecord}
    (haction : ∀ id a, reader.getAction id = some a → (outcome.getattr "action_ref").pyStr = id →
      ∃ a', reader'.getAction id = some a' ∧ a'.id = a.id)
    (h : reconstructVerifiedOutcomeCommitRequest reader outcome = .ok request) :
    reconstructVerifiedOutcomeCommitRequest reader' outcome = .ok request := by
  rw [reconstructVerifiedOutcomeCommitRequest] at h ⊢
  simp only [Result.bind_eq_ok, orRaise_eq_ok] at h ⊢
  obtain ⟨scope, hscope, versions, hversions, a, ha, hrest⟩ := h
  obtain ⟨a', ha', hid⟩ := haction _ a ha rfl
  exact ⟨scope, hscope, versions, hversions, a', ha', by rw [hid]; exact hrest⟩

/-! ## What the validator asks of a state -/

/-- The objects that the validator reads by identity. -/
def replayedKinds : List Kind := [.action, .attempt, .step, .run, .work, .event]

/-- The records as the classes that the validator reads. -/
def State.parsed (s : State) : List BaseRecord :=
  s.records.filterMap (fun r => (parseRecord r).toOption)

def State.replayReader (s : State) : VerifiedOutcomeStoreReader where
  getAction := (State.byId (s .action)).get?
  getAttempt := (State.byId (s .attempt)).get?
  getStep := (State.byId (s .step)).get?
  getRun := (State.byId (s .run)).get?
  getWork := (State.byId (s .work)).get?
  getRecord := (State.byId (k := .record) s.parsed).get?

/-- The validator can read the state. -/
structure Readable (s : State) : Prop where
  nonempty : ∀ k ∈ replayedKinds, "" ∉ (s k).map k.identifier
  nodup : ∀ k ∈ replayedKinds, ((s k).map k.identifier).Nodup
  parsed : ∀ r ∈ s.records, (parseRecord r).isOk = true
  records : (s.records.map BaseRecord.id).Nodup

theorem parseBucket_eq_ok {k : Kind} {values : List (Model k)} {d : Dict String (Model k)} :
    parseBucket k values = .ok d ↔ "" ∉ values.map k.identifier ∧
      (values.map k.identifier).Nodup ∧ State.byId values = d := by
  rw [parseBucket]
  by_cases hempty : "" ∈ values.map k.identifier
  · simp [hempty, historyError, raiseValue]
  · by_cases hnodup : (values.map k.identifier).Nodup
    · simp [hempty, hnodup, pure, Except.pure]
    · simp [hempty, hnodup, historyError, raiseValue]

theorem id_of_parseRecord {r o : BaseRecord} (h : parseRecord r = .ok o) :
    o.id = r.id ∧ o.recordType = r.recordType ∧ o.lifecycleStatus = r.lifecycleStatus := by
  unfold parseRecord at h
  split at h
  · split at h
    · obtain rfl := Except.ok.inj h
      exact ⟨rfl, rfl, rfl⟩
    · exact absurd h (by simp [raiseValue])
  · unfold asOutcomeRecord at h
    simp only at h
    split at h
    · obtain rfl := Except.ok.inj h
      exact ⟨rfl, rfl, rfl⟩
    · exact absurd h (by simp [raiseValue])
  · obtain rfl := Except.ok.inj h
    exact ⟨rfl, rfl, rfl⟩

theorem mapM_parseRecord {records : List BaseRecord} {parsed : List BaseRecord} :
    records.mapM parseRecord = .ok parsed ↔ (∀ r ∈ records, (parseRecord r).isOk = true) ∧
      records.filterMap (fun r => (parseRecord r).toOption) = parsed := by
  induction records generalizing parsed with
  | nil => simp [List.mapM_nil, pure, Except.pure]
  | cons r rest ih =>
    rw [List.mapM_cons, List.forall_mem_cons]
    cases hr : parseRecord r with
    | error e => simp [bind, Except.bind, Except.isOk, Except.toBool]
    | ok o =>
      simp only [Result.bind_eq_ok, Result.pure_eq_ok, Except.ok.injEq, exists_eq_left', ih]
      simp only [hr, List.filterMap_cons, Except.toOption, Except.isOk, Except.toBool, true_and]
      constructor
      · rintro ⟨parsed', ⟨hall, rfl⟩, rfl⟩
        exact ⟨hall, rfl⟩
      · rintro ⟨hall, rfl⟩
        exact ⟨_, ⟨hall, rfl⟩, rfl⟩

theorem ids_parsed {s : State} (h : ∀ r ∈ s.records, (parseRecord r).isOk = true) :
    s.parsed.map BaseRecord.id = s.records.map BaseRecord.id := by
  unfold State.parsed
  generalize s.records = records at h
  induction records with
  | nil => rfl
  | cons r rest ih =>
    rw [List.forall_mem_cons] at h
    obtain ⟨o, ho⟩ := Result.exists_of_isOk h.1
    rw [List.filterMap_cons_some (b := o) (by rw [ho]; rfl), List.map_cons, List.map_cons,
      (id_of_parseRecord ho).1, ih h.2]

theorem candidateReader_eq_ok {s : State}
    {r : VerifiedOutcomeStoreReader × Dict String BaseRecord × Dict String Event} :
    verifiedOutcomeCandidateReader s = .ok r ↔ Readable s ∧
      (s.replayReader, State.byId (k := .record) s.parsed, State.byId (s .event)) = r := by
  rw [verifiedOutcomeCandidateReader]
  constructor
  · intro h
    obtain ⟨actions, ha, h⟩ := Result.bind_eq_ok.mp h
    obtain ⟨attempts, ht, h⟩ := Result.bind_eq_ok.mp h
    obtain ⟨steps, hs, h⟩ := Result.bind_eq_ok.mp h
    obtain ⟨runs, hr, h⟩ := Result.bind_eq_ok.mp h
    obtain ⟨works, hw, h⟩ := Result.bind_eq_ok.mp h
    obtain ⟨parsed, hp, h⟩ := Result.bind_eq_ok.mp h
    obtain ⟨hna, hda, rfl⟩ := parseBucket_eq_ok.mp ha
    obtain ⟨hnt, hdt, rfl⟩ := parseBucket_eq_ok.mp ht
    obtain ⟨hns, hds, rfl⟩ := parseBucket_eq_ok.mp hs
    obtain ⟨hnr, hdr, rfl⟩ := parseBucket_eq_ok.mp hr
    obtain ⟨hnw, hdw, rfl⟩ := parseBucket_eq_ok.mp hw
    obtain ⟨hparsed, rfl⟩ := mapM_parseRecord.mp hp
    by_cases hnodup : (s.parsed.map BaseRecord.id).Nodup
    · simp only [show s.records.filterMap (fun r => (parseRecord r).toOption) = s.parsed from rfl,
        hnodup, not_true_eq_false, if_false] at h
      obtain ⟨events, he, h⟩ := Result.bind_eq_ok.mp h
      obtain ⟨hne, hde, rfl⟩ := parseBucket_eq_ok.mp he
      refine ⟨⟨?_, ?_, hparsed, ids_parsed hparsed ▸ hnodup⟩, Result.pure_eq_ok.mp h⟩
      · simp only [replayedKinds, List.forall_mem_cons]
        exact ⟨hna, hnt, hns, hnr, hnw, hne, fun _ h => absurd h List.not_mem_nil⟩
      · simp only [replayedKinds, List.forall_mem_cons]
        exact ⟨hda, hdt, hds, hdr, hdw, hde, fun _ h => absurd h List.not_mem_nil⟩
    · simp only [show s.records.filterMap (fun r => (parseRecord r).toOption) = s.parsed from rfl,
        hnodup, not_false_eq_true, if_true] at h
      exact absurd h (by simp [historyError, raiseValue, bind, Except.bind])
  · rintro ⟨h, rfl⟩
    have hbucket (k : Kind) (hk : k ∈ replayedKinds) :
        parseBucket k (s k) = .ok (State.byId (s k)) :=
      parseBucket_eq_ok.mpr ⟨h.nonempty k hk, h.nodup k hk, rfl⟩
    have hnodup : (s.parsed.map BaseRecord.id).Nodup := by
      rw [ids_parsed h.parsed]
      exact h.records
    refine Result.bind_eq_ok.mpr ⟨_, hbucket .action (by decide), ?_⟩
    refine Result.bind_eq_ok.mpr ⟨_, hbucket .attempt (by decide), ?_⟩
    refine Result.bind_eq_ok.mpr ⟨_, hbucket .step (by decide), ?_⟩
    refine Result.bind_eq_ok.mpr ⟨_, hbucket .run (by decide), ?_⟩
    refine Result.bind_eq_ok.mpr ⟨_, hbucket .work (by decide), ?_⟩
    refine Result.bind_eq_ok.mpr ⟨_, mapM_parseRecord.mpr ⟨h.parsed, rfl⟩, ?_⟩
    simp only [show s.records.filterMap (fun r => (parseRecord r).toOption) = s.parsed from rfl,
      hnodup, not_true_eq_false, if_false]
    exact Result.bind_eq_ok.mpr ⟨_, hbucket .event (by decide), rfl⟩

def BaseRecord.IsConfirmed (r : BaseRecord) : Prop :=
  r.recordType = .outcome ∧ r.lifecycleStatus = .confirmed

/-- A stored outcome is the one that its own fields derive, and its events are there. -/
structure Rederived (digest : Json → String) (now : Time) (reader : VerifiedOutcomeStoreReader)
    (getEvent : String → Option Event) (outcome : BaseRecord)
    (prepared : PreparedVerifiedOutcomeCommit) : Prop where
  derived : ∃ request, reconstructVerifiedOutcomeCommitRequest reader outcome = .ok request ∧
    prepareVerifiedOutcomeCommit digest now reader request = .ok prepared
  id : outcome.id = prepared.outcome.id
  semantics : sameVerifiedOutcomeSemantics outcome.dump prepared.outcome.dump = true
  events : ∀ e ∈ prepared.events, ∃ stored, getEvent e.id = some stored ∧
    sameVerifiedOutcomeSemantics stored.dump e.dump = true

theorem replayOutcome_eq_ok {events : Dict String Event} {outcome : BaseRecord}
    {ids : List String} :
    replayOutcome digest now reader events outcome = .ok ids ↔
      ∃ prepared, Rederived digest now reader events.get? outcome prepared ∧
        prepared.events.map (fun e => e.id) = ids := by
  have hloop {f : Event → Unit → Result (ForInStep Unit)}
      (hnone : ∀ e, events.get? e.id = none → ∃ error, f e () = .error error)
      (hsome : ∀ e stored, events.get? e.id = some stored → ∀ x, f e () = .ok x ↔
        sameVerifiedOutcomeSemantics stored.dump e.dump = true ∧ x = .yield ())
      (es : List Event) {u : Unit} : forIn es () f = .ok u ↔ ∀ e ∈ es, ∃ stored,
        events.get? e.id = some stored ∧
          sameVerifiedOutcomeSemantics stored.dump e.dump = true := by
    apply Result.forIn_eq_ok
    intro e x
    cases hget : events.get? e.id with
    | none =>
      obtain ⟨error, herror⟩ := hnone e hget
      simp [herror]
    | some stored => simp [hsome e stored hget x]
  rw [replayOutcome]
  simp only [Result.bind_eq_ok]
  constructor
  · rintro ⟨request, hrequest, prepared, hprepared, h⟩
    cases hsame : outcome.id == prepared.outcome.id &&
        sameVerifiedOutcomeSemantics outcome.dump prepared.outcome.dump with
    | false => simp [hsame, historyError, raiseValue, bind, Except.bind] at h
    | true =>
      simp only [hsame, Bool.not_true, Bool.false_eq_true, if_false] at h
      obtain ⟨u, hevents, hids⟩ := Result.bind_eq_ok.mp h
      rw [Bool.and_eq_true, beq_iff_eq] at hsame
      refine ⟨prepared, ⟨⟨request, hrequest, hprepared⟩, hsame.1, hsame.2,
        (hloop ?_ ?_ prepared.events).mp hevents⟩, Result.pure_eq_ok.mp hids⟩
      · intro e hget
        simp [hget, historyError, raiseValue, bind, Except.bind]
      · intro e stored hget x
        cases hstored : sameVerifiedOutcomeSemantics stored.dump e.dump <;>
          simp [hget, hstored, historyError, raiseValue, bind, Except.bind, pure, Except.pure,
            eq_comm]
  · rintro ⟨prepared, h, rfl⟩
    obtain ⟨request, hrequest, hprepared⟩ := h.derived
    refine ⟨request, hrequest, prepared, hprepared, ?_⟩
    have hsame : (outcome.id == prepared.outcome.id &&
        sameVerifiedOutcomeSemantics outcome.dump prepared.outcome.dump) = true := by
      rw [Bool.and_eq_true, beq_iff_eq]
      exact ⟨h.id, h.semantics⟩
    simp only [hsame, Bool.not_true, Bool.false_eq_true, if_false]
    refine Result.bind_eq_ok.mpr ⟨⟨⟩, (hloop ?_ ?_ prepared.events).mpr h.events, rfl⟩
    · intro e hget
      simp [hget, historyError, raiseValue, bind, Except.bind]
    · intro e stored hget x
      cases hstored : sameVerifiedOutcomeSemantics stored.dump e.dump <;>
        simp [hget, hstored, historyError, raiseValue, bind, Except.bind, pure, Except.pure,
          eq_comm]

structure AuthorityClosed (digest : Json → String) (now : Time) (s : State) : Prop where
  readable : Readable s
  outcomes : ∀ o ∈ s.parsed, o.IsConfirmed →
    ∃ p, Rederived digest now s.replayReader (State.byId (s .event)).get? o p
  events : ∀ e ∈ s.events, e.type ∈ authorityEventTypes → ∃ o ∈ s.parsed, o.IsConfirmed ∧
    ∃ p, Rederived digest now s.replayReader (State.byId (s .event)).get? o p ∧
      e.id ∈ p.events.map (fun e => e.id)

theorem authorityClosed_iff {s : State} :
    validateVerifiedOutcomeAuthorityGraph digest now s = .ok () ↔ AuthorityClosed digest now s := by
  rw [validateVerifiedOutcomeAuthorityGraph, Result.bind_eq_ok]
  simp only [candidateReader_eq_ok]
  have hconfirmed (o : BaseRecord) : o ∈ s.parsed.filter
      (fun r => r.recordType = .outcome && r.lifecycleStatus = .confirmed) ↔
      o ∈ s.parsed ∧ o.IsConfirmed := by
    simp [List.mem_filter, BaseRecord.IsConfirmed]
  constructor
  · rintro ⟨r, ⟨hreadable, rfl⟩, h⟩
    have hrecords : (State.byId (k := .record) s.parsed).values = s.parsed := State.values_byId
      ((ids_parsed hreadable.parsed).symm ▸ hreadable.records)
    have hevents : (State.byId (s .event)).values = s .event :=
      State.values_byId (hreadable.nodup .event (by decide))
    simp only [hrecords, hevents] at h
    obtain ⟨expected, hexpected, h⟩ := Result.bind_eq_ok.mp h
    rw [guardValue_eq_ok, List.all_eq_true] at h
    refine ⟨hreadable, fun o ho hc => ?_, fun e he htype => ?_⟩
    · obtain ⟨ids, hids⟩ := Result.exists_of_mapM hexpected o ((hconfirmed o).mpr ⟨ho, hc⟩)
      obtain ⟨p, hp, -⟩ := replayOutcome_eq_ok.mp hids
      exact ⟨p, hp⟩
    · have hmem := h e (List.mem_filter.mpr ⟨he, by simpa using htype⟩)
      obtain ⟨ids, hids, heid⟩ := List.mem_flatten.mp (List.contains_iff_mem.mp hmem)
      obtain ⟨o, ho, hreplay⟩ := (Result.mem_of_mapM hexpected ids).mp hids
      obtain ⟨hparsed, hc⟩ := (hconfirmed o).mp ho
      obtain ⟨p, hp, rfl⟩ := replayOutcome_eq_ok.mp hreplay
      exact ⟨o, hparsed, hc, p, hp, heid⟩
  · intro h
    refine ⟨_, ⟨h.readable, rfl⟩, ?_⟩
    have hrecords : (State.byId (k := .record) s.parsed).values = s.parsed := State.values_byId
      ((ids_parsed h.readable.parsed).symm ▸ h.readable.records)
    have hevents : (State.byId (s .event)).values = s .event :=
      State.values_byId (h.readable.nodup .event (by decide))
    simp only [hrecords, hevents]
    have hreplays (o : BaseRecord) (ho : o ∈ s.parsed.filter
        (fun r => r.recordType = .outcome && r.lifecycleStatus = .confirmed)) :
        ∃ ids, replayOutcome digest now s.replayReader (State.byId (s .event)) o = .ok ids := by
      obtain ⟨hmem, hc⟩ := (hconfirmed o).mp ho
      obtain ⟨p, hp⟩ := h.outcomes o hmem hc
      exact ⟨_, replayOutcome_eq_ok.mpr ⟨p, hp, rfl⟩⟩
    obtain ⟨expected, hexpected⟩ := Result.exists_mapM hreplays
    refine Result.bind_eq_ok.mpr ⟨expected, hexpected, ?_⟩
    rw [guardValue_eq_ok, List.all_eq_true]
    intro e he
    obtain ⟨he, htype⟩ := List.mem_filter.mp he
    obtain ⟨o, ho, hc, p, hp, heid⟩ := h.events e he (by simpa using htype)
    refine List.contains_iff_mem.mpr (List.mem_flatten.mpr ⟨_, ?_, heid⟩)
    exact (Result.mem_of_mapM hexpected _).mpr
      ⟨o, (hconfirmed o).mpr ⟨ho, hc⟩, replayOutcome_eq_ok.mpr ⟨p, hp, rfl⟩⟩

/-! ### Neither the order nor the clock counts -/

theorem BaseRecord.pop_createdAt (r : BaseRecord) (later : Time) :
    Fields.pop ({ r with createdAt := later } : BaseRecord).dump "created_at" =
      Fields.pop r.dump "created_at" := by
  simp [BaseRecord.dump, Fields.pop]

theorem Event.pop_createdAt (e : Event) (later : Time) :
    Fields.pop ({ e with createdAt := later } : Event).dump "created_at" =
      Fields.pop e.dump "created_at" := by
  simp [Event.dump, RuntimeModel.base, Fields.pop]

/-- The events of an outcome that are stored, prepared at another time. -/
theorem events_later {getEvent : String → Option Event} {p : PreparedVerifiedOutcomeCommit}
    (later : Time) (h : ∀ e ∈ p.events, ∃ stored, getEvent e.id = some stored ∧
      sameVerifiedOutcomeSemantics stored.dump e.dump = true) :
    ∀ e ∈ (p.createdAt later).events, ∃ stored, getEvent e.id = some stored ∧
      sameVerifiedOutcomeSemantics stored.dump e.dump = true := by
  have hlater (e : Event) (he : e ∈ p.events) :
      ∃ stored, getEvent e.id = some stored ∧ sameVerifiedOutcomeSemantics stored.dump
        ({ e with createdAt := later } : Event).dump = true := by
    obtain ⟨stored, hstored, hsame⟩ := h e he
    refine ⟨stored, hstored, ?_⟩
    rw [sameVerifiedOutcomeSemantics, Event.pop_createdAt]
    exact hsame
  intro e he
  rcases List.mem_pair.mp he with rfl | rfl
  · exact hlater p.accepted List.mem_cons_self
  · exact hlater p.confirmed (List.mem_cons_of_mem _ List.mem_cons_self)

theorem Rederived.later {getEvent : String → Option Event} {outcome : BaseRecord}
    (h : Rederived digest now reader getEvent outcome prepared) (later : Time) :
    Rederived digest later reader getEvent outcome (prepared.createdAt later) := by
  obtain ⟨request, hrequest, hprepared⟩ := h.derived
  refine ⟨⟨request, hrequest, prepare_later later hprepared⟩, h.id, ?_, events_later later h.events⟩
  rw [sameVerifiedOutcomeSemantics, PreparedVerifiedOutcomeCommit.createdAt,
    BaseRecord.pop_createdAt]
  exact h.semantics

theorem State.get?_byId_perm {k : Kind} {l l' : List (Model k)} (h : l.Perm l')
    (hnodup : (l.map k.identifier).Nodup) : (State.byId l').get? = (State.byId l).get? := by
  funext ref
  ext m
  rw [State.get?_byId (((h.map k.identifier).nodup_iff).mp hnodup), State.get?_byId hnodup,
    h.mem_iff]

theorem AuthorityClosed.rearranged {s s' : State} (h : AuthorityClosed digest now s)
    (hre : s.Rearranged s') : AuthorityClosed digest now s' := by
  have hparsed : s.parsed.Perm s'.parsed := (hre .record).filterMap _
  have hnodup := h.readable.nodup
  have hreader : s'.replayReader = s.replayReader := by
    unfold State.replayReader
    rw [State.get?_byId_perm (hre .action) (hnodup .action (by decide)),
      State.get?_byId_perm (hre .attempt) (hnodup .attempt (by decide)),
      State.get?_byId_perm (hre .step) (hnodup .step (by decide)),
      State.get?_byId_perm (hre .run) (hnodup .run (by decide)),
      State.get?_byId_perm (hre .work) (hnodup .work (by decide)),
      State.get?_byId_perm (k := .record) hparsed
        ((ids_parsed h.readable.parsed).symm ▸ h.readable.records)]
  have hevents := State.get?_byId_perm (hre .event) (hnodup .event (by decide))
  refine ⟨⟨fun k hk hmem => ?_, fun k hk => ?_, fun r hr => ?_, ?_⟩, fun o ho hc => ?_,
    fun e he htype => ?_⟩
  · exact h.readable.nonempty k hk (((hre k).map k.identifier).mem_iff.mpr hmem)
  · exact (((hre k).map k.identifier).nodup_iff).mp (hnodup k hk)
  · exact h.readable.parsed r ((hre .record).mem_iff.mpr hr)
  · exact (((hre .record).map BaseRecord.id).nodup_iff).mp h.readable.records
  · rw [hreader, hevents]
    exact h.outcomes o (hparsed.mem_iff.mpr ho) hc
  · obtain ⟨o, ho, hc, p, hp, heid⟩ := h.events e ((hre .event).mem_iff.mpr he) htype
    refine ⟨o, hparsed.mem_iff.mp ho, hc, p, ?_, heid⟩
    rw [hreader, hevents]
    exact hp

/-! ### What keeps an outcome derivable -/

theorem type_of_sameSemantics {e e' : Event}
    (h : sameVerifiedOutcomeSemantics e.dump e'.dump = true) : e.type = e'.type := by
  have hget (e : Event) : Fields.get? "type" (Fields.pop e.dump "created_at") =
      some (.str e.type) := by
    simp [Event.dump, RuntimeModel.base, Fields.pop, Fields.get?]
  have hsame := Json.pyEq_get "type" h (hget e) (hget e')
  exact Json.str.inj (Json.pyEq_str.mp hsame)

theorem subjectRef_of_sameSemantics {e e' : Event}
    (h : sameVerifiedOutcomeSemantics e.dump e'.dump = true) : e.subjectRef = e'.subjectRef := by
  have hget (e : Event) : Fields.get? "subject_ref" (Fields.pop e.dump "created_at") =
      some (.str e.subjectRef) := by
    simp [Event.dump, RuntimeModel.base, Fields.pop, Fields.get?]
  exact Json.str.inj (Json.pyEq_str.mp (Json.pyEq_get "subject_ref" h (hget e) (hget e')))

/-- The events of an outcome are about it. -/
theorem subjectRef_of_prepared {p : PreparedVerifiedOutcomeCommit}
    (h : prepareVerifiedOutcomeCommit digest now reader request = .ok p) :
    ∀ e ∈ p.events, e.subjectRef = p.outcome.id := by
  obtain ⟨d, rfl⟩ := prepare_eq_ok.mp h
  intro e he
  rcases List.mem_pair.mp he with rfl | rfl
  · rfl
  · rfl

theorem type_of_prepared {p : PreparedVerifiedOutcomeCommit}
    (h : prepareVerifiedOutcomeCommit digest now reader request = .ok p) :
    ∀ e ∈ p.events, e.type ∈ authorityEventTypes := by
  obtain ⟨d, rfl⟩ := prepare_eq_ok.mp h
  intro e he
  rcases List.mem_pair.mp he with rfl | rfl
  · exact List.mem_cons_self
  · exact List.mem_cons_of_mem _ List.mem_cons_self

/-- An outcome is still derived where its objects read the same and its events are kept. -/
theorem Rederived.mono {reader reader' : VerifiedOutcomeStoreReader}
    {getEvent getEvent' : String → Option Event} {o : BaseRecord}
    {p : PreparedVerifiedOutcomeCommit} (h : Rederived digest now reader getEvent o p)
    (hagree : ∀ request, reconstructVerifiedOutcomeCommitRequest reader o = .ok request →
      Agree reader reader' request ∧
        reconstructVerifiedOutcomeCommitRequest reader' o = .ok request)
    (hevents : ∀ id e, getEvent id = some e → e.type ∈ authorityEventTypes →
      getEvent' id = some e) : Rederived digest now reader' getEvent' o p := by
  obtain ⟨request, hrequest, hprepared⟩ := h.derived
  obtain ⟨hsame, hrequest'⟩ := hagree request hrequest
  refine ⟨⟨request, hrequest', prepare_congr hsame hprepared⟩, h.id, h.semantics, fun e he => ?_⟩
  obtain ⟨stored, hstored, hsemantics⟩ := h.events e he
  refine ⟨stored, hevents _ stored hstored ?_, hsemantics⟩
  rw [type_of_sameSemantics hsemantics]
  exact type_of_prepared hprepared e he

end PortableRuntime
