import PortableRuntime.Workflows.ProcedureGates

/-!
# What a later call of the procedure reads

A call reads a few fields of the Work and the Run, and the grants for one gate alone.  While
these are kept, gates that were satisfied are satisfied again.
-/

namespace PortableRuntime
namespace Procedure

def GateStatus.text : GateStatus → String
  | .required => "required"
  | .satisfied => "satisfied"
  | .notApplicable => "not-applicable"
  | .handedOff => "handed-off"
  | .waived => "waived"
  | .blocked => "blocked"
  | .open => "open"
  | .expired => "expired"
  | .invalidated => "invalidated"

/-! ## Fields of the Work and the Run -/

/-- The fields of a Work and of a Run that the gates read are the same. -/
structure SameFacts (work run work' run' : Subject) : Prop where
  workMetadata : work'.metadata = work.metadata
  runMetadata : run'.metadata = run.metadata
  kind : work'.fields.get "kind" = work.fields.get "kind"
  inputs : work'.fields.get "inputs" = work.fields.get "inputs"
  artifactRefs : work'.fields.get "artifact_refs" = work.fields.get "artifact_refs"
  status : run'.fields.get "status" = run.fields.get "status"

theorem sameFacts_of_eq {w w' : Work} {r r' : Run} (hwork : w'.metadata = w.metadata)
    (hrun : r'.metadata = r.metadata) (hkind : w'.kind = w.kind) (hinputs : w'.inputs = w.inputs)
    (hrefs : w'.artifactRefs = w.artifactRefs) (hstatus : r'.status = r.status) :
    SameFacts (.work w) (.run r) (.work w') (.run r') where
  workMetadata := hwork
  runMetadata := hrun
  kind := congrArg Json.str hkind
  inputs := congrArg Json.ofStrings hinputs
  artifactRefs := congrArg Json.ofStrings hrefs
  status := congrArg (fun s => Json.str (RunStatus.text s)) hstatus

section Proofs

variable {proofs proofs' : Proofs} {names : List String}

theorem firstOf_congr (h : ∀ name ∈ names, proofs'.get? name = proofs.get? name) :
    firstOf proofs' names = firstOf proofs names := by
  induction names with
  | nil => rfl
  | cons name rest ih =>
    have hrest := ih (fun name' hname' => h name' (List.mem_cons_of_mem name hname'))
    cases rest with
    | nil => exact h name List.mem_cons_self
    | cons other rest =>
      rw [firstOf, h name List.mem_cons_self, hrest]
      · rfl
      · simp

theorem anyPool_congr (h : ∀ name ∈ names, proofs'.get? name = proofs.get? name) :
    anyPool proofs' names = anyPool proofs names := by
  induction names with
  | nil => rfl
  | cons name rest ih =>
    have hrest := ih (fun name' hname' => h name' (List.mem_cons_of_mem name hname'))
    rw [anyPool, List.any_cons, h name List.mem_cons_self]
    exact congrArg _ hrest

end Proofs

variable {call call' : ProcedureCall} {gate : Gate}

/-- The authorization gate alone reads the grants and the clock. -/
theorem checkGate_congr {work run work' run' : Subject} {proofs proofs' : Proofs}
    {clock clock' : Time} (hsame : SameFacts work run work' run')
    (hproofs : ∀ name, name ≠ "grants" → proofs'.get? name = proofs.get? name)
    (hne : gate ≠ .authorization) :
    checkGate gate work' run' proofs' clock' = checkGate gate work run proofs clock := by
  have hfirst : ∀ names : List String, "grants" ∉ names →
      firstOf proofs' names = firstOf proofs names :=
    fun names hnames => firstOf_congr (fun name hname =>
      hproofs name (fun heq => hnames (heq ▸ hname)))
  have hany : ∀ names : List String, "grants" ∉ names →
      anyPool proofs' names = anyPool proofs names :=
    fun names hnames => anyPool_congr (fun name hname =>
      hproofs name (fun heq => hnames (heq ▸ hname)))
  have hcombined : combinedMeta work' run' = combinedMeta work run := by
    rw [combinedMeta, combinedMeta, hsame.workMetadata, hsame.runMetadata]
  have hpurpose : hasPurposeTyped work' = hasPurposeTyped work := by
    funext combined
    rw [hasPurposeTyped, hasPurposeTyped, hsame.kind]
  have hboundary : hasBoundary work' = hasBoundary work := by
    funext combined
    simp only [hasBoundary, anyTruthy, List.any_cons, List.any_nil, hsame.inputs,
      hsame.artifactRefs]
  have hresult : hasResult run' = hasResult run := by
    funext combined
    rw [hasResult, hasResult, hsame.status]
  cases gate with
  | authorization => exact absurd rfl hne
  | purposeIdentified => rw [checkGate, checkGate, hcombined, hpurpose]
  | executionBoundary => rw [checkGate, checkGate, hcombined, hboundary]
  | resultConfirmation => rw [checkGate, checkGate, hcombined, hresult]
  | candidateConsidered => simp only [checkGate, hcombined]
  | review => simp (disch := decide) only [checkGate, hcombined, hfirst]
  | failureStop => simp (disch := decide) only [checkGate, hasFailureStopTyped, hany]
  | evidence => simp (disch := decide) only [checkGate, hasEvidenceTyped, hfirst]
  | verification =>
    simp (disch := decide) only [checkGate, hasVerificationTyped, hfirst, hproofs]
  | rollback => simp (disch := decide) only [checkGate, hasRollbackTyped, hfirst, hproofs]
  | independentVerification =>
    simp (disch := decide) only [checkGate, hasIndependentVerificationTyped, hfirst]
  | roleSeparation => simp (disch := decide) only [checkGate, hasRoleSeparationTyped, hfirst]
  | challengePath => simp (disch := decide) only [checkGate, hasChallengePathTyped, hany]
  | exposureLimit => simp (disch := decide) only [checkGate, hasExposureLimitTyped, hfirst]
  | takeover => simp (disch := decide) only [checkGate, hasTakeoverTyped, hany]
  | recovery => simp (disch := decide) only [checkGate, hasRollbackTyped, hfirst, hproofs]
  | exit => simp (disch := decide) only [checkGate, hasExitTyped, hany]
  | reauthorization => simp (disch := decide) only [checkGate, hasReauthorizationTyped, hfirst]

/-! ## Gates that were satisfied -/

/-- The second call has the profile of the first, and what its gates read apart from the grants
and the clock; nobody waives a gate or takes it over. -/
structure SameButGrants (call call' : ProcedureCall) : Prop where
  profile : call'.profile = call.profile
  facts : SameFacts call.work call.run call'.work call'.run
  proofs : ∀ name, name ≠ "grants" → call'.mergedProofs.get? name = call.mergedProofs.get? name
  notExempt : ∀ gate, exempt call gate = false
  notExempt' : ∀ gate, exempt call' gate = false

theorem combined_eq (h : SameButGrants call call') : call'.combined = call.combined := by
  rw [ProcedureCall.combined, ProcedureCall.combined, combinedMeta, combinedMeta,
    h.facts.workMetadata, h.facts.runMetadata]

/-- A gate that nobody waives or takes over is satisfied, or blocks the call. -/
theorem status_of_gateStatus {invalidated : List Json} {s : ObligationStatus}
    (hexempt : exempt call gate = false) (h : gateStatus call invalidated gate = .ok s) :
    s.status = .satisfied ∨
      s.status.text ∈ ["open", "required", "blocked", "expired", "invalidated"] := by
  rw [exempt, Bool.or_eq_false_iff] at hexempt
  have hwaiver : call.waivers.get? gate.text = none := by simpa using hexempt.1
  unfold gateStatus at h
  split at h
  · obtain rfl := Except.ok.inj h
    exact Or.inr (by simp [GateStatus.text])
  · split at h
    · obtain rfl := Except.ok.inj h
      exact Or.inr (by simp [GateStatus.text])
    · rw [hwaiver] at h
      dsimp only at h
      rw [if_neg (by rw [hexempt.2]; decide)] at h
      split at h
      · obtain rfl := Except.ok.inj h
        exact Or.inr (by simp [GateStatus.text])
      · obtain ⟨⟨found, reason⟩, -, h⟩ := Result.bind_eq_ok.mp h
        obtain rfl := Result.pure_eq_ok.mp h
        cases found with
        | true => exact Or.inl rfl
        | false => exact Or.inr (by simp [GateStatus.text])

/-- Where nobody waives a gate or takes one over, each is satisfied or blocks the call. -/
theorem status_of_checkProcedure {out : List ObligationStatus}
    (hexempt : ∀ gate, exempt call gate = false) (h : checkProcedure call = .ok out)
    (s : ObligationStatus) (hs : s ∈ out) :
    s.status = .satisfied ∨
      s.status.text ∈ ["open", "required", "blocked", "expired", "invalidated"] := by
  obtain ⟨gates, -, h⟩ := Result.bind_eq_ok.mp h
  obtain ⟨invalidated, -, h⟩ := Result.bind_eq_ok.mp h
  obtain ⟨gate, -, hstatus⟩ := (Result.mem_of_mapM h s).mp hs
  exact status_of_gateStatus (hexempt gate) hstatus

/-- A gate that is not refused, and whose check finds what it needs, is satisfied. -/
theorem gateStatus_satisfied {invalidated : List Json}
    (hinvalidated : invalidatedGates call.combined = .ok invalidated)
    (hexempt : exempt call gate = false) (hrefused : refused call.combined gate = false)
    (hbacked : Backed call gate) :
    ∃ s, gateStatus call invalidated gate = .ok s ∧ s.status = .satisfied := by
  rw [exempt, Bool.or_eq_false_iff] at hexempt
  have hwaiver : call.waivers.get? gate.text = none := by simpa using hexempt.1
  rw [refused, Bool.or_eq_false_iff, Bool.or_eq_false_iff] at hrefused
  obtain ⟨⟨hlists, hexpired⟩, hblocked⟩ := hrefused
  obtain ⟨reason, hcheck⟩ := hbacked
  unfold gateStatus
  rw [lists_of_invalidatedGates hinvalidated, hlists, if_neg Bool.false_ne_true,
    if_neg (Bool.eq_false_iff.mp hexpired), hwaiver]
  dsimp only
  rw [if_neg (Bool.eq_false_iff.mp hexempt.2), if_neg (Bool.eq_false_iff.mp hblocked), hcheck]
  exact ⟨_, rfl, rfl⟩

theorem hintMet_of_mem {combined : Fields} {grant : AuthorizationGrant}
    {grants : List AuthorizationGrant} (h : hintMet combined [grant] = true)
    (hmem : grant ∈ grants) : hintMet combined grants = true := by
  rw [hintMet, Bool.or_eq_true] at h ⊢
  refine h.imp_right (fun hsame => List.any_eq_true.mpr ⟨grant, hmem, ?_⟩)
  rwa [List.any_cons, List.any_nil, Bool.or_false] at hsame

/-- Gates that were all satisfied are satisfied again, if the authorization gate finds its grant. -/
theorem checkProcedure_again {out : List ObligationStatus} (hsame : SameButGrants call call')
    (hcall : checkProcedure call = .ok out) (hall : ∀ s ∈ out, s.status = .satisfied)
    (hgrant : .authorization ∈ gatesOf call → Backed call' .authorization) :
    ∃ out', checkProcedure call' = .ok out' ∧ ∀ s ∈ out', s.status = .satisfied := by
  obtain ⟨gates, hgates, h⟩ := Result.bind_eq_ok.mp hcall
  obtain ⟨invalidated, hinvalidated, h⟩ := Result.bind_eq_ok.mp h
  have hof : gatesOf call = gates := by
    rw [gatesOf, hgates]
    rfl
  have hinvalidated' : invalidatedGates call'.combined = .ok invalidated :=
    combined_eq hsame ▸ hinvalidated
  have hagain : ∀ gate ∈ gates, ∃ s, gateStatus call' invalidated gate = .ok s ∧
      s.status = .satisfied := by
    intro gate hgate
    obtain ⟨s, hs⟩ := Result.exists_of_mapM h gate hgate
    have hsatisfied := hall s ((Result.mem_of_mapM h s).mpr ⟨gate, hgate, hs⟩)
    obtain ⟨hrefused, -, hbacked⟩ :=
      (reported_of_gateStatus hinvalidated hs).satisfied_iff.mp hsatisfied
    refine gateStatus_satisfied hinvalidated' (hsame.notExempt' gate)
      ((combined_eq hsame).symm ▸ hrefused) ?_
    by_cases hauthorization : gate = .authorization
    · rw [hauthorization]
      exact hgrant (hof ▸ hauthorization ▸ hgate)
    · obtain ⟨reason, hcheck⟩ := hbacked
      exact ⟨reason, (checkGate_congr hsame.facts hsame.proofs hauthorization).trans hcheck⟩
  obtain ⟨out', hout'⟩ := Result.exists_mapM (fun gate hgate =>
    (hagain gate hgate).imp (fun _ hs => hs.1))
  refine ⟨out', ?_, fun s hs => ?_⟩
  · rw [checkProcedure, hsame.profile, hgates]
    show (invalidatedGates call'.combined >>= _) = _
    rw [hinvalidated']
    exact hout'
  · obtain ⟨gate, hgate, hstatus⟩ := (Result.mem_of_mapM hout' s).mp hs
    obtain ⟨s', hs', hsatisfied⟩ := hagain gate hgate
    exact Except.ok.inj (hs'.symm.trans hstatus) ▸ hsatisfied

end Procedure
end PortableRuntime
