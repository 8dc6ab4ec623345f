import PortableRuntime.Python.Equality
import PortableRuntime.Workflows.Procedure

/-!
# What opens a procedure gate

A gate that rests on proofs is satisfied when the metadata does not refuse it, nobody has waived
it or taken it over, and its proofs are there.  The metadata also names the grant that has to be
among the proofs.  Both are read from the metadata of the Run over that of the Work.
-/

namespace PortableRuntime
namespace Procedure

/-! ## What the metadata says -/

/-- The gate stands in a list of invalidated gates. -/
def lists (metadata : Fields) (gate : Gate) : Bool :=
  match metadata.get "invalidated_gates" with
  | .arr items => items.any (fun j => j.eqStr gate.text)
  | _ => false

/-- The metadata keeps the gate from being looked at. -/
def refused (combined : Fields) (gate : Gate) : Bool :=
  lists combined gate || (gate = .authorization && expired combined) || blocked combined gate

def exempt (call : ProcedureCall) (gate : Gate) : Bool :=
  (call.waivers.get? gate.text).isSome || call.handedOff.contains gate.text

/-- No grant is hinted at, or a valid one with its id is there. -/
def hintMet (combined : Fields) (grants : List AuthorizationGrant) : Bool :=
  !(hintId combined).truthy || grants.any (fun g => (hintId combined).eqStr g.id)

def Backed (call : ProcedureCall) (gate : Gate) : Prop :=
  ∃ reason, checkGate gate call.work call.run call.mergedProofs call.clock = .ok (true, reason)

variable {call call' : ProcedureCall} {gate : Gate} {invalidated : List Json}

theorem lists_of_invalidatedGates {combined : Fields}
    (h : invalidatedGates combined = .ok invalidated) (gate : Gate) :
    invalidated.any (fun j => j.eqStr gate.text) = lists combined gate := by
  unfold invalidatedGates at h
  unfold lists
  cases hgates : combined.get "invalidated_gates" with
  | arr items =>
    rw [hgates] at h
    dsimp only at h ⊢
    split at h
    · rw [Except.ok.inj h]
    · cases h
  | _ =>
    rw [hgates] at h
    obtain rfl := Except.ok.inj h
    rfl

/-! ## One gate -/

/-- What is reported for a gate. -/
structure Reported (call : ProcedureCall) (gate : Gate) (s : ObligationStatus) : Prop where
  obligation : s.obligation = gate
  invalidated_iff : s.status = .invalidated ↔ lists call.combined gate = true
  satisfied_iff : s.status = .satisfied ↔
    refused call.combined gate = false ∧ exempt call gate = false ∧ Backed call gate

theorem reported_of_gateStatus {s : ObligationStatus}
    (hinvalidated : invalidatedGates call.combined = .ok invalidated)
    (h : gateStatus call invalidated gate = .ok s) : Reported call gate s := by
  unfold gateStatus at h
  rw [lists_of_invalidatedGates hinvalidated] at h
  split at h
  · next hlists =>
    obtain rfl := Except.ok.inj h
    exact ⟨rfl, iff_of_true rfl hlists, iff_of_false (fun h => nomatch h)
      (fun h => absurd h.1 (by simp [refused, hlists]))⟩
  · next hlists =>
    have hlists : lists call.combined gate = false := Bool.eq_false_iff.mpr hlists
    -- any answer but the first is no invalidation
    suffices hs : s.obligation = gate ∧ s.status ≠ .invalidated ∧ (s.status = .satisfied ↔
        refused call.combined gate = false ∧ exempt call gate = false ∧ Backed call gate) from
      ⟨hs.1, iff_of_false hs.2.1 (by simp [hlists]), hs.2.2⟩
    split at h
    · next hexpired =>
      obtain rfl := Except.ok.inj h
      exact ⟨rfl, fun h => (nomatch h), iff_of_false (fun h => nomatch h)
        (fun h => absurd h.1 (by simp [refused, hexpired]))⟩
    · next hexpired =>
      have hexpired : (gate = .authorization && expired call.combined) = false :=
        Bool.eq_false_iff.mpr hexpired
      split at h
      · next authority hauthority =>
        have hexempt : exempt call gate = true := by simp [exempt, hauthority]
        split at h
        · obtain rfl := Except.ok.inj h
          exact ⟨rfl, fun h => (nomatch h), iff_of_false (fun h => nomatch h)
            (fun h => absurd h.2.1 (by simp [hexempt]))⟩
        · obtain rfl := Except.ok.inj h
          exact ⟨rfl, fun h => (nomatch h), iff_of_false (fun h => nomatch h)
            (fun h => absurd h.2.1 (by simp [hexempt]))⟩
      · next hwaiver =>
        split at h
        · next hhanded =>
          obtain rfl := Except.ok.inj h
          exact ⟨rfl, fun h => (nomatch h), iff_of_false (fun h => nomatch h)
            (fun h => absurd h.2.1 (by simp only [exempt, hhanded, Bool.or_true]; decide))⟩
        · next hhanded =>
          have hexempt : exempt call gate = false := by
            rw [exempt, hwaiver, Bool.eq_false_iff.mpr hhanded]
            rfl
          split at h
          · next hblocked =>
            obtain rfl := Except.ok.inj h
            exact ⟨rfl, fun h => (nomatch h), iff_of_false (fun h => nomatch h)
              (fun h => absurd h.1 (by simp [refused, hblocked]))⟩
          · next hblocked =>
            have hrefused : refused call.combined gate = false := by
              rw [refused, hlists, hexpired, Bool.eq_false_iff.mpr hblocked]
              rfl
            obtain ⟨⟨found, reason⟩, hcheck, h⟩ := Result.bind_eq_ok.mp h
            obtain rfl := Result.pure_eq_ok.mp h
            cases found with
            | true =>
              exact ⟨rfl, fun h => (nomatch h), iff_of_true rfl ⟨hrefused, hexempt, reason, hcheck⟩⟩
            | false =>
              refine ⟨rfl, fun h => (nomatch h), iff_of_false (fun h => nomatch h) ?_⟩
              rintro ⟨-, -, reason', hcheck'⟩
              cases hcheck.symm.trans hcheck'

/-! ## All gates -/

def gatesOf (call : ProcedureCall) : List Gate := (gatesForProfile call.profile).toOption.getD []

/-- A call reports every gate of its profile. -/
theorem reported_of_checkProcedure {out : List ObligationStatus}
    (h : checkProcedure call = .ok out) :
    (∀ s ∈ out, s.obligation ∈ gatesOf call ∧ Reported call s.obligation s) ∧
      ∀ gate ∈ gatesOf call, ∃ s ∈ out, Reported call gate s := by
  obtain ⟨gates, hgates, h⟩ := Result.bind_eq_ok.mp h
  obtain ⟨invalidated, hinvalidated, h⟩ := Result.bind_eq_ok.mp h
  have hof : gatesOf call = gates := by
    rw [gatesOf, hgates]
    rfl
  rw [hof]
  constructor
  · intro s hs
    obtain ⟨gate, hgate, hstatus⟩ := (Result.mem_of_mapM h s).mp hs
    have hreported := reported_of_gateStatus hinvalidated hstatus
    rw [hreported.obligation]
    exact ⟨hgate, hreported⟩
  · intro gate hgate
    obtain ⟨s, hstatus⟩ := Result.exists_of_mapM h gate hgate
    exact ⟨s, (Result.mem_of_mapM h s).mpr ⟨gate, hgate, hstatus⟩,
      reported_of_gateStatus hinvalidated hstatus⟩

/-! ## The proofs of a gate -/

/-- The gates that rest on proofs. -/
def proofBacked : List Gate :=
  [.failureStop, .evidence, .authorization, .verification, .rollback, .review,
   .independentVerification, .roleSeparation, .challengePath, .exposureLimit, .takeover, .recovery,
   .exit, .reauthorization]

theorem pool_eq_nil_of_isNone {v : Option ProofValue} (h : isNone v = true) : pool v = [] := by
  unfold isNone at h
  split at h
  · rfl
  · rfl
  · cases h

/-- The authorization gate has a valid grant, and the hint is met. -/
theorem hasAuthorizationTyped_iff {combined : Fields} {proofs : Proofs} {clock : Time} :
    (hasAuthorizationTyped combined proofs clock).1 = true ↔
      validGrants proofs clock ≠ [] ∧ hintMet combined (validGrants proofs clock) = true := by
  have hnone (h : pool (firstOf proofs grantNames) = []) : validGrants proofs clock = [] := by
    rw [validGrants, h]
    rfl
  unfold hasAuthorizationTyped
  dsimp only
  split
  · next hgrants =>
    exact iff_of_false Bool.false_ne_true (fun h => h.1 (hnone (pool_eq_nil_of_isNone hgrants)))
  · split
    · next hpool =>
      exact iff_of_false Bool.false_ne_true (fun h => h.1 (hnone (List.isEmpty_iff.mp hpool)))
    · split
      · next hhint =>
        split
        · next hany =>
          refine iff_of_true rfl ⟨fun hnil => ?_, by rw [hintMet, hany, Bool.or_true]⟩
          rw [hnil] at hany
          cases hany
        · next hany =>
          refine iff_of_false Bool.false_ne_true (fun h => ?_)
          rw [hintMet, hhint, Bool.eq_false_iff.mpr hany] at h
          exact Bool.false_ne_true h.2
      · next hhint =>
        have hmet : hintMet combined (validGrants proofs clock) = true := by
          rw [hintMet, Bool.eq_false_iff.mpr hhint]
          rfl
        split
        · next hempty =>
          exact iff_of_false Bool.false_ne_true (fun h => h.1 (List.isEmpty_iff.mp hempty))
        · next hempty =>
          exact iff_of_true rfl ⟨fun hnil => hempty (List.isEmpty_iff.mpr hnil), hmet⟩

theorem backed_authorization_iff : Backed call .authorization ↔
    validGrants call.mergedProofs call.clock ≠ [] ∧
      hintMet call.combined (validGrants call.mergedProofs call.clock) = true := by
  rw [← hasAuthorizationTyped_iff]
  constructor
  · rintro ⟨reason, hcheck⟩
    exact congrArg Prod.fst (Except.ok.inj hcheck)
  · intro h
    exact ⟨_, congrArg Except.ok (Prod.ext h rfl)⟩

/-- No other gate that rests on proofs reads the metadata to be satisfied. -/
theorem backed_congr (hproofs : call'.mergedProofs = call.mergedProofs) (hgate : gate ∈ proofBacked)
    (hne : gate ≠ .authorization) : Backed call' gate ↔ Backed call gate := by
  have hreview (c : ProcedureCall) : Backed c .review ↔
      (!(pool (firstOf c.mergedProofs ["decisions", "decision_records"])).isEmpty) = true := by
    constructor
    · rintro ⟨reason, hcheck⟩
      exact congrArg Prod.fst (Except.ok.inj hcheck)
    · intro h
      exact ⟨_, congrArg Except.ok (Prod.ext h rfl)⟩
  cases gate with
  | review => rw [hreview, hreview, hproofs]
  | authorization => exact absurd rfl hne
  | purposeIdentified => exact absurd hgate (by decide)
  | executionBoundary => exact absurd hgate (by decide)
  | resultConfirmation => exact absurd hgate (by decide)
  | candidateConsidered => exact absurd hgate (by decide)
  | _ =>
    unfold Backed
    rw [hproofs]
    exact Iff.rfl

/-! ## What the gates promise -/

/-- A grant with this id is among the proofs and valid. -/
def HoldsGrant (call : ProcedureCall) (grantId : Json) : Prop :=
  ∃ name ∈ grantNames, ∃ item ∈ pool (call.mergedProofs.get? name), ∃ g,
    validGrant? call.clock item = some g ∧ grantId.eqStr g.id = true

/-- The second call has more metadata, and all else that the gates read is the same. -/
structure AddsMetadata (call call' : ProcedureCall) : Prop where
  profile : call'.profile = call.profile
  waivers : call'.waivers = call.waivers
  handedOff : call'.handedOff = call.handedOff
  proofs : call'.mergedProofs = call.mergedProofs
  clock : call'.clock = call.clock
  work : ∀ name, call.work.metadata.has name = true →
    call'.work.metadata.get? name = call.work.metadata.get? name
  run : ∀ name, call.run.metadata.has name = true →
    call'.run.metadata.get? name = call.run.metadata.get? name

/-- The gates of one call, and of a second call with more metadata. -/
structure GatesHold (call : ProcedureCall) (out out' : List ObligationStatus) : Prop where
  /-- A gate that the Work or the Run lists as invalidated is reported so. -/
  invalidated : ∀ s ∈ out, lists call.work.metadata s.obligation = true ∨
    lists call.run.metadata s.obligation = true → s.status = .invalidated
  /-- A named grant is there if the authorization gate is satisfied. -/
  named : (call.combined.get "authorization_grant_id").truthy = true → ∀ s ∈ out,
    s.obligation = .authorization → s.status = .satisfied →
    HoldsGrant call (call.combined.get "authorization_grant_id")
  /-- More metadata satisfies no gate that rests on proofs. -/
  monotone : ∀ s' ∈ out', s'.obligation ∈ proofBacked → s'.status = .satisfied → ∀ s ∈ out,
    s.obligation = s'.obligation → s.status = .satisfied

/-- An entry of the Run that hides the Work's invalidated gates lists them too. -/
def InvalidationsShown (call : ProcedureCall) : Prop :=
  ∀ gate ∈ gatesOf call, lists call.work.metadata gate = true →
    call.run.metadata.has "invalidated_gates" = true → lists call.run.metadata gate = true

/-- A named grant is there or is looked for, wherever the gate finds some valid grant. -/
def NamedGrantSought (call : ProcedureCall) : Prop :=
  (call.combined.get "authorization_grant_id").truthy = true → .authorization ∈ gatesOf call →
    refused call.combined .authorization = false → exempt call .authorization = false →
    validGrants call.mergedProofs call.clock ≠ [] →
    (call.combined.get "authorization_refs").isArr = true ∨
      HoldsGrant call (call.combined.get "authorization_grant_id")

/-- The added metadata lifts no refusal of a gate that its proofs back, and replaces no hint that
the grants do not meet by one that they meet. -/
structure RefusalsKept (call call' : ProcedureCall) : Prop where
  refusals : ∀ gate ∈ gatesOf call, gate ∈ proofBacked → exempt call gate = false →
    Backed call' gate → refused call.combined gate = true → refused call'.combined gate = true
  hint : .authorization ∈ gatesOf call → exempt call .authorization = false →
    refused call'.combined .authorization = false →
    validGrants call.mergedProofs call.clock ≠ [] →
    hintMet call'.combined (validGrants call.mergedProofs call.clock) = true →
    hintMet call.combined (validGrants call.mergedProofs call.clock) = true

/-! ## When they keep it -/

theorem lists_combined (gate : Gate) : lists call.combined gate =
    if call.run.metadata.has "invalidated_gates" then lists call.run.metadata gate
    else lists call.work.metadata gate := by
  have hget : call.combined.get "invalidated_gates" =
      if call.run.metadata.has "invalidated_gates" then call.run.metadata.get "invalidated_gates"
      else call.work.metadata.get "invalidated_gates" := by
    rw [ProcedureCall.combined, combinedMeta, Fields.get, Fields.get?_append, Fields.has]
    cases hrun : call.run.metadata.get? "invalidated_gates" with
    | none => rfl
    | some v =>
      rw [Fields.get, hrun]
      rfl
  rw [lists, hget]
  cases call.run.metadata.has "invalidated_gates" <;> rfl

theorem has_of_lists {metadata : Fields} (h : lists metadata gate = true) :
    metadata.has "invalidated_gates" = true := by
  rw [lists, Fields.get] at h
  rw [Fields.has]
  cases hget : metadata.get? "invalidated_gates" with
  | none =>
    rw [hget] at h
    cases h
  | some v => rfl

variable {out out' : List ObligationStatus}

theorem invalidated_iff (hcall : checkProcedure call = .ok out) :
    (∀ s ∈ out, lists call.work.metadata s.obligation = true ∨
      lists call.run.metadata s.obligation = true → s.status = .invalidated) ↔
      InvalidationsShown call := by
  obtain ⟨hout, hgates⟩ := reported_of_checkProcedure hcall
  constructor
  · intro h gate hgate hwork hhas
    obtain ⟨s, hs, hreported⟩ := hgates gate hgate
    have hstatus := h s hs (.inl (hreported.obligation ▸ hwork))
    have hlists := hreported.invalidated_iff.mp hstatus
    rwa [lists_combined, if_pos hhas] at hlists
  · intro h s hs hlisted
    obtain ⟨hgate, hreported⟩ := hout s hs
    rw [hreported.invalidated_iff, lists_combined]
    by_cases hhas : call.run.metadata.has "invalidated_gates" = true
    · rw [if_pos hhas]
      exact hlisted.elim (fun hwork => h _ hgate hwork hhas) id
    · rw [if_neg hhas]
      exact hlisted.resolve_right (fun hrun => hhas (has_of_lists hrun))

theorem mem_grantNames_of_firstOf {proofs : Proofs} {names : List String} {item : ProcedureItem}
    (h : item ∈ pool (firstOf proofs names)) : ∃ name ∈ names, item ∈ pool (proofs.get? name) := by
  induction names with
  | nil => exact absurd h List.not_mem_nil
  | cons name rest ih =>
    cases rest with
    | nil => exact ⟨name, List.mem_singleton_self name, h⟩
    | cons other rest =>
      rw [firstOf] at h
      have hrest (h : item ∈ pool (firstOf proofs (other :: rest))) :
          ∃ name' ∈ name :: other :: rest, item ∈ pool (proofs.get? name') := by
        obtain ⟨name', hname', hitem⟩ := ih h
        exact ⟨name', List.mem_cons_of_mem name hname', hitem⟩
      cases hget : proofs.get? name with
      | none =>
        rw [hget] at h
        exact hrest h
      | some v =>
        rw [hget] at h
        dsimp only at h
        split at h
        · exact ⟨name, List.mem_cons_self, hget ▸ h⟩
        · exact hrest h
      · simp

theorem holdsGrant_of_mem {g : AuthorizationGrant} {grantId : Json}
    (hg : g ∈ validGrants call.mergedProofs call.clock) (hid : grantId.eqStr g.id = true) :
    HoldsGrant call grantId := by
  obtain ⟨item, hitem, hvalid⟩ := List.mem_filterMap.mp hg
  obtain ⟨name, hname, hpool⟩ := mem_grantNames_of_firstOf hitem
  exact ⟨name, hname, item, hpool, g, hvalid, hid⟩

theorem named_iff (hcall : checkProcedure call = .ok out) :
    ((call.combined.get "authorization_grant_id").truthy = true → ∀ s ∈ out,
      s.obligation = .authorization → s.status = .satisfied →
      HoldsGrant call (call.combined.get "authorization_grant_id")) ↔ NamedGrantSought call := by
  obtain ⟨hout, hgates⟩ := reported_of_checkProcedure hcall
  constructor
  · intro h htruthy hgate hrefused hexempt hvalid
    by_cases hrefs : (call.combined.get "authorization_refs").isArr = true
    · exact .inl hrefs
    · right
      have hhint : hintId call.combined = .null := by
        unfold hintId
        cases hget : call.combined.get "authorization_refs" with
        | arr refs =>
          rw [hget] at hrefs
          exact absurd rfl hrefs
        | _ => rfl
      have hmet : hintMet call.combined (validGrants call.mergedProofs call.clock) = true := by
        rw [hintMet, hhint]
        rfl
      obtain ⟨s, hs, hreported⟩ := hgates _ hgate
      exact h htruthy s hs hreported.obligation (hreported.satisfied_iff.mpr
        ⟨hrefused, hexempt, backed_authorization_iff.mpr ⟨hvalid, hmet⟩⟩)
  · intro h htruthy s hs hobligation hsatisfied
    obtain ⟨hgate, hreported⟩ := hout s hs
    rw [hobligation] at hgate hreported
    obtain ⟨hrefused, hexempt, hbacked⟩ := hreported.satisfied_iff.mp hsatisfied
    obtain ⟨hvalid, hmet⟩ := backed_authorization_iff.mp hbacked
    rcases h htruthy hgate hrefused hexempt hvalid with hrefs | hholds
    · have hhint : hintId call.combined = call.combined.get "authorization_grant_id" := by
        unfold hintId
        cases hget : call.combined.get "authorization_refs" with
        | arr refs => exact if_pos htruthy
        | _ =>
          rw [hget] at hrefs
          cases hrefs
      rw [hintMet, hhint, htruthy] at hmet
      obtain ⟨g, hg, hid⟩ := List.any_eq_true.mp hmet
      exact holdsGrant_of_mem hg hid
    · exact hholds

theorem monotone_iff (hadds : AddsMetadata call call') (hcall : checkProcedure call = .ok out)
    (hcall' : checkProcedure call' = .ok out') :
    (∀ s' ∈ out', s'.obligation ∈ proofBacked → s'.status = .satisfied → ∀ s ∈ out,
      s.obligation = s'.obligation → s.status = .satisfied) ↔ RefusalsKept call call' := by
  obtain ⟨hout, hgates⟩ := reported_of_checkProcedure hcall
  obtain ⟨hout', hgates'⟩ := reported_of_checkProcedure hcall'
  have hgatesSame : gatesOf call' = gatesOf call := by
    rw [gatesOf, gatesOf, hadds.profile]
  have hexemptSame (gate : Gate) : exempt call' gate = exempt call gate := by
    rw [exempt, exempt, hadds.waivers, hadds.handedOff]
  have hbacked' : Backed call' .authorization ↔
      validGrants call.mergedProofs call.clock ≠ [] ∧
        hintMet call'.combined (validGrants call.mergedProofs call.clock) = true := by
    rw [backed_authorization_iff, hadds.proofs, hadds.clock]
  -- what is satisfied in the second call is satisfied in the first
  have hboth (h : ∀ s' ∈ out', s'.obligation ∈ proofBacked → s'.status = .satisfied → ∀ s ∈ out,
      s.obligation = s'.obligation → s.status = .satisfied) {gate : Gate}
      (hgate : gate ∈ gatesOf call) (hproof : gate ∈ proofBacked)
      (hexempt : exempt call gate = false) (hbacked : Backed call' gate)
      (hrefused : refused call'.combined gate = false) :
      refused call.combined gate = false ∧ exempt call gate = false ∧ Backed call gate := by
    obtain ⟨s', hs', hreported'⟩ := hgates' gate (hgatesSame ▸ hgate)
    obtain ⟨s, hs, hreported⟩ := hgates gate hgate
    have hsatisfied' := hreported'.satisfied_iff.mpr
      ⟨hrefused, (hexemptSame gate).trans hexempt, hbacked⟩
    exact hreported.satisfied_iff.mp (h s' hs' (hreported'.obligation ▸ hproof) hsatisfied' s hs
      (hreported.obligation.trans hreported'.obligation.symm))
  constructor
  · intro h
    constructor
    · intro gate hgate hproof hexempt hbacked hrefused
      by_contra hnot
      have hfirst := hboth h hgate hproof hexempt hbacked (Bool.eq_false_iff.mpr hnot)
      exact Bool.false_ne_true (hfirst.1.symm.trans hrefused)
    · intro hgate hexempt hrefused hvalid hmet
      have hfirst := hboth h hgate (by decide) hexempt (hbacked'.mpr ⟨hvalid, hmet⟩) hrefused
      exact (backed_authorization_iff.mp hfirst.2.2).2
  · intro h s' hs' hproof hsatisfied' s hs hobligation
    obtain ⟨hgate, hreported'⟩ := hout' s' hs'
    obtain ⟨-, hreported⟩ := hout s hs
    rw [hobligation] at hreported
    rw [hgatesSame] at hgate
    obtain ⟨hrefused, hexempt, hbacked⟩ := hreported'.satisfied_iff.mp hsatisfied'
    rw [hexemptSame] at hexempt
    refine hreported.satisfied_iff.mpr ⟨Bool.eq_false_iff.mpr (fun hfirst => ?_), hexempt, ?_⟩
    · exact Bool.false_ne_true
        (hrefused.symm.trans (h.refusals _ hgate hproof hexempt hbacked hfirst))
    · by_cases hauthorization : s'.obligation = .authorization
      · rw [hauthorization] at hgate hexempt hrefused hbacked ⊢
        obtain ⟨hvalid, hmet⟩ := hbacked'.mp hbacked
        exact backed_authorization_iff.mpr ⟨hvalid, h.hint hgate hexempt hrefused hvalid hmet⟩
      · exact (backed_congr hadds.proofs hproof hauthorization).mp hbacked

/-- Two calls keep what the gates promise exactly where the metadata of the first hides no
invalidated gate and looks for the grant it names, and that of the second lifts no refusal. -/
theorem gatesHold_iff (hadds : AddsMetadata call call') (hcall : checkProcedure call = .ok out)
    (hcall' : checkProcedure call' = .ok out') :
    GatesHold call out out' ↔
      InvalidationsShown call ∧ NamedGrantSought call ∧ RefusalsKept call call' := by
  rw [← invalidated_iff hcall, ← named_iff hcall, ← monotone_iff hadds hcall hcall']
  exact ⟨fun h => ⟨h.invalidated, h.named, h.monotone⟩, fun h => ⟨h.1, h.2.1, h.2.2⟩⟩

/-! ## Calls with one grant -/

def validGrant : AuthorizationGrant :=
  { id := "grant_1", createdAt := 0, principalRef := "owner", granteeRef := "agent",
    allowedCapabilities := ["*"], validFrom := 0 }

/-- A call for the standard gates with a valid grant among the proofs. -/
def callWith (work run : Fields) : ProcedureCall :=
  { work := .mapping [("metadata", .obj work)], run := .mapping [("metadata", .obj run)],
    profile := "standard", proofs := Dict.ofPairs [("grants", .items [.grant validGrant])],
    now := 1, clock := 1 }

/-- The statuses of a call. -/
def statuses (call : ProcedureCall) : List ObligationStatus :=
  (checkProcedure call).toOption.getD []

def statusOf (call : ProcedureCall) (gate : Gate) : Option GateStatus :=
  ((statuses call).find? (fun s => s.obligation = gate)).map (·.status)

theorem checkProcedure_statuses (h : (checkProcedure call).toOption.isSome = true) :
    checkProcedure call = .ok (statuses call) := by
  rw [statuses]
  cases hcall : checkProcedure call with
  | error e =>
    rw [hcall] at h
    cases h
  | ok out => rfl

theorem mem_of_statusOf {status : GateStatus} (h : statusOf call gate = some status) :
    ∃ s ∈ statuses call, s.obligation = gate ∧ s.status = status := by
  obtain ⟨s, hs, hstatus⟩ := Option.map_eq_some_iff.mp h
  exact ⟨s, List.mem_of_find?_eq_some hs, by simpa using List.find?_some hs, hstatus⟩

def namedGrant : Fields :=
  [("authorization_grant_id", .str "grant_1"), ("authorization_refs", .arr [])]

/-- A grant that is named and looked for, and a second call with one entry more. -/
theorem gatesHold_named_grant :
    let call := callWith namedGrant []
    let call' := callWith (namedGrant ++ [("note", .str "more")]) []
    GatesHold call (statuses call) (statuses call') ↔
      InvalidationsShown call ∧ NamedGrantSought call ∧ RefusalsKept call call' := by
  refine gatesHold_iff ⟨rfl, rfl, rfl, rfl, rfl, fun name h => ?_, fun name h => nomatch h⟩
    (checkProcedure_statuses (by decide +kernel)) (checkProcedure_statuses (by decide +kernel))
  obtain ⟨v, hv⟩ := Option.isSome_iff_exists.mp h
  show (namedGrant ++ [("note", Json.str "more")]).get? name = namedGrant.get? name
  rw [Fields.get?_append, show namedGrant.get? name = some v from hv]
  rfl

/-- The Run hides an invalidated gate of the Work. -/
def hidingCall : ProcedureCall :=
  callWith [("invalidated_gates", .arr [.str "authorization"])] [("invalidated_gates", .arr [])]

/-- A grant is named without a list of references. -/
def namingCall : ProcedureCall := callWith [("authorization_grant_id", .str "grant_2")] []

theorem not_holdsGrant : ¬ HoldsGrant namingCall (.str "grant_2") := by
  rintro ⟨name, hname, item, hitem, g, hg, hid⟩
  have hpools : ∀ name ∈ grantNames, pool (namingCall.mergedProofs.get? name) =
      if name = "grants" then [.grant validGrant] else [] := by
    intro name hname
    rcases List.mem_cons.mp hname with rfl | hname
    · rfl
    · rcases List.mem_cons.mp hname with rfl | hname
      · rfl
      · rw [List.mem_singleton.mp hname]
        rfl
  rw [hpools name hname] at hitem
  split at hitem
  · rw [List.mem_singleton.mp hitem] at hg
    have hvalid : validGrant? namingCall.clock (.grant validGrant) = some validGrant := rfl
    obtain rfl := Option.some.inj (hvalid.symm.trans hg)
    exact absurd hid (by decide)
  · cases hitem

def blockedCall : ProcedureCall := callWith [("authorization_blocked", .bool true)] []

/-- The Run gets an entry that hides the one of the Work. -/
def liftedCall : ProcedureCall :=
  callWith [("authorization_blocked", .bool true)] [("authorization_blocked", .bool false)]

/-- An empty list of the Run hides an invalidated gate of the Work; a grant that is named without
a list of references is not looked for; an added entry lifts a refusal. -/
theorem gates_open :
    ¬ GatesHold hidingCall (statuses hidingCall) (statuses hidingCall) ∧
    ¬ GatesHold namingCall (statuses namingCall) (statuses namingCall) ∧
    AddsMetadata blockedCall liftedCall ∧
      ¬ GatesHold blockedCall (statuses blockedCall) (statuses liftedCall) := by
  refine ⟨fun h => ?_, fun h => ?_, ⟨rfl, rfl, rfl, rfl, rfl, fun _ _ => rfl, fun _ h => nomatch h⟩,
    fun h => ?_⟩
  · have hstatus : statusOf hidingCall .authorization = some .satisfied := by decide +kernel
    obtain ⟨s, hs, hgate, hsatisfied⟩ := mem_of_statusOf hstatus
    have := h.invalidated s hs (.inl (by rw [hgate]; decide +kernel))
    rw [hsatisfied] at this
    cases this
  · have hstatus : statusOf namingCall .authorization = some .satisfied := by decide +kernel
    obtain ⟨s, hs, hgate, hsatisfied⟩ := mem_of_statusOf hstatus
    exact not_holdsGrant (h.named (by decide +kernel) s hs hgate hsatisfied)
  · have hstatus : statusOf liftedCall .authorization = some .satisfied := by decide +kernel
    have hblocked : statusOf blockedCall .authorization = some .blocked := by decide +kernel
    obtain ⟨s', hs', hgate', hsatisfied⟩ := mem_of_statusOf hstatus
    obtain ⟨s, hs, hgate, hstatus⟩ := mem_of_statusOf hblocked
    have := h.monotone s' hs' (by rw [hgate']; decide) hsatisfied s hs (hgate.trans hgate'.symm)
    rw [hstatus] at this
    cases this

end Procedure
end PortableRuntime
