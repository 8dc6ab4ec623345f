import PortableRuntime.Core.Dispatch
import PortableRuntime.Governance.Projection
import PortableRuntime.Python.Equality
import PortableRuntime.Python.JsonText

/-!
# Admission of a use

A use of a distinction is judged on the journal alone, never on the sidecar.  The digests of
the payloads are a function that the whole module shares.
-/

namespace PortableRuntime
namespace Governance

/-! ## Usability -/

/-- A use by its name alone requests no scope. -/
structure UseContext where
  name : String
  requestedScope : FrozenSet := .empty
deriving DecidableEq

def scopeMatches (scope : FrozenSet) (use : UseContext) : Bool :=
  !scope.isEmpty && (use.requestedScope.isEmpty || use.requestedScope.isSubset scope)

def blockingConditionMatches (condition : BlockingCondition) (use : UseContext)
    (stateScope : FrozenSet) : Bool :=
  if !condition.contextNames.isEmpty && !condition.contextNames.contains use.name then false
  else
    let effectiveScope := if use.requestedScope.isEmpty then stateScope else use.requestedScope
    if !condition.scopeAny.isEmpty && !condition.scopeAny.items.any effectiveScope.contains then
      false
    else !(!condition.scopeAll.isEmpty && !condition.scopeAll.isSubset effectiveScope)

def obligationBlocks (obligation : ReviewObligation) (use : UseContext) (stateScope : FrozenSet) :
    Bool :=
  if !obligation.blocking then false
  else match obligation.blockingCondition with
    | some condition => blockingConditionMatches condition use stateScope
    | none => obligation.context == use.name

/-- An obligation on the scheme that blocks the use. -/
def blocksUse (schemeId : String) (use : UseContext) (stateScope : FrozenSet)
    (obligation : ReviewObligation) : Bool :=
  obligation.target == schemeId && obligationBlocks obligation use stateScope

def blockingReviewOpen (config : GovernanceConfiguration) (schemeId : String) (use : UseContext) :
    Bool :=
  match config.states.get? schemeId with
  | none => false
  | some state => config.runtime.obligations.values.any (blocksUse schemeId use state.scope)

def usable (config : GovernanceConfiguration) (schemeId : String) (use : UseContext) : Bool :=
  match config.states.get? schemeId with
  | none => false
  | some state => state.qualification == "qualified" && state.activation == "active" &&
      scopeMatches state.scope use && !blockingReviewOpen config schemeId use

/-! ## Requirements and digests -/

structure GovernanceUseRequirement where
  schemeId : String
  useContext : UseContext
deriving DecidableEq

/-- A resolver of the runtime, which may raise. -/
abbrev GovernanceUseRequirementResolver :=
  CapabilityRequest → Result (Option GovernanceUseRequirement)

/-- A decision with its digests, of any type. -/
structure UseAdmissionDecision (δ : Type) where
  status : GovernanceUseAdmissionStatus
  schemeId : Option String := none
  useContext : Option UseContext := none
  requirementDigest : Option δ := none
  snapshotDigest : Option δ := none
  reason : String := ""

def useContextPayload (use : UseContext) : Json :=
  .obj [("name", .str use.name), ("requested_scope", .ofStrings use.requestedScope.items)]

def notApplicablePayload : Json :=
  .obj [("schema", .str "governance-use-requirement-v1"), ("applicable", .bool false)]

def requirementPayload (requirement : GovernanceUseRequirement) : Json :=
  .obj [("schema", .str "governance-use-requirement-v1"), ("applicable", .bool true),
    ("scheme_id", .str requirement.schemeId),
    ("use_context", useContextPayload requirement.useContext)]

def blockingPredicatePayload (obligation : ReviewObligation) : Json :=
  match obligation.blockingCondition with
  | none => .obj [("mode", .str "context"), ("context", .str obligation.context)]
  | some condition => .obj [("mode", .str "condition"),
      ("context_names", .ofStrings condition.contextNames.items),
      ("scope_any", .ofStrings condition.scopeAny.items),
      ("scope_all", .ofStrings condition.scopeAll.items)]

def blockerStyle : JsonStyle :=
  { itemSeparator := ",", keySeparator := ":", sortKeys := true }

def relevantBlockers (config : GovernanceConfiguration) (requirement : GovernanceUseRequirement)
    (state : DistinctionState) : List Json :=
  ((config.runtime.obligations.values.filter
    (blocksUse requirement.schemeId requirement.useContext state.scope)).map
      blockingPredicatePayload).insertionSort
    (fun a b => a.dumps blockerStyle ≤ b.dumps blockerStyle)

def snapshotPayload (config : GovernanceConfiguration) (requirement : GovernanceUseRequirement)
    (state : DistinctionState) : Json :=
  .obj [("schema", .str "governance-use-snapshot-v1"), ("scheme_id", .str requirement.schemeId),
    ("use_context", useContextPayload requirement.useContext),
    ("projection", .obj [("qualification", .str state.qualification),
      ("activation", .str state.activation), ("scope", .ofStrings state.scope.items)]),
    ("relevant_blockers", .arr (relevantBlockers config requirement state))]

/-! ## Admission -/

/-- The tables of the sidecar hold something. -/
def GovernanceStore.legacySidecarPresent (s : GovernanceStore) : Bool :=
  !s.states.entries.isEmpty || !s.obligations.entries.isEmpty || !s.decisions.entries.isEmpty ||
    !s.applications.entries.isEmpty

section Admission

variable {δ : Type} (digest : Json → δ)

/-- The judgment on a state of the scheme. -/
def judge (state : DistinctionState) (use : UseContext) (blocked : Bool) :
    GovernanceUseAdmissionStatus × String :=
  if state.qualification != "qualified" then
    (.blocked, s!"distinction qualification is {Text.pyRepr state.qualification}")
  else if state.activation != "active" then
    (.blocked, s!"distinction activation is {Text.pyRepr state.activation}")
  else if !scopeMatches state.scope use then
    (.blocked, "requested use scope is outside the governed distinction scope")
  else if blocked then (.blocked, "blocking governance review is open for this use context")
  else (.allowed, "canonical governance snapshot permits this use")

/-- What a requirement that was resolved is told, from what two reads of the journal give.
The fingerprint of the events is read as the events. -/
def evaluateRequirement (before after : Result (List GovernanceEvent)) (legacy : Bool)
    (requirement : GovernanceUseRequirement) : UseAdmissionDecision δ :=
  let required : UseAdmissionDecision δ :=
    { status := .unavailable, useContext := some requirement.useContext,
      requirementDigest := some (digest (requirementPayload requirement)) }
  if requirement.schemeId = "" then
    { required with reason := "governance-use requirement has no scheme identity" }
  else
    let required := { required with schemeId := some requirement.schemeId }
    match before with
    | .error e =>
      { required with reason := s!"canonical governance history unavailable: {e.message}" }
    | .ok events =>
      if events.isEmpty then
        { required with reason :=
            if legacy then "legacy governance projection requires explicit migration"
            else "governed use requires canonical governance history" }
      else match reconstructGovernanceHistory events with
        | .error e =>
          { required with reason := s!"canonical governance history is not usable: {e.message}" }
        | .ok (config, _) => match after with
          | .error e =>
            { required with
              reason := s!"canonical governance history recheck failed: {e.message}" }
          | .ok events' =>
            if events' ≠ events then
              { required with
                status := .stale,
                reason := "canonical governance history changed during admission" }
            else match config.states.get? requirement.schemeId with
              | none =>
                { required with reason :=
                    "canonical governance history has no required distinction projection" }
              | some state =>
                let (status, reason) := judge state requirement.useContext
                  (blockingReviewOpen config requirement.schemeId requirement.useContext)
                { required with
                  status,
                  snapshotDigest := some (digest (snapshotPayload config requirement state)),
                  reason }

/-- `GovernanceUseAdmission.evaluate`. -/
def evaluate (before after : Result (List GovernanceEvent)) (legacy : Bool)
    (request : CapabilityRequest) (resolver : Option GovernanceUseRequirementResolver) :
    UseAdmissionDecision δ :=
  let notApplicable := some (digest notApplicablePayload)
  match resolver with
  | none =>
    { status := .notApplicable, requirementDigest := notApplicable,
      snapshotDigest := notApplicable, reason := "no runtime governance-use requirement" }
  | some resolve => match resolve request with
    | .error e =>
      { status := .unavailable,
        reason := s!"governance-use requirement resolution failed: {e.message}" }
    | .ok none =>
      { status := .notApplicable, requirementDigest := notApplicable,
        snapshotDigest := notApplicable, reason := "capability use is not governance-bound" }
    | .ok (some requirement) => evaluateRequirement digest before after legacy requirement

end Admission

/-! ## What the digests bind -/

section Digests

variable {δ : Type} {digest : Json → δ}

theorem useContext_eq {a b : UseContext}
    (h : (useContextPayload a).pyEq (useContextPayload b) = true) : a = b := by
  have hname : (Json.str a.name).pyEq (.str b.name) = true :=
    Json.pyEq_get "name" h (by simp [Fields.get?]) (by simp [Fields.get?])
  have hscope : (Json.ofStrings a.requestedScope.items).pyEq (.ofStrings b.requestedScope.items) =
      true := Json.pyEq_get "requested_scope" h (by simp [Fields.get?]) (by simp [Fields.get?])
  cases a
  cases b
  cases Json.str.inj (Json.pyEq_str.mp hname)
  cases FrozenSet.ext_items (Json.ofStrings_injective (Json.pyEq_ofStrings.mp hscope))
  rfl

theorem requirement_eq {a b : GovernanceUseRequirement}
    (h : (requirementPayload a).pyEq (requirementPayload b) = true) : a = b := by
  have hscheme : (Json.str a.schemeId).pyEq (.str b.schemeId) = true :=
    Json.pyEq_get "scheme_id" h (by simp [Fields.get?]) (by simp [Fields.get?])
  have huse : (useContextPayload a.useContext).pyEq (useContextPayload b.useContext) = true :=
    Json.pyEq_get "use_context" h (by simp [Fields.get?]) (by simp [Fields.get?])
  cases a
  cases b
  cases Json.str.inj (Json.pyEq_str.mp hscheme)
  cases useContext_eq huse
  rfl

variable {config config' : GovernanceConfiguration} {requirement : GovernanceUseRequirement}
  {state state' : DistinctionState}

/-- A review blocks the use exactly if the snapshot names a blocker. -/
theorem blockingReviewOpen_eq (hstate : config.states.get? requirement.schemeId = some state) :
    blockingReviewOpen config requirement.schemeId requirement.useContext =
      !(relevantBlockers config requirement state).isEmpty := by
  have hempty : (relevantBlockers config requirement state).isEmpty =
      (config.runtime.obligations.values.filter
        (blocksUse requirement.schemeId requirement.useContext state.scope)).isEmpty := by
    rw [Bool.eq_iff_iff, List.isEmpty_iff_length_eq_zero, List.isEmpty_iff_length_eq_zero,
      relevantBlockers, List.length_insertionSort, List.length_map]
  rw [hempty, blockingReviewOpen, hstate, Bool.eq_iff_iff]
  simp

/-- Snapshots of one payload are judged alike. -/
theorem judge_eq
    (hstate : config.states.get? requirement.schemeId = some state)
    (hstate' : config'.states.get? requirement.schemeId = some state')
    (h : (snapshotPayload config requirement state).pyEq
      (snapshotPayload config' requirement state') = true) :
    judge state requirement.useContext
        (blockingReviewOpen config requirement.schemeId requirement.useContext) =
      judge state' requirement.useContext
        (blockingReviewOpen config' requirement.schemeId requirement.useContext) := by
  have hprojection := Json.pyEq_get "projection" h (by simp [Fields.get?]; rfl)
    (by simp [Fields.get?]; rfl)
  have hqualification : (Json.str state.qualification).pyEq (.str state'.qualification) = true :=
    Json.pyEq_get "qualification" hprojection (by simp [Fields.get?]) (by simp [Fields.get?])
  have hactivation : (Json.str state.activation).pyEq (.str state'.activation) = true :=
    Json.pyEq_get "activation" hprojection (by simp [Fields.get?]) (by simp [Fields.get?])
  have hscope : (Json.ofStrings state.scope.items).pyEq (.ofStrings state'.scope.items) = true :=
    Json.pyEq_get "scope" hprojection (by simp [Fields.get?]) (by simp [Fields.get?])
  have hblockers : (Json.arr (relevantBlockers config requirement state)).pyEq
      (.arr (relevantBlockers config' requirement state')) = true :=
    Json.pyEq_get "relevant_blockers" h (by simp [Fields.get?]) (by simp [Fields.get?])
  have hempty : (relevantBlockers config requirement state).isEmpty =
      (relevantBlockers config' requirement state').isEmpty := by
    have hlength := (Json.pyEqItems_iff.mp hblockers).length_eq
    rw [Bool.eq_iff_iff, List.isEmpty_iff_length_eq_zero, List.isEmpty_iff_length_eq_zero, hlength]
  rw [blockingReviewOpen_eq hstate, blockingReviewOpen_eq hstate', hempty]
  unfold judge
  rw [Json.str.inj (Json.pyEq_str.mp hqualification), Json.str.inj (Json.pyEq_str.mp hactivation),
    FrozenSet.ext_items (Json.ofStrings_injective (Json.pyEq_ofStrings.mp hscope))]

theorem evaluateRequirement_requirementDigest (digest : Json → δ)
    (before after : Result (List GovernanceEvent)) (legacy : Bool)
    (requirement : GovernanceUseRequirement) :
    (evaluateRequirement digest before after legacy requirement).requirementDigest =
      some (digest (requirementPayload requirement)) := by
  unfold evaluateRequirement
  repeat' first
    | rfl
    | split

/-- A snapshot is taken of a state that the journal gives, and is what the judgment read. -/
theorem evaluateRequirement_snapshot {before after : Result (List GovernanceEvent)}
    {legacy : Bool} {d : UseAdmissionDecision δ}
    (hd : evaluateRequirement digest before after legacy requirement = d) {snapshot : δ}
    (h : d.snapshotDigest = some snapshot) :
    ∃ config state, config.states.get? requirement.schemeId = some state ∧
      snapshot = digest (snapshotPayload config requirement state) ∧
      (d.status, d.reason) = judge state requirement.useContext
        (blockingReviewOpen config requirement.schemeId requirement.useContext) := by
  subst hd
  unfold evaluateRequirement at h ⊢
  split at h
  · exact absurd h (by simp)
  · rename_i hscheme
    rw [if_neg hscheme]
    cases before with
    | error e => exact absurd h (by simp)
    | ok events =>
      dsimp only at h ⊢
      split at h
      · exact absurd h (by simp)
      · rename_i hempty
        rw [if_neg hempty]
        cases hread : reconstructGovernanceHistory events with
        | error e =>
          rw [hread] at h
          exact absurd h (by simp)
        | ok r =>
          obtain ⟨config, processed⟩ := r
          rw [hread] at h
          cases after with
          | error e => exact absurd h (by simp)
          | ok events' =>
            dsimp only at h ⊢
            split at h
            · exact absurd h (by simp)
            · rename_i hsame
              rw [if_neg hsame]
              cases hstate : config.states.get? requirement.schemeId with
              | none =>
                rw [hstate] at h
                exact absurd h (by simp)
              | some state =>
                rw [hstate] at h
                exact ⟨config, state, hstate, (Option.some.inj h).symm, rfl⟩

end Digests

/-! ## What an admission means -/

section Refinement

open GovernanceStore

variable {δ : Type} {digest : Json → δ} {requirement : GovernanceUseRequirement}

/-- Allowed and blocked as the configuration of the sidecar has them, on a journal that does
not change, read in any order. -/
def GovernanceStore.Admits (digest : Json → δ) (s : GovernanceStore)
    (requirement : GovernanceUseRequirement) : Prop :=
  ∀ events request resolve, events.Perm s.events → resolve request = .ok (some requirement) →
    let d := evaluate digest (.ok events) (.ok events) s.legacySidecarPresent request (some resolve)
    (d.status = .allowed ↔
      usable s.configuration requirement.schemeId requirement.useContext = true) ∧
    (d.status = .blocked ↔ (s.states.get? requirement.schemeId).isSome = true ∧
      usable s.configuration requirement.schemeId requirement.useContext = false)

/-- Where the state permits the use, an open review blocks it exactly if one blocks it that
was opened in the journal and that no receipt discharged. -/
def GovernanceStore.TellsBlockers (s : GovernanceStore) (requirement : GovernanceUseRequirement) :
    Prop :=
  ∀ state, s.states.get? requirement.schemeId = some state → state.qualification = "qualified" →
    state.activation = "active" → scopeMatches state.scope requirement.useContext = true →
    ((∃ o ∈ s.obligations.values,
        blocksUse requirement.schemeId requirement.useContext state.scope o = true) ↔
      ∃ o, .reviewOpened o ∈ s.events ∧ ¬ (o.id ≠ "" ∧ s.Discharged o.id) ∧
        blocksUse requirement.schemeId requirement.useContext state.scope o = true)

theorem judge_status (state : DistinctionState) (use : UseContext) (blocked : Bool) :
    (judge state use blocked).1 =
      if state.qualification = "qualified" ∧ state.activation = "active" ∧
        scopeMatches state.scope use = true ∧ blocked = false then .allowed else .blocked := by
  unfold judge
  by_cases hqualification : state.qualification = "qualified"
  · by_cases hactivation : state.activation = "active"
    · cases hscope : scopeMatches state.scope use <;> cases blocked <;>
        simp [hqualification, hactivation]
    · simp [hqualification, hactivation]
  · simp [hqualification]

theorem usable_eq (config : GovernanceConfiguration) (schemeId : String) (use : UseContext) :
    usable config schemeId use = true ↔ ∃ state, config.states.get? schemeId = some state ∧
      state.qualification = "qualified" ∧ state.activation = "active" ∧
      scopeMatches state.scope use = true ∧ blockingReviewOpen config schemeId use = false := by
  unfold usable
  cases config.states.get? schemeId with
  | none => simp
  | some state => simp [and_assoc]

theorem blockingReviewOpen_iff {config : GovernanceConfiguration} {schemeId : String}
    {use : UseContext} {state : DistinctionState} (hstate : config.states.get? schemeId = some state) :
    blockingReviewOpen config schemeId use = true ↔
      ∃ o ∈ config.runtime.obligations.values, blocksUse schemeId use state.scope o = true := by
  rw [blockingReviewOpen, hstate, List.any_eq_true]

/-- The status on a journal that does not change is the judgment on what it gives. -/
theorem status_unchanging {events : List GovernanceEvent} {config : GovernanceConfiguration}
    {processed : Dict String (List String)} (hscheme : requirement.schemeId ≠ "")
    (hread : reconstructGovernanceHistory events = .ok (config, processed)) (legacy : Bool) :
    (evaluateRequirement digest (.ok events) (.ok events) legacy requirement).status =
      match config.states.get? requirement.schemeId with
      | none => .unavailable
      | some state => (judge state requirement.useContext
          (blockingReviewOpen config requirement.schemeId requirement.useContext)).1 := by
  unfold evaluateRequirement
  rw [if_neg hscheme]
  cases events with
  | nil =>
    obtain ⟨rfl, -⟩ := Prod.mk.inj (Except.ok.inj hread)
    rfl
  | cons event rest =>
    dsimp only
    rw [hread]
    cases hstate : config.states.get? requirement.schemeId <;> simp [hstate]

/-- One evaluation on a journal that does not change. -/
theorem admits_at {s : GovernanceStore} (h : Consistent s) (hscheme : requirement.schemeId ≠ "")
    {events : List GovernanceEvent} (hperm : events.Perm s.events) {request : CapabilityRequest}
    {resolve : GovernanceUseRequirementResolver} (hresolve : resolve request = .ok (some requirement))
    {d : UseAdmissionDecision δ}
    (hd : evaluate digest (.ok events) (.ok events) s.legacySidecarPresent request (some resolve) =
      d) :
    ((d.status = .allowed ↔
        usable s.configuration requirement.schemeId requirement.useContext = true) ∧
      (d.status = .blocked ↔ (s.states.get? requirement.schemeId).isSome = true ∧
        usable s.configuration requirement.schemeId requirement.useContext = false)) ↔
      s.TellsBlockers requirement := by
  obtain ⟨config, processed, hread, hstates, -, -, hobligations⟩ := reconstruct_eq_ok h hperm
  have hstatus : d.status = match s.states.get? requirement.schemeId with
      | none => .unavailable
      | some state => (judge state requirement.useContext
          (blockingReviewOpen config requirement.schemeId requirement.useContext)).1 := by
    rw [← hd, evaluate, hresolve, ← hstates]
    exact status_unchanging hscheme hread _
  have hlive : ∀ state, s.configuration.states.get? requirement.schemeId = some state ↔
      s.states.get? requirement.schemeId = some state := fun state => Iff.rfl
  rw [hstatus, ← Bool.not_eq_true, usable_eq]
  unfold GovernanceStore.TellsBlockers
  cases hstate : s.states.get? requirement.schemeId with
  | none => simp [hlive, hstate]
  | some state =>
    have htold : blockingReviewOpen config requirement.schemeId requirement.useContext = true ↔
        ∃ o, .reviewOpened o ∈ s.events ∧ ¬ (o.id ≠ "" ∧ s.Discharged o.id) ∧
          blocksUse requirement.schemeId requirement.useContext state.scope o = true := by
      rw [blockingReviewOpen_iff ((hstates _).trans hstate)]
      refine exists_congr (fun o => ?_)
      rw [← and_assoc]
      refine and_congr_left (fun _ => ?_)
      rw [Dict.mem_values]
      constructor
      · rintro ⟨k, hk⟩
        obtain ⟨rfl, hopened, hopen⟩ := (hobligations k o).mp hk
        exact ⟨hopened, hopen⟩
      · rintro ⟨hopened, hopen⟩
        exact ⟨o.id, (hobligations o.id o).mpr ⟨rfl, hopened, hopen⟩⟩
    have hopen : blockingReviewOpen s.configuration requirement.schemeId requirement.useContext =
        true ↔ ∃ o ∈ s.obligations.values,
          blocksUse requirement.schemeId requirement.useContext state.scope o = true :=
      blockingReviewOpen_iff ((hlive state).mpr hstate)
    simp only [hlive, hstate, judge_status, Option.some.injEq, forall_eq', exists_eq_left',
      Option.isSome_some, true_and, ← htold, ← hopen]
    by_cases hqualified : state.qualification = "qualified" ∧ state.activation = "active" ∧
        scopeMatches state.scope requirement.useContext = true
    · obtain ⟨hqualification, hactivation, hscope⟩ := hqualified
      simp only [hqualification, hactivation, hscope, true_and, forall_true_left]
      cases blockingReviewOpen config requirement.schemeId requirement.useContext <;>
        cases blockingReviewOpen s.configuration requirement.schemeId requirement.useContext <;>
        simp
    · simp only [not_and] at hqualified
      constructor
      · intro _ hqualification hactivation hscope
        exact absurd hscope (hqualified hqualification hactivation)
      · intro _
        have hnot : ∀ b : Prop, ¬ (state.qualification = "qualified" ∧
            state.activation = "active" ∧
            scopeMatches state.scope requirement.useContext = true ∧ b) :=
          fun b hb => hqualified hb.1 hb.2.1 hb.2.2.1
        simp [hnot]

theorem admits_iff {s : GovernanceStore} (h : Consistent s) (hscheme : requirement.schemeId ≠ "") :
    s.Admits digest requirement ↔ s.TellsBlockers requirement := by
  constructor
  · intro hadmits
    have hlaw := hadmits s.events default (fun _ => .ok (some requirement)) (List.Perm.refl _) rfl
    exact (admits_at h hscheme (List.Perm.refl _) rfl rfl).mp hlaw
  · intro htells events request resolve hperm hresolve
    exact (admits_at h hscheme hperm hresolve rfl).mpr htells

/-- A store whose discharges are settled tells every blocker. -/
theorem tellsBlockers_of_settled {s : GovernanceStore} (h : Consistent s) (hsettled : s.Settled) :
    s.TellsBlockers requirement := by
  intro state _ _ _ _
  refine exists_congr (fun o => ?_)
  rw [← and_assoc]
  refine and_congr_left (fun _ => ?_)
  rw [Dict.mem_values]
  constructor
  · rintro ⟨k, ho⟩
    obtain ⟨rfl, hopened⟩ := h.reviews.opened k o ho
    refine ⟨hopened, fun hdischarged => ?_⟩
    rw [(hsettled o.id hdischarged.2).1] at ho
    exact absurd ho (by simp)
  · rintro ⟨hopened, hnot⟩
    rcases h.reviews.kept o hopened with hopen | hdischarged
    · exact ⟨o.id, hopen⟩
    · rw [← discharged_iff h] at hdischarged
      exact absurd ⟨(hsettled o.id hdischarged).2, hdischarged⟩ hnot

/-- Two decisions with the same digests, of which the second is there. -/
def SameDigests (d d' : UseAdmissionDecision δ) : Prop :=
  d.requirementDigest = d'.requirementDigest ∧ d.snapshotDigest = d'.snapshotDigest ∧
    d.snapshotDigest ≠ none

/-- A decision with a snapshot is one of a requirement, or tells that none applies. -/
theorem evaluate_cases {before after : Result (List GovernanceEvent)} {legacy : Bool}
    {request : CapabilityRequest} {resolver : Option GovernanceUseRequirementResolver}
    (h : (evaluate digest before after legacy request resolver).snapshotDigest ≠ none) :
    ((evaluate digest before after legacy request resolver).status = .notApplicable ∧
      (evaluate digest before after legacy request resolver).requirementDigest =
        some (digest notApplicablePayload)) ∨
    ∃ requirement, evaluate digest before after legacy request resolver =
      evaluateRequirement digest before after legacy requirement := by
  unfold evaluate at h ⊢
  cases resolver with
  | none => exact .inl ⟨rfl, rfl⟩
  | some resolve =>
    dsimp only at h ⊢
    cases hresolve : resolve request with
    | error e =>
      rw [hresolve] at h
      exact absurd rfl h
    | ok resolved =>
      cases resolved with
      | none => exact .inl ⟨rfl, rfl⟩
      | some requirement => exact .inr ⟨requirement, rfl⟩

theorem requirement_ne_notApplicable
    (hdigest : ∀ a b, digest a = digest b → a.pyEq b = true)
    (requirement : GovernanceUseRequirement) :
    digest (requirementPayload requirement) ≠ digest notApplicablePayload := by
  intro h
  have happlicable : (Json.bool true).pyEq (.bool false) = true :=
    Json.pyEq_get "applicable" (hdigest _ _ h) (by simp [Fields.get?]) (by simp [Fields.get?])
  exact absurd happlicable (by decide)

/-- Decisions of the same digests agree. -/
theorem agree_of_sameDigests (hdigest : ∀ a b, digest a = digest b → a.pyEq b = true)
    {before after before' after' : Result (List GovernanceEvent)} {legacy legacy' : Bool}
    {request request' : CapabilityRequest}
    {resolver resolver' : Option GovernanceUseRequirementResolver}
    {d d' : UseAdmissionDecision δ} (hd : evaluate digest before after legacy request resolver = d)
    (hd' : evaluate digest before' after' legacy' request' resolver' = d')
    (h : SameDigests d d') :
    d.status = d'.status ∧ (d.status ≠ .notApplicable → d.reason = d'.reason) := by
  obtain ⟨hrequired, hsame, hsome⟩ := h
  have hsome' : d'.snapshotDigest ≠ none := hsame ▸ hsome
  subst hd hd'
  rcases evaluate_cases hsome with ⟨hstatus, hnone⟩ | ⟨requirement, heq⟩
  · rcases evaluate_cases hsome' with ⟨hstatus', -⟩ | ⟨requirement', heq'⟩
    · exact ⟨hstatus.trans hstatus'.symm, fun hnot => absurd hstatus hnot⟩
    · rw [hnone, heq', evaluateRequirement_requirementDigest] at hrequired
      exact absurd (Option.some.inj hrequired).symm (requirement_ne_notApplicable hdigest _)
  · rcases evaluate_cases hsome' with ⟨-, hnone'⟩ | ⟨requirement', heq'⟩
    · rw [hnone', heq, evaluateRequirement_requirementDigest] at hrequired
      exact absurd (Option.some.inj hrequired) (requirement_ne_notApplicable hdigest _)
    · rw [heq, heq', evaluateRequirement_requirementDigest,
        evaluateRequirement_requirementDigest] at hrequired
      obtain rfl := requirement_eq (hdigest _ _ (Option.some.inj hrequired))
      rw [heq] at hsome hsame ⊢
      rw [heq'] at hsame ⊢
      obtain ⟨snapshot, hsnapshot⟩ := Option.ne_none_iff_exists'.mp hsome
      obtain ⟨config, state, hstate, hpayload, hjudge⟩ :=
        evaluateRequirement_snapshot rfl hsnapshot
      obtain ⟨config', state', hstate', hpayload', hjudge'⟩ :=
        evaluateRequirement_snapshot rfl (hsame.symm.trans hsnapshot)
      have heq := judge_eq hstate hstate' (hdigest _ _ (hpayload.symm.trans hpayload'))
      rw [← hjudge, ← hjudge'] at heq
      exact ⟨congrArg Prod.fst heq, fun _ => congrArg Prod.snd heq⟩

/-- Admission means usability exactly where the journal tells the blockers, so in every run
that keeps what was discharged settled, and equal digests bind equal judgments. -/
theorem admission_refines_usability (hdigest : ∀ a b, digest a = digest b → a.pyEq b = true) :
    (∀ calls requirement, requirement.schemeId ≠ "" →
      ((run SidecarCall.step {} calls).Admits digest requirement ↔
        (run SidecarCall.step {} calls).TellsBlockers requirement)) ∧
    (∀ calls requirement, requirement.schemeId ≠ "" →
      Along SidecarCall.step (fun s call => call.KeepsSettled s) {} calls →
        ∀ pre, pre <+: calls → (run SidecarCall.step {} pre).Admits digest requirement) ∧
    ∀ before after legacy request resolver before' after' legacy' request' resolver',
      let d := evaluate digest before after legacy request resolver
      let d' := evaluate digest before' after' legacy' request' resolver'
      SameDigests d d' →
        d.status = d'.status ∧ (d.status ≠ .notApplicable → d.reason = d'.reason) := by
  have hconsistent : ∀ calls, Consistent (run SidecarCall.step {} calls) := fun calls =>
    run_preserves (I := Consistent) (fun s call h => SidecarCall.consistent h call)
      Consistent.empty
  refine ⟨fun calls requirement hscheme => admits_iff (hconsistent calls) hscheme, ?_, ?_⟩
  · intro calls requirement hscheme halong pre hpre
    refine (admits_iff (hconsistent pre) hscheme).mpr ?_
    obtain ⟨rest, rfl⟩ := hpre
    have hsettled := SidecarCall.settled_of_along (along_append.mp halong).1
    exact tellsBlockers_of_settled hsettled.1 hsettled.2
  · intro before after legacy request resolver before' after' legacy' request' resolver' d d' h
    exact agree_of_sameDigests hdigest rfl rfl h

end Refinement

namespace Qualification

def inUse : DistinctionState :=
  { candidate with qualification := "qualified", activation := "active" }

def operations : GovernanceUseRequirement :=
  { schemeId := "scheme", useContext := { name := "operations" } }

open GovernanceStore in
/-- The review of a scheme in use is discharged and opened again. -/
def reopenedInUse : List SidecarCall :=
  [.perform (.seedState "scheme" inUse), .perform (.openObligation review),
    .perform (.recordDecision noChange),
    .perform (.commitReviewDischarge "review" dischargedReview (some unchanged)),
    .perform (.openObligation review)]

end Qualification

open Qualification GovernanceStore

theorem admission_refines_usability_inUse :
    (∀ a b : Json, id a = id b → a.pyEq b = true) ∧
      ((run SidecarCall.step {} [.perform (.seedState "scheme" inUse)]).Admits id operations ↔
        (run SidecarCall.step {} [.perform (.seedState "scheme" inUse)]).TellsBlockers
          operations) := by
  have hdigest : ∀ a b : Json, id a = id b → a.pyEq b = true := by
    rintro a b rfl
    exact a.pyEq_refl
  exact ⟨hdigest, (admission_refines_usability hdigest).1 _ operations (by decide)⟩

/-- The journal admits a use that the open review blocks. -/
theorem admits_reopened_review :
    ¬ (run SidecarCall.step {} reopenedInUse).Admits (id : Json → Json) operations := by
  intro hadmits
  obtain ⟨hallowed, -⟩ := hadmits (run SidecarCall.step {} reopenedInUse).events default
    (fun _ => .ok (some operations)) (List.Perm.refl _) rfl
  have hunusable : usable (run SidecarCall.step {} reopenedInUse).configuration "scheme"
      { name := "operations" } = false := by decide
  have husable := hallowed.mp (by decide)
  exact Bool.false_ne_true (hunusable.symm.trans husable)

end Governance
end PortableRuntime
