import PortableRuntime.Library.Run
import PortableRuntime.Governance.Admission
import PortableRuntime.Governance.Anchors

/-!
# Runs of the governance operations

States are only raised, decisions and receipts only added.  An obligation leaves by a
discharge that names it, unless another one is opened under its id.
-/

namespace PortableRuntime
namespace Governance

inductive GovernanceCall where
  | commitEventOpening (obligations : List ReviewObligation) (eventKey : String)
      (processedEventKeys : List String)
  | openObligation (obligation : ReviewObligation)
  | recordDecision (decision : GovernanceDecision) (authority : AuthorityCheck)
  | applyStateTransition (application : GovernedApplication) (authority : AuthorityCheck)
      (freshness : FreshnessAnchorLookup)
  | applyReviewDischarge (application : GovernedApplication) (authority : AuthorityCheck)
      (freshness : FreshnessAnchorLookup) (stateApplication : Option GovernedApplication)

namespace GovernanceCall

def perform (config : GovernanceConfiguration) : GovernanceCall → Option GovernanceConfiguration
  | .commitEventOpening obligations eventKey processedEventKeys =>
    (Governance.commitEventOpening config obligations eventKey processedEventKeys).map Prod.fst
  | .openObligation obligation =>
    (Governance.openObligation config.runtime obligation).map
      (fun runtime => { config with runtime })
  | .recordDecision decision authority => Governance.recordDecision config decision authority
  | .applyStateTransition application authority freshness =>
    Governance.applyStateTransition config application authority freshness
  | .applyReviewDischarge application authority freshness stateApplication =>
    Governance.applyReviewDischarge config application authority freshness stateApplication

/-- A rejected operation leaves the configuration as it was. -/
def step (config : GovernanceConfiguration) (call : GovernanceCall) : GovernanceConfiguration :=
  (call.perform config).getD config

/-- The decision that an accepted state application carries out. -/
def driven (config : GovernanceConfiguration) : GovernanceCall → Option String
  | .applyStateTransition application authority freshness =>
    (Governance.applyStateTransition config application authority freshness).map
      (fun _ => application.decisionRef)
  | _ => none

end GovernanceCall

/-! ## The laws of a step -/

/-- An accepted state application raises the version of its scheme by one and changes nothing
else of the scope, the partition or other schemes. -/
def RaisesOwnVersion (config : GovernanceConfiguration) : GovernanceCall → Prop
  | .applyStateTransition application authority freshness =>
    ∀ config', applyStateTransition config application authority freshness = some config' →
      ∃ current next, config.states.get? application.schemeId = some current ∧
        config'.states.get? application.schemeId = some next ∧
        next.version = current.version + 1 ∧ next.scope = current.scope ∧
        next.partition = current.partition ∧
        ∀ schemeId, schemeId ≠ application.schemeId →
          config'.states.get? schemeId = config.states.get? schemeId
  | _ => True

/-- Recorded decisions and receipts are there afterwards as they were. -/
def KeepsRecords (config : GovernanceConfiguration) (call : GovernanceCall) : Prop :=
  (∀ k decision, config.runtime.decisions.get? k = some decision →
    (call.step config).runtime.decisions.get? k = some decision) ∧
  ∀ k receipt, config.runtime.applications.get? k = some receipt →
    (call.step config).runtime.applications.get? k = some receipt

/-- The call is an accepted discharge that names an open obligation; its recorded decision
reviews the obligation, and its authority check passed. -/
def Discharges (config : GovernanceConfiguration) (obligationId : String)
    (obligation : ReviewObligation) : GovernanceCall → Prop
  | .applyReviewDischarge application authority freshness stateApplication =>
    (applyReviewDischarge config application authority freshness stateApplication).isSome = true ∧
    application.reviewObligationId = some obligationId ∧
    ∃ decision state, config.runtime.decisions.get? application.decisionRef = some decision ∧
      obligation.id ∈ decision.reviewRefs ∧ config.states.get? decision.target = some state ∧
      authority (reviewDischargeAuthorityRequest application obligation state) = true
  | _ => False

/-- What was open stops being open only by a discharge. -/
def ClosesByDischarge (config : GovernanceConfiguration) (call : GovernanceCall) : Prop :=
  ∀ k obligation, config.runtime.obligations.get? k = some obligation →
    (call.step config).runtime.obligations.get? k ≠ some obligation →
      Discharges config k obligation call

/-- Every obligation that is opened has an id under which none is open. -/
def OpenApart (runtime : GovernanceRuntime) : List ReviewObligation → Prop
  | [] => True
  | o :: rest =>
    (keyOpen runtime o = false → runtime.obligations.get? o.id = none) ∧
      OpenApart ((openObligation runtime o).getD runtime) rest

def OpensApart (config : GovernanceConfiguration) : GovernanceCall → Prop
  | .commitEventOpening obligations eventKey processedEventKeys =>
    (commitEventOpening config obligations eventKey processedEventKeys).isSome = true →
      OpenApart config.runtime obligations
  | .openObligation obligation => OpenApart config.runtime [obligation]
  | _ => True

section Openings

variable {runtime : GovernanceRuntime} {obligations : List ReviewObligation}

theorem openObligation_kept (o : ReviewObligation) :
    ((openObligation runtime o).getD runtime).decisions = runtime.decisions ∧
      ((openObligation runtime o).getD runtime).applications = runtime.applications := by
  unfold openObligation
  split <;> exact ⟨rfl, rfl⟩

theorem openAll_cons (o : ReviewObligation) :
    openAll runtime (o :: obligations) =
      openAll ((openObligation runtime o).getD runtime) obligations := rfl

theorem openAll_kept :
    (openAll runtime obligations).decisions = runtime.decisions ∧
      (openAll runtime obligations).applications = runtime.applications := by
  induction obligations generalizing runtime with
  | nil => exact ⟨rfl, rfl⟩
  | cons o rest ih =>
    rw [openAll_cons]
    exact ⟨ih.1.trans (openObligation_kept o).1, ih.2.trans (openObligation_kept o).2⟩

/-- Openings that are apart replace nothing. -/
theorem openAll_opened {k : String} {obligation : ReviewObligation}
    (hapart : OpenApart runtime obligations)
    (hopen : runtime.obligations.get? k = some obligation) :
    (openAll runtime obligations).obligations.get? k = some obligation := by
  induction obligations generalizing runtime with
  | nil => exact hopen
  | cons o rest ih =>
    rw [openAll_cons]
    refine ih hapart.2 ?_
    unfold openObligation
    cases hkey : keyOpen runtime o with
    | true => exact hopen
    | false =>
      have hfree := hapart.1 hkey
      have hne : k ≠ o.id := by
        rintro rfl
        rw [hopen] at hfree
        exact absurd hfree (by simp)
      simpa [Dict.get?_set_of_ne _ hne] using hopen

end Openings

section Steps

variable {config config' : GovernanceConfiguration} {call : GovernanceCall}

/-- What a call does to the states: nothing, or one admitted application. -/
theorem states_step (config : GovernanceConfiguration) (call : GovernanceCall) :
    (call.step config).states = config.states ∨
    ∃ application authority freshness decision current,
      call = .applyStateTransition application authority freshness ∧
      AdmittedApplication config application authority freshness decision current ∧
      (call.step config).states =
        config.states.set application.schemeId (candidateStateEffect application current) := by
  unfold GovernanceCall.step
  cases hperform : call.perform config with
  | none => exact .inl rfl
  | some config' =>
    rw [Option.getD_some]
    cases call with
    | commitEventOpening obligations eventKey processed =>
      obtain ⟨⟨opened, keys⟩, hcommit, rfl⟩ := Option.map_eq_some_iff.mp hperform
      obtain rfl := commitEventOpening_eq_some hcommit
      exact .inl rfl
    | openObligation obligation =>
      obtain ⟨runtime, -, rfl⟩ := Option.map_eq_some_iff.mp hperform
      exact .inl rfl
    | recordDecision decision authority =>
      rcases recordDecision_eq_some hperform with rfl | ⟨-, rfl⟩
      · exact .inl rfl
      · exact .inl rfl
    | applyStateTransition application authority freshness =>
      obtain ⟨decision, current, hadmitted, rfl⟩ := applyStateTransition_eq_some.mp hperform
      exact .inr ⟨application, authority, freshness, decision, current, rfl, hadmitted, rfl⟩
    | applyReviewDischarge application authority freshness stateApplication =>
      obtain ⟨_, _, _, _, -, rfl⟩ := applyReviewDischarge_eq_some.mp hperform
      exact .inl rfl

theorem globalStateAdmissible_step (h : globalStateAdmissible config = true) :
    globalStateAdmissible (call.step config) = true := by
  rw [globalStateAdmissible_iff] at h ⊢
  intro k state hstate
  rcases states_step config call with hsame | ⟨application, _, _, _, current, -, hadmitted, hset⟩
  · rw [hsame] at hstate
    exact h k state hstate
  · rw [hset, Dict.get?_set] at hstate
    by_cases hk : k = application.schemeId
    · rw [if_pos hk, Option.some.injEq] at hstate
      rw [hk, ← hstate]
      exact hadmitted.admissible
    · rw [if_neg hk] at hstate
      exact h k state hstate

theorem raisesOwnVersion (config : GovernanceConfiguration) (call : GovernanceCall) :
    RaisesOwnVersion config call := by
  cases call with
  | applyStateTransition application authority freshness =>
    intro config' h
    obtain ⟨decision, current, hadmitted, rfl⟩ := applyStateTransition_eq_some.mp h
    refine ⟨current, candidateStateEffect application current, hadmitted.found,
      Dict.get?_set_self _ _ _, rfl, rfl, rfl, fun schemeId hother => ?_⟩
    exact Dict.get?_set_of_ne _ hother _
  | _ => trivial

theorem keepsRecords (config : GovernanceConfiguration) (call : GovernanceCall) :
    KeepsRecords config call := by
  unfold KeepsRecords GovernanceCall.step
  cases hperform : call.perform config with
  | none => exact ⟨fun _ _ h => h, fun _ _ h => h⟩
  | some config' =>
    rw [Option.getD_some]
    cases call with
    | commitEventOpening obligations eventKey processed =>
      obtain ⟨⟨opened, keys⟩, hcommit, rfl⟩ := Option.map_eq_some_iff.mp hperform
      obtain rfl := commitEventOpening_eq_some hcommit
      dsimp only
      rw [openAll_kept.1, openAll_kept.2]
      exact ⟨fun _ _ h => h, fun _ _ h => h⟩
    | openObligation obligation =>
      obtain ⟨runtime, hopen, rfl⟩ := Option.map_eq_some_iff.mp hperform
      obtain ⟨-, rfl⟩ := openObligation_eq_some hopen
      exact ⟨fun _ _ h => h, fun _ _ h => h⟩
    | recordDecision decision authority =>
      rcases recordDecision_eq_some hperform with rfl | ⟨hfresh, rfl⟩
      · exact ⟨fun _ _ h => h, fun _ _ h => h⟩
      · refine ⟨fun k recorded h => ?_, fun _ _ h => h⟩
        rw [Dict.get?_set_of_ne]
        · exact h
        · rintro rfl
          rw [hfresh] at h
          exact absurd h (by simp)
    | applyStateTransition application authority freshness =>
      obtain ⟨decision, current, hadmitted, rfl⟩ := applyStateTransition_eq_some.mp hperform
      refine ⟨fun _ _ h => h, fun k receipt h => ?_⟩
      rw [Dict.get?_set_of_ne]
      · exact h
      · rintro rfl
        rw [precondition_fresh hadmitted.precondition] at h
        exact absurd h (by simp)
    | applyReviewDischarge application authority freshness stateApplication =>
      obtain ⟨_, _, _, _, hadmitted, rfl⟩ := applyReviewDischarge_eq_some.mp hperform
      refine ⟨fun _ _ h => h, fun k receipt h => ?_⟩
      rw [Dict.get?_set_of_ne]
      · exact h
      · rintro rfl
        rw [precondition_fresh hadmitted.precondition] at h
        exact absurd h (by simp)

/-- Versions never sink, and stay only with the state. -/
theorem version_le_step {k : String} {state : DistinctionState}
    (h : config.states.get? k = some state) :
    ∃ state', (call.step config).states.get? k = some state' ∧ state.version ≤ state'.version := by
  rcases states_step config call with hsame | ⟨application, _, _, _, current, -, hadmitted, hset⟩
  · exact ⟨state, by rw [hsame, h], le_refl _⟩
  · rw [hset, Dict.get?_set]
    by_cases hk : k = application.schemeId
    · subst hk
      obtain rfl : current = state := Option.some.inj (hadmitted.found.symm.trans h)
      refine ⟨candidateStateEffect application current, if_pos rfl, ?_⟩
      exact le_of_lt (Int.lt_succ current.version)
    · exact ⟨state, by rw [if_neg hk, h], le_refl _⟩

theorem closesByDischarge (h : OpensApart config call) : ClosesByDischarge config call := by
  intro k obligation hopen hclosed
  unfold GovernanceCall.step at hclosed
  cases hperform : call.perform config with
  | none =>
    rw [hperform] at hclosed
    exact absurd hopen hclosed
  | some config' =>
    rw [hperform, Option.getD_some] at hclosed
    cases call with
    | commitEventOpening obligations eventKey processed =>
      obtain ⟨⟨opened, keys⟩, hcommit, rfl⟩ := Option.map_eq_some_iff.mp hperform
      have hapart := h (by rw [hcommit]; rfl)
      obtain rfl := commitEventOpening_eq_some hcommit
      exact absurd (openAll_opened hapart hopen) hclosed
    | openObligation o =>
      obtain ⟨runtime, hopened, rfl⟩ := Option.map_eq_some_iff.mp hperform
      have hopenAll : openAll config.runtime [o] = runtime := by
        rw [openAll_cons, hopened]
        rfl
      have hkept := openAll_opened h hopen
      rw [hopenAll] at hkept
      exact absurd hkept hclosed
    | recordDecision decision authority =>
      rcases recordDecision_eq_some hperform with rfl | ⟨-, rfl⟩
      · exact absurd hopen hclosed
      · exact absurd hopen hclosed
    | applyStateTransition application authority freshness =>
      obtain ⟨_, _, -, rfl⟩ := applyStateTransition_eq_some.mp hperform
      exact absurd hopen hclosed
    | applyReviewDischarge application authority freshness stateApplication =>
      obtain ⟨decision, obligationId, discharged, state, hadmitted, rfl⟩ :=
        applyReviewDischarge_eq_some.mp hperform
      dsimp only at hclosed
      rw [Dict.get?_erase] at hclosed
      obtain rfl : k = obligationId := by
        by_contra hne
        rw [if_neg hne] at hclosed
        exact hclosed hopen
      obtain rfl : discharged = obligation := Option.some.inj (hadmitted.opened.symm.trans hopen)
      refine ⟨by rw [show applyReviewDischarge config application authority freshness
        stateApplication = _ from hperform]; rfl, hadmitted.named, decision, state,
        hadmitted.decided, ?_, hadmitted.found, hadmitted.authorized⟩
      have hclosure := hadmitted.closure
      simp only [closureAdmissible, Bool.and_eq_true] at hclosure
      exact List.contains_iff_mem.mp hclosure.1.1.1.1.2

end Steps

/-! ## The laws of a run -/

/-- A decision of the log is recorded, and its target has left the version that its anchor
names. -/
def Spent (config : GovernanceConfiguration) (decisionRef : String) : Prop :=
  ∃ decision state, config.runtime.decisions.get? decisionRef = some decision ∧
    config.states.get? decision.target = some state ∧
    ∀ named, stateAnchor named = decision.expectedStateAnchor → named.version < state.version

structure DrivenOnce (log : List String) (config : GovernanceConfiguration) : Prop where
  once : log.Nodup
  spent : ∀ decisionRef ∈ log, Spent config decisionRef

section Runs

variable {config : GovernanceConfiguration} {log : List String}

theorem Spent.step {decisionRef : String} (h : Spent config decisionRef) (call : GovernanceCall) :
    Spent (call.step config) decisionRef := by
  obtain ⟨decision, state, hdecision, hstate, hversion⟩ := h
  obtain ⟨state', hstate', hle⟩ := @version_le_step _ call _ _ hstate
  refine ⟨decision, state', (keepsRecords config call).1 _ _ hdecision, hstate', ?_⟩
  intro named hnamed
  exact lt_of_lt_of_le (hversion named hnamed) hle

theorem DrivenOnce.step (log : List String) (config : GovernanceConfiguration)
    (call : GovernanceCall) (h : DrivenOnce log config) :
    DrivenOnce (log ++ (call.driven config).toList) (call.step config) := by
  have hkept : ∀ decisionRef ∈ log, Spent (call.step config) decisionRef :=
    fun decisionRef hmem => (h.spent decisionRef hmem).step call
  cases hdriven : call.driven config with
  | none =>
    rw [Option.toList_none, List.append_nil]
    exact ⟨h.once, hkept⟩
  | some decisionRef =>
    cases call with
    | applyStateTransition application authority freshness =>
      obtain ⟨config', happly, rfl⟩ := Option.map_eq_some_iff.mp hdriven
      obtain ⟨decision, current, hadmitted, hconfig⟩ := applyStateTransition_eq_some.mp happly
      have hscheme := linked_schemeId hadmitted.linked
      have hfound := hadmitted.found
      rw [hscheme] at hfound
      have hnew : application.decisionRef ∉ log := by
        intro hmem
        obtain ⟨recorded, state, hrecorded, hstate, hversion⟩ := h.spent _ hmem
        obtain rfl : recorded = decision := Option.some.inj (hrecorded.symm.trans hadmitted.decided)
        obtain rfl : state = current := Option.some.inj (hstate.symm.trans hfound)
        exact lt_irrefl _ (hversion state hadmitted.anchored)
      refine ⟨?_, fun ref hmem => ?_⟩
      · rw [Option.toList_some]
        exact List.nodup_append.mpr ⟨h.once, List.nodup_singleton _, by
          intro a ha b hb
          rw [List.mem_singleton.mp hb]
          exact fun heq => hnew (heq ▸ ha)⟩
      · rcases List.mem_append.mp hmem with hold | hlast
        · exact hkept ref hold
        · have hstep : (GovernanceCall.applyStateTransition application authority
              freshness).step config = config' := by
            rw [GovernanceCall.step, GovernanceCall.perform, happly, Option.getD_some]
          rw [Option.toList_some, List.mem_singleton] at hlast
          rw [hlast, hstep, hconfig]
          refine ⟨decision, candidateStateEffect application current, hadmitted.decided, ?_, ?_⟩
          · rw [← hscheme]
            exact Dict.get?_set_self _ _ _
          · intro named hnamed
            have hversion := version_eq_of_anchor (hnamed.trans hadmitted.anchored.symm)
            rw [hversion]
            exact Int.lt_succ current.version
    | _ => exact absurd hdriven (by simp [GovernanceCall.driven])

/-- Every run of governance operations keeps its states admissible, raises versions one by one,
uses every decision once and replaces no record; and as long as nothing is opened under the
id of an open obligation, obligations are closed by discharges only. -/
theorem governance_run_invariants (config : GovernanceConfiguration) (calls : List GovernanceCall)
    (hadmissible : globalStateAdmissible config = true) :
    globalStateAdmissible (run GovernanceCall.step config calls) = true ∧
    Along GovernanceCall.step RaisesOwnVersion config calls ∧
    (emitted GovernanceCall.step GovernanceCall.driven config calls).Nodup ∧
    Along GovernanceCall.step KeepsRecords config calls ∧
    (Along GovernanceCall.step OpensApart config calls →
      Along GovernanceCall.step ClosesByDischarge config calls) := by
  refine ⟨?_, along_of_forall raisesOwnVersion, ?_, along_of_forall keepsRecords, ?_⟩
  · exact run_preserves (I := fun c => globalStateAdmissible c = true)
      (fun _ _ h => globalStateAdmissible_step h) hadmissible
  · have hempty : DrivenOnce [] config := ⟨List.nodup_nil, by simp⟩
    exact (emitted_invariant DrivenOnce.step hempty).once
  · exact fun h => h.mono (fun _ _ hapart => closesByDischarge hapart)

end Runs

/-! ## A reviewed qualification -/

namespace Qualification

def candidate : DistinctionState :=
  { qualification := "candidate", activation := "suspended", scope := ⟨["item"], by decide⟩,
    partition := [⟨["item"], by decide⟩] }

def configuration : GovernanceConfiguration :=
  { states := .ofPairs [("scheme", candidate)] }

def review : ReviewObligation :=
  { id := "review", target := "scheme", triggerRef := "event", basisRefs := ["basis"],
    context := "operations" }

def decision : GovernanceDecision :=
  { id := "decision", actor := "reviewer", operation := decideQualification, target := "scheme",
    context := "operations", reviewRefs := ["review"], disposition := "transition_required",
    expectedStateAnchor := stateAnchor candidate, basisAnchors := [("basis", "anchor")],
    scopeSnapshot := candidate.scope, partitionSnapshot := candidate.partition,
    requiredQualification := some "qualified" }

def application : GovernedApplication :=
  { id := "application", actor := "operator", operation := applyQualification,
    schemeId := "scheme", target := "scheme", decisionRef := "decision", context := "operations",
    newQualification := some "qualified" }

def discharge : GovernedApplication :=
  { id := "discharge", actor := "operator", operation := applyReviewDischargeOp,
    schemeId := "scheme", target := "review_obligation:review", decisionRef := "decision",
    context := "operations", reviewObligationId := some "review" }

def granted : AuthorityCheck := fun _ => true

def unchanged : FreshnessAnchorLookup := fun _ => some "anchor"

/-- A review is opened, decided, carried out and discharged. -/
def reviewed : List GovernanceCall :=
  [.openObligation review, .recordDecision decision granted,
    .applyStateTransition application granted unchanged,
    .applyReviewDischarge discharge granted unchanged (some application)]

end Qualification

open Qualification

/-- The reviewed qualification is carried out once and its review closed by the discharge. -/
theorem governance_run_invariants_reviewed :
    Along GovernanceCall.step ClosesByDischarge configuration reviewed ∧
    emitted GovernanceCall.step GovernanceCall.driven configuration reviewed = ["decision"] ∧
    (run GovernanceCall.step configuration reviewed).runtime.obligations.keys = [] := by
  have hadmissible : globalStateAdmissible configuration = true := by decide
  have hapart : Along GovernanceCall.step OpensApart configuration reviewed :=
    ⟨⟨fun _ => rfl, trivial⟩, trivial, trivial, trivial, trivial⟩
  exact ⟨(governance_run_invariants configuration reviewed hadmissible).2.2.2.2 hapart,
    by decide, by decide⟩

/-- An open review is replaced by one of its id for another context. -/
theorem obligation_replaced_review :
    ¬ Along GovernanceCall.step ClosesByDischarge configuration
      [.openObligation review, .openObligation { review with context := "research" }] := by
  rintro ⟨-, hsecond, -⟩
  refine hsecond "review" review ?_ ?_
  · decide
  · decide

end Governance
end PortableRuntime
