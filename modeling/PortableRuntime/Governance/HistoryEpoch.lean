import PortableRuntime.Governance.HistoryCodec

/-!
# Epochs of governance history

A persistence is classified by its journal, and without governance events in it by what its sidecar
still tells.  Where only the persistence writes, the sidecar is never ahead of the journal.
-/

namespace PortableRuntime
namespace Governance

inductive GovernanceHistoryEpoch where
  | empty | canonical | legacyProvable | legacyIncomplete
deriving Repr, DecidableEq, Inhabited

structure GovernanceHistoryEpochStatus where
  epoch : GovernanceHistoryEpoch
  canonicalEventCount : Nat
  sidecarRecordCount : Nat
  reason : String
deriving DecidableEq

namespace GovernanceStore

def sidecarCount (s : GovernanceStore) : Nat :=
  s.states.values.length + s.obligations.values.length + s.decisions.values.length +
    s.applications.values.length

/-- What the applications of a sidecar lack, the first of them first. -/
def legacyApplicationReason (decisions : Dict String GovernanceDecision) :
    List ApplicationReceipt → Option String
  | [] => none
  | receipt :: rest =>
    if receipt.effectKind = "review_discharge" ∨
        receipt.application.reviewObligationId.isSome then
      some "legacy discharged review lost the original EventInstance provenance"
    else if (decisions.get? receipt.application.decisionRef).isNone then
      some "legacy application references a missing governance decision"
    else legacyApplicationReason decisions rest

def legacyCurrentConfigurationIsProvable (s : GovernanceStore) : Bool × String :=
  if s.obligations.values.any (fun obligation => obligation.triggerRef = "") then
    (false, "open legacy review obligation is missing its EventInstance provenance")
  else if s.decisions.values.any (fun decision =>
      decision.reviewRefs.any (fun ref => (s.obligations.get? ref).isNone)) then
    (false,
      "legacy decision references review responsibility no longer represented in sidecar")
  else match legacyApplicationReason s.decisions s.applications.values with
    | some reason => (false, reason)
    | none =>
      (true, "current legacy governance configuration has deterministic surviving provenance")

/-- Classify governance history without inventing missing provenance. -/
def detectGovernanceHistoryEpoch (s : GovernanceStore) (journal : List Event) :
    Result GovernanceHistoryEpochStatus := do
  let events := journal.filter (fun event => governanceHistoryEventTypes.contains event.type)
  let sidecarCount := s.sidecarCount
  if events ≠ [] then
    events.forM validateGovernanceHistoryEvent
    return {
      epoch := .canonical
      canonicalEventCount := events.length
      sidecarRecordCount := sidecarCount
      reason := "supported canonical governance history is present" }
  if sidecarCount = 0 then
    return {
      epoch := .empty
      canonicalEventCount := 0
      sidecarRecordCount := 0
      reason := "no governance sidecar and no canonical governance history" }
  let (provable, reason) := s.legacyCurrentConfigurationIsProvable
  return {
    epoch := if provable then .legacyProvable else .legacyIncomplete
    canonicalEventCount := 0
    sidecarRecordCount := sidecarCount
    reason }

/-! ## The journal of a run -/

variable {s : GovernanceStore} {digest : String → String} {entries : List JournalEntry}

theorem filter_event (digest : String → String) (entries : List JournalEntry) :
    (entries.map (JournalEntry.event digest)).filter
        (fun event => governanceHistoryEventTypes.contains event.type) =
      (entries.filter (fun entry => (JournalEntry.recorded? entry).isSome)).map
        (JournalEntry.event digest) := by
  rw [List.filter_map]
  congr 1
  refine List.filter_congr (fun entry _ => ?_)
  cases entry with
  | record now e => exact contains_event_type digest now e
  | other event h => exact h

theorem length_filter_recorded (entries : List JournalEntry) :
    (entries.filter (fun entry => (JournalEntry.recorded? entry).isSome)).length =
      (entries.filterMap JournalEntry.recorded?).length := by
  induction entries with
  | nil => rfl
  | cons entry rest ih =>
    cases entry with
    | record now e => exact congrArg (· + 1) ih
    | other event h => exact ih

theorem forM_validate (digest : String → String) (entries : List JournalEntry) :
    ((entries.map (JournalEntry.event digest)).filter
      (fun event => governanceHistoryEventTypes.contains event.type)).forM
        validateGovernanceHistoryEvent = .ok () := by
  rw [filter_event]
  induction entries with
  | nil => rfl
  | cons entry rest ih =>
    cases entry with
    | record now e =>
      show (validateGovernanceHistoryEvent (e.event digest now) >>= fun _ => _) = _
      rw [validate_event]
      exact ih
    | other event h => exact ih

/-- Without an event, a store that tells what its journal tells has no rows. -/
theorem Consistent.sidecarCount_eq_zero (h : Consistent s) (hnone : s.events = []) :
    s.sidecarCount = 0 := by
  have hempty : ∀ {α : Type} (d : Dict String α), (∀ k v, d.get? k ≠ some v) → d.values = [] := by
    intro α d hd
    rw [List.eq_nil_iff_forall_not_mem]
    intro v hv
    obtain ⟨k, hk⟩ := Dict.mem_values.mp hv
    exact hd k v hk
  have hstates : s.states.values = [] := by
    refine hempty s.states (fun k state hk => ?_)
    have htold := h.states.told k state hk
    rw [hnone, ToldBy] at htold
    simp at htold
  have hobligations : s.obligations.values = [] := by
    refine hempty s.obligations (fun k o hk => ?_)
    have he := (h.reviews.opened k o hk).2
    rw [hnone] at he
    cases he
  have hdecisions : s.decisions.values = [] := by
    refine hempty s.decisions (fun k d hk => ?_)
    have he := ((h.decisions k d).mp hk).2
    rw [hnone] at he
    cases he
  have happlications : s.applications.values = [] := by
    refine hempty s.applications (fun k a hk => ?_)
    obtain ⟨nextState, he⟩ := ((h.applications k a).mp hk).2
    rw [hnone] at he
    cases he
  rw [sidecarCount, hstates, hobligations, hdecisions, happlications]
  rfl

theorem detect_journal (h : Consistent s)
    (hperm : (entries.filterMap JournalEntry.recorded?).Perm s.events) :
    s.detectGovernanceHistoryEpoch (entries.map (JournalEntry.event digest)) = .ok (
      if s.events = [] then {
        epoch := .empty
        canonicalEventCount := 0
        sidecarRecordCount := 0
        reason := "no governance sidecar and no canonical governance history" }
      else {
        epoch := .canonical
        canonicalEventCount := s.events.length
        sidecarRecordCount := s.sidecarCount
        reason := "supported canonical governance history is present" }) := by
  have hlength : ((entries.map (JournalEntry.event digest)).filter
      (fun event => governanceHistoryEventTypes.contains event.type)).length = s.events.length := by
    rw [filter_event, List.length_map, length_filter_recorded]
    exact hperm.length_eq
  rw [detectGovernanceHistoryEpoch]
  by_cases hnone : s.events = []
  · have hfilter : (entries.map (JournalEntry.event digest)).filter
        (fun event => governanceHistoryEventTypes.contains event.type) = [] := by
      rw [← List.length_eq_zero_iff, hlength, hnone]
      rfl
    rw [if_pos hnone, hfilter, h.sidecarCount_eq_zero hnone]
    rfl
  · have hfilter : (entries.map (JournalEntry.event digest)).filter
        (fun event => governanceHistoryEventTypes.contains event.type) ≠ [] := by
      rw [← List.length_pos_iff, hlength, List.length_pos_iff]
      exact hnone
    rw [if_neg hnone, if_pos hfilter, forM_validate, hlength]
    rfl

/-- A journal as a store's sidecar has it: it is read, it gives the states, decisions and
applications of the sidecar and the reviews that no discharge took, and it is no legacy. -/
structure ToldIn (digest : String → String) (entries : List JournalEntry) (s : GovernanceStore) :
    Prop where
  read : ∃ config processed,
    readGovernanceHistory (entries.map (JournalEntry.event digest)) = .ok (config, processed) ∧
      (∀ k, config.states.get? k = s.states.get? k) ∧
      (∀ k, config.runtime.decisions.get? k = s.decisions.get? k) ∧
      (∀ k, config.runtime.applications.get? k = s.applications.get? k) ∧
      ∀ k o, config.runtime.obligations.get? k = some o ↔
        o.id = k ∧ .reviewOpened o ∈ s.events ∧ ¬ (k ≠ "" ∧ s.Discharged k)
  epoch : ∃ status, s.detectGovernanceHistoryEpoch (entries.map (JournalEntry.event digest)) =
      .ok status ∧
    status.canonicalEventCount = s.events.length ∧ status.sidecarRecordCount = s.sidecarCount ∧
    (status.epoch = .empty ∧ s.events = [] ∨ status.epoch = .canonical ∧ s.events ≠ [])

/-- Whatever a persistence has done, with its sidecar rebuilt at any time, every journal that has
its events in any order, with events of other kinds anywhere, gives the states, decisions and
applications of the sidecar and the reviews that no discharge took, and is never taken for the
legacy of an older version.  It gives the sidecar itself, reviews included, where no discharged
review has been opened again. -/
theorem toldIn_of_run (digest : String → String) (calls : List SidecarCall)
    (entries : List JournalEntry)
    (hperm : (entries.filterMap JournalEntry.recorded?).Perm
      (run SidecarCall.step {} calls).events) :
    ToldIn digest entries (run SidecarCall.step {} calls) ∧
      (Along SidecarCall.step (fun s call => call.KeepsSettled s) {} calls →
        ∃ config processed, readGovernanceHistory (entries.map (JournalEntry.event digest)) =
            .ok (config, processed) ∧
          config.Same (run SidecarCall.step {} calls).configuration) := by
  have hconsistent : Consistent (run SidecarCall.step {} calls) :=
    @run_preserves _ _ SidecarCall.step Consistent (fun s call h => SidecarCall.consistent h call)
      {} calls Consistent.empty
  refine ⟨⟨?_, ?_⟩, fun halong => ?_⟩
  · rw [readGovernanceHistory, foldlM_readEvent]
    exact reconstruct_eq_ok hconsistent hperm
  · refine ⟨_, detect_journal hconsistent hperm, ?_⟩
    by_cases hnone : (run SidecarCall.step {} calls).events = []
    · rw [if_pos hnone, hnone, hconsistent.sidecarCount_eq_zero hnone]
      exact ⟨rfl, rfl, .inl ⟨rfl, rfl⟩⟩
    · rw [if_neg hnone]
      exact ⟨rfl, rfl, .inr ⟨rfl, hnone⟩⟩
  · obtain ⟨config, processed, -, hread, hsame, -⟩ :=
      (SidecarCall.settled_of_along halong).2.replays hconsistent _ hperm
    rw [readGovernanceHistory, foldlM_readEvent]
    exact ⟨config, processed, hread, hsame⟩

open Qualification in
theorem toldIn_of_run_reviewed :
    let calls : List SidecarCall := [.perform (.seedState "scheme" candidate),
      .perform (.openObligation review), .rebuild]
    let entries : List JournalEntry := [.record 2 (.reviewOpened review), .other
      { id := "event_1", createdAt := 1, type := "work.created", subjectRef := "work_1" } rfl,
      .record 0 (.stateSeeded "scheme" candidate)]
    ToldIn (fun identity => identity) entries (run SidecarCall.step {} calls) ∧
      ∃ config processed,
        readGovernanceHistory (entries.map (JournalEntry.event (fun identity => identity))) =
          .ok (config, processed) ∧
        config.Same (run SidecarCall.step {} calls).configuration := by
  intro calls entries
  obtain ⟨htold, hsettled⟩ := toldIn_of_run (fun identity => identity) calls entries (by decide)
  refine ⟨htold, hsettled ⟨trivial, fun _ _ hdischarged => ?_, trivial, trivial⟩⟩
  obtain ⟨receipt, hmem, -⟩ := hdischarged
  exact absurd hmem List.not_mem_nil

end GovernanceStore
end Governance
end PortableRuntime
