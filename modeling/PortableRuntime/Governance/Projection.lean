import PortableRuntime.Governance.Consistency
import PortableRuntime.Governance.RunInvariants

/-!
# Rebuilding the sidecar

A replay of the events gives the tables back, but for obligations that were discharged and
opened again: the second opening has no event of its own.
-/

namespace PortableRuntime
namespace Governance

/-! ## Replays -/

/-- The same values under the same keys in all four tables. -/
structure GovernanceConfiguration.Same (a b : GovernanceConfiguration) : Prop where
  states : ∀ k, a.states.get? k = b.states.get? k
  obligations : ∀ k, a.runtime.obligations.get? k = b.runtime.obligations.get? k
  decisions : ∀ k, a.runtime.decisions.get? k = b.runtime.decisions.get? k
  applications : ∀ k, a.runtime.applications.get? k = b.runtime.applications.get? k

namespace GovernanceStore

/-- In any order, the events are read as the configuration of the sidecar, and the sidecar
that is rebuilt from them is the same. -/
def Replays (s : GovernanceStore) : Prop :=
  ∀ events, events.Perm s.events → ∃ config processed rebuilt,
    reconstructGovernanceHistory events = .ok (config, processed) ∧
    config.Same s.configuration ∧
    s.rebuildProjectionFromCanonicalHistory events = .ok rebuilt ∧
    rebuilt.configuration.Same s.configuration

/-- A receipt of the store discharges an obligation. -/
def Discharged (s : GovernanceStore) (obligationId : String) : Prop :=
  ∃ receipt ∈ s.applications.values, receipt.effectKind = "review_discharge" ∧
    receipt.application.reviewObligationId = some obligationId

/-- Nothing is open that was discharged, and a replay reads every discharge. -/
def Settled (s : GovernanceStore) : Prop :=
  ∀ k, s.Discharged k → s.obligations.get? k = none ∧ k ≠ ""

section Replays

variable {s : GovernanceStore}

theorem discharged_iff (h : Consistent s) {k : String} :
    s.Discharged k ↔ DischargedBy s.events k := by
  unfold Discharged DischargedBy
  refine exists_congr (fun receipt => and_congr ?_ Iff.rfl)
  rw [Dict.mem_values]
  constructor
  · rintro ⟨id, hget⟩
    exact ((h.applications id receipt).mp hget).2
  · exact fun happlied => ⟨_, (h.applications _ receipt).mpr ⟨rfl, happlied⟩⟩

theorem nodup_event_ids (h : Consistent s) : (s.events.map GovernanceEvent.id).Nodup := by
  have hkeys : s.events.map GovernanceEvent.id = s.history.keys := by
    unfold events Dict.values Dict.keys
    rw [List.map_map]
    refine List.map_congr_left (fun e he => ?_)
    exact h.keyed e.1 e.2 (Dict.get?_eq_some.mpr he)
  rw [hkeys]
  exact s.history.nodup

/-- What is read of the events, in any order: all but what the discharges take. -/
theorem reconstruct_eq_ok (h : Consistent s) {events : List GovernanceEvent}
    (hperm : events.Perm s.events) :
    ∃ config processed, reconstructGovernanceHistory events = .ok (config, processed) ∧
      (∀ k, config.states.get? k = s.states.get? k) ∧
      (∀ k, config.runtime.decisions.get? k = s.decisions.get? k) ∧
      (∀ k, config.runtime.applications.get? k = s.applications.get? k) ∧
      ∀ k o, config.runtime.obligations.get? k = some o ↔
        o.id = k ∧ .reviewOpened o ∈ s.events ∧ ¬ (k ≠ "" ∧ s.Discharged k) := by
  have hmem : ∀ e, e ∈ events ↔ e ∈ s.events := fun e => hperm.mem_iff
  obtain ⟨r, hread, hr⟩ := exists_readBack
    ((hperm.map GovernanceEvent.id).nodup_iff.mpr (nodup_event_ids h))
    (fun k state hk => h.states.admissible k state ((ToldBy.congr hmem).mp hk))
  have hadmissible : globalStateAdmissible r.configuration = true := by
    rw [globalStateAdmissible_iff]
    intro k state hstate
    exact h.states.admissible k state ((ToldBy.congr hmem).mp (hr.told k state hstate))
  have hstates : ∀ k, r.states.get? k = s.states.get? k := by
    intro k
    cases hread : r.states.get? k with
    | some state =>
      obtain ⟨current, hcurrent, hle⟩ :=
        h.states.newest k state ((ToldBy.congr hmem).mp (hr.told k state hread))
      obtain ⟨state', hstate', hge⟩ :=
        hr.newest k current ((ToldBy.congr hmem).mpr (h.states.told k current hcurrent))
      obtain rfl : state' = state := Option.some.inj (hstate'.symm.trans hread)
      rcases hle with rfl | hlt
      · exact hcurrent.symm
      · exact absurd hge (not_le.mpr hlt)
    | none =>
      cases hcurrent : s.states.get? k with
      | none => rfl
      | some current =>
        obtain ⟨state', hstate', -⟩ :=
          hr.newest k current ((ToldBy.congr hmem).mpr (h.states.told k current hcurrent))
        rw [hread] at hstate'
        exact absurd hstate' (by simp)
  refine ⟨r.configuration, r.processed, ?_, hstates, fun k => ?_, fun k => ?_, fun k o => ?_⟩
  · unfold reconstructGovernanceHistory
    rw [hread]
    simp only [Result.bind_eq_ok, guardValue_eq_ok, exists_const, Result.pure_eq_ok]
    exact ⟨r, rfl, hadmissible, rfl⟩
  · ext d
    rw [show r.configuration.runtime.decisions = r.decisions from rfl, hr.decided, h.decisions k d,
      hmem]
  · ext a
    rw [show r.configuration.runtime.applications = r.applications from rfl, hr.applied,
      h.applications k a, AppliedBy.congr hmem]
  · rw [hr.configuration_obligations, hmem, DischargedBy.congr hmem, discharged_iff h]

/-- A sidecar that is rebuilt has the configuration that was read. -/
theorem rebuild_same {events : List GovernanceEvent} {config : GovernanceConfiguration}
    {processed : Dict String (List String)}
    (hread : reconstructGovernanceHistory events = .ok (config, processed))
    (hobligations : ∀ k o, config.runtime.obligations.get? k = some o → o.id = k)
    (hdecisions : ∀ k d, config.runtime.decisions.get? k = some d → d.id = k)
    (happlications : ∀ k a, config.runtime.applications.get? k = some a →
      a.application.id = k) :
    ∃ rebuilt, s.rebuildProjectionFromCanonicalHistory events = .ok rebuilt ∧
      rebuilt.configuration.Same config := by
  unfold rebuildProjectionFromCanonicalHistory
  rw [hread]
  exact ⟨_, rfl, Dict.get?_ofPairs_entries config.states, Dict.get?_ofPairs_values hobligations,
    Dict.get?_ofPairs_values hdecisions, Dict.get?_ofPairs_values happlications⟩

theorem exists_rebuilt (h : Consistent s) :
    ∃ rebuilt, s.rebuildProjectionFromCanonicalHistory s.events = .ok rebuilt ∧
      rebuilt.history = s.history ∧ (∀ k, rebuilt.states.get? k = s.states.get? k) ∧
      (∀ k, rebuilt.decisions.get? k = s.decisions.get? k) ∧
      (∀ k, rebuilt.applications.get? k = s.applications.get? k) ∧
      ∀ k o, rebuilt.obligations.get? k = some o ↔
        o.id = k ∧ .reviewOpened o ∈ s.events ∧ ¬ (k ≠ "" ∧ s.Discharged k) := by
  obtain ⟨config, processed, hread, hstates, hdecisions, happlications, hobligations⟩ :=
    reconstruct_eq_ok h (List.Perm.refl _)
  obtain ⟨rebuilt, hrebuilt, hsame⟩ := rebuild_same (s := s) hread
    (fun k o ho => ((hobligations k o).mp ho).1)
    (fun k d hd => ((h.decisions k d).mp (hdecisions k ▸ hd)).1)
    (fun k a ha => ((h.applications k a).mp (happlications k ▸ ha)).1)
  have hhistory : rebuilt.history = s.history := by
    unfold rebuildProjectionFromCanonicalHistory at hrebuilt
    rw [hread] at hrebuilt
    rw [← Except.ok.inj hrebuilt]
  refine ⟨rebuilt, hrebuilt, hhistory, fun k => (hsame.states k).trans (hstates k),
    fun k => (hsame.decisions k).trans (hdecisions k),
    fun k => (hsame.applications k).trans (happlications k), fun k o => ?_⟩
  rw [← hobligations]
  exact iff_of_eq (congrArg (· = some o) (hsame.obligations k))

theorem Settled.replays (h : Consistent s) (hsettled : s.Settled) : Replays s := by
  intro events hperm
  obtain ⟨config, processed, hread, hstates, hdecisions, happlications, hobligations⟩ :=
    reconstruct_eq_ok h hperm
  have hopen : ∀ k, config.runtime.obligations.get? k = s.obligations.get? k := by
    intro k
    ext o
    rw [hobligations]
    constructor
    · rintro ⟨rfl, ho, hnot⟩
      rcases h.reviews.kept o ho with hopen | hdischarged
      · exact hopen
      · rw [← discharged_iff h] at hdischarged
        exact absurd ⟨(hsettled _ hdischarged).2, hdischarged⟩ hnot
    · intro ho
      obtain ⟨hid, hevent⟩ := h.reviews.opened k o ho
      refine ⟨hid, hevent, fun hdischarged => ?_⟩
      rw [(hsettled k hdischarged.2).1] at ho
      exact absurd ho (by simp)
  have hsame : config.Same s.configuration := ⟨hstates, hopen, hdecisions, happlications⟩
  obtain ⟨rebuilt, hrebuilt, hsame'⟩ := rebuild_same (s := s) hread
    (fun k o ho => ((hobligations k o).mp ho).1)
    (fun k d hd => ((h.decisions k d).mp (hdecisions k ▸ hd)).1)
    (fun k a ha => ((h.applications k a).mp (happlications k ▸ ha)).1)
  exact ⟨config, processed, rebuilt, hread, hsame, hrebuilt,
    fun k => (hsame'.states k).trans (hsame.states k),
    fun k => (hsame'.obligations k).trans (hsame.obligations k),
    fun k => (hsame'.decisions k).trans (hsame.decisions k),
    fun k => (hsame'.applications k).trans (hsame.applications k)⟩

/-- What was discharged is open again in no store that replays, unless the replay does not
read the discharge. -/
theorem Replays.closed (h : Consistent s) (hreplays : Replays s) {k : String}
    (hdischarged : s.Discharged k) : (s.obligations.get? k).isSome = true ↔ k = "" := by
  obtain ⟨config, processed, -, hread, hsame, -⟩ := hreplays s.events (List.Perm.refl _)
  obtain ⟨config', processed', hread', -, -, -, hobligations⟩ :=
    reconstruct_eq_ok h (List.Perm.refl _)
  obtain ⟨rfl, -⟩ := Prod.mk.inj (Except.ok.inj (hread.symm.trans hread'))
  have hopen : config.runtime.obligations.get? k = s.obligations.get? k := hsame.obligations k
  constructor
  · intro hsome
    obtain ⟨o, ho⟩ := Option.isSome_iff_exists.mp hsome
    by_contra hk
    exact ((hobligations k o).mp (hopen.trans ho)).2.2 ⟨hk, hdischarged⟩
  · rintro rfl
    obtain ⟨o, hid, hevent⟩ := h.reviews.discharged "" ((discharged_iff h).mp hdischarged)
    have hread := (hobligations "" o).mpr ⟨hid, hevent, fun hne => hne.1 rfl⟩
    rw [← hopen, hread]
    rfl

end Replays

/-! ## Runs -/

/-- No obligation is opened under an id that was discharged, and none is discharged under
the empty id. -/
def KeepsSettled (s : GovernanceStore) : PersistenceCall → Prop
  | .openObligation obligation =>
    s.validateNewObligation obligation = .ok true → s.takes (.reviewOpened obligation) = true →
      ¬ s.Discharged obligation.id
  | .commitEventObligations eventRef obligations =>
    CommittedOpenings s eventRef obligations → ∀ o ∈ obligations, ¬ s.Discharged o.id
  | .commitReviewDischarge obligationId receipt freshness =>
    (∃ obligation decision,
      CommittedDischarge s obligationId receipt freshness obligation decision) → obligationId ≠ ""
  | _ => True

section Runs

variable {s s' : GovernanceStore}

theorem opened_applications (s : GovernanceStore) (obligations : List ReviewObligation) :
    (s.opened obligations).applications = s.applications := by
  induction obligations generalizing s with
  | nil => rfl
  | cons o rest ih => exact ih _

theorem opened_obligations (s : GovernanceStore) {obligations : List ReviewObligation} {k : String}
    (hk : k ∉ obligations.map (·.id)) :
    (s.opened obligations).obligations.get? k = s.obligations.get? k := by
  induction obligations generalizing s with
  | nil => rfl
  | cons o rest ih =>
    rw [List.map_cons, List.mem_cons, not_or] at hk
    exact (ih _ hk.2).trans (Dict.get?_set_of_ne _ hk.1 _)

theorem opened_obligations_isSome (s : GovernanceStore) {obligations : List ReviewObligation}
    {k : String} (hk : k ∈ obligations.map (·.id)) :
    ((s.opened obligations).obligations.get? k).isSome = true := by
  induction obligations generalizing s with
  | nil => exact absurd hk List.not_mem_nil
  | cons o rest ih =>
    by_cases hrest : k ∈ rest.map (·.id)
    · exact ih _ hrest
    · obtain rfl : k = o.id := by
        rw [List.map_cons, List.mem_cons] at hk
        exact hk.resolve_right hrest
      have hget := opened_obligations
        ({ s with obligations := s.obligations.set o.id o }.record (.reviewOpened o)) hrest
      show ((opened ({ s with obligations := s.obligations.set o.id o }.record
        (.reviewOpened o)) rest).obligations.get? o.id).isSome = true
      rw [hget, record, Dict.get?_set_self]
      rfl

/-- The marker of an event is taken where the event is not processed. -/
theorem takes_processed (h : Consistent s) {eventRef : String}
    {obligations : List ReviewObligation} {ids : List String}
    (hnone : s.processedEventObligationIds eventRef = .ok none) :
    (s.opened obligations).takes (.eventProcessed eventRef ids) = true := by
  have hkept : (s.opened obligations).takes (.eventProcessed eventRef ids) =
      s.takes (.eventProcessed eventRef ids) := by
    clear h hnone
    induction obligations generalizing s with
    | nil => rfl
    | cons o rest ih => exact ih.trans (takes_record_of_ne (by simp [GovernanceEvent.id]))
  rw [hkept]
  unfold takes
  cases hget : s.history.get? (GovernanceEvent.eventProcessed eventRef ids).id with
  | none => rfl
  | some event =>
    have hid := h.keyed _ _ hget
    cases event with
    | eventProcessed key marked =>
      obtain rfl : key = eventRef := (Prod.mk.inj hid).2
      unfold processedEventObligationIds at hnone
      rw [show s.history.get? (GovernanceEvent.eventProcessed key []).id = _ from hget] at hnone
      simp [guardValue, pure, Except.pure, bind, Except.bind] at hnone
    | _ => exact absurd hid (by simp [GovernanceEvent.id])

theorem step_of_perform (call : PersistenceCall) (h : call.perform s = .ok s') :
    call.step s = s' := by
  rw [PersistenceCall.step, h]

/-- Receipts that are added, if one discharges. -/
theorem discharged_set {receipt : ApplicationReceipt}
    (hfresh : s.applications.get? receipt.application.id = none)
    (happlications : s'.applications = s.applications.set receipt.application.id receipt)
    {k : String} : s'.Discharged k ↔ s.Discharged k ∨
      (receipt.effectKind = "review_discharge" ∧
        receipt.application.reviewObligationId = some k) := by
  unfold Discharged
  have hvalues : s'.applications.values = s.applications.values ++ [receipt] := by
    rw [happlications, Dict.values, Dict.entries_set_of_not_mem hfresh]
    simp [Dict.values]
  rw [hvalues]
  simp only [List.mem_append, List.mem_singleton, or_and_right, exists_or, exists_eq_left]

/-- Where no obligation is opened or discharged and no discharge is recorded. -/
theorem Settled.congr (h : s.Settled)
    (hobligations : ∀ k, s'.obligations.get? k = s.obligations.get? k)
    (hdischarged : ∀ k, s'.Discharged k → s.Discharged k) : s'.Settled := by
  intro k hk
  rw [hobligations]
  exact h k (hdischarged k hk)

theorem Settled.perform (h : s.Settled) {call : PersistenceCall}
    (hcall : s.KeepsSettled call) (hperform : call.perform s = .ok s') : s'.Settled := by
  cases call with
  | seedState schemeId state =>
    obtain ⟨-, ⟨-, rfl⟩ | ⟨-, -, rfl⟩⟩ := seedState_eq_ok.mp hperform
    · exact h
    · exact h.congr (fun k => rfl) (fun k hk => hk)
  | openObligation o =>
    rcases openObligation_eq_ok.mp hperform with ⟨-, rfl⟩ | ⟨hnone, hkey, hmaterialize⟩
    · exact h
    · obtain ⟨htakes, rfl⟩ := materialize_eq_ok.mp hmaterialize
      have hnew := hcall (validateNewObligation_eq_ok.mpr (.inr ⟨hnone, hkey, rfl⟩)) htakes
      intro k hk
      have hne : k ≠ o.id := by
        rintro rfl
        exact hnew hk
      exact ⟨(Dict.get?_set_of_ne _ hne _).trans (h k hk).1, (h k hk).2⟩
  | commitEventObligations eventRef obligations =>
    rcases commitEventObligations_eq_ok.mp (perform_commitEventObligations.mp hperform) with
      ⟨-, -, -, rfl⟩ | ⟨hc, -, rfl⟩
    · exact h
    · intro k hk
      have hold : s.Discharged k := by
        unfold Discharged at hk ⊢
        rwa [record, opened_applications] at hk
      refine ⟨(opened_obligations s (fun hmem => ?_)).trans (h k hold).1, (h k hold).2⟩
      obtain ⟨o, ho, rfl⟩ := List.mem_map.mp hmem
      exact hcall hc o ho hold
  | recordDecision decision =>
    rcases recordDecision_eq_ok.mp hperform with ⟨-, rfl⟩ | ⟨-, -, -, -, rfl⟩
    · exact h
    · exact h.congr (fun k => rfl) (fun k hk => hk)
  | commitStateApplication schemeId nextState receipt freshness =>
    obtain ⟨⟨current, decision, hc⟩, -, rfl⟩ := commitStateApplication_eq_ok.mp hperform
    refine h.congr (fun k => rfl) (fun k hk => ?_)
    rcases (discharged_set hc.fresh rfl).mp hk with hold | ⟨hkind, -⟩
    · exact hold
    · rw [hc.kind] at hkind
      exact absurd hkind (by decide)
  | commitReviewDischarge obligationId receipt freshness =>
    obtain ⟨⟨obligation, decision, hc⟩, -, rfl⟩ := commitReviewDischarge_eq_ok.mp hperform
    intro k hk
    have hget := Dict.get?_erase s.obligations obligationId k
    rcases (discharged_set hc.fresh rfl).mp hk with hold | ⟨-, hnamed⟩
    · refine ⟨hget.trans ?_, (h k hold).2⟩
      split
      · rfl
      · exact (h k hold).1
    · obtain rfl : obligationId = k := Option.some.inj (hc.named.symm.trans hnamed)
      exact ⟨hget.trans (if_pos rfl), hcall ⟨obligation, decision, hc⟩⟩

theorem Settled.step (h : s.Settled) {call : PersistenceCall} (hcall : s.KeepsSettled call) :
    (call.step s).Settled := by
  unfold PersistenceCall.step
  cases hperform : call.perform s with
  | error e => exact h
  | ok s' => exact h.perform hcall hperform

theorem Settled.empty : ({} : GovernanceStore).Settled := by
  rintro k ⟨receipt, hmem, -⟩
  exact absurd hmem List.not_mem_nil

/-- A call, or the sidecar rebuilt from the journal. -/
inductive SidecarCall where
  | perform (call : PersistenceCall)
  | rebuild

def SidecarCall.step (s : GovernanceStore) : SidecarCall → GovernanceStore
  | .perform call => call.step s
  | .rebuild => match s.rebuildProjectionFromCanonicalHistory s.events with
    | .ok rebuilt => rebuilt
    | .error _ => s

/-- A rebuilt sidecar opens and discharges nothing. -/
def SidecarCall.KeepsSettled (s : GovernanceStore) : SidecarCall → Prop
  | .perform call => s.KeepsSettled call
  | .rebuild => True

/-- What a rebuilt sidecar holds is told by the journal, and nothing in it is open that was
discharged. -/
theorem SidecarCall.rebuilt (h : Consistent s) :
    Consistent (SidecarCall.rebuild.step s) ∧
      (s.Settled → (SidecarCall.rebuild.step s).Settled) := by
  obtain ⟨rebuilt, hrebuilt, hhistory, hstates, hdecisions, happlications, hobligations⟩ :=
    exists_rebuilt h
  rw [show SidecarCall.rebuild.step s = rebuilt by rw [SidecarCall.step, hrebuilt]]
  have hevents : rebuilt.events = s.events := congrArg Dict.values hhistory
  have hdischarged : ∀ k, rebuilt.Discharged k ↔ s.Discharged k := by
    intro k
    refine exists_congr (fun receipt => and_congr_left (fun _ => ?_))
    rw [Dict.mem_values, Dict.mem_values]
    exact exists_congr (fun id => by rw [happlications])
  refine ⟨⟨?_, ?_, ?_, ?_, ?_⟩, ?_⟩
  · rw [hhistory]
    exact h.keyed
  · rw [hevents]
    exact ⟨fun k state hk => h.states.told k state (hstates k ▸ hk),
      fun k state hk => hstates k ▸ h.states.newest k state hk, h.states.admissible⟩
  · rw [hevents]
    refine ⟨fun k o ho => ?_, fun o ho => ?_, h.reviews.discharged⟩
    · obtain ⟨hid, hopened, -⟩ := (hobligations k o).mp ho
      exact ⟨hid, hopened⟩
    · by_cases hk : s.Discharged o.id
      · exact .inr ((discharged_iff h).mp hk)
      · exact .inl ((hobligations o.id o).mpr ⟨rfl, ho, fun hboth => hk hboth.2⟩)
  · rw [hevents]
    intro k d
    rw [hdecisions]
    exact h.decisions k d
  · rw [hevents]
    intro k a
    rw [happlications]
    exact h.applications k a
  · intro hsettled k hk
    rw [hdischarged] at hk
    refine ⟨?_, (hsettled k hk).2⟩
    rw [Option.eq_none_iff_forall_ne_some]
    intro o ho
    exact ((hobligations k o).mp ho).2.2 ⟨(hsettled k hk).2, hk⟩

theorem SidecarCall.consistent (h : Consistent s) (call : SidecarCall) :
    Consistent (call.step s) := by
  cases call with
  | perform call => exact h.step call
  | rebuild => exact (SidecarCall.rebuilt h).1

theorem SidecarCall.settled (h : Consistent s) (hsettled : s.Settled) {call : SidecarCall}
    (hcall : call.KeepsSettled s) : (call.step s).Settled := by
  cases call with
  | perform call => exact hsettled.step hcall
  | rebuild => exact (SidecarCall.rebuilt h).2 hsettled

theorem SidecarCall.settled_of_along {calls : List SidecarCall}
    (h : Along SidecarCall.step (fun s call => call.KeepsSettled s) {} calls) :
    Consistent (run SidecarCall.step {} calls) ∧ (run SidecarCall.step {} calls).Settled :=
  run_invariant (I := fun s => Consistent s ∧ s.Settled)
    (fun _ call h hcall => ⟨SidecarCall.consistent h.1 call, SidecarCall.settled h.1 h.2 hcall⟩)
    ⟨Consistent.empty, Settled.empty⟩ h

/-- A call that does not keep the store settled leaves one that does not replay. -/
theorem keepsSettled_of_replays (hconsistent : Consistent s) (h : s.Settled)
    {call : PersistenceCall} (hreplays : Replays (call.step s)) : s.KeepsSettled call := by
  have hnext : Consistent (call.step s) := hconsistent.step call
  cases call with
  | openObligation o =>
    intro hvalid htakes hdischarged
    obtain ⟨hnone, hkey, -⟩ : s.obligations.get? o.id = none ∧
        keyOpen s.configuration.runtime o = false ∧ true = true := by
      simpa using validateNewObligation_eq_ok.mp hvalid
    have hperform := step_of_perform (.openObligation o)
      (openObligation_eq_ok.mpr (.inr ⟨hnone, hkey, materialize_eq_ok.mpr ⟨htakes, rfl⟩⟩))
    rw [hperform] at hreplays hnext
    refine absurd ((hreplays.closed hnext (k := o.id) hdischarged).mp ?_) (h _ hdischarged).2
    rw [record, Dict.get?_set_self]
    rfl
  | commitEventObligations eventRef obligations =>
    intro hc o ho hdischarged
    have hperform := step_of_perform (.commitEventObligations eventRef obligations)
      (perform_commitEventObligations.mpr (commitEventObligations_eq_ok.mpr
        (.inr ⟨hc, takes_processed hconsistent hc.unprocessed, rfl⟩)))
    rw [hperform] at hreplays hnext
    refine absurd ((hreplays.closed hnext (k := o.id) ?_).mp ?_) (h _ hdischarged).2
    · unfold Discharged
      rw [record, opened_applications]
      exact hdischarged
    · exact opened_obligations_isSome s (List.mem_map.mpr ⟨o, ho, rfl⟩)
  | commitReviewDischarge obligationId receipt freshness =>
    rintro ⟨obligation, decision, hc⟩ rfl
    have hperform := step_of_perform (.commitReviewDischarge "" receipt freshness)
      (commitReviewDischarge_eq_ok.mpr
        ⟨⟨obligation, decision, hc⟩, takes_application hconsistent hc.fresh, rfl⟩)
    rw [hperform] at hreplays hnext
    have hopen := (hreplays.closed hnext
      ((discharged_set hc.fresh rfl).mpr (.inr ⟨hc.kind, hc.named⟩))).mpr rfl
    rw [record, Dict.get?_erase, if_pos rfl] at hopen
    exact absurd hopen (by simp)
  | _ => trivial

/-- The stores of a run all replay exactly if no call opens an obligation that was discharged
or discharges one of the empty id. -/
theorem replays_iff_along (calls : List PersistenceCall) :
    (∀ pre, pre <+: calls → Replays (run PersistenceCall.step {} pre)) ↔
      Along PersistenceCall.step KeepsSettled {} calls := by
  refine property_iff_along (I := fun s => Consistent s ∧ s.Settled)
    (fun s h => h.2.replays h.1)
    (fun s call h hreplays => keepsSettled_of_replays h.1 h.2 hreplays)
    (fun s call h hcall => ⟨h.1.step call, h.2.step hcall⟩) ⟨Consistent.empty, Settled.empty⟩

end Runs

end GovernanceStore

/-! ## A review that is opened again -/

namespace Qualification

def noChange : GovernanceDecision :=
  { decision with disposition := "no_change", requiredQualification := none }

def dischargedReview : ApplicationReceipt :=
  dischargeReceipt discharge (.ofPairs [("review", review)]) .empty

/-- The review is opened, discharged without a change, and opened again. -/
def reopened : List PersistenceCall :=
  [.seedState "scheme" candidate, .openObligation review, .recordDecision noChange,
    .commitReviewDischarge "review" dischargedReview (some unchanged), .openObligation review]

end Qualification

open Qualification in
/-- The review is open in the sidecar and discharged in the replay. -/
theorem replays_reopened_review :
    ¬ (run PersistenceCall.step {} reopened).Replays := by
  intro hreplays
  obtain ⟨config, processed, -, hread, hsame, -⟩ := hreplays _ (List.Perm.refl _)
  have hreplayed : (reconstructGovernanceHistory
      (run PersistenceCall.step {} reopened).events).toOption.map
        (fun r => r.1.runtime.obligations.get? "review") = some none := by decide
  have hopen : (run PersistenceCall.step {} reopened).obligations.get? "review" =
      some review := by decide
  rw [hread] at hreplayed
  have hclosed : config.runtime.obligations.get? "review" = none := Option.some.inj hreplayed
  have hsameReview := hsame.obligations "review"
  rw [hclosed] at hsameReview
  exact absurd (hsameReview.trans hopen) (by simp)

end Governance
end PortableRuntime
