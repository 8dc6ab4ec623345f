import PortableRuntime.Records.VerifiedReplay
import PortableRuntime.Stores.TerminalPairs

/-!
# Confirmed outcomes stay derivable

A store is closed when the replay validator accepts its state: every confirmed outcome is the one
that its own fields derive, and every authority event is one of its events.  A write keeps the
store closed when it changes no field that the derivation of a confirmed outcome reads, confirms
or unconfirms no outcome, and brings no authority event.
-/

namespace PortableRuntime
namespace MemoryStore

variable {digest : Json → String} {now : Time} {st st' : MemoryStore}

/-! ## The validator in terms of the store -/

/-- The reads of the validator: a record as the class that its type names. -/
def replayReader (st : MemoryStore) : VerifiedOutcomeStoreReader where
  getAction := st.get .action
  getAttempt := st.get .attempt
  getStep := st.get .step
  getRun := st.get .run
  getWork := st.get .work
  getRecord id := (st.getRecord id).bind (fun r => (parseRecord r).toOption)

structure StoreClosed (digest : Json → String) (now : Time) (st : MemoryStore) : Prop where
  identified : ∀ k ∈ replayedKinds, st.get k "" = none
  parsed : ∀ id r, st.getRecord id = some r → (parseRecord r).isOk = true
  outcomes : ∀ id o, st.replayReader.getRecord id = some o → o.IsConfirmed →
    ∃ p, Rederived digest now st.replayReader st.getEvent o p
  events : ∀ id e, st.getEvent id = some e → e.type ∈ authorityEventTypes →
    ∃ oid o p, st.replayReader.getRecord oid = some o ∧ o.IsConfirmed ∧
      Rederived digest now st.replayReader st.getEvent o p ∧ e.id ∈ p.events.map (fun e => e.id)

theorem Keyed.nodup (h : Keyed st) (k : Kind) : ((st.exportState k).map k.identifier).Nodup := by
  have hids : (st.exportState k).map k.identifier = (st.records k).keys := by
    rw [exportState, Dict.values, List.map_map, Dict.keys]
    refine List.map_congr_left (fun e he => ?_)
    exact h k e.1 e.2 (Dict.get?_eq_some.mpr he)
  rw [hids]
  exact (st.records k).nodup

theorem Keyed.get?_byId (h : Keyed st) (k : Kind) : (State.byId (st.exportState k)).get? = st.get k := by
  funext id
  ext v
  rw [State.get?_byId (h.nodup k), mem_exportState]
  constructor
  · rintro ⟨⟨id', hget⟩, rfl⟩
    rw [h k id' v hget]
    exact hget
  · intro hget
    exact ⟨⟨id, hget⟩, h k id v hget⟩

theorem mem_parsed {o : BaseRecord} :
    o ∈ st.exportState.parsed ↔ ∃ id, st.replayReader.getRecord id = some o := by
  simp only [State.parsed, List.mem_filterMap, replayReader, Option.bind_eq_some_iff]
  constructor
  · rintro ⟨r, hr, ho⟩
    obtain ⟨id, hid⟩ := mem_exportState.mp hr
    exact ⟨id, r, hid, ho⟩
  · rintro ⟨id, r, hid, ho⟩
    exact ⟨r, mem_exportState.mpr ⟨id, hid⟩, ho⟩

theorem parsed_of_getRecord {id : String} {o : BaseRecord} :
    st.replayReader.getRecord id = some o ↔
      ∃ r, st.getRecord id = some r ∧ parseRecord r = .ok o := by
  simp only [replayReader, Option.bind_eq_some_iff]
  refine exists_congr (fun r => and_congr_right (fun _ => ?_))
  cases parseRecord r <;> simp [Except.toOption]

theorem Keyed.id_of_getRecord (h : Keyed st) {id : String} {o : BaseRecord}
    (ho : st.replayReader.getRecord id = some o) : o.id = id := by
  obtain ⟨r, hr, hparse⟩ := parsed_of_getRecord.mp ho
  rw [(id_of_parseRecord hparse).1]
  exact h .record id r hr

theorem Keyed.replayReader_eq (h : Keyed st)
    (hparsed : ∀ r ∈ st.exportState.records, (parseRecord r).isOk = true) :
    st.exportState.replayReader = st.replayReader := by
  have hrecords : (State.byId (k := .record) st.exportState.parsed).get? =
      st.replayReader.getRecord := by
    funext id
    ext o
    rw [State.get?_byId (k := .record) (by
      show (st.exportState.parsed.map BaseRecord.id).Nodup
      rw [ids_parsed hparsed]
      exact h.nodup .record), mem_parsed]
    constructor
    · rintro ⟨⟨id', ho⟩, hid⟩
      have hid : o.id = id := hid
      rw [← hid, h.id_of_getRecord ho]
      exact ho
    · exact fun ho => ⟨⟨id, ho⟩, h.id_of_getRecord ho⟩
  unfold State.replayReader
  rw [h.get?_byId .action, h.get?_byId .attempt, h.get?_byId .step, h.get?_byId .run,
    h.get?_byId .work, hrecords]
  rfl

theorem storeClosed_iff (h : Keyed st) :
    AuthorityClosed digest now st.exportState ↔ StoreClosed digest now st := by
  have hevents : (State.byId (st.exportState .event)).get? = st.getEvent := h.get?_byId .event
  constructor
  · intro hclosed
    have hreader := h.replayReader_eq hclosed.readable.parsed
    refine ⟨fun k hk => ?_, fun id r hr => ?_, fun id o ho hc => ?_, fun id e he htype => ?_⟩
    · rw [Option.eq_none_iff_forall_ne_some]
      intro v hv
      refine hclosed.readable.nonempty k hk (List.mem_map.mpr ⟨v, mem_exportState.mpr ⟨_, hv⟩, ?_⟩)
      exact h k "" v hv
    · exact hclosed.readable.parsed r (mem_exportState.mpr ⟨id, hr⟩)
    · rw [← hreader, ← hevents]
      exact hclosed.outcomes o (mem_parsed.mpr ⟨id, ho⟩) hc
    · obtain ⟨o, ho, hc, p, hp, heid⟩ :=
        hclosed.events e (mem_exportState.mpr ⟨id, he⟩) htype
      obtain ⟨oid, hoid⟩ := mem_parsed.mp ho
      exact ⟨oid, o, p, hoid, hc, by rwa [← hreader, ← hevents], heid⟩
  · intro hclosed
    have hparsed : ∀ r ∈ st.exportState.records, (parseRecord r).isOk = true := by
      intro r hr
      obtain ⟨id, hid⟩ := mem_exportState.mp hr
      exact hclosed.parsed id r hid
    have hreader := h.replayReader_eq hparsed
    refine ⟨⟨fun k hk hmem => ?_, fun k _ => h.nodup k, hparsed, h.nodup .record⟩,
      fun o ho hc => ?_, fun e he htype => ?_⟩
    · obtain ⟨v, hv, hid⟩ := List.mem_map.mp hmem
      obtain ⟨id, hget⟩ := mem_exportState.mp hv
      rw [h k id v hget] at hid
      rw [hid] at hget
      exact absurd ((hclosed.identified k hk).symm.trans hget) (by simp)
    · obtain ⟨id, hid⟩ := mem_parsed.mp ho
      rw [hreader, hevents]
      exact hclosed.outcomes id o hid hc
    · obtain ⟨id, hid⟩ := mem_exportState.mp he
      obtain ⟨oid, o, p, ho, hc, hp, heid⟩ := hclosed.events id e hid htype
      refine ⟨o, mem_parsed.mpr ⟨oid, ho⟩, hc, p, ?_, heid⟩
      rw [hreader, hevents]
      exact hp

/-! ## What a confirmed outcome reads -/

/-- An identity that the derivation of a stored outcome reads. -/
def Reads (st : MemoryStore) (o : BaseRecord) : Kind → String → Prop
  | .action, id => (o.getattr "action_ref").pyStr = id
  | .attempt, id => o.metadata.get "attempt_ref" = .str id
  | .step, id => ∃ ref attempt, o.metadata.get "attempt_ref" = .str ref ∧
      st.get .attempt ref = some attempt ∧ StepAttempt.stepId attempt = id
  | .run, id => o.metadata.get "run_id" = .str id
  | .work, id => o.metadata.get "work_id" = .str id
  | .record, id => id ∈ Text.normalized ((stringItems? (o.getattr "evidence_refs")).getD [])
  | _, _ => False

theorem requiredMetadataString_of_ok {metadata : Fields} {key value : String}
    (h : requiredMetadataString metadata key = .ok value) : metadata.get key = .str value := by
  unfold requiredMetadataString at h
  split at h
  · rename_i text htext
    split at h
    · rw [htext, Except.ok.inj h]
    · exact absurd h (by simp [historyError, raiseValue])
  · exact absurd h (by simp [historyError, raiseValue])

/-- The request read off an outcome names what the outcome reads. -/
theorem reads_of_reconstruct (hkeyed : Keyed st) {o : BaseRecord}
    {request : VerifiedOutcomeCommitRequest}
    (h : reconstructVerifiedOutcomeCommitRequest st.replayReader o = .ok request) :
    st.Reads o .action request.actionRef ∧ st.Reads o .attempt request.expectedAttemptRef ∧
      st.Reads o .run request.expectedRunId ∧ st.Reads o .work request.expectedWorkId ∧
      request.evidenceRefs = (stringItems? (o.getattr "evidence_refs")).getD [] := by
  rw [reconstructVerifiedOutcomeCommitRequest] at h
  simp only [Result.bind_eq_ok, orRaise_eq_ok, Result.pure_eq_ok] at h
  obtain ⟨scope, -, versions, -, action, haction, workId, hwork, runId, hrun, requestId, -,
    attemptRef, hattempt, rfl⟩ := h
  refine ⟨?_, requiredMetadataString_of_ok hattempt, requiredMetadataString_of_ok hrun,
    requiredMetadataString_of_ok hwork, rfl⟩
  exact (hkeyed .action _ action haction).symm

/-- What a step keeps: the objects that outcomes read, the confirmed outcomes, and the authority
events. -/
structure Unaffected (st st' : MemoryStore) : Prop where
  objects : ∀ oid o, st.replayReader.getRecord oid = some o → o.IsConfirmed →
    ∀ k id v, st.Reads o k id → st.get k id = some v →
      ∃ v', st'.get k id = some v' ∧ k.SameBinding v v'
  outcomes : ∀ oid o, o.IsConfirmed →
    st.replayReader.getRecord oid = some o → st'.replayReader.getRecord oid = some o
  parsed : ∀ id r, st'.getRecord id = some r → (parseRecord r).isOk = true
  events : ∀ id e, st.getEvent id = some e → e.type ∈ authorityEventTypes →
    st'.getEvent id = some e
  identified : ∀ k ∈ replayedKinds, st'.get k "" = none

theorem evidence_of_parseRecord {r o : BaseRecord} (h : parseRecord r = .ok o)
    (htype : r.recordType = .evidenceArtifact) : o = r := by
  simp only [parseRecord, htype] at h
  split at h
  · exact (Except.ok.inj h).symm
  · exact absurd h (by simp [raiseValue])

theorem Unaffected.rederived (h : Unaffected st st') (hkeyed : Keyed st)
    {oid : String} {o : BaseRecord} (ho : st.replayReader.getRecord oid = some o)
    (hc : o.IsConfirmed) {p : PreparedVerifiedOutcomeCommit}
    (hp : Rederived digest now st.replayReader st.getEvent o p) :
    Rederived digest now st'.replayReader st'.getEvent o p := by
  refine hp.mono (fun request hrequest => ?_) h.events
  obtain ⟨haction, hattempt, hrun, hwork, hevidence⟩ := reads_of_reconstruct hkeyed hrequest
  have hobject (k : Kind) {id : String} (hreads : st.Reads o k id) (v : Model k)
      (hv : st.get k id = some v) := h.objects oid o ho hc k id v hreads hv
  refine ⟨⟨hobject .action haction, hobject .attempt hattempt, ?_, hobject .run hrun,
    hobject .work hwork, ?_⟩, ?_⟩
  · intro attempt hget step hstep
    exact hobject .step ⟨_, attempt, hattempt, hget, rfl⟩ step hstep
  · intro ref href r hr htype
    obtain ⟨r₀, hr₀, hparse⟩ := parsed_of_getRecord.mp hr
    have htype₀ : r₀.recordType = .evidenceArtifact := (id_of_parseRecord hparse).2.1.symm.trans htype
    obtain rfl := evidence_of_parseRecord hparse htype₀
    obtain ⟨r', hr', hsame⟩ := hobject .record (by
      show ref ∈ Text.normalized _
      rw [← hevidence]
      exact href) r hr₀
    obtain ⟨o', ho'⟩ := Result.exists_of_isOk (h.parsed ref r' hr')
    obtain rfl := evidence_of_parseRecord ho' (hsame.2.1.symm.trans htype)
    exact ⟨o', parsed_of_getRecord.mpr ⟨o', hr', ho'⟩, hsame⟩
  · refine reconstruct_congr (fun id a ha hid => ?_) hrequest
    obtain ⟨a', ha', hsame⟩ := hobject .action hid a ha
    exact ⟨a', ha', hsame.1.symm⟩

/-- A step that adds no outcome and no authority event keeps the store closed. -/
theorem StoreClosed.unaffected (hclosed : StoreClosed digest now st) (h : Unaffected st st')
    (hkeyed : Keyed st)
    (houtcomes : ∀ oid o, o.IsConfirmed → st'.replayReader.getRecord oid = some o →
      st.replayReader.getRecord oid = some o)
    (hevents : ∀ id e, st'.getEvent id = some e → e.type ∈ authorityEventTypes →
      st.getEvent id = some e) : StoreClosed digest now st' where
  identified := h.identified
  parsed := h.parsed
  outcomes oid o ho hc := by
    have hold := houtcomes oid o hc ho
    obtain ⟨p, hp⟩ := hclosed.outcomes oid o hold hc
    exact ⟨p, h.rederived hkeyed hold hc hp⟩
  events id e he htype := by
    obtain ⟨oid, o, p, ho, hc, hp, heid⟩ := hclosed.events id e (hevents id e he htype) htype
    exact ⟨oid, o, p, h.outcomes oid o hc ho, hc, h.rederived hkeyed ho hc hp, heid⟩

end MemoryStore

end PortableRuntime
