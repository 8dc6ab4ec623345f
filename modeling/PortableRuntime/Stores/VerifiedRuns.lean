import PortableRuntime.Stores.Journal
import PortableRuntime.Stores.VerifiedClosure

/-!
# Runs that keep confirmed outcomes derivable

Of the public mutators only the commit of a verified outcome and the import check the closure of
confirmed outcomes and their events.  `KeepsOutcomes` is what the others would have to check.
-/

namespace PortableRuntime
namespace MemoryStore

variable {digest : Json → String} {now : Time} {st st' : MemoryStore}

/-! ## What a write must leave alone -/

/-- An event that is no authority event, and has an identity. -/
def Unrelated (e : Event) : Prop := e.id ≠ "" ∧ e.type ∉ authorityEventTypes

/-- The value neither brings nor takes a confirmed outcome or an authority event. -/
def Neutral (st : MemoryStore) : (k : Kind) → Model k → Prop
  | .record, (r : BaseRecord) => (parseRecord r).isOk = true ∧ ¬ r.IsConfirmed ∧
      ∀ old, st.getRecord r.id = some old → ¬ old.IsConfirmed
  | .event, (e : Event) => Unrelated e ∧
      ∀ old, st.getEvent e.id = some old → old.type ∉ authorityEventTypes
  | _, _ => True

/-- A write of the value changes nothing that a confirmed outcome is derived from. -/
structure Kept (st : MemoryStore) (k : Kind) (v : Model k) : Prop where
  neutral : Neutral st k v
  bound : ∀ oid o, st.replayReader.getRecord oid = some o → o.IsConfirmed →
    st.Reads o k (k.identifier v) → ∀ old, st.get k (k.identifier v) = some old →
      k.SameBinding old v

theorem isConfirmed_of_parseRecord {r o : BaseRecord} (h : parseRecord r = .ok o) :
    o.IsConfirmed ↔ r.IsConfirmed := by
  obtain ⟨-, htype, hstatus⟩ := id_of_parseRecord h
  rw [BaseRecord.IsConfirmed, BaseRecord.IsConfirmed, htype, hstatus]

theorem getRecord_save_of_ne {v : BaseRecord} {id : String} (hid : id ≠ v.id) :
    (st.save .record v).getRecord id = st.getRecord id := by
  rw [getRecord, save, get_put_self]
  exact if_neg hid

theorem getRecord_save_self (v : BaseRecord) : (st.save .record v).getRecord v.id = some v := by
  rw [getRecord, save, get_put_self]
  exact if_pos rfl

theorem getEvent_save_of_ne {e : Event} {id : String} (hid : id ≠ e.id) :
    (st.save .event e).getEvent id = st.getEvent id := by
  rw [getEvent, save, get_put_self]
  exact if_neg hid

theorem getEvent_save_self (e : Event) : (st.save .event e).getEvent e.id = some e := by
  rw [getEvent, save, get_put_self]
  exact if_pos rfl

/-- A confirmed outcome is read after a neutral write exactly where it was read before. -/
theorem Neutral.confirmed {k : Kind} {v : Model k} (h : Neutral st k v) {oid : String}
    {o : BaseRecord} (hc : o.IsConfirmed) :
    (st.save k v).replayReader.getRecord oid = some o ↔
      st.replayReader.getRecord oid = some o := by
  rw [parsed_of_getRecord, parsed_of_getRecord]
  by_cases hk : k = .record
  · subst hk
    by_cases hid : oid = BaseRecord.id v
    · subst hid
      constructor
      · rintro ⟨r, hr, hparse⟩
        rw [getRecord_save_self, Option.some.injEq] at hr
        subst hr
        exact absurd ((isConfirmed_of_parseRecord hparse).mp hc) h.2.1
      · rintro ⟨r, hr, hparse⟩
        exact absurd ((isConfirmed_of_parseRecord hparse).mp hc) (h.2.2 r hr)
    · rw [getRecord_save_of_ne hid]
  · rw [getRecord, save, get_put_of_ne st (Ne.symm hk)]
    rfl

/-- So is an authority event. -/
theorem Neutral.authority {k : Kind} {v : Model k} (h : Neutral st k v) {id : String} {e : Event}
    (htype : e.type ∈ authorityEventTypes) :
    (st.save k v).getEvent id = some e ↔ st.getEvent id = some e := by
  by_cases hk : k = .event
  · subst hk
    by_cases hid : id = Kind.identifier .event v
    · subst hid
      constructor
      · intro he
        rw [show (st.save .event v).getEvent (Kind.identifier .event v) = some v from
          getEvent_save_self v, Option.some.injEq] at he
        subst he
        exact absurd htype h.1.2
      · intro he
        exact absurd htype (h.2 e he)
    · rw [getEvent_save_of_ne hid]
  · rw [getEvent, save, get_put_of_ne st (Ne.symm hk)]
    rfl

theorem Kept.unaffected {k : Kind} {v : Model k} (hkept : Kept st k v)
    (hclosed : StoreClosed digest now st) (hid : k.identifier v ≠ "") :
    Unaffected st (st.save k v) where
  objects oid o ho hc k' id w hreads hw := by
    by_cases hk : k' = k
    · subst hk
      by_cases hkey : id = k'.identifier v
      · subst hkey
        refine ⟨v, ?_, hkept.bound oid o ho hc hreads w hw⟩
        rw [save, get_put_self, if_pos rfl]
      · refine ⟨w, ?_, k'.sameBinding_refl w⟩
        rw [save, get_put_self, if_neg hkey, hw]
    · refine ⟨w, ?_, k'.sameBinding_refl w⟩
      rw [save, get_put_of_ne st hk, hw]
  outcomes oid o hc ho := (hkept.neutral.confirmed hc).mpr ho
  parsed id r hr := by
    by_cases hk : k = .record
    · subst hk
      by_cases hkey : id = BaseRecord.id v
      · subst hkey
        rw [getRecord_save_self, Option.some.injEq] at hr
        exact hr ▸ hkept.neutral.1
      · rw [getRecord_save_of_ne hkey] at hr
        exact hclosed.parsed id r hr
    · rw [getRecord, save, get_put_of_ne st (Ne.symm hk)] at hr
      exact hclosed.parsed id r hr
  events id e he htype := (hkept.neutral.authority htype).mpr he
  identified k' hk' := by
    by_cases hk : k' = k
    · subst hk
      rw [save, get_put_self, if_neg (Ne.symm hid)]
      exact hclosed.identified k' hk'
    · rw [save, get_put_of_ne st hk]
      exact hclosed.identified k' hk'

theorem StoreClosed.save (hclosed : StoreClosed digest now st) (hkeyed : Keyed st) {k : Kind}
    {v : Model k} (hkept : Kept st k v) (hid : k.identifier v ≠ "") :
    StoreClosed digest now (st.save k v) :=
  hclosed.unaffected (hkept.unaffected hclosed hid) hkeyed
    (fun _ _ hc ho => (hkept.neutral.confirmed hc).mp ho)
    (fun _ _ he htype => (hkept.neutral.authority htype).mp he)

theorem identifier_ne_of_valid {k : Kind} {v : Model k}
    (hvalid : Valid now (st.exportState.merge k [v])) : k.identifier v ≠ "" := by
  have hmem : v ∈ st.exportState.merge k [v] k := by
    rw [State.merge, Function.update_self, mergeBucket]
    exact List.mem_append_right _ List.mem_cons_self
  exact (valid_iff.mp hvalid).identified.nonempty _ (State.mem_identities.mpr ⟨v, hmem, rfl⟩)

/-! ## Events -/

theorem StoreClosed.appendEventAs (hclosed : StoreClosed digest now st) (hkeyed : Keyed st)
    {authority : Option CommitAuthority} {e : Event} (hunrelated : Unrelated e)
    (happend : st.appendEventAs authority e = .ok st') : StoreClosed digest now st' := by
  rcases appendEventAs_eq_ok happend with ⟨-, -, -, rfl⟩ | ⟨hnew, rfl⟩
  · exact hclosed
  · refine hclosed.save hkeyed (k := .event) ⟨⟨hunrelated, fun old hold => ?_⟩, ?_⟩ hunrelated.1
    · exact absurd (hnew.symm.trans hold) (by simp)
    · intro oid o ho hc hreads
      exact hreads.elim

theorem StoreClosed.appendEvents (hclosed : StoreClosed digest now st) (hkeyed : Keyed st)
    {authority : Option CommitAuthority} {events : List Event}
    (hunrelated : ∀ e ∈ events, Unrelated e)
    (happend : st.appendEvents authority events = .ok st') : StoreClosed digest now st' := by
  have hboth : StoreClosed digest now st' ∧ Keyed st' :=
    appendEvents_induction (P := fun s => StoreClosed digest now s ∧ Keyed s)
      (fun s s' e he hs hstep =>
        ⟨hs.1.appendEventAs hs.2 (hunrelated e he) hstep, hs.2.appendEventAs hstep⟩)
      ⟨hclosed, hkeyed⟩ happend
  exact hboth.1

theorem getEvent_appendEvents {authority : Option CommitAuthority} {events : List Event}
    (happend : st.appendEvents authority events = .ok st') {id : String} {e : Event}
    (he : st.getEvent id = some e) : st'.getEvent id = some e := by
  refine appendEvents_induction (P := fun s => s.getEvent id = some e) ?_ he happend
  intro s s' e' _ hs hstep
  rcases appendEventAs_eq_ok hstep with ⟨-, -, -, rfl⟩ | ⟨hnew, rfl⟩
  · exact hs
  · rw [getEvent_save_of_ne, hs]
    intro hid
    rw [hid, hnew] at hs
    exact absurd hs (by simp)

/-- What is in the journal after an append was there before, or was appended. -/
theorem getEvent_of_appendEvents {authority : Option CommitAuthority} {events : List Event}
    (happend : st.appendEvents authority events = .ok st') {id : String} {e : Event}
    (he : st'.getEvent id = some e) : st.getEvent id = some e ∨ e ∈ events ∧ e.id = id := by
  refine appendEvents_induction
    (P := fun s => s.getEvent id = some e → st.getEvent id = some e ∨ e ∈ events ∧ e.id = id)
    ?_ Or.inl happend he
  intro s s' e' he' hs hstep he
  rcases appendEventAs_eq_ok hstep with ⟨-, -, -, rfl⟩ | ⟨-, rfl⟩
  · exact hs he
  · by_cases hid : id = e'.id
    · subst hid
      rw [getEvent_save_self, Option.some.injEq] at he
      exact .inr ⟨he ▸ he', he ▸ rfl⟩
    · rw [getEvent_save_of_ne hid] at he
      exact hs he

/-- An appended event is in the journal, up to its creation time. -/
theorem exists_getEvent_appendEvents {authority : Option CommitAuthority} {events : List Event}
    (happend : st.appendEvents authority events = .ok st') {e : Event} (he : e ∈ events) :
    ∃ stored, st'.getEvent e.id = some stored ∧ sameEvent stored e = true := by
  induction events generalizing st with
  | nil => exact absurd he List.not_mem_nil
  | cons e' rest ih =>
    obtain ⟨st₁, hstep, hrest⟩ := Result.bind_eq_ok.mp happend
    rcases List.mem_cons.mp he with rfl | hmem
    · rcases appendEventAs_eq_ok hstep with ⟨existing, hget, hsame, rfl⟩ | ⟨-, rfl⟩
      · exact ⟨existing, getEvent_appendEvents hrest hget, hsame⟩
      · exact ⟨e, getEvent_appendEvents hrest (getEvent_save_self e), sameEvent_refl e⟩
    · exact ih hrest hmem

/-! ## The commit of a verified outcome -/

/-- What the commit of a prepared outcome leaves. -/
structure Committed (st st' : MemoryStore) (p : PreparedVerifiedOutcomeCommit) : Prop where
  fresh : st.getRecord p.outcome.id = none
  others : ∀ k, k ≠ .event → k ≠ .record → st'.get k = st.get k
  self : st'.getRecord p.outcome.id = some p.outcome
  records : ∀ id, id ≠ p.outcome.id → st'.getRecord id = st.getRecord id
  kept : ∀ id e, st.getEvent id = some e → st'.getEvent id = some e
  events : ∀ id e, st'.getEvent id = some e → st.getEvent id = some e ∨ e ∈ p.events ∧ e.id = id
  present : ∀ e ∈ p.events, ∃ stored, st'.getEvent e.id = some stored ∧
    sameVerifiedOutcomeSemantics stored.dump e.dump = true

theorem committed_of_appendEvents {p : PreparedVerifiedOutcomeCommit}
    (hfresh : st.getRecord p.outcome.id = none)
    (happend : (st.save .record p.outcome).appendEvents none p.events = .ok st') :
    Committed st st' p := by
  have hrecords := appendEvents_records happend (k := .record) (by decide)
  have hget : st'.getRecord = (st.save .record p.outcome).getRecord := by
    funext id
    rw [getRecord, get, hrecords]
    rfl
  have hevents : (st.save .record p.outcome).getEvent = st.getEvent := by
    funext id
    rw [getEvent, save, get_put_of_ne st (by decide)]
    rfl
  refine ⟨hfresh, fun k hevent hrecord => ?_, ?_, fun id hid => ?_, fun id e he => ?_,
    fun id e he => ?_, fun e he => exists_getEvent_appendEvents happend he⟩
  · funext id
    rw [get, appendEvents_records happend hevent, save, records_put_of_ne st hrecord]
    rfl
  · rw [hget]
    exact getRecord_save_self p.outcome
  · rw [hget]
    exact getRecord_save_of_ne hid
  · exact getEvent_appendEvents happend (by rw [hevents, he])
  · rw [← hevents]
    exact getEvent_of_appendEvents happend he

theorem parseRecord_prepared {request : VerifiedOutcomeCommitRequest}
    {reader : VerifiedOutcomeStoreReader} {p : PreparedVerifiedOutcomeCommit}
    (h : prepareVerifiedOutcomeCommit digest now reader request = .ok p) :
    parseRecord p.outcome = .ok p.outcome ∧ p.outcome.IsConfirmed := by
  obtain ⟨d, rfl⟩ := prepare_eq_ok.mp h
  refine ⟨?_, rfl, rfl⟩
  have hstrings (values : List String) : (values.map Json.str).all Json.isStr = true := by
    simp [Json.isStr, Json.asStr?]
  simp [parseRecord, Derivation.facts, authorityFacts, verifiedOutcome, asOutcomeRecord,
    Fields.get?, Fields.put, Json.ofStrings, hstrings]

/-- The outcome of a commit is derived from what the commit leaves. -/
theorem Committed.rederived {request : VerifiedOutcomeCommitRequest}
    {p : PreparedVerifiedOutcomeCommit} (h : Committed st st' p)
    (hclosed : StoreClosed digest now st) (hkeyed : Keyed st) (hnamed : request.Named)
    (hprepared : prepareVerifiedOutcomeCommit digest now st.reader request = .ok p) :
    Rederived digest now st'.replayReader st'.getEvent p.outcome p := by
  have hreader : st.reader.Keyed := ⟨fun id a => hkeyed .action id a, fun id r => hkeyed .run id r,
    fun id w => hkeyed .work id w⟩
  have hobject (k : Kind) (hevent : k ≠ .event) (hrecord : k ≠ .record) {id : String}
      (v : Model k) (hv : st.get k id = some v) :
      ∃ v', st'.get k id = some v' ∧ k.SameBinding v v' :=
    ⟨v, by rw [h.others k hevent hrecord, hv], k.sameBinding_refl v⟩
  have hagree : Agree st.reader st'.replayReader request.normal := by
    refine ⟨hobject .action (by decide) (by decide), hobject .attempt (by decide) (by decide),
      fun attempt _ => hobject .step (by decide) (by decide),
      hobject .run (by decide) (by decide), hobject .work (by decide) (by decide), ?_⟩
    intro ref _ r hr htype
    have hr : st.getRecord ref = some r := hr
    obtain ⟨o, ho⟩ := Result.exists_of_isOk (hclosed.parsed ref r hr)
    obtain rfl := evidence_of_parseRecord ho htype
    have hne : ref ≠ p.outcome.id := by
      rintro rfl
      exact absurd (h.fresh.symm.trans hr) (by simp)
    exact ⟨o, parsed_of_getRecord.mpr ⟨o, (h.records ref hne).trans hr, ho⟩,
      Kind.sameBinding_refl .record o⟩
  refine ⟨⟨request.normal, ?_, prepare_congr hagree (prepare_normal hprepared)⟩, rfl,
    Fields.pyEq_refl _, h.present⟩
  refine reconstruct_congr (fun id a ha _ => ?_) (reconstruct_outcome hreader hnamed hprepared)
  exact ⟨a, (congrFun (h.others .action (by decide) (by decide)) id).trans ha, rfl⟩

theorem Committed.unaffected {p : PreparedVerifiedOutcomeCommit} (h : Committed st st' p)
    (hclosed : StoreClosed digest now st) (hparse : (parseRecord p.outcome).isOk = true)
    (hids : ∀ e ∈ p.events, e.id ≠ "") : Unaffected st st' where
  objects oid o ho hc k id v hreads hv := by
    by_cases hevent : k = .event
    · subst hevent
      exact hreads.elim
    by_cases hrecord : k = .record
    · subst hrecord
      refine ⟨v, ?_, Kind.sameBinding_refl .record v⟩
      refine (h.records id ?_).trans hv
      rintro rfl
      exact absurd (h.fresh.symm.trans hv) (by simp)
    · exact ⟨v, by rw [h.others k hevent hrecord, hv], k.sameBinding_refl v⟩
  outcomes oid o hc ho := by
    obtain ⟨r, hr, hparse⟩ := parsed_of_getRecord.mp ho
    refine parsed_of_getRecord.mpr ⟨r, (h.records oid ?_).trans hr, hparse⟩
    rintro rfl
    exact absurd (h.fresh.symm.trans hr) (by simp)
  parsed id r hr := by
    by_cases hid : id = p.outcome.id
    · rw [hid, h.self, Option.some.injEq] at hr
      exact hr ▸ hparse
    · rw [h.records id hid] at hr
      exact hclosed.parsed id r hr
  events id e he _ := h.kept id e he
  identified k hk := by
    have hrecord : k ≠ .record := by
      rintro rfl
      exact absurd hk (by decide)
    by_cases hevent : k = .event
    · subst hevent
      rw [Option.eq_none_iff_forall_ne_some]
      intro e he
      rcases h.events "" e he with hold | ⟨hmem, hid⟩
      · exact absurd ((hclosed.identified .event (by decide)).symm.trans hold) (by simp)
      · exact hids e hmem hid
    · rw [h.others k hevent hrecord]
      exact hclosed.identified k hk

theorem Committed.closed {request : VerifiedOutcomeCommitRequest}
    {p : PreparedVerifiedOutcomeCommit} (h : Committed st st' p)
    (hclosed : StoreClosed digest now st) (hkeyed : Keyed st) (hnamed : request.Named)
    (hprepared : prepareVerifiedOutcomeCommit digest now st.reader request = .ok p) :
    StoreClosed digest now st' := by
  obtain ⟨hparse, hconfirmed⟩ := parseRecord_prepared hprepared
  have hids : ∀ e ∈ p.events, e.id ≠ "" := by
    obtain ⟨d, rfl⟩ := prepare_eq_ok.mp hprepared
    intro e he
    rcases List.mem_pair.mp he with rfl | rfl <;>
      simp [Derivation.facts, authorityFacts, authorityEvent, String.append_eq_empty_iff]
  have hunaffected := h.unaffected hclosed (by rw [hparse]; rfl) hids
  have hself : st'.replayReader.getRecord p.outcome.id = some p.outcome :=
    parsed_of_getRecord.mpr ⟨p.outcome, h.self, hparse⟩
  have hderived := h.rederived hclosed hkeyed hnamed hprepared
  refine ⟨hunaffected.identified, hunaffected.parsed, fun oid o ho hc => ?_,
    fun id e he htype => ?_⟩
  · by_cases hid : oid = p.outcome.id
    · rw [hid, hself, Option.some.injEq] at ho
      exact ⟨p, ho ▸ hderived⟩
    · have hold : st.replayReader.getRecord oid = some o := by
        rw [parsed_of_getRecord, ← h.records oid hid]
        exact parsed_of_getRecord.mp ho
      obtain ⟨q, hq⟩ := hclosed.outcomes oid o hold hc
      exact ⟨q, hunaffected.rederived hkeyed hold hc hq⟩
  · rcases h.events id e he with hold | ⟨hmem, -⟩
    · obtain ⟨oid, o, q, ho, hc, hq, heid⟩ := hclosed.events id e hold htype
      exact ⟨oid, o, q, hunaffected.outcomes oid o hc ho, hc,
        hunaffected.rederived hkeyed ho hc hq, heid⟩
    · exact ⟨_, p.outcome, p, hself, hconfirmed, hderived, List.mem_map_of_mem hmem⟩

theorem StoreClosed.later (h : StoreClosed digest now st) (later : Time) :
    StoreClosed digest later st where
  identified := h.identified
  parsed := h.parsed
  outcomes oid o ho hc := by
    obtain ⟨p, hp⟩ := h.outcomes oid o ho hc
    exact ⟨_, hp.later later⟩
  events id e he htype := by
    obtain ⟨oid, o, p, ho, hc, hp, heid⟩ := h.events id e he htype
    exact ⟨oid, o, _, ho, hc, hp.later later, heid⟩

/-! ## Every call -/

/-- What a mutator that does not check the closure would have to check: an accepted call confirms
and unconfirms no outcome, adds no authority event, and keeps what outcomes were derived from. -/
def KeepsOutcomes (digest : Json → String) (st : MemoryStore) (o : Time × Op) : Prop :=
  (st.call digest o.1 o.2).isOk = true → match o.2 with
    | .save .event (e : Event) => st.getEvent e.id = none → Unrelated e
    | .save k v => Kept st k v
    | .compareAndSwap k id expected v => ∀ existing, st.get k id = some existing →
        (versionOf k existing).pyEq (.int expected) = true →
        existing = v ∨ k.identifier v = id ∧ Kept st k v
    | .commitTerminal _ run _ => Kept st .run run
    | .commitVerifiedOutcome request => request.Named
    | .commitHistoricalExperienceUse use => st.getEvent use.eventId = none →
        Kept st .record use.judgment ∧ ∀ e, use.bind st.exportState = .ok e → Unrelated e
    | .commitEvents _ prepare => ∀ events, prepare st = .ok (.append events) →
        ∀ e ∈ events, Unrelated e
    | .importState _ => True

theorem put_of_get {k : Kind} {id : String} {v : Model k} (h : st.get k id = some v) :
    st.put k id v = st := by
  rw [put, Dict.set_of_get? h, Function.update_eq_self]

theorem StoreClosed.commitTerminal (hclosed : StoreClosed digest now st) (hkeyed : Keyed st)
    {work : Work} {run : Run} {refs : List String} (hkept : Kept st .run run)
    (hcommit : st.commitTerminal now work run refs = .ok st') : StoreClosed digest now st' := by
  obtain ⟨-, -, -, hvalid, rfl⟩ := commitTerminal_eq_ok.mp hcommit
  have hids := (valid_iff.mp hvalid).identified.nonempty
  have hwork : Kept st .work work := by
    refine ⟨trivial, fun oid o _ _ _ old hold => ?_⟩
    exact hkeyed .work _ old hold
  have hworkId : Kind.identifier .work work ≠ "" := by
    refine hids (_, .work) (State.mem_identities.mpr ⟨work, ?_, rfl⟩)
    rw [State.merge, Function.update_of_ne (by decide), State.merge, Function.update_self,
      mergeBucket]
    exact List.mem_append_right _ List.mem_cons_self
  have hrunId : Kind.identifier .run run ≠ "" := by
    refine hids (_, .run) (State.mem_identities.mpr ⟨run, ?_, rfl⟩)
    rw [State.merge, Function.update_self, mergeBucket]
    exact List.mem_append_right _ List.mem_cons_self
  refine (hclosed.save hkeyed hwork hworkId).save (hkeyed.save .work work) ⟨trivial, ?_⟩ hrunId
  exact fun oid o ho hc hreads old hold => hkept.bound oid o ho hc hreads old hold

theorem StoreClosed.importState (hkeyed : Keyed st) {state : State}
    (himport : st.importState digest now state = .ok st') : StoreClosed digest now st' := by
  obtain ⟨-, -, hvalid, hauthority, rfl⟩ := importState_eq_ok.mp himport
  have hnodup := nodup_of_importCandidate (valid_iff.mp hvalid).identified
  have hclosed := (authorityClosed_iff.mp hauthority).rearranged (rearranged_saveAll hkeyed hnodup)
  exact (storeClosed_iff (hkeyed.saveAll _)).mp hclosed

theorem StoreClosed.call {o : Op} (hclosed : StoreClosed digest now st) (hkeyed : Keyed st)
    (hC : KeepsOutcomes digest st (now, o)) (hcall : st.call digest now o = .ok st') :
    StoreClosed digest now st' ∧ Keyed st' := by
  have hok : (st.call digest now o).isOk = true := by
    rw [hcall]
    rfl
  have hC := hC hok
  have hkeyed' (h : WellAddressed st (now, o)) : Keyed st' := hkeyed.call h hcall
  cases o with
  | save k v =>
    by_cases hk : k = .event
    · subst hk
      have hcall : st.appendEventAs none v = .ok st' := hcall
      refine ⟨?_, hkeyed.appendEventAs hcall⟩
      rcases appendEventAs_eq_ok hcall with ⟨-, -, -, rfl⟩ | ⟨hnew, -⟩
      · exact hclosed
      · exact hclosed.appendEventAs hkeyed (hC hnew) hcall
    · obtain ⟨-, hvalid, rfl⟩ := saveModel_eq_ok hk hcall
      have hkept : Kept st k v := by
        cases k with
        | event => exact absurd rfl hk
        | _ => exact hC
      exact ⟨hclosed.save hkeyed hkept (identifier_ne_of_valid hvalid), hkeyed.save k v⟩
  | compareAndSwap k id expected v =>
    obtain ⟨b, hcas⟩ := call_compareAndSwap_eq_ok hcall
    rcases compareAndSwap_eq_ok hcas with ⟨-, rfl⟩ | ⟨-, existing, hget, hversion, -, hvalid, rfl⟩
    · exact ⟨hclosed, hkeyed⟩
    · rcases hC existing hget hversion with rfl | ⟨rfl, hkept⟩
      · rw [put_of_get hget]
        exact ⟨hclosed, hkeyed⟩
      · exact ⟨hclosed.save hkeyed hkept (identifier_ne_of_valid hvalid), hkeyed.save k v⟩
  | commitTerminal work run refs =>
    exact ⟨hclosed.commitTerminal hkeyed hC hcall, hkeyed' trivial⟩
  | commitVerifiedOutcome request =>
    refine ⟨?_, hkeyed' trivial⟩
    obtain ⟨prepared, hprepared, rfl | ⟨hfresh, happend⟩⟩ := commitVerifiedOutcome_eq_ok hcall
    · exact hclosed
    · exact (committed_of_appendEvents hfresh happend).closed hclosed hkeyed hC hprepared
  | commitHistoricalExperienceUse use =>
    refine ⟨?_, hkeyed' trivial⟩
    rcases commitHistoricalExperienceUse_eq_ok hcall with
      rfl | ⟨hevent, -, -, hvalid, event, hbind, happend⟩
    · exact hclosed
    · obtain ⟨hkept, hunrelated⟩ := hC hevent
      have hrecord := hclosed.save hkeyed hkept (identifier_ne_of_valid hvalid)
      exact hrecord.appendEventAs (hkeyed.save .record _) (hunrelated event hbind) happend
  | commitEvents authority prepare =>
    refine ⟨?_, hkeyed' trivial⟩
    rcases commitEvents_eq_ok hcall with rfl | ⟨events, hplan, happend⟩
    · exact hclosed
    · exact hclosed.appendEvents hkeyed (hC events hplan) happend
  | importState state =>
    exact ⟨StoreClosed.importState hkeyed hcall, hkeyed' trivial⟩

theorem storeClosed_step (st : MemoryStore) (o : Time × Op)
    (h : Keyed st ∧ ∀ now, StoreClosed digest now st) (hC : KeepsOutcomes digest st o) :
    Keyed (step digest st o) ∧ ∀ now, StoreClosed digest now (step digest st o) := by
  unfold step
  cases hcall : st.call digest o.1 o.2 with
  | error e => exact h
  | ok st' =>
    obtain ⟨hclosed, hkeyed⟩ := (h.2 o.1).call h.1 hC hcall
    exact ⟨hkeyed, fun now => hclosed.later now⟩

theorem storeClosed_empty : StoreClosed digest now empty := by
  have hnone (k : Kind) (id : String) : empty.get k id = none := rfl
  refine ⟨fun k _ => hnone k "", fun id r hr => ?_, fun oid o ho => ?_, fun id e he => ?_⟩
  · exact absurd hr (by simp [getRecord, hnone])
  · exact absurd ho (by simp [replayReader, getRecord, hnone])
  · exact absurd he (by simp [getEvent, hnone])

/-! ## One outcome for each event -/

theorem ids_of_prepared {reader : VerifiedOutcomeStoreReader}
    {request : VerifiedOutcomeCommitRequest} {p : PreparedVerifiedOutcomeCommit}
    (h : prepareVerifiedOutcomeCommit digest now reader request = .ok p) :
    ∃ suffix, p.outcome.id = "outcome_verified_" ++ suffix ∧
      p.events.map (fun e => e.id) =
        ["event_objective_verification_" ++ suffix, "event_outcome_confirmed_" ++ suffix] := by
  obtain ⟨d, rfl⟩ := prepare_eq_ok.mp h
  exact ⟨_, rfl, rfl⟩

/-- Two derivations that share an event derive one outcome. -/
theorem outcome_of_event {reader : VerifiedOutcomeStoreReader}
    {request request' : VerifiedOutcomeCommitRequest} {p q : PreparedVerifiedOutcomeCommit}
    (hp : prepareVerifiedOutcomeCommit digest now reader request = .ok p)
    (hq : prepareVerifiedOutcomeCommit digest now reader request' = .ok q) {id : String}
    (hidp : id ∈ p.events.map (fun e => e.id)) (hidq : id ∈ q.events.map (fun e => e.id)) :
    p.outcome.id = q.outcome.id := by
  obtain ⟨s, hs, hevents⟩ := ids_of_prepared hp
  obtain ⟨t, ht, hevents'⟩ := ids_of_prepared hq
  rw [hevents] at hidp
  rw [hevents'] at hidq
  have happend (a b : String) : (a ++ b).toList = a.toList ++ b.toList := String.toList_append
  rw [hs, ht]
  rcases List.mem_pair.mp hidp with rfl | rfl <;> rcases List.mem_pair.mp hidq with h | h
  · rw [String.append_right_inj] at h
    rw [h]
  · have hchars := congrArg String.toList h
    rw [happend, happend] at hchars
    simp at hchars
  · have hchars := congrArg String.toList h
    rw [happend, happend] at hchars
    simp at hchars
  · rw [String.append_right_inj] at h
    rw [h]

/-- An outcome of the state that owns the event. -/
def Owns (digest : Json → String) (now : Time) (s : State) (e : Event) (o : BaseRecord) : Prop :=
  o ∈ s.parsed ∧ o.IsConfirmed ∧ ∃ p, Rederived digest now s.replayReader
    (State.byId (s .event)).get? o p ∧ e.id ∈ p.events.map (fun e => e.id)

theorem owner_unique {s : State} (h : AuthorityClosed digest now s) {e : Event} {o o' : BaseRecord}
    (ho : Owns digest now s e o) (ho' : Owns digest now s e o') : o = o' := by
  obtain ⟨hmem, -, p, hp, hid⟩ := ho
  obtain ⟨hmem', -, q, hq, hid'⟩ := ho'
  obtain ⟨request, -, hprepared⟩ := hp.derived
  obtain ⟨request', -, hprepared'⟩ := hq.derived
  have hsame : o.id = o'.id :=
    hp.id.trans ((outcome_of_event hprepared hprepared' hid hid').trans hq.id.symm)
  have hnodup : (s.parsed.map BaseRecord.id).Nodup := by
    rw [ids_parsed h.readable.parsed]
    exact h.readable.records
  exact List.inj_on_of_nodup_map hnodup hmem hmem' hsame

/-- In every program whose calls keep the confirmed outcomes, the exported state can be replayed
at any later time, and each authority event belongs to exactly one confirmed outcome. -/
theorem confirmed_outcomes_replayable (digest : Json → String) (ps : List (Prog (Time × Op)))
    (hC : Prog.FollowsAll (step digest) (KeepsOutcomes digest) empty ps) (now : Time) :
    validateVerifiedOutcomeAuthorityGraph digest now
        (Prog.execAll (step digest) empty ps).exportState = .ok () ∧
      ∀ e ∈ (Prog.execAll (step digest) empty ps).exportState.events,
        e.type ∈ authorityEventTypes →
        ∃! o, Owns digest now (Prog.execAll (step digest) empty ps).exportState e o := by
  obtain ⟨hkeyed, hclosed⟩ := Prog.exec_invariant storeClosed_step
    (I := fun st => Keyed st ∧ ∀ now, StoreClosed digest now st)
    ⟨keyed_empty, fun _ => storeClosed_empty⟩ hC
  have hauthority := (storeClosed_iff hkeyed).mpr (hclosed now)
  refine ⟨authorityClosed_iff.mpr hauthority, fun e he htype => ?_⟩
  obtain ⟨o, ho, hc, hp⟩ := hauthority.events e he htype
  exact ⟨o, ⟨ho, hc, hp⟩, fun o' ho' => owner_unique hauthority ho' ⟨ho, hc, hp⟩⟩

/-! ## A verified outcome, and an orphan event -/

theorem Kept.of_fresh {k : Kind} {v : Model k} (hfresh : st.get k (k.identifier v) = none)
    (hneutral : Neutral st k v) : Kept st k v :=
  ⟨hneutral, fun _ _ _ _ _ old hold => absurd (hfresh.symm.trans hold) (by simp)⟩

def deployWork : Work := { id := "work_1", createdAt := 0, title := "", updatedAt := 0 }

def deployRun : Run := { id := "run_1", createdAt := 0, workId := "work_1", status := .running }

def deployStep : Step :=
  { id := "step_1", createdAt := 0, runId := "run_1", stepKey := "deploy", updatedAt := 0 }

def deployAttempt : StepAttempt :=
  { id := "attempt_1", createdAt := 0, stepId := "step_1", providerId := some "provider_1",
    requestRef := some "request_1" }

def deployAction : Action :=
  { id := "action_1", createdAt := 0, workId := "work_1", runId := "run_1", capability := "deploy",
    providerId := "provider_1", requestRef := "request_1" }

def deployProof : BaseRecord :=
  { cls := .evidenceArtifact, id := "record_1", recordType := .evidenceArtifact, createdAt := 0,
    lifecycleStatus := .current, sourceRefs := ["action_1"],
    metadata := [("verification_result", .obj [("result", .str "pass")]),
      ("work_id", .str "work_1"), ("run_id", .str "run_1"), ("verification_scope", .obj []),
      ("subject_version_refs", .ofStrings ["app@1"]), ("action_ref", .str "action_1"),
      ("request_id", .str "request_1"), ("attempt_ref", .str "attempt_1"),
      ("verifier_provenance", .obj [("verifier_id", .str "verifier_1"), ("method", .str "probe")])],
    fields := [("kind", .str "closed-verification"), ("uri", .null), ("media_type", .null),
      ("checksum", .null)] }

def deployRequest : VerifiedOutcomeCommitRequest :=
  { actionRef := "action_1", evidenceRefs := ["record_1"], expectedWorkId := "work_1",
    expectedRunId := "run_1", expectedRequestId := "request_1", expectedAttemptRef := "attempt_1",
    verificationScope := [], subjectVersionRefs := ["app@1"] }

/-- The execution, its proof and its outcome, and then the end of the action. -/
def verifying : List (Prog (Time × Op)) :=
  [.op (1, .save .work deployWork), .op (1, .save .run deployRun),
   .op (1, .save .step deployStep), .op (1, .save .attempt deployAttempt),
   .op (1, .save .action deployAction), .op (1, .save .record deployProof),
   .op (2, .commitVerifiedOutcome deployRequest),
   .op (3, .save .action { deployAction with status := "succeeded" })]

theorem confirmed_outcomes_replayable_verifying :
    validateVerifiedOutcomeAuthorityGraph (fun _ => "00") 4
        (Prog.execAll (step (fun _ => "00")) empty verifying).exportState = .ok () ∧
      ((Prog.execAll (step (fun _ => "00")) empty verifying).exportState.events.map Event.type =
        authorityEventTypes) := by
  refine ⟨(confirmed_outcomes_replayable (fun _ => "00") verifying
    ⟨fun _ => .of_fresh rfl trivial, fun _ => .of_fresh (by decide) trivial,
      fun _ => .of_fresh (by decide) trivial,
      fun _ => .of_fresh (by decide) trivial,
      fun _ => .of_fresh (by decide) trivial,
      fun _ => .of_fresh (by decide) ⟨by decide, fun h => ?_, fun old hold => ?_⟩,
      fun _ => ?_, fun _ => ⟨trivial, fun _ _ _ _ _ old hold => ?_⟩, trivial⟩ 4).1, ?_⟩
  · exact absurd h.1 (by decide)
  · have hnone : (Prog.execAll (step (fun _ => "00")) empty (verifying.take 5)).getRecord
        "record_1" = none := by
      decide
    exact absurd (hnone.symm.trans hold) (by simp)
  · unfold VerifiedOutcomeCommitRequest.Named
    decide
  · have hstored : ((Prog.execAll (step (fun _ => "00")) empty (verifying.take 7)).get .action
        "action_1").map (fun (a : Action) => (a.id, a.workId, a.runId, a.requestRef, a.providerId)) =
          some ("action_1", "work_1", "run_1", "request_1", "provider_1") := by
      decide
    have hold := (congrArg (Option.map fun (a : Action) =>
      (a.id, a.workId, a.runId, a.requestRef, a.providerId)) hold).symm.trans hstored
    simp only [Option.map_some, Option.some.injEq, Prod.mk.injEq] at hold
    exact hold
  · decide

/-- An appended event of an authority type belongs to no outcome. -/
theorem append_event_orphans :
    ¬ ∀ (digest : Json → String) (ps : List (Prog (Time × Op))) (now : Time),
      validateVerifiedOutcomeAuthorityGraph digest now
        (Prog.execAll (step digest) empty ps).exportState = .ok () := by
  intro h
  have horphan := h (fun _ => "") [.op (1, .save .event
    { id := "event_1", createdAt := 1, type := "OutcomeConfirmed", subjectRef := "external:1" })] 2
  have hrefused : (validateVerifiedOutcomeAuthorityGraph (fun _ => "") 2
      (Prog.execAll (step (fun _ => "")) empty [.op (1, .save .event
        { id := "event_1", createdAt := 1, type := "OutcomeConfirmed",
          subjectRef := "external:1" })]).exportState).isOk = false := by
    decide
  rw [horphan] at hrefused
  exact absurd hrefused (by decide)

end MemoryStore

end PortableRuntime
