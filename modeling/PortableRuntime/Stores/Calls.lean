import PortableRuntime.Stores.Memory

/-!
# What an accepted call passed, and what it left behind

One lemma for each method of the store.
-/

namespace PortableRuntime

namespace MemoryStore

variable {digest : Json → String} {now : Time} {st st' : MemoryStore}

/-! ## Reads after a write -/

@[simp] theorem records_put_self (st : MemoryStore) (k : Kind) (id : String) (v : Model k) :
    (st.put k id v).records k = (st.records k).set id v := by
  simp [put]

theorem records_put_of_ne (st : MemoryStore) {k k' : Kind} (h : k' ≠ k) (id : String)
    (v : Model k) : (st.put k id v).records k' = st.records k' := by
  simp [put, Function.update_of_ne h]

theorem get_put_self (st : MemoryStore) (k : Kind) (id id' : String) (v : Model k) :
    (st.put k id v).get k id' = if id' = id then some v else st.get k id' := by
  simp [get, Dict.get?_set]

theorem get_put_of_ne (st : MemoryStore) {k k' : Kind} (h : k' ≠ k) (id id' : String)
    (v : Model k) : (st.put k id v).get k' id' = st.get k' id' := by
  simp [get, records_put_of_ne st h]

theorem exportState_put_of_ne (st : MemoryStore) {k k' : Kind} (h : k' ≠ k) (id : String)
    (v : Model k) : (st.put k id v).exportState k' = st.exportState k' := by
  simp [exportState, records_put_of_ne st h]

/-! ## Gates -/

theorem validateCandidateWrite_eq_ok {k : Kind} {v : Model k} {u : Unit} :
    st.validateCandidateWrite now k v = .ok u ↔ Valid now (st.exportState.merge k [v]) :=
  assertValidStateGraph_eq_ok

theorem saveChecked_eq_ok {k : Kind} {v : Model k} :
    st.saveChecked now k v = .ok st' ↔ terminalWrite k v = false ∧
      Valid now (st.exportState.merge k [v]) ∧ st.save k v = st' := by
  simp only [saveChecked, rejectUnprovenTerminalWrite, Result.check_eq_ok, Result.pure_eq_ok,
    guardValue_eq_ok, validateCandidateWrite_eq_ok, Bool.not_eq_true']

theorem validateRecordWriteSemantics_eq_ok {v : BaseRecord} {u : Unit} :
    st.validateRecordWriteSemantics v = .ok u ↔
      validateRecordWrite v (st.getRecord v.id) = [] ∧ validateCanonicalWrite v = [] ∧
        assertSemanticMutationAuthorized v (st.getRecord v.id) st.exportState = .ok () := by
  simp only [validateRecordWriteSemantics, Result.check_eq_ok, guardValue_eq_ok,
    List.isEmpty_iff, List.append_eq_nil_iff, and_assoc]

theorem saveRecord_eq_ok {v : BaseRecord} :
    st.saveRecord now v = .ok st' ↔ st.validateRecordWriteSemantics v = .ok () ∧
      Valid now (st.exportState.merge .record [v]) ∧ st.save .record v = st' := by
  simp only [saveRecord, Result.check_eq_ok, Result.pure_eq_ok, validateCandidateWrite_eq_ok]

theorem saveRelation_eq_ok {v : RecordRelation} :
    st.saveRelation now v = .ok st' ↔ validateRelation v = [] ∧
      (st.get .relation v.id).all (relationUnchanged v) = true ∧
      Valid now (st.exportState.merge .relation [v]) ∧ st.save .relation v = st' := by
  simp only [saveRelation, Result.check_eq_ok, Result.pure_eq_ok, guardValue_eq_ok,
    validateCandidateWrite_eq_ok, List.isEmpty_iff]

theorem saveAuthorization_eq_ok {v : AuthorizationGrant} :
    st.saveAuthorization now v = .ok st' ↔
      ((validateGrant v now).any (fun e => refusedGrantErrors.any (Text.hasInfix e))) = false ∧
      Valid now (st.exportState.merge .authorization [v]) ∧ st.save .authorization v = st' := by
  simp only [saveAuthorization, Result.check_eq_ok, Result.pure_eq_ok, guardValue_eq_ok,
    validateCandidateWrite_eq_ok, Bool.not_eq_true']

theorem saveAuthorizationUse_eq_ok {v : AuthorizationUse} :
    st.saveAuthorizationUse now v = .ok st' ↔
      (st.get .authorizationUse v.id).all (fun e => sameDump e.dump v.dump) = true ∧
      (∃ grant : AuthorizationGrant, st.get .authorization v.authorizationRef = some grant ∧
        isAuthorizedFor v.request grant v.authorizedAt = true) ∧
      Valid now (st.exportState.merge .authorizationUse [v]) ∧
      st.save .authorizationUse v = st' := by
  rw [saveAuthorizationUse, Result.check_eq_ok, guardValue_eq_ok, Result.bind_eq_ok]
  simp only [Result.check_eq_ok, Result.pure_eq_ok, guardValue_eq_ok, orRaise_eq_ok,
    validateCandidateWrite_eq_ok]
  constructor
  · rintro ⟨h, grant, hg, hauth, hvalid, hst⟩
    exact ⟨h, ⟨grant, hg, hauth⟩, hvalid, hst⟩
  · rintro ⟨h, ⟨grant, hg, hauth⟩, hvalid, hst⟩
    exact ⟨h, grant, hg, hauth, hvalid, hst⟩

theorem saveKnowledgeProjection_eq_ok {v : KnowledgeProjection} :
    st.saveKnowledgeProjection now v = .ok st' ↔
      Valid now (st.exportState.merge .knowledgeProjection [v]) ∧
      st.save .knowledgeProjection v = st' := by
  simp only [saveKnowledgeProjection, Result.check_eq_ok, Result.pure_eq_ok,
    validateCandidateWrite_eq_ok]

/-- Every checked write of a model passed the gate on the candidate graph and stored the
value under its own identity. -/
theorem saveModel_eq_ok {k : Kind} {v : Model k} (hk : k ≠ .event)
    (h : st.saveModel now k v = .ok st') :
    terminalWrite k v = false ∧ Valid now (st.exportState.merge k [v]) ∧ st.save k v = st' := by
  cases k with
  | event => exact absurd rfl hk
  | record => exact ⟨rfl, (saveRecord_eq_ok.mp h).2⟩
  | relation => exact ⟨rfl, (saveRelation_eq_ok.mp h).2.2⟩
  | authorization => exact ⟨rfl, (saveAuthorization_eq_ok.mp h).2⟩
  | authorizationUse => exact ⟨rfl, (saveAuthorizationUse_eq_ok.mp h).2.2⟩
  | knowledgeProjection => exact ⟨rfl, saveKnowledgeProjection_eq_ok.mp h⟩
  | _ => exact saveChecked_eq_ok.mp h

/-! ## The journal -/

/-- An append either meets an equal event, and leaves the store alone, or is the first
under its identity. -/
theorem appendEventAs_eq_ok {authority : Option CommitAuthority} {e : Event}
    (h : st.appendEventAs authority e = .ok st') :
    (∃ existing, st.getEvent e.id = some existing ∧ sameEvent existing e = true ∧ st' = st) ∨
      (st.getEvent e.id = none ∧ st' = st.save .event e) := by
  unfold appendEventAs at h
  split at h
  · exact absurd h (by simp [raiseValue])
  · split at h
    · rename_i existing hget
      split at h
      · rename_i hsame
        exact .inl ⟨existing, hget, hsame, (Except.ok.inj h).symm⟩
      · exact absurd h (by simp [raiseValue])
    · rename_i hget
      exact .inr ⟨hget, (Except.ok.inj h).symm⟩

theorem compareAndSwap_eq_ok {k : Kind} {id : String} {expected : Int} {v : Model k} {b : Bool}
    (h : st.compareAndSwap now k id expected v = .ok (b, st')) :
    (b = false ∧ st' = st) ∨ (b = true ∧ ∃ existing, st.get k id = some existing ∧
      (versionOf k existing).pyEq (.int expected) = true ∧ terminalWrite k v = false ∧
      Valid now (st.exportState.merge k [v]) ∧ st' = st.put k id v) := by
  unfold compareAndSwap at h
  split at h
  · rw [Except.ok.injEq, Prod.mk.injEq] at h
    exact .inl ⟨h.1.symm, h.2.symm⟩
  · rename_i existing hget
    split at h
    · rw [Except.ok.injEq, Prod.mk.injEq] at h
      exact .inl ⟨h.1.symm, h.2.symm⟩
    · rename_i hver
      simp only [rejectUnprovenTerminalWrite, Result.check_eq_ok, Result.pure_eq_ok,
        guardValue_eq_ok, validateCandidateWrite_eq_ok, Bool.not_eq_true', Prod.mk.injEq] at h
      obtain ⟨hterm, hvalid, rfl, rfl⟩ := h
      exact .inr ⟨rfl, existing, hget, by simpa using hver, hterm, hvalid, rfl⟩

theorem call_compareAndSwap_eq_ok {k : Kind} {id : String} {expected : Int} {v : Model k}
    (h : st.call digest now (.compareAndSwap k id expected v) = .ok st') :
    ∃ b, st.compareAndSwap now k id expected v = .ok (b, st') := by
  rw [call] at h
  cases hcas : st.compareAndSwap now k id expected v with
  | error e => simp [hcas, Except.map] at h
  | ok r =>
    simp only [hcas, Except.map, Except.ok.injEq] at h
    exact ⟨r.1, by rw [← h]⟩

theorem commitTerminal_eq_ok {work : Work} {run : Run} {refs : List String} :
    st.commitTerminal now work run refs = .ok st' ↔
      (work.status = .completed ∧ run.status = .succeeded) ∧
      ((proofRefs work.metadata).pyEq (.ofStrings (refs.filter Text.nonBlank)) = true ∧
        (proofRefs run.metadata).pyEq (.ofStrings (refs.filter Text.nonBlank)) = true) ∧
      (∃ coverage, CompletionAuthority.validateProofInvariant work run refs st.getRecord =
        .ok coverage) ∧
      Valid now ((st.exportState.merge .work [work]).merge .run [run]) ∧
      (st.save .work work).save .run run = st' := by
  rw [commitTerminal, Result.check_eq_ok, Result.check_eq_ok, Result.bind_eq_ok]
  simp only [Result.check_eq_ok, Result.pure_eq_ok, guardValue_eq_ok, assertValidTerminalPair,
    assertValidStateGraph_eq_ok, Bool.and_eq_true, decide_eq_true_eq]
  constructor
  · rintro ⟨hstatus, hrefs, coverage, hproof, hvalid, hst⟩
    exact ⟨hstatus, hrefs, ⟨coverage, hproof⟩, hvalid, hst⟩
  · rintro ⟨hstatus, hrefs, ⟨coverage, hproof⟩, hvalid, hst⟩
    exact ⟨hstatus, hrefs, coverage, hproof, hvalid, hst⟩

theorem commitVerifiedOutcome_eq_ok {request : VerifiedOutcomeCommitRequest}
    (h : st.commitVerifiedOutcome digest now request = .ok st') :
    ∃ prepared, prepareVerifiedOutcomeCommit digest now st.reader request = .ok prepared ∧
      (st' = st ∨ (st.getRecord prepared.outcome.id = none ∧
        (st.save .record prepared.outcome).appendEvents none prepared.events = .ok st')) := by
  obtain ⟨prepared, hprep, h⟩ := Result.bind_eq_ok.mp h
  refine ⟨prepared, hprep, ?_⟩
  cases hget : st.getRecord prepared.outcome.id with
  | some existing =>
    simp only [hget, replayVerifiedOutcome, Result.check_eq_ok, Result.pure_eq_ok] at h
    exact .inl h.2.2.2.symm
  | none =>
    simp only [hget] at h
    exact .inr ⟨rfl, h⟩

theorem commitHistoricalExperienceUse_eq_ok {use : HistoricalExperienceUse}
    (h : st.commitHistoricalExperienceUse now use = .ok st') :
    st' = st ∨ (st.getEvent use.eventId = none ∧ st.getRecord use.judgment.id = none ∧
      st.validateRecordWriteSemantics use.judgment = .ok () ∧
      Valid now (st.exportState.merge .record [use.judgment]) ∧
      ∃ event, use.bind st.exportState = .ok event ∧
        (st.save .record use.judgment).appendEventAs (some .historicalExperienceUse) event =
          .ok st') := by
  unfold commitHistoricalExperienceUse at h
  split at h
  · exact absurd h (by simp [raiseValue])
  · simp only [Result.check_eq_ok, Result.pure_eq_ok] at h
    exact .inl h.2.2.symm
  · exact absurd h (by simp [raiseValue])
  · rename_i hevent hrecord
    rw [Result.check_eq_ok, Result.check_eq_ok, Result.bind_eq_ok] at h
    obtain ⟨hsem, hvalid, event, hbind, h⟩ := h
    obtain ⟨st'', happend, h⟩ := Result.bind_eq_ok.mp h
    rw [Result.check_eq_ok, Result.pure_eq_ok] at h
    obtain ⟨-, rfl⟩ := h
    exact .inr ⟨hevent, hrecord, hsem, validateCandidateWrite_eq_ok.mp hvalid, event, hbind, happend⟩

theorem commitEvents_eq_ok {authority : CommitAuthority}
    {prepare : MemoryStore → Result CommitPlan}
    (h : st.commitEvents authority prepare = .ok st') :
    st' = st ∨ ∃ events, prepare st = .ok (.append events) ∧
      st.appendEvents (some authority) events = .ok st' := by
  obtain ⟨plan, hplan, h⟩ := Result.bind_eq_ok.mp h
  cases plan with
  | replayed => exact .inl (Result.pure_eq_ok.mp h).symm
  | append events => exact .inr ⟨events, hplan, h⟩

theorem importState_eq_ok {state : State} :
    st.importState digest now state = .ok st' ↔
      assertImportableEvents (asImported state).events = .ok () ∧
      assertValidStateTransition st.exportState (importCandidate st.exportState (asImported state))
        (asImported state) = .ok () ∧
      Valid now (importCandidate st.exportState (asImported state)) ∧
      validateVerifiedOutcomeAuthorityGraph digest now
        (importCandidate st.exportState (asImported state)) = .ok () ∧
      st.saveAll (asImported state) = st' := by
  simp only [importState, Result.check_eq_ok, Result.pure_eq_ok, assertValidStateGraph_eq_ok]

/-- A call that does not raise takes the step. -/
theorem call_eq_ok_step {o : Time × Op} (h : (st.call digest o.1 o.2).isOk = true) :
    st.call digest o.1 o.2 = .ok (step digest st o) := by
  unfold step
  cases hcall : st.call digest o.1 o.2 with
  | error e => simp [hcall, Except.isOk, Except.toBool] at h
  | ok st' => rfl

/-- A sequence of appends is accepted one event at a time. -/
theorem appendEvents_induction {authority : Option CommitAuthority} {P : MemoryStore → Prop}
    {events : List Event}
    (hstep : ∀ st st' e, e ∈ events → P st → st.appendEventAs authority e = .ok st' → P st')
    (hst : P st) (h : st.appendEvents authority events = .ok st') : P st' := by
  induction events generalizing st with
  | nil => exact Except.ok.inj h ▸ hst
  | cons e rest ih =>
    obtain ⟨st₁, happend, hrest⟩ := Result.bind_eq_ok.mp h
    exact ih (fun st st' e' he => hstep st st' e' (List.mem_cons_of_mem _ he))
      (hstep st st₁ e List.mem_cons_self hst happend) hrest

end MemoryStore
end PortableRuntime
