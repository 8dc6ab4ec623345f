import PortableRuntime.Protocol.Valid
import PortableRuntime.Stores.Keyed

/-!
# Terminal Work/Run pairs

Only the paired commit writes a terminal status.  A single write that took one away would
break the pairing of the other side, and the proofs of a pair name its Run, so no second
Run can stand in for the first.
-/

namespace PortableRuntime
namespace MemoryStore

variable {digest : Json → String} {now : Time} {st st' : MemoryStore}

/-- The pairing of completed Works and succeeded Runs. -/
structure Paired (st : MemoryStore) : Prop where
  texts : ∀ id run, st.getRun id = some run → run.status = .succeeded →
    ∃ refs, proofRefs run.metadata = .ofStrings refs
  run : ∀ id run, st.getRun id = some run → run.status = .succeeded →
    ∃ work, st.getWork run.workId = some work ∧ work.status = .completed ∧
      proofRefs work.metadata = proofRefs run.metadata ∧
      ∃ coverage, CompletionAuthority.validateProofInvariant work run
        (proofRefTexts run.metadata) st.getRecord = .ok coverage
  work : ∀ id work, st.getWork id = some work → work.status = .completed →
    ∃ runId run, st.getRun runId = some run ∧ run.workId = work.id ∧ run.status = .succeeded

/-- Every completed Work stays completed, and every succeeded Run stays succeeded. -/
structure Settled (st st' : MemoryStore) : Prop where
  work : ∀ id work, st.getWork id = some work → work.status = .completed →
    ∃ work', st'.getWork id = some work' ∧ work'.status = .completed
  run : ∀ id run, st.getRun id = some run → run.status = .succeeded →
    ∃ run', st'.getRun id = some run' ∧ run'.status = .succeeded

theorem Settled.refl (st : MemoryStore) : Settled st st :=
  ⟨fun _ work h hs => ⟨work, h, hs⟩, fun _ run h hs => ⟨run, h, hs⟩⟩

theorem Settled.trans {st₁ st₂ st₃ : MemoryStore} (h : Settled st₁ st₂) (h' : Settled st₂ st₃) :
    Settled st₁ st₃ := by
  constructor
  · intro id work hget hs
    obtain ⟨work', hget', hs'⟩ := h.work id work hget hs
    exact h'.work id work' hget' hs'
  · intro id run hget hs
    obtain ⟨run', hget', hs'⟩ := h.run id run hget hs
    exact h'.run id run' hget' hs'

/-! ## Objects of a store and of its candidate -/

theorem mem_exportState {k : Kind} {m : Model k} :
    m ∈ st.exportState k ↔ ∃ id, st.get k id = some m := Dict.mem_values

/-- A keyed store resolves a reference as any rearrangement of its state does. -/
theorem get?_byId_candidate {candidate : State} {k : Kind} (hkeyed : Keyed st)
    (hs : candidate.WellIdentified) (hre : candidate.Rearranged st.exportState) (ref : String) :
    (State.byId (candidate k)).get? ref = st.get k ref := by
  ext m
  rw [State.get?_byId (hs.bucket_nodup k), (hre k).mem_iff, mem_exportState]
  constructor
  · rintro ⟨⟨id, hget⟩, rfl⟩
    rwa [hkeyed k id m hget]
  · intro hget
    exact ⟨⟨ref, hget⟩, hkeyed k ref m hget⟩

theorem mem_pairedRuns {s : State} (hs : s.WellIdentified) {work : Work} {run : Run} :
    run ∈ s.pairedRuns work ↔
      run ∈ s.runs ∧ run.workId = work.id ∧ run.status = .succeeded := by
  rw [State.pairedRuns, hs.runsById_values, List.mem_filter, Bool.and_eq_true, decide_eq_true_eq,
    decide_eq_true_eq]

/-- A completed Work without errors has a succeeded Run, and agrees with all of them. -/
theorem workErrors_eq_nil {s : State} {work : Work} (hcompleted : work.status = .completed)
    (h : workErrors s work = []) :
    (∃ run, run ∈ s.pairedRuns work) ∧
      ∀ run ∈ s.pairedRuns work, (proofRefs work.metadata).pyEq (proofRefs run.metadata) = true := by
  rw [workErrors, if_neg (not_not.mpr hcompleted)] at h
  split_ifs at h with hempty
  refine ⟨List.exists_mem_of_ne_nil _ (by simpa using hempty), fun run hrun => ?_⟩
  have hpair := List.flatMap_eq_nil_iff.mp h run hrun
  rw [pairErrors, List.append_eq_nil_iff, errorIf_eq_nil] at hpair
  simpa using (Bool.or_eq_false_iff.mp hpair.1).2

theorem paired_of_candidate {candidate : State} (hvalid : Valid now candidate)
    (hre : candidate.Rearranged st.exportState) (hkeyed : Keyed st)
    (htexts : ∀ id run, st.getRun id = some run → run.status = .succeeded →
      ∃ refs, proofRefs run.metadata = .ofStrings refs) : Paired st := by
  have hok := valid_iff.mp hvalid
  have hlookup (k : Kind) := get?_byId_candidate (k := k) hkeyed hok.identified hre
  have hmem (k : Kind) (m : Model k) : m ∈ candidate k ↔ ∃ id, st.get k id = some m := by
    rw [(hre k).mem_iff, mem_exportState]
  refine ⟨htexts, ?_, ?_⟩
  · intro id run hget hsucceeded
    have hrun : run ∈ candidate.runs := (hmem .run run).mpr ⟨id, hget⟩
    have herrors := hok.runs run hrun
    rw [runErrors, if_neg (not_not.mpr hsucceeded)] at herrors
    cases hwork : candidate.worksById.get? run.workId with
    | none => simp [hwork] at herrors
    | some work =>
      simp only [hwork, List.append_eq_nil_iff, errorIf_eq_nil] at herrors
      obtain ⟨hstatus, hproof⟩ := herrors
      have hcompleted : work.status = .completed := by simpa using hstatus
      have hstored : st.getWork run.workId = some work := (hlookup .work run.workId).symm.trans hwork
      have hid : work.id = run.workId := hkeyed .work _ _ hstored
      refine ⟨work, hstored, hcompleted, ?_, ?_⟩
      · have hpairs := (workErrors_eq_nil hcompleted
          (hok.works work ((hmem .work work).mpr ⟨_, hstored⟩))).2
        have hequal := hpairs run ((mem_pairedRuns hok.identified).mpr ⟨hrun, hid.symm, hsucceeded⟩)
        obtain ⟨refs, hrefs⟩ := htexts id run hget hsucceeded
        rw [hrefs] at hequal ⊢
        exact Json.pyEq_ofStrings.mp hequal
      · have hrecords : candidate.parsedRecords.get? = st.getRecord := funext (hlookup .record)
        rw [proofErrors, hrecords] at hproof
        cases hinvariant : CompletionAuthority.validateProofInvariant work run
            (proofRefTexts run.metadata) st.getRecord with
        | ok coverage => exact ⟨coverage, rfl⟩
        | error e => simp [hinvariant] at hproof
  · intro id work hget hcompleted
    obtain ⟨⟨run, hrun⟩, -⟩ := workErrors_eq_nil hcompleted
      (hok.works work ((hmem .work work).mpr ⟨id, hget⟩))
    obtain ⟨hrunMem, hworkId, hsucceeded⟩ := (mem_pairedRuns hok.identified).mp hrun
    obtain ⟨runId, hstored⟩ := (hmem .run run).mp hrunMem
    exact ⟨runId, run, hstored, hworkId, hsucceeded⟩

/-- Two succeeded Runs of one Work are one Run. -/
theorem Paired.run_unique (h : Paired st) {id id' : String} {run run' : Run}
    (hget : st.getRun id = some run) (hsucceeded : run.status = .succeeded)
    (hget' : st.getRun id' = some run') (hsucceeded' : run'.status = .succeeded)
    (hwork : run.workId = run'.workId) : run.id = run'.id := by
  obtain ⟨work, hstored, -, hrefs, coverage, hproof⟩ := h.run id run hget hsucceeded
  obtain ⟨work', hstored', -, hrefs', coverage', hproof'⟩ := h.run id' run' hget' hsucceeded'
  rw [← hwork] at hstored'
  obtain rfl := Option.some.inj (hstored.symm.trans hstored')
  have htexts : proofRefTexts run'.metadata = proofRefTexts run.metadata := by
    rw [proofRefTexts, proofRefTexts, ← hrefs, ← hrefs']
  rw [htexts] at hproof'
  exact CompletionAuthority.run_unique_of_proofs hproof hproof'

/-! ## Writes that leave the pairs alone -/

theorem Settled.of_records_eq (hwork : st'.records .work = st.records .work)
    (hrun : st'.records .run = st.records .run) : Settled st st' := by
  have hgetWork : st'.getWork = st.getWork := by
    funext id
    rw [getWork, get, hwork, getWork, get]
  have hgetRun : st'.getRun = st.getRun := by
    funext id
    rw [getRun, get, hrun, getRun, get]
  exact ⟨fun id work hget hs => ⟨work, by rw [hgetWork, hget], hs⟩,
    fun id run hget hs => ⟨run, by rw [hgetRun, hget], hs⟩⟩

/-- The pairs stay as they are under new records. -/
theorem Paired.mono (h : Paired st) (hwork : st'.records .work = st.records .work)
    (hrun : st'.records .run = st.records .run)
    (hrecord : ∀ id record, st.getRecord id = some record → st'.getRecord id = some record) :
    Paired st' := by
  have hgetWork : st'.getWork = st.getWork := by
    funext id
    rw [getWork, get, hwork, getWork, get]
  have hgetRun : st'.getRun = st.getRun := by
    funext id
    rw [getRun, get, hrun, getRun, get]
  refine ⟨by rw [hgetRun]; exact h.texts, ?_, by rw [hgetRun, hgetWork]; exact h.work⟩
  rw [hgetRun, hgetWork]
  intro id run hget hsucceeded
  obtain ⟨work, hstored, hcompleted, hrefs, coverage, hproof⟩ := h.run id run hget hsucceeded
  exact ⟨work, hstored, hcompleted, hrefs, coverage,
    CompletionAuthority.validateProofInvariant_mono hrecord hproof⟩

/-- An event touches neither the pairs nor the records. -/
theorem appendEvents_records {authority : Option CommitAuthority} {events : List Event}
    (h : st.appendEvents authority events = .ok st') {k : Kind} (hk : k ≠ .event) :
    st'.records k = st.records k := by
  refine appendEvents_induction (P := fun s => s.records k = st.records k) ?_ rfl h
  intro s s' e _ hs happend
  rcases appendEventAs_eq_ok happend with ⟨-, -, -, rfl⟩ | ⟨-, rfl⟩
  · exact hs
  · rw [save, records_put_of_ne s hk, hs]

/-! ## One checked write -/

def ProofTexts (st : MemoryStore) : Prop :=
  ∀ id run, st.getRun id = some run → run.status = .succeeded →
    ∃ refs, proofRefs run.metadata = .ofStrings refs

theorem ProofTexts.save (h : ProofTexts st) {k : Kind} {v : Model k}
    (hterminal : terminalWrite k v = false) : ProofTexts (st.save k v) := by
  intro id run hget hsucceeded
  by_cases hk : k = .run
  · subst hk
    rw [getRun, MemoryStore.save, get_put_self] at hget
    split_ifs at hget
    · obtain rfl := Option.some.inj hget
      simp [terminalWrite, hsucceeded] at hterminal
    · exact h id run hget hsucceeded
  · rw [getRun, MemoryStore.save, get_put_of_ne st (Ne.symm hk)] at hget
    exact h id run hget hsucceeded

/-- The only write to a completed Work would break the pair of its Run. -/
theorem settled_save_work {v : Work} (h : Paired st) (hkeyed : Keyed st)
    (h' : Paired (st.save .work v)) : Settled st (st.save .work v) := by
  constructor
  · intro id work hget hcompleted
    rw [getWork, save, get_put_self]
    split_ifs with hid
    · refine ⟨v, rfl, ?_⟩
      obtain ⟨runId, run, hrun, hworkId, hsucceeded⟩ := h.work id work hget hcompleted
      obtain ⟨work', hstored, hcompleted', -⟩ := h'.run runId run hrun hsucceeded
      have hidentity : run.workId = Kind.identifier .work v := by
        rw [hworkId, ← hid]
        exact hkeyed .work id work hget
      rw [hidentity, getWork, save, get_put_self, if_pos rfl] at hstored
      rw [Option.some.inj hstored]
      exact hcompleted'
    · exact ⟨work, hget, hcompleted⟩
  · intro id run hget hsucceeded
    exact ⟨run, hget, hsucceeded⟩

/-- The only write to a succeeded Run would leave its Work without one. -/
theorem settled_save_run {v : Run} (h : Paired st) (hkeyed : Keyed st)
    (h' : Paired (st.save .run v)) : Settled st (st.save .run v) := by
  constructor
  · intro id work hget hcompleted
    exact ⟨work, hget, hcompleted⟩
  · intro id run hget hsucceeded
    rw [getRun, save, get_put_self]
    split_ifs with hid
    · refine ⟨v, rfl, ?_⟩
      obtain ⟨work, hwork, hcompleted, -⟩ := h.run id run hget hsucceeded
      obtain ⟨runId, run', hrun', hworkId, hsucceeded'⟩ := h'.work run.workId work hwork hcompleted
      rw [getRun, save, get_put_self] at hrun'
      split_ifs at hrun' with hrunId
      · rw [Option.some.inj hrun']
        exact hsucceeded'
      · -- Another Run of the same Work would carry the same proofs.
        have hsame : run.workId = run'.workId := by
          rw [hworkId]
          exact (hkeyed .work _ _ hwork).symm
        have hunique := h.run_unique hget hsucceeded hrun' hsucceeded' hsame
        have hkey : run.id = id := hkeyed .run id run hget
        have hkey' : run'.id = runId := hkeyed .run runId run' hrun'
        exact absurd (hkey'.symm.trans (hunique.symm.trans (hkey.trans hid))) hrunId
    · exact ⟨run, hget, hsucceeded⟩

theorem Paired.save_checked (h : Paired st) (hkeyed : Keyed st) {k : Kind} {v : Model k}
    (hterminal : terminalWrite k v = false) (hvalid : Valid now (st.exportState.merge k [v])) :
    Paired (st.save k v) ∧ Settled st (st.save k v) := by
  have h' : Paired (st.save k v) := paired_of_candidate hvalid (rearranged_save hkeyed k v)
    (hkeyed.save k v) (ProofTexts.save h.texts hterminal)
  refine ⟨h', ?_⟩
  by_cases hwork : k = .work
  · subst hwork
    exact settled_save_work h hkeyed h'
  by_cases hrun : k = .run
  · subst hrun
    exact settled_save_run h hkeyed h'
  · exact .of_records_eq (records_put_of_ne st (Ne.symm hwork) _ v)
      (records_put_of_ne st (Ne.symm hrun) _ v)

/-! ## The paired commit -/

theorem settled_commit (st : MemoryStore) {work : Work} {run : Run}
    (hcompleted : work.status = .completed) (hsucceeded : run.status = .succeeded) :
    Settled st ((st.save .work work).save .run run) := by
  have hwork : Settled st (st.save .work work) := by
    refine ⟨fun id old hget hs => ?_, fun id old hget hs => ⟨old, hget, hs⟩⟩
    rw [getWork, save, get_put_self]
    split_ifs
    · exact ⟨work, rfl, hcompleted⟩
    · exact ⟨old, hget, hs⟩
  refine hwork.trans ⟨fun id old hget hs => ⟨old, hget, hs⟩, fun id old hget hs => ?_⟩
  rw [getRun, save, get_put_self]
  split_ifs
  · exact ⟨run, rfl, hsucceeded⟩
  · exact ⟨old, hget, hs⟩

theorem Paired.commitTerminal (h : Paired st) (hkeyed : Keyed st) {work : Work} {run : Run}
    {refs : List String} (hcommit : st.commitTerminal now work run refs = .ok st') :
    Paired st' ∧ Settled st st' := by
  obtain ⟨⟨hcompleted, hsucceeded⟩, ⟨-, hrefs⟩, -, hvalid, rfl⟩ := commitTerminal_eq_ok.mp hcommit
  refine ⟨?_, settled_commit st hcompleted hsucceeded⟩
  have hkeyed' := hkeyed.save .work work
  refine paired_of_candidate hvalid ?_ (hkeyed'.save .run run) ?_
  · exact ((rearranged_save hkeyed .work work).merge .run [run]).trans
      (rearranged_save hkeyed' .run run)
  · intro id old hget hs
    rw [getRun, save, get_put_self] at hget
    split_ifs at hget
    · obtain rfl := Option.some.inj hget
      exact ⟨_, Json.pyEq_ofStrings.mp hrefs⟩
    · exact h.texts id old hget hs

/-! ## Every call -/

/-- An accepted swap stores its value under the value's own identity, and nothing is imported. -/
def PairKeeping (digest : Json → String) (st : MemoryStore) (o : Time × Op) : Prop :=
  (st.call digest o.1 o.2).isOk = true → WellAddressed st o ∧ ∀ state, o.2 ≠ .importState state

theorem Paired.appendEvents (h : Paired st) {authority : Option CommitAuthority}
    {events : List Event} (happend : st.appendEvents authority events = .ok st') :
    Paired st' ∧ Settled st st' := by
  have hrecords (k : Kind) (hk : k ≠ .event) := appendEvents_records happend hk
  refine ⟨h.mono (hrecords .work (by decide)) (hrecords .run (by decide)) ?_,
    .of_records_eq (hrecords .work (by decide)) (hrecords .run (by decide))⟩
  intro id record hget
  rwa [getRecord, get, hrecords .record (by decide)]

theorem appendEvents_single {authority : Option CommitAuthority} {e : Event}
    (h : st.appendEventAs authority e = .ok st') : st.appendEvents authority [e] = .ok st' := by
  rw [MemoryStore.appendEvents, h]
  rfl

theorem Paired.call {o : Op} (h : Paired st) (hkeyed : Keyed st)
    (haddressed : WellAddressed st (now, o)) (himport : ∀ state, o ≠ .importState state)
    (hcall : st.call digest now o = .ok st') : Paired st' ∧ Settled st st' := by
  cases o with
  | save k v =>
    by_cases hk : k = .event
    · subst hk
      exact h.appendEvents (@appendEvents_single _ _ none v hcall)
    · obtain ⟨hterminal, hvalid, rfl⟩ := saveModel_eq_ok hk hcall
      exact h.save_checked hkeyed hterminal hvalid
  | compareAndSwap k id expected v =>
    obtain ⟨b, hcas⟩ := call_compareAndSwap_eq_ok hcall
    rcases compareAndSwap_eq_ok hcas with ⟨-, rfl⟩ | ⟨-, -, -, -, hterminal, hvalid, rfl⟩
    · exact ⟨h, .refl _⟩
    · have hid : k.identifier v = id := haddressed
      subst hid
      exact h.save_checked hkeyed hterminal hvalid
  | commitTerminal work run refs => exact h.commitTerminal hkeyed hcall
  | commitVerifiedOutcome request =>
    obtain ⟨prepared, -, rfl | ⟨hfresh, happend⟩⟩ := commitVerifiedOutcome_eq_ok hcall
    · exact ⟨h, .refl _⟩
    · have hrecord : Paired (st.save .record prepared.outcome) := by
        refine h.mono (records_put_of_ne st (by decide) _ _) (records_put_of_ne st (by decide) _ _) ?_
        intro id record hget
        rw [getRecord, save, get_put_self, if_neg]
        · exact hget
        · rintro rfl
          exact absurd (hget.symm.trans hfresh) (by simp)
      have hsettled : Settled st (st.save .record prepared.outcome) :=
        .of_records_eq (records_put_of_ne st (by decide) _ _) (records_put_of_ne st (by decide) _ _)
      obtain ⟨hpaired, hevents⟩ := hrecord.appendEvents happend
      exact ⟨hpaired, hsettled.trans hevents⟩
  | commitHistoricalExperienceUse use =>
    rcases commitHistoricalExperienceUse_eq_ok hcall with
      rfl | ⟨-, -, -, hvalid, event, -, happend⟩
    · exact ⟨h, .refl _⟩
    · obtain ⟨hrecord, hsettled⟩ := h.save_checked hkeyed (k := .record) rfl hvalid
      obtain ⟨hpaired, hevents⟩ := hrecord.appendEvents (appendEvents_single happend)
      exact ⟨hpaired, hsettled.trans hevents⟩
  | commitEvents authority prepare =>
    rcases commitEvents_eq_ok hcall with rfl | ⟨events, -, happend⟩
    · exact ⟨h, .refl _⟩
    · exact h.appendEvents happend
  | importState state => exact absurd rfl (himport state)

theorem pairedKeyed_step (st : MemoryStore) (o : Time × Op) (h : Paired st ∧ Keyed st)
    (hC : PairKeeping digest st o) :
    (Paired (step digest st o) ∧ Keyed (step digest st o)) ∧ Settled st (step digest st o) := by
  unfold step
  cases hcall : st.call digest o.1 o.2 with
  | error e => exact ⟨h, .refl st⟩
  | ok st' =>
    obtain ⟨haddressed, himport⟩ := hC (by rw [hcall]; rfl)
    obtain ⟨hpaired, hsettled⟩ := h.1.call h.2 haddressed himport hcall
    exact ⟨⟨hpaired, h.2.call haddressed hcall⟩, hsettled⟩

theorem paired_empty : Paired empty := by
  refine ⟨?_, ?_, ?_⟩ <;> intro id _ hget <;> simp [getRun, getWork, get, empty] at hget

/-- In every program without imports whose accepted swaps keep identities, completed Works and
succeeded Runs are paired by their proofs, and no further program takes a status back. -/
theorem terminal_pairs_irrevocable (digest : Json → String) (ps qs : List (Prog (Time × Op)))
    (hps : Prog.FollowsAll (step digest) (PairKeeping digest) empty ps)
    (hqs : Prog.FollowsAll (step digest) (PairKeeping digest)
      (Prog.execAll (step digest) empty ps) qs) :
    Paired (Prog.execAll (step digest) empty ps) ∧
      Settled (Prog.execAll (step digest) empty ps)
        (Prog.execAll (step digest) (Prog.execAll (step digest) empty ps) qs) := by
  obtain ⟨hreached, -⟩ := Prog.exec_related Settled.refl (fun _ _ _ => Settled.trans)
    pairedKeyed_step ⟨paired_empty, keyed_empty⟩ hps
  obtain ⟨-, hsettled⟩ := Prog.exec_related Settled.refl (fun _ _ _ => Settled.trans)
    pairedKeyed_step hreached hqs
  exact ⟨hreached.1, hsettled⟩

/-! ## A completed pair, and a swap that stores another Run over it -/

def openWork : Work := { id := "work_1", createdAt := 0, title := "", updatedAt := 0 }

def activeRun : Run := { id := "run_1", createdAt := 0, workId := "work_1", status := .running }

/-- A passing verification bound to the Work and the Run. -/
def boundProof : BaseRecord :=
  { cls := .evidenceArtifact, id := "record_1", recordType := .evidenceArtifact, createdAt := 0,
    lifecycleStatus := .current,
    metadata := [("verification_result", .obj [("result", .str "pass")]),
      ("work_id", .str "work_1"), ("run_id", .str "run_1"), ("verification_scope", .obj []),
      ("work_version", .int 1), ("acceptance_criteria", .arr [])],
    fields := [("kind", .str "closed-verification"), ("uri", .null), ("media_type", .null),
      ("checksum", .null)] }

def completionMetadata : Fields :=
  [("_completion_proof_refs", .ofStrings ["record_1"]), ("completion_required_obligations", .arr []),
   ("completion_covered_obligations", .arr []), ("completion_missing_obligations", .arr [])]

def completing : List (Prog (Time × Op)) :=
  [.op (1, .save .work openWork), .op (1, .save .run activeRun), .op (1, .save .record boundProof),
   .op (1, .commitTerminal { openWork with status := .completed, metadata := completionMetadata }
     { activeRun with status := .succeeded, metadata := completionMetadata } ["record_1"])]

def reopening : List (Prog (Time × Op)) := [.op (2, .save .run activeRun)]

def swapping : List (Prog (Time × Op)) :=
  [.op (2, .compareAndSwap .run "run_1" 0 { activeRun with id := "run_2" })]

theorem pairKeeping_save {st : MemoryStore} {now : Time} {k : Kind} {v : Model k} :
    PairKeeping digest st (now, .save k v) := fun _ => ⟨trivial, by simp⟩

theorem terminal_pairs_reopening :
    ∃ run, (Prog.execAll (step (fun _ => "")) (Prog.execAll (step (fun _ => "")) empty completing)
      reopening).getRun "run_1" = some run ∧ run.status = .succeeded := by
  have hcompletes : ((Prog.execAll (step (fun _ => "")) empty completing).getRun "run_1").map
      Run.status = some .succeeded := by
    decide
  obtain ⟨run, hrun, hsucceeded⟩ := Option.map_eq_some_iff.mp hcompletes
  exact (terminal_pairs_irrevocable (fun _ => "") completing reopening
    ⟨pairKeeping_save, pairKeeping_save, pairKeeping_save, fun _ => ⟨trivial, by simp⟩, trivial⟩
    ⟨pairKeeping_save, trivial⟩).2.run "run_1" run hrun hsucceeded

/-- A swap under the identity of a succeeded Run stores another Run there. -/
theorem swapping_revokes :
    ¬ ∀ (digest : Json → String) (ps qs : List (Prog (Time × Op))),
      (∀ p ∈ ps ++ qs, ∀ now state, p ≠ .op (now, .importState state)) →
      Settled (Prog.execAll (step digest) empty ps)
        (Prog.execAll (step digest) (Prog.execAll (step digest) empty ps) qs) := by
  intro h
  have hcompletes : ((Prog.execAll (step (fun _ => "")) empty completing).getRun "run_1").map
      Run.status = some .succeeded := by
    decide
  have hrevoked : ((Prog.execAll (step (fun _ => "")) (Prog.execAll (step (fun _ => "")) empty
      completing) swapping).getRun "run_1").map Run.status = some .running := by
    decide
  obtain ⟨run, hrun, hsucceeded⟩ := Option.map_eq_some_iff.mp hcompletes
  have hsettled := h (fun _ => "") completing swapping
    (by simp [completing, swapping]) 
  obtain ⟨run', hrun', hsucceeded'⟩ := hsettled.run "run_1" run hrun hsucceeded
  rw [hrun', Option.map_some, hsucceeded'] at hrevoked
  exact absurd hrevoked (by decide)

end MemoryStore
end PortableRuntime
