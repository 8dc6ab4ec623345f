import PortableRuntime.Stores.TerminalPairs
import PortableRuntime.Workflows.Authorize

/-!
# A Work is completed once

The pairing of completed Works and succeeded Runs, which every write checks, leaves one Run for a
Work and one Run for a proof.  Whether the pair itself is written a second time depends on what
the commit finds: `authorize` looks at the status of the Run before its transaction, and
the transaction does not look again.
-/

namespace PortableRuntime
namespace MemoryStore

variable {digest : Json → String} {now : Time} {st st' : MemoryStore}

/-- A proof is consumed by one succeeded Run, and a Work has one. -/
structure OneShot (st : MemoryStore) : Prop where
  proofs : ∀ id id' run run' ref, st.getRun id = some run → run.status = .succeeded →
    st.getRun id' = some run' → run'.status = .succeeded → Text.nonBlank ref = true →
    ref ∈ proofRefTexts run.metadata → ref ∈ proofRefTexts run'.metadata → id = id'
  works : ∀ id id' run run', st.getRun id = some run → run.status = .succeeded →
    st.getRun id' = some run' → run'.status = .succeeded → run.workId = run'.workId → id = id'

/-- A proof of a succeeded Run is bound to that Run. -/
theorem Paired.proof_bound (h : Paired st) {id ref : String} {run : Run}
    (hget : st.getRun id = some run) (hsucceeded : run.status = .succeeded)
    (hblank : Text.nonBlank ref = true) (href : ref ∈ proofRefTexts run.metadata) :
    ∃ record, st.getRecord ref = some record ∧ record.metadata.get "run_id" = .str run.id := by
  obtain ⟨work, -, -, -, coverage, hproof⟩ := h.run id run hget hsucceeded
  obtain ⟨evidence, hevidence⟩ := CompletionAuthority.validateProofInvariant_eq_ok hproof
  exact (validateBinding_binds_run hevidence).2 ref
    (List.mem_filter.mpr ⟨href, hblank⟩) hblank

theorem Paired.oneShot (h : Paired st) (hkeyed : Keyed st) : OneShot st where
  proofs id id' run run' ref hget hs hget' hs' hblank href href' := by
    obtain ⟨record, hrecord, hbound⟩ := h.proof_bound hget hs hblank href
    obtain ⟨record', hrecord', hbound'⟩ := h.proof_bound hget' hs' hblank href'
    obtain rfl := Option.some.inj (hrecord.symm.trans hrecord')
    have hid : run.id = run'.id := Json.str.inj (hbound.symm.trans hbound')
    exact (hkeyed .run id run hget).symm.trans (hid.trans (hkeyed .run id' run' hget'))
  works id id' run run' hget hs hget' hs' hwork := by
    have hid := h.run_unique hget hs hget' hs' hwork
    exact (hkeyed .run id run hget).symm.trans (hid.trans (hkeyed .run id' run' hget'))

/-! ## Imports -/

/-- A swap keeps identities, and an imported succeeded Run lists its proofs as texts. -/
def PairsKept (st : MemoryStore) (o : Time × Op) : Prop :=
  WellAddressed st o ∧ ∀ state, o.2 = .importState state →
    ∀ run ∈ state.runs, run.status = .succeeded → ∃ refs, proofRefs run.metadata = .ofStrings refs

theorem Paired.importState (h : Paired st) (hkeyed : Keyed st) {state : State}
    (htexts : ∀ run ∈ state.runs, run.status = .succeeded →
      ∃ refs, proofRefs run.metadata = .ofStrings refs)
    (himport : st.importState digest now state = .ok st') : Paired st' := by
  obtain ⟨-, -, hvalid, -, rfl⟩ := importState_eq_ok.mp himport
  have hnodup := nodup_of_importCandidate (valid_iff.mp hvalid).identified
  refine paired_of_candidate hvalid (rearranged_saveAll hkeyed hnodup) (hkeyed.saveAll _) ?_
  intro id run hget hsucceeded
  rcases Dict.get?_setAll (d := st.records .run) hget with ⟨hmem, -⟩ | ⟨-, hold⟩
  · refine htexts run ?_ hsucceeded
    rw [asImported, Function.update_of_ne (by decide)] at hmem
    exact hmem
  · exact h.texts id run hold hsucceeded

theorem Paired.step {o : Time × Op} (h : Paired st) (hkeyed : Keyed st) (hC : PairsKept st o) :
    Paired (st.step digest o) ∧ Keyed (st.step digest o) := by
  have hkeyed' : Keyed (st.step digest o) := hkeyed.step hC.1
  refine ⟨?_, hkeyed'⟩
  unfold MemoryStore.step
  cases hcall : st.call digest o.1 o.2 with
  | error e => exact h
  | ok st' =>
    by_cases himport : ∃ state, o.2 = .importState state
    · obtain ⟨state, hstate⟩ := himport
      rw [hstate] at hcall
      exact h.importState hkeyed (hC.2 state hstate) hcall
    · exact (h.call hkeyed hC.1 (fun state hstate => himport ⟨state, hstate⟩) hcall).1

end MemoryStore

namespace CompletionAuthority

variable {now : Time} {store store' : MemoryStore} {q : Request}

/-! ## What a call works on -/

/-- Past its first reads a call works on the Run and the Work it was asked for. -/
def Phase.Named : Phase → Prop
  | .readRun q work run | .unconsumed q work run | .proved q work run =>
    work.id = q.work.id ∧ run.workId = q.work.id ∧ run.id = q.run.id
  | _ => True

theorem settle_eq_none {work : Work} {run : Run} (h : settle q work run = .ok none) :
    work.id = q.work.id ∧ run.workId = q.work.id ∧ run.status ≠ .succeeded ∧
      work.status ≠ .completed := by
  rw [settle, Result.check_eq_ok, guardValue_eq_ok] at h
  obtain ⟨hids, h⟩ := h
  rw [Bool.and_eq_true, decide_eq_true_eq, decide_eq_true_eq] at hids
  have hopen : run.status ≠ .succeeded := by
    intro hsucceeded
    rw [if_pos hsucceeded] at h
    split_ifs at h with hcompleted
    · obtain ⟨existing, -, h⟩ := Result.bind_eq_ok.mp h
      split_ifs at h <;> simp [raiseValue, pure, Except.pure] at h
    · simp [raiseValue] at h
  refine ⟨hids.1, hids.2, hopen, fun hcompleted => ?_⟩
  rw [if_neg hopen, if_pos hcompleted] at h
  simp [raiseValue] at h

/-- A call that is answered from the store is answered with a succeeded Run of a completed Work
that lists the very proofs. -/
theorem settle_eq_some {work : Work} {run stored : Run} :
    settle q work run = .ok (some stored) ↔ stored = run ∧ work.id = q.work.id ∧
      run.workId = q.work.id ∧ run.status = .succeeded ∧ work.status = .completed ∧
      ∃ existing, (run.metadata.getOr "_completion_proof_refs" (.arr [])).items = .ok existing ∧
        (Json.arr existing).pyEq (.ofStrings q.refs) = true := by
  rw [settle, Result.check_eq_ok, guardValue_eq_ok, Bool.and_eq_true, decide_eq_true_eq,
    decide_eq_true_eq]
  constructor
  · rintro ⟨⟨hwork, hrun⟩, h⟩
    split_ifs at h with hsucceeded hcompleted hcompleted'
    · obtain ⟨existing, hexisting, h⟩ := Result.bind_eq_ok.mp h
      split_ifs at h with hsame
      · simp only [pure, Except.pure, Except.ok.injEq, Option.some.injEq] at h
        exact ⟨h.symm, hwork, hrun, hsucceeded, hcompleted, existing, hexisting, hsame⟩
      · simp [raiseValue] at h
    · simp [raiseValue] at h
    · simp [raiseValue] at h
    · simp [pure, Except.pure] at h
  · rintro ⟨rfl, hwork, hrun, hsucceeded, hcompleted, existing, hexisting, hsame⟩
    refine ⟨⟨hwork, hrun⟩, ?_⟩
    rw [if_pos hsucceeded, if_pos hcompleted, hexisting]
    exact if_pos hsame

theorem terminalPair_eq_ok {work : Work} {run : Run} {pair : Work × Run}
    (h : terminalPair now store q work run = .ok pair) :
    pair.1.id = work.id ∧ pair.2.id = run.id ∧ pair.2.workId = run.workId := by
  rw [terminalPair, Result.bind_eq_ok] at h
  obtain ⟨coverage, -, h⟩ := h
  rw [Result.check_eq_ok, Result.pure_eq_ok] at h
  obtain ⟨-, rfl⟩ := h
  exact ⟨rfl, rfl, rfl⟩

theorem authorize_named {phase : Phase} (h : phase.Named) (hkeyed : MemoryStore.Keyed store) :
    (authorize now store phase).1.Named := by
  cases phase with
  | idle => trivial
  | returned q answer => trivial
  | called q =>
    rw [authorize]
    split <;> trivial
  | readWork q work =>
    rw [authorize]
    cases hsettle : settle q work ((store.getRun q.run.id).getD q.run) with
    | error e => trivial
    | ok answer =>
      cases answer with
      | some stored => trivial
      | none =>
        obtain ⟨hwork, hrun, -⟩ := settle_eq_none hsettle
        refine ⟨hwork, hrun, ?_⟩
        cases hget : store.getRun q.run.id with
        | none => rfl
        | some run => exact hkeyed .run q.run.id run hget
  | readRun q work run =>
    rw [authorize]
    split
    · trivial
    · exact h
  | unconsumed q work run =>
    rw [authorize]
    cases hpair : terminalPair now store q work run with
    | error e => trivial
    | ok pair =>
      obtain ⟨hwork, hrun, hworkId⟩ := terminalPair_eq_ok hpair
      exact ⟨hwork.trans h.1, hworkId.trans h.2.1, hrun.trans h.2.2⟩
  | proved q work run =>
    rw [authorize]
    split <;> trivial

/-- A step of a call leaves the store alone, or it is an accepted commit. -/
theorem authorize_store (now : Time) (store : MemoryStore) (phase : Phase) :
    (authorize now store phase).2 = store ∨ ∃ q work run store',
      phase = .proved q work run ∧ store.commitTerminal now work run q.refs = .ok store' ∧
      authorize now store phase = (.returned q (.ok run), store') := by
  cases phase with
  | idle => exact .inl rfl
  | returned q answer => exact .inl rfl
  | called q =>
    left
    rw [authorize]
    split <;> rfl
  | readWork q work =>
    left
    rw [authorize]
    split <;> rfl
  | readRun q work run =>
    left
    rw [authorize]
    split <;> rfl
  | unconsumed q work run =>
    left
    rw [authorize]
    split <;> rfl
  | proved q work run =>
    cases hcommit : store.commitTerminal now work run q.refs with
    | error e =>
      left
      rw [authorize, hcommit]
    | ok store' => exact .inr ⟨q, work, run, store', rfl, hcommit, by rw [authorize, hcommit]⟩

end CompletionAuthority

namespace MemoryStore

variable {now : Time} {st st' : MemoryStore}

/-- The Run under the identity is succeeded, and its Work is completed. -/
structure Completed (st : MemoryStore) (id : String) (run : Run) (work : Work) : Prop where
  storedRun : st.getRun id = some run
  succeeded : run.status = .succeeded
  storedWork : st.getWork run.workId = some work
  completed : work.status = .completed

variable {id : String} {run run' : Run} {work work' : Work} {refs : List String}

theorem workId_of_commitTerminal (h : st.commitTerminal now work run refs = .ok st') :
    work.id = run.workId := by
  obtain ⟨-, -, ⟨coverage, hproof⟩, -⟩ := commitTerminal_eq_ok.mp h
  rw [CompletionAuthority.validateProofInvariant, Result.check_eq_ok, Result.check_eq_ok,
    Result.check_eq_ok, guardValue_eq_ok, guardValue_eq_ok, guardValue_eq_ok] at hproof
  simpa using hproof.2.2.1

/-- A commit that finds no succeeded Run of its own stays apart from a completed pair. -/
theorem Completed.commitTerminal (h : Completed st id run work) (hpaired : Paired st)
    (hkeyed : Keyed st) (hcommit : st.commitTerminal now work' run' refs = .ok st')
    (hopen : ∀ stored, st.getRun run'.id = some stored → stored.status ≠ .succeeded) :
    run'.id ≠ id ∧ work'.id ≠ run.workId ∧ Completed st' id run work := by
  have hpaired' := (hpaired.commitTerminal hkeyed hcommit).1
  have hworkId := workId_of_commitTerminal hcommit
  obtain ⟨⟨-, hsucceeded'⟩, -, -, -, rfl⟩ := commitTerminal_eq_ok.mp hcommit
  have hkeyed' : Keyed ((st.save .work work').save .run run') :=
    (hkeyed.save .work work').save .run run'
  have hrun : run'.id ≠ id := by
    rintro rfl
    exact hopen run h.storedRun h.succeeded
  have hget : ((st.save .work work').save .run run').getRun id = some run := by
    rw [getRun, save, get_put_self]
    exact (if_neg (Ne.symm hrun)).trans h.storedRun
  have hget' : ((st.save .work work').save .run run').getRun run'.id = some run' := by
    rw [getRun, save, get_put_self]
    exact if_pos rfl
  have hwork : work'.id ≠ run.workId := by
    intro hsame
    exact hrun ((hpaired'.oneShot hkeyed').works _ _ _ _ hget' hsucceeded' hget h.succeeded
      (hworkId.symm.trans hsame))
  refine ⟨hrun, hwork, hget, h.succeeded, ?_, h.completed⟩
  rw [getWork, save, get_put_of_ne _ (by decide), save, get_put_self]
  exact (if_neg (Ne.symm hwork)).trans h.storedWork

theorem Paired.completed (h : Paired st) (hget : st.getRun id = some run)
    (hsucceeded : run.status = .succeeded) : ∃ work, Completed st id run work := by
  obtain ⟨work, hwork, hcompleted, -⟩ := h.run id run hget hsucceeded
  exact ⟨work, hget, hsucceeded, hwork, hcompleted⟩

end MemoryStore

namespace CompletionAuthority

/-- The call is for the Run or for its Work. -/
def Request.Concerns (q : Request) (id : String) (run : Run) : Prop :=
  q.run.id = id ∨ q.work.id = run.workId

/-- The call names the succeeded Run, its Work and its proofs. -/
structure Request.Repeats (q : Request) (id : String) (run : Run) : Prop where
  runId : q.run.id = id
  workId : q.work.id = run.workId
  bound : q.run.workId = q.work.id
  refs : proofRefs run.metadata = .ofStrings q.refs

/-- The request of a call that is under way. -/
def Phase.request? : Phase → Option Request
  | .called q | .readWork q _ | .readRun q _ _ | .unconsumed q _ _ | .proved q _ _ => some q
  | .idle | .returned _ _ => none

variable {id : String} {run : Run} {work : Work} {store : MemoryStore} {q : Request}

/-- A caller does not present an unknown Run as a success of a completed Work. -/
def Presented (store : MemoryStore) (q : Request) (work : Work) : Prop :=
  store.getRun q.run.id = none → q.run.status = .succeeded → work.status ≠ .completed

/-- What the next step of a call has to find: a call that reads an unknown Run is not given it as
a success of a completed Work, and an accepted commit finds its Run not succeeded yet. -/
def Phase.Finds (now : Time) (store : MemoryStore) : Phase → Prop
  | .readWork q work => Presented store q work
  | .proved q work run => (store.commitTerminal now work run q.refs).isOk = true →
      ∀ stored ∈ store.getRun run.id, stored.status ≠ .succeeded
  | _ => True

instance (store : MemoryStore) (q : Request) (work : Work) : Decidable (Presented store q work) :=
  inferInstanceAs (Decidable (_ → _ → _))

instance (now : Time) (store : MemoryStore) (phase : Phase) : Decidable (phase.Finds now store) :=
  match phase with
  | .readWork q work => inferInstanceAs (Decidable (Presented store q work))
  | .proved q work run => inferInstanceAs (Decidable
      ((store.commitTerminal now work run q.refs).isOk = true →
        ∀ stored ∈ store.getRun run.id, stored.status ≠ .succeeded))
  | .idle | .called _ | .readRun _ _ _ | .unconsumed _ _ _ | .returned _ _ => .isTrue trivial

/-- An answer from the store is the succeeded Run of the pair. -/
theorem stored_of_settle (hpair : store.Completed id run work) (hpaired : store.Paired)
    (hkeyed : store.Keyed) (hq : q.Concerns id run) {current : Work} {stored : Run}
    (hpresented : Presented store q current)
    (h : settle q current ((store.getRun q.run.id).getD q.run) = .ok (some stored)) :
    q.run.id = id ∧ stored = run := by
  obtain ⟨rfl, -, hworkId, hsucceeded, hcompleted, -⟩ := settle_eq_some.mp h
  have hid : q.run.id = id := by
    by_contra hne
    have hwork : q.work.id = run.workId := hq.resolve_left hne
    cases hget : store.getRun q.run.id with
    | none =>
      rw [hget] at hsucceeded
      exact hpresented hget hsucceeded hcompleted
    | some other =>
      rw [hget] at hsucceeded hworkId
      exact hne ((hpaired.oneShot hkeyed).works _ _ _ _ hget hsucceeded hpair.storedRun hpair.succeeded
        (hworkId.trans hwork))
  refine ⟨hid, ?_⟩
  rw [hid, hpair.storedRun]
  rfl

theorem items_of_proofRefs {refs : List String}
    (h : proofRefs run.metadata = .ofStrings refs) :
    (run.metadata.getOr "_completion_proof_refs" (.arr [])).items = .ok (refs.map .str) := by
  have hget : Fields.get? "_completion_proof_refs" run.metadata = some (.ofStrings refs) := by
    cases hget : Fields.get? "_completion_proof_refs" run.metadata with
    | none => simp [proofRefs, Fields.get, hget, Json.ofStrings] at h
    | some value =>
      rw [proofRefs, Fields.get, hget] at h
      exact congrArg some h
  rw [Fields.getOr, hget]
  rfl

/-- A call that repeats the completion is answered with the stored Run. -/
theorem settle_of_repeats (hpair : store.Completed id run work) (hkeyed : store.Keyed)
    (hq : q.Repeats id run) :
    settle q work ((store.getRun q.run.id).getD q.run) = .ok (some run) := by
  rw [hq.runId, hpair.storedRun]
  refine settle_eq_some.mpr ⟨rfl, ?_, hq.workId.symm, hpair.succeeded, hpair.completed,
    _, items_of_proofRefs hq.refs, Json.pyEq_ofStrings.mpr rfl⟩
  exact (hkeyed .work _ work hpair.storedWork).trans hq.workId.symm

/-- Any other call for the pair is refused. -/
theorem settle_of_not_repeats (hpair : store.Completed id run work) (hpaired : store.Paired)
    (hkeyed : store.Keyed) (hcheck : checkRequest q = .ok ()) (hq : q.Concerns id run)
    (hrepeats : ¬ q.Repeats id run) {current : Work}
    (hcurrent : q.work.id = run.workId → current = work) (hpresented : Presented store q current) :
    ∃ e, settle q current ((store.getRun q.run.id).getD q.run) = .error e := by
  cases h : settle q current ((store.getRun q.run.id).getD q.run) with
  | error e => exact ⟨e, rfl⟩
  | ok answer =>
    exfalso
    cases answer with
    | none =>
      obtain ⟨-, hworkId, hsucceeded, hcompleted⟩ := settle_eq_none h
      by_cases hid : q.run.id = id
      · rw [hid, hpair.storedRun] at hsucceeded
        exact hsucceeded hpair.succeeded
      · rw [hcurrent (hq.resolve_left hid)] at hcompleted
        exact hcompleted hpair.completed
    | some stored =>
      obtain ⟨hid, rfl⟩ := stored_of_settle hpair hpaired hkeyed hq hpresented h
      rw [hid, hpair.storedRun] at h
      obtain ⟨-, -, hworkId, -, -, existing, hexisting, hsame⟩ := settle_eq_some.mp h
      obtain ⟨refs, hrefs⟩ := hpaired.texts id stored hpair.storedRun hpair.succeeded
      have hitems : existing = refs.map .str :=
        Except.ok.inj (hexisting.symm.trans (items_of_proofRefs hrefs))
      rw [checkRequest, Result.check_eq_ok, Result.check_eq_ok, guardValue_eq_ok,
        guardValue_eq_ok, guardValue_eq_ok, decide_eq_true_eq, decide_eq_true_eq] at hcheck
      refine hrepeats ⟨hid, hworkId.symm, hcheck.2.2.symm, ?_⟩
      rw [hitems] at hsame
      rw [hrefs]
      exact Json.pyEq_ofStrings.mp hsame

end CompletionAuthority

/-! ## Steps of the system -/

namespace AuthorizingStore

open CompletionAuthority (authorize authorize_named authorize_store)

variable {digest : Json → String} {s : AuthorizingStore} {id : String} {run : Run} {work : Work}

/-- What the steps have to find. -/
def CommitsOnce (s : AuthorizingStore) : Move → Prop
  | .op o => s.store.PairsKept o
  | .call _ _ => True
  | .resume caller now => (s.phase caller).Finds now s.store

instance (s : AuthorizingStore) (caller : Nat) (now : Time) :
    Decidable (CommitsOnce s (.resume caller now)) :=
  inferInstanceAs (Decidable ((s.phase caller).Finds now s.store))

structure Sound (s : AuthorizingStore) : Prop where
  paired : s.store.Paired
  keyed : s.store.Keyed
  named : ∀ caller, (s.phase caller).Named

theorem phase_setPhase (s : AuthorizingStore) (caller caller' : Nat)
    (phase : CompletionAuthority.Phase) :
    (s.setPhase caller phase).phase caller' = if caller' = caller then phase else s.phase caller' := by
  simp [setPhase, Function.update_apply]

theorem phase_resume (s : AuthorizingStore) (caller caller' : Nat) (now : Time) :
    (s.step digest (.resume caller now)).phase caller' =
      if caller' = caller then (authorize now s.store (s.phase caller)).1 else s.phase caller' :=
  phase_setPhase s caller caller' _

theorem store_resume (s : AuthorizingStore) (caller : Nat) (now : Time) :
    (s.step digest (.resume caller now)).store = (authorize now s.store (s.phase caller)).2 := rfl

theorem store_call (s : AuthorizingStore) (caller : Nat) (q : CompletionAuthority.Request) :
    (s.step digest (.call caller q)).store = s.store := by
  rw [step]
  split <;> rfl

/-- Where the store is left alone or commits a pair, the pairs stay. -/
theorem Sound.resume (h : s.Sound) (caller : Nat) (now : Time) :
    (s.step digest (.resume caller now)).Sound := by
  have hstore : (s.step digest (.resume caller now)).store.Paired ∧
      (s.step digest (.resume caller now)).store.Keyed := by
    rw [store_resume]
    rcases authorize_store now s.store (s.phase caller) with
      hsame | ⟨q, work, run, store', -, hcommit, heq⟩
    · rw [hsame]
      exact ⟨h.paired, h.keyed⟩
    · rw [heq]
      have hcall : s.store.call digest now (.commitTerminal work run q.refs) = .ok store' := hcommit
      have haddressed : s.store.WellAddressed (now, .commitTerminal work run q.refs) := trivial
      exact ⟨(h.paired.commitTerminal h.keyed hcommit).1, h.keyed.call haddressed hcall⟩
  refine ⟨hstore.1, hstore.2, fun caller' => ?_⟩
  rw [phase_resume]
  split_ifs
  · exact authorize_named (h.named caller) h.keyed
  · exact h.named caller'

theorem Sound.step (m : Move) (h : s.Sound) (hC : s.CommitsOnce m) : (s.step digest m).Sound := by
  cases m with
  | op o =>
    have hstep : (s.store.step digest o).Paired ∧ (s.store.step digest o).Keyed :=
      h.paired.step h.keyed hC
    exact ⟨hstep.1, hstep.2, h.named⟩
  | call caller q =>
    refine ⟨by rw [store_call]; exact h.paired, by rw [store_call]; exact h.keyed,
      fun caller' => ?_⟩
    rw [AuthorizingStore.step]
    split_ifs
    · rw [phase_setPhase]
      split_ifs
      · trivial
      · exact h.named caller'
    · exact h.named caller'
  | resume caller now => exact h.resume caller now

/-- A step of a call keeps a completed pair, and the store if it concerns the pair. -/
theorem completed_resume (hpair : s.store.Completed id run work) (h : s.Sound) (caller : Nat)
    (now : Time) (hC : s.CommitsOnce (.resume caller now)) :
    (s.step digest (.resume caller now)).store.Completed id run work ∧
      ∀ q, (s.phase caller).request? = some q → q.Concerns id run →
        (s.step digest (.resume caller now)).store = s.store := by
  rw [store_resume]
  rcases authorize_store now s.store (s.phase caller) with
    hsame | ⟨q, work', run', store', hphase, hcommit, heq⟩
  · rw [hsame]
    exact ⟨hpair, fun _ _ _ => rfl⟩
  · rw [heq]
    rw [CommitsOnce, hphase] at hC
    have hnamed := h.named caller
    rw [hphase] at hnamed
    obtain ⟨hrun, hwork, hkept⟩ := hpair.commitTerminal h.paired h.keyed hcommit
      (hC (by rw [hcommit]; rfl))
    refine ⟨hkept, fun q' hrequest hq => ?_⟩
    obtain rfl : q = q' := by
      rw [hphase] at hrequest
      exact Option.some.inj hrequest
    exfalso
    rcases hq with hid | hid
    · exact hrun (hnamed.2.2.trans hid)
    · exact hwork (hnamed.1.trans hid)

/-- Outside other mutators a completed pair stays as it is. -/
theorem completed_step (m : Move) (hpair : s.store.Completed id run work) (h : s.Sound)
    (hC : s.CommitsOnce m) (hm : ∀ o, m ≠ .op o) : (s.step digest m).store.Completed id run work := by
  cases m with
  | op o => exact absurd rfl (hm o)
  | call caller q =>
    rw [store_call]
    exact hpair
  | resume caller now => exact (completed_resume hpair h caller now hC).1

/-! ## Answers -/

/-- The stored Run, or a refusal. -/
def Answer (run : Run) (answer : Result Run) : Prop := answer = .ok run ∨ ∃ e, answer = .error e

theorem answer_of_authorize (hpair : s.store.Completed id run work) (h : s.Sound) (caller : Nat)
    (now : Time) (hC : s.CommitsOnce (.resume caller now)) {q q' : CompletionAuthority.Request}
    {answer : Result Run} (hrequest : (s.phase caller).request? = some q') (hq : q.Concerns id run)
    (hanswer : (authorize now s.store (s.phase caller)).1 = .returned q answer) :
    Answer run answer := by
  have hnamed := h.named caller
  rw [CommitsOnce] at hC
  cases hphase : s.phase caller with
  | idle => simp [hphase, CompletionAuthority.Phase.request?] at hrequest
  | returned q answer => simp [hphase, CompletionAuthority.Phase.request?] at hrequest
  | called q₁ =>
    rw [hphase, authorize] at hanswer
    split at hanswer
    · cases hanswer
      exact .inr ⟨_, rfl⟩
    · cases hanswer
  | readWork q₁ current =>
    rw [hphase] at hC
    rw [hphase, authorize] at hanswer
    split at hanswer
    · cases hanswer
      exact .inr ⟨_, rfl⟩
    · rename_i stored hsettle
      cases hanswer
      left
      rw [(CompletionAuthority.stored_of_settle hpair h.paired h.keyed hq hC hsettle).2]
    · cases hanswer
  | readRun q₁ current run₁ =>
    rw [hphase, authorize] at hanswer
    split at hanswer
    · cases hanswer
      exact .inr ⟨_, rfl⟩
    · cases hanswer
  | unconsumed q₁ current run₁ =>
    rw [hphase, authorize] at hanswer
    split at hanswer
    · cases hanswer
      exact .inr ⟨_, rfl⟩
    · cases hanswer
  | proved q₁ current run₁ =>
    rw [hphase] at hC hnamed
    rw [hphase, authorize] at hanswer
    split at hanswer
    · cases hanswer
      exact .inr ⟨_, rfl⟩
    · rename_i store' hcommit
      cases hanswer
      obtain ⟨hrun, hwork, -⟩ := hpair.commitTerminal h.paired h.keyed hcommit
        (hC (by rw [hcommit]; rfl))
      rcases hq with hid | hid
      · exact absurd (hnamed.2.2.trans hid) hrun
      · exact absurd (hnamed.1.trans hid) hwork

/-- How far a call has come that began after the pair was completed. -/
def Progress (id : String) (run : Run) (work : Work) (q : CompletionAuthority.Request) :
    Nat → CompletionAuthority.Phase → Prop
  | 0, phase => phase = .called q
  | 1, phase =>
    (∃ current, phase = .readWork q current ∧ CompletionAuthority.checkRequest q = .ok () ∧
      (q.work.id = run.workId → current = work)) ∨
    (∃ e, phase = .returned q (.error e) ∧ ¬ q.Repeats id run)
  | _, phase => ∃ answer, phase = .returned q answer ∧
      (q.Repeats id run → answer = .ok run) ∧ (¬ q.Repeats id run → ∃ e, answer = .error e)

/-- The proofs of a succeeded Run pass the checks of a request that repeats them. -/
theorem checkRequest_of_repeats (hpair : s.store.Completed id run work) (h : s.store.Paired)
    {q : CompletionAuthority.Request} (hq : q.Repeats id run) :
    CompletionAuthority.checkRequest q = .ok () := by
  obtain ⟨_, -, -, -, coverage, hproof⟩ := h.run id run hpair.storedRun hpair.succeeded
  have htexts : proofRefTexts run.metadata = q.refs := by
    rw [proofRefTexts, hq.refs]
    show (q.refs.map Json.str).map Json.pyStr = q.refs
    rw [List.map_map]
    exact List.map_id' q.refs
  have hfilter : q.refs.filter Text.nonBlank = q.refs := by
    rw [CompletionAuthority.Request.refs, List.filter_filter]
    simp
  rw [CompletionAuthority.validateProofInvariant, htexts, hfilter, Result.check_eq_ok,
    Result.check_eq_ok] at hproof
  rw [CompletionAuthority.checkRequest, Result.check_eq_ok, Result.check_eq_ok]
  refine ⟨hproof.1, hproof.2.1, ?_⟩
  rw [guardValue_eq_ok, decide_eq_true_eq]
  exact hq.bound.symm

theorem progress_resume (hpair : s.store.Completed id run work) (h : s.Sound) {caller : Nat}
    {now : Time} (hC : s.CommitsOnce (.resume caller now)) {q : CompletionAuthority.Request}
    (hq : q.Concerns id run) {k : Nat} (hprogress : Progress id run work q k (s.phase caller)) :
    Progress id run work q (k + 1) (authorize now s.store (s.phase caller)).1 := by
  match k, hprogress with
  | 0, hphase =>
    rw [show s.phase caller = .called q from hphase, authorize]
    cases hcheck : CompletionAuthority.checkRequest q with
    | error e =>
      refine .inr ⟨e, rfl, fun hrepeats => ?_⟩
      rw [checkRequest_of_repeats hpair h.paired hrepeats] at hcheck
      cases hcheck
    | ok _ =>
      refine .inl ⟨_, rfl, hcheck, fun hwork => ?_⟩
      rw [hwork, hpair.storedWork]
      rfl
  | 1, .inl ⟨current, hphase, hcheck, hcurrent⟩ =>
    rw [CommitsOnce, hphase] at hC
    rw [hphase, authorize]
    by_cases hrepeats : q.Repeats id run
    · have hsettle := CompletionAuthority.settle_of_repeats hpair h.keyed hrepeats
      rw [hcurrent hrepeats.workId]
      simp only [hsettle]
      exact ⟨_, rfl, fun _ => rfl, fun hnot => absurd hrepeats hnot⟩
    · obtain ⟨e, hsettle⟩ := CompletionAuthority.settle_of_not_repeats hpair h.paired h.keyed
        hcheck hq hrepeats hcurrent hC
      simp only [hsettle]
      exact ⟨_, rfl, fun hr => absurd hr hrepeats, fun _ => ⟨e, rfl⟩⟩
  | 1, .inr ⟨e, hphase, hrepeats⟩ =>
    rw [hphase]
    exact ⟨_, rfl, fun hr => absurd hr hrepeats, fun _ => ⟨e, rfl⟩⟩
  | _ + 2, ⟨answer, hphase, hanswer⟩ =>
    rw [hphase]
    exact ⟨answer, rfl, hanswer⟩

/-! ## Runs -/

def Move.resumes (caller : Nat) : Move → Bool
  | .resume caller' _ => caller' == caller
  | _ => false

/-- The moves are of calls only. -/
def CallsOnly (moves : List Move) : Prop := ∀ m ∈ moves, ∀ o, m ≠ .op o

/-- What a succeeded Run and its completed Work are to all further calls. -/
structure Irrevocable (digest : Json → String) (s : AuthorizingStore) (more : List Move)
    (id : String) (run : Run) (work : Work) : Prop where
  settled : s.store.Completed id run work
  kept : (PortableRuntime.run (step digest) s more).store.Completed id run work
  untouched : ∀ before caller now q, before ++ [.resume caller now] <+: more →
    ((PortableRuntime.run (step digest) s before).phase caller).request? = some q →
    q.Concerns id run →
    (PortableRuntime.run (step digest) s (before ++ [.resume caller now])).store =
      (PortableRuntime.run (step digest) s before).store
  answered : ∀ caller q answer, (∀ q a, s.phase caller ≠ .returned q a) →
    (PortableRuntime.run (step digest) s more).phase caller = .returned q answer →
    q.Concerns id run → Answer run answer
  repeated : ∀ caller q, s.phase caller = .called q → q.Concerns id run →
    (∀ q', Move.call caller q' ∉ more) → 2 ≤ more.countP (Move.resumes caller) →
    ∃ answer, (PortableRuntime.run (step digest) s more).phase caller = .returned q answer ∧
      (q.Repeats id run → answer = .ok run) ∧ (¬ q.Repeats id run → ∃ e, answer = .error e)

/-- Along calls alone the system stays sound and the pair completed. -/
theorem kept_along {more : List Move} (hpair : s.store.Completed id run work) (h : s.Sound)
    (hC : Along (step digest) CommitsOnce s more) (hcalls : CallsOnly more) :
    (PortableRuntime.run (step digest) s more).store.Completed id run work ∧
      (PortableRuntime.run (step digest) s more).Sound := by
  induction more generalizing s with
  | nil => exact ⟨hpair, h⟩
  | cons m rest ih =>
    exact ih (completed_step m hpair h hC.1 (hcalls m List.mem_cons_self)) (h.step m hC.1) hC.2
      (fun m' hm' => hcalls m' (List.mem_cons_of_mem _ hm'))

/-- A call that has not returned is answered with the stored Run, or refused. -/
theorem answered_along {more : List Move} (hpair : s.store.Completed id run work) (h : s.Sound)
    (hC : Along (step digest) CommitsOnce s more) (hcalls : CallsOnly more) {caller : Nat}
    (hphase : ∀ q a, s.phase caller = .returned q a → q.Concerns id run → Answer run a)
    {q : CompletionAuthority.Request} {answer : Result Run}
    (hanswer : (PortableRuntime.run (step digest) s more).phase caller = .returned q answer)
    (hq : q.Concerns id run) : Answer run answer := by
  induction more generalizing s with
  | nil => exact hphase q answer hanswer hq
  | cons m rest ih =>
    have hop := hcalls m List.mem_cons_self
    refine ih (completed_step m hpair h hC.1 hop) (h.step m hC.1) hC.2
      (fun m' hm' => hcalls m' (List.mem_cons_of_mem _ hm')) ?_ hanswer
    intro q' a hreturned hq'
    cases m with
    | op o => exact absurd rfl (hop o)
    | call caller' q₁ =>
      rw [step] at hreturned
      split_ifs at hreturned
      · rw [phase_setPhase] at hreturned
        split_ifs at hreturned
        exact hphase q' a hreturned hq'
      · exact hphase q' a hreturned hq'
    | resume caller' now =>
      rw [phase_resume] at hreturned
      split_ifs at hreturned with hsame
      · subst hsame
        cases hrequest : (s.phase caller).request? with
        | some q₁ => exact answer_of_authorize hpair h caller now hC.1 hrequest hq' hreturned
        | none =>
          -- A caller without a call under way takes no step.
          refine hphase q' a ?_ hq'
          cases hp : s.phase caller with
          | idle => simp [hp, authorize] at hreturned
          | returned q₂ a₂ => simpa [hp, authorize] using hreturned
          | _ => simp [hp, CompletionAuthority.Phase.request?] at hrequest
      · exact hphase q' a hreturned hq'

/-- Every step of the caller brings its call forward, and no other step touches it. -/
theorem progress_along {more : List Move} (hpair : s.store.Completed id run work) (h : s.Sound)
    (hC : Along (step digest) CommitsOnce s more) (hcalls : CallsOnly more) {caller : Nat}
    (hcall : ∀ q', Move.call caller q' ∉ more) {q : CompletionAuthority.Request}
    (hq : q.Concerns id run) {k : Nat} (hprogress : Progress id run work q k (s.phase caller)) :
    Progress id run work q (k + more.countP (Move.resumes caller))
      ((PortableRuntime.run (step digest) s more).phase caller) := by
  induction more generalizing s k with
  | nil => exact hprogress
  | cons m rest ih =>
    have hop := hcalls m List.mem_cons_self
    have hrest (n : Nat) := ih (s := s.step digest m) (k := n) (completed_step m hpair h hC.1 hop) (h.step m hC.1)
      hC.2 (fun m' hm' => hcalls m' (List.mem_cons_of_mem _ hm'))
      (fun q' hmem => hcall q' (List.mem_cons_of_mem _ hmem))
    rw [run_cons]
    cases m with
    | op o => exact absurd rfl (hop o)
    | call caller' q₁ =>
      have hne : caller ≠ caller' := by
        rintro rfl
        exact hcall q₁ List.mem_cons_self
      rw [List.countP_cons_of_neg (by simp [Move.resumes])]
      refine hrest k ?_
      rw [step]
      split_ifs
      · rw [phase_setPhase, if_neg hne]
        exact hprogress
      · exact hprogress
    | resume caller' now =>
      by_cases hsame : caller' = caller
      · subst hsame
        rw [List.countP_cons_of_pos (by simp [Move.resumes]), Nat.add_comm _ 1, ← Nat.add_assoc]
        refine hrest (k + 1) ?_
        rw [phase_resume, if_pos rfl]
        exact progress_resume hpair h hC.1 hq hprogress
      · rw [List.countP_cons_of_neg (by simpa [Move.resumes] using hsame)]
        refine hrest k ?_
        rw [phase_resume, if_neg (Ne.symm hsame)]
        exact hprogress

theorem sound_init : ({} : AuthorizingStore).Sound :=
  ⟨MemoryStore.paired_empty, MemoryStore.keyed_empty, fun _ => trivial⟩

/-- In every run of calls and other mutators whose steps find what they have to find, each proof
is consumed by one succeeded Run and each Work has one; what is succeeded in a state stays so
through all further calls, which it answers or refuses. -/
theorem completion_one_shot (digest : Json → String) (moves more : List Move)
    (hC : Along (step digest) CommitsOnce {} (moves ++ more)) (hcalls : CallsOnly more) :
    (PortableRuntime.run (step digest) {} (moves ++ more)).store.OneShot ∧
      ∀ id run, (PortableRuntime.run (step digest) {} moves).store.getRun id = some run →
        run.status = .succeeded → ∃ work, Irrevocable digest
          (PortableRuntime.run (step digest) {} moves) more id run work := by
  obtain ⟨hmoves, hmore⟩ := along_append.mp hC
  have hsound : (PortableRuntime.run (step digest) {} moves).Sound :=
    run_invariant (I := Sound) (fun s m h hm => h.step m hm) sound_init hmoves
  refine ⟨?_, fun id run hget hsucceeded => ?_⟩
  · have h := run_invariant (I := Sound) (fun s m h hm => h.step m hm) sound_init hC
    exact h.paired.oneShot h.keyed
  · obtain ⟨work, hpair⟩ := hsound.paired.completed hget hsucceeded
    refine ⟨work, hpair, (kept_along hpair hsound hmore hcalls).1, ?_, ?_, ?_⟩
    · intro before caller now q hprefix hrequest hq
      obtain ⟨rest, rfl⟩ := hprefix
      have hbefore := (along_append.mp (along_append.mp hmore).1)
      obtain ⟨hkept, hsound'⟩ := kept_along hpair hsound hbefore.1 (fun m hm => hcalls m (by
        rw [List.append_assoc]
        exact List.mem_append_left _ hm))
      rw [run_append, run_cons, run_nil]
      exact (completed_resume hkept hsound' caller now hbefore.2.1).2 q hrequest hq
    · intro caller q answer hopen hanswer hq
      exact answered_along hpair hsound hmore hcalls
        (fun q' a hreturned => absurd hreturned (hopen q' a)) hanswer hq
    · intro caller q hcalled hq hcall htwo
      have hprogress := progress_along hpair hsound hmore hcalls hcall hq (k := 0) hcalled
      obtain ⟨n, hn⟩ := Nat.exists_eq_add_of_le htwo
      rw [Nat.zero_add, hn, Nat.add_comm] at hprogress
      exact hprogress

/-! ## A repeated call, and a second commit -/

open MemoryStore (openWork activeRun boundProof)

/-- A call for the open Work and its Run. -/
def completeWith (refs : List String) : CompletionAuthority.Request :=
  { work := openWork, run := activeRun, verificationRefs := refs }

def opening : List Move :=
  [.op (1, .save .work openWork), .op (1, .save .run activeRun), .op (1, .save .record boundProof),
   .op (1, .save .record { boundProof with id := "record_2" })]

theorem pairsKept_save {st : MemoryStore} {now : Time} {k : Kind} {v : Model k} :
    st.PairsKept (now, .save k v) := ⟨trivial, by simp⟩

/-- One call completes the Run, and a second one for the same proof begins. -/
def completedOnce : List Move :=
  opening ++ [.call 0 (completeWith ["record_1"]), .resume 0 2, .resume 0 2, .resume 0 2,
    .resume 0 2, .resume 0 2, .call 1 (completeWith ["record_1"])]

def repeating : List Move := [.resume 1 3, .resume 1 3]

theorem completion_one_shot_repeating :
    ∃ run answer, (PortableRuntime.run (step (fun _ => "")) {} completedOnce).store.getRun "run_1" =
        some run ∧ run.status = .succeeded ∧
      (PortableRuntime.run (step (fun _ => "")) {} (completedOnce ++ repeating)).phase 1 =
        .returned (completeWith ["record_1"]) answer ∧ answer = .ok run := by
  have hcompletes : ((PortableRuntime.run (step (fun _ => "")) {} completedOnce).store.getRun
      "run_1").map (fun run => (run.status, run.workId, proofRefs run.metadata)) =
        some (.succeeded, "work_1", .ofStrings ["record_1"]) := by
    decide
  obtain ⟨run, hrun, hfields⟩ := Option.map_eq_some_iff.mp hcompletes
  simp only [Prod.mk.injEq] at hfields
  obtain ⟨hsucceeded, hworkId, hproofs⟩ := hfields
  obtain ⟨-, hirrevocable⟩ := completion_one_shot (fun _ => "") completedOnce repeating
    ⟨pairsKept_save, pairsKept_save, pairsKept_save, pairsKept_save, trivial, by decide,
      by decide, by decide, by decide, by decide, trivial,
      by decide, by decide, trivial⟩ (by simp [CallsOnly, repeating])
  obtain ⟨work, h⟩ := hirrevocable "run_1" run hrun hsucceeded
  obtain ⟨answer, hreturned, hanswer, -⟩ := h.repeated 1 (completeWith ["record_1"]) rfl (.inl rfl)
    (by simp [repeating]) (by decide)
  rw [← run_append] at hreturned
  have hrefs : (completeWith ["record_1"]).refs = ["record_1"] := by decide
  refine ⟨run, answer, hrun, hsucceeded, hreturned, hanswer ⟨rfl, hworkId.symm, rfl, ?_⟩⟩
  rw [hproofs, hrefs]

/-- Two calls for one Run, each with a proof of its own, have both passed their checks. -/
def bothProved : List Move :=
  opening ++ [.call 0 (completeWith ["record_1"]), .call 1 (completeWith ["record_2"]),
    .resume 0 2, .resume 1 2, .resume 0 2, .resume 1 2, .resume 0 2, .resume 1 2, .resume 0 2,
    .resume 1 2, .resume 0 2]

/-- The second of two calls completes the Run again, with its own proof. -/
theorem second_commit_replaces_proofs :
    ¬ ∀ (digest : Json → String) (moves more : List Move), CallsOnly more →
      ∀ id run, (PortableRuntime.run (step digest) {} moves).store.getRun id = some run →
        run.status = .succeeded →
        (PortableRuntime.run (step digest) {} (moves ++ more)).store.getRun id = some run := by
  intro h
  have hfirst : ((PortableRuntime.run (step (fun _ => "")) {} bothProved).store.getRun
      "run_1").map (fun run => (run.status, proofRefTexts run.metadata)) =
        some (.succeeded, ["record_1"]) := by
    decide
  have hsecond : ((PortableRuntime.run (step (fun _ => "")) {} (bothProved ++ [.resume 1 3])).store.getRun
      "run_1").map (fun run => (run.status, proofRefTexts run.metadata)) =
        some (.succeeded, ["record_2"]) := by
    decide
  obtain ⟨run, hrun, hfields⟩ := Option.map_eq_some_iff.mp hfirst
  have hkept := h (fun _ => "") bothProved [.resume 1 3] (by simp [CallsOnly]) "run_1" run hrun
    (Prod.mk.inj hfields).1
  rw [hkept, Option.map_some, hfields] at hsecond
  exact absurd hsecond (by decide)

end AuthorizingStore

end PortableRuntime
