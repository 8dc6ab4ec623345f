import PortableRuntime.Stores.VerifiedRuns

/-!
# The commit of a verified outcome, call by call

The commit writes the outcome and then its events, inside a transaction: what a failed call has
written is taken back.  A call that finds its outcome writes nothing and compares it and its
events with what it would have written.
-/

namespace PortableRuntime

namespace MemoryStore

/-! ## The method and its transaction -/

/-- What a method leaves: what it returns or raises, and the store, also where it raises. -/
abbrev Left (α : Type) := Result α × MemoryStore

/-- `with self.transaction()`. -/
def inTransaction {α : Type} (st : MemoryStore) (body : MemoryStore → Left α) : Left α :=
  match body st with
  | (.ok a, st') => (.ok a, st')
  | (.error e, _) => (.error e, st)

/-- Append events one by one, up to one that is refused. -/
def appendEach (st : MemoryStore) : List Event → Left Unit
  | [] => (.ok (), st)
  | event :: rest =>
    match st.appendEventAs none event with
    | .ok st' => st'.appendEach rest
    | .error e => (.error e, st)

def verifiedOutcomeBody (digest : Json → String) (now : Time)
    (request : VerifiedOutcomeCommitRequest) (st : MemoryStore) : Left BaseRecord :=
  match prepareVerifiedOutcomeCommit digest now st.reader request with
  | .error e => (.error e, st)
  | .ok prepared =>
    match st.getRecord prepared.outcome.id with
    | some existing => ((st.replayVerifiedOutcome prepared existing).map (fun _ => existing), st)
    | none =>
      match (st.save .record prepared.outcome).appendEach prepared.events with
      | (.ok (), st') => (.ok prepared.outcome, st')
      | (.error e, st') => (.error e, st')

/-- `commit_verified_outcome`. -/
def returnVerifiedOutcome (digest : Json → String) (now : Time) (st : MemoryStore)
    (request : VerifiedOutcomeCommitRequest) : Left BaseRecord :=
  st.inTransaction (verifiedOutcomeBody digest now request)

section Spec

variable {digest : Json → String} {now : Time} {st st' : MemoryStore}
  {request : VerifiedOutcomeCommitRequest} {o : BaseRecord}

theorem inTransaction_eq_ok {α : Type} {body : MemoryStore → Left α} {a : α} :
    st.inTransaction body = (.ok a, st') ↔ body st = (.ok a, st') := by
  unfold inTransaction
  cases hbody : body st with
  | mk x st₁ => cases x <;> simp

/-- A call that raises takes back what it has written. -/
theorem inTransaction_error {α : Type} {body : MemoryStore → Left α} {e : PyError}
    (h : st.inTransaction body = (.error e, st')) : st' = st := by
  unfold inTransaction at h
  cases hbody : body st with
  | mk x st₁ => cases x <;> simp_all

theorem appendEach_eq_ok {events : List Event} :
    st.appendEach events = (.ok (), st') ↔ st.appendEvents none events = .ok st' := by
  induction events generalizing st with
  | nil => simp [appendEach, appendEvents]
  | cons event rest ih =>
    rw [appendEach, appendEvents]
    cases st.appendEventAs none event with
    | ok st₁ => exact ih
    | error e => simp [bind, Except.bind]

theorem replayVerifiedOutcome_eq_self {prepared : PreparedVerifiedOutcomeCommit}
    (h : st.replayVerifiedOutcome prepared o = .ok st') : st' = st := by
  simp only [replayVerifiedOutcome, Result.check_eq_ok, Result.pure_eq_ok] at h
  exact h.2.2.2.symm

/-- A call finds its outcome and its events, or writes them. -/
theorem returnVerifiedOutcome_eq_ok :
    st.returnVerifiedOutcome digest now request = (.ok o, st') ↔
      ∃ prepared, prepareVerifiedOutcomeCommit digest now st.reader request = .ok prepared ∧
        ((st.getRecord prepared.outcome.id = some o ∧
            st.replayVerifiedOutcome prepared o = .ok st ∧ st' = st) ∨
          (st.getRecord prepared.outcome.id = none ∧
            (st.save .record prepared.outcome).appendEvents none prepared.events = .ok st' ∧
            o = prepared.outcome)) := by
  rw [returnVerifiedOutcome, inTransaction_eq_ok, verifiedOutcomeBody]
  cases hprepare : prepareVerifiedOutcomeCommit digest now st.reader request with
  | error e => simp
  | ok prepared =>
    simp only [Except.ok.injEq, exists_eq_left']
    cases hget : st.getRecord prepared.outcome.id with
    | some existing =>
      cases hreplay : st.replayVerifiedOutcome prepared existing with
      | error e =>
        constructor
        · intro h
          exact absurd (Prod.mk.inj h).1 (by simp [Except.map, hreplay])
        · rintro (⟨hfound, hokay, -⟩ | ⟨hnone, -⟩)
          · rw [← Option.some.inj hfound, hreplay] at hokay
            exact absurd hokay (by simp)
          · exact absurd hnone (by simp)
      | ok st₁ =>
        obtain rfl := replayVerifiedOutcome_eq_self hreplay
        constructor
        · intro h
          obtain ⟨hreturned, hstore⟩ := Prod.mk.inj h
          obtain rfl : existing = o := by simpa [Except.map, hreplay] using hreturned
          exact .inl ⟨rfl, hreplay, hstore.symm⟩
        · rintro (⟨hfound, -, rfl⟩ | ⟨hnone, -⟩)
          · obtain rfl := Option.some.inj hfound
            show ((st'.replayVerifiedOutcome prepared existing).map fun _ => existing, st') = _
            rw [hreplay]
            rfl
          · exact absurd hnone (by simp)
    | none =>
      cases happend : (st.save .record prepared.outcome).appendEach prepared.events with
      | mk returned left =>
        cases returned with
        | error e =>
          have hraised : (st.save .record prepared.outcome).appendEvents none prepared.events ≠
              .ok st' := by
            intro h
            rw [appendEach_eq_ok.mpr h] at happend
            exact absurd happend (by simp)
          simp [hraised]
        | ok u =>
          have hwritten := appendEach_eq_ok.mp happend
          simp only [hwritten, Except.ok.injEq, Prod.mk.injEq, reduceCtorEq, false_and, true_and,
            false_or]
          exact ⟨fun h => ⟨h.2, h.1.symm⟩, fun h => ⟨h.2.symm, h.1⟩⟩

/-- The method changes the store as a call of the store does. -/
theorem returnVerifiedOutcome_store : (st.returnVerifiedOutcome digest now request).2 =
    st.step digest (now, .commitVerifiedOutcome request) := by
  cases hleft : st.returnVerifiedOutcome digest now request with
  | mk returned st' =>
    cases returned with
    | ok o =>
      obtain ⟨prepared, hprepare, ⟨hfound, hreplay, rfl⟩ | ⟨hnone, happend, rfl⟩⟩ :=
        returnVerifiedOutcome_eq_ok.mp hleft
      · simp only [step, call, commitVerifiedOutcome, hprepare, bind, Except.bind, hfound, hreplay]
      · simp only [step, call, commitVerifiedOutcome, hprepare, bind, Except.bind, hnone, happend]
    | error e =>
      obtain rfl := inTransaction_error hleft
      cases hcall : st'.commitVerifiedOutcome digest now request with
      | error e' => simp [step, call, hcall]
      | ok st₁ =>
        obtain ⟨prepared, hprepare, rfl | ⟨hnone, happend⟩⟩ := commitVerifiedOutcome_eq_ok hcall
        · simp [step, call, hcall]
        · have hwritten := returnVerifiedOutcome_eq_ok.mpr
            ⟨prepared, hprepare, .inr ⟨hnone, happend, rfl⟩⟩
          exact absurd (hleft.symm.trans hwritten) (by simp)

/-! ## What a call adds -/

/-- The first commit of an outcome adds one confirmed outcome, and those of its two events that
the journal does not have yet. -/
structure Added (st st' : MemoryStore) (o : BaseRecord) : Prop where
  outcome : o.cls = .outcomeRecord ∧ o.recordType = .outcome ∧ o.lifecycleStatus = .confirmed
  records : (st'.records .record).values = (st.records .record).values ++ [o]
  events : ∃ accepted confirmed : Event, accepted.type = "ObjectiveVerificationAccepted" ∧
    confirmed.type = "OutcomeConfirmed" ∧ accepted.subjectRef = o.id ∧
    confirmed.subjectRef = o.id ∧ accepted.id ≠ confirmed.id ∧
    (st'.records .event).values = (st.records .event).values ++
      [accepted, confirmed].filter (fun e => (st.getEvent e.id).isNone) ∧
    ∀ e ∈ [accepted, confirmed], ∃ stored, st'.getEvent e.id = some stored ∧
      sameVerifiedOutcomeSemantics stored.dump e.dump = true
  others : ∀ k, k ≠ .record → k ≠ .event → st'.records k = st.records k
  leases : st'.leases = st.leases

theorem values_save_of_fresh {k : Kind} {v : Model k} (hfresh : st.get k (k.identifier v) = none) :
    ((st.save k v).records k).values = (st.records k).values ++ [v] := by
  rw [save, records_put_self, Dict.values, Dict.entries_set_of_not_mem hfresh]
  simp [Dict.values]

/-- An append puts the events at the end of the journal that it does not have yet. -/
theorem values_appendEvents {authority : Option CommitAuthority} {events : List Event}
    (hids : (events.map (fun e => e.id)).Nodup) (happend : st.appendEvents authority events = .ok st') :
    (st'.records .event).values = (st.records .event).values ++
      events.filter (fun e => (st.getEvent e.id).isNone) := by
  induction events generalizing st with
  | nil =>
    obtain rfl := Except.ok.inj happend
    exact (List.append_nil _).symm
  | cons e rest ih =>
    obtain ⟨st₁, hstep, hrest⟩ := Result.bind_eq_ok.mp happend
    obtain ⟨hnotin, hids⟩ := List.nodup_cons.mp hids
    have htail := ih hids hrest
    rcases appendEventAs_eq_ok hstep with ⟨existing, hget, -, rfl⟩ | ⟨hnew, rfl⟩
    · rw [htail, List.filter_cons_of_neg (by simp [hget])]
    · have hothers : rest.filter (fun e' => ((st.save .event e).getEvent e'.id).isNone) =
          rest.filter (fun e' => (st.getEvent e'.id).isNone) := by
        apply List.filter_congr
        intro e' he'
        rw [getEvent_save_of_ne]
        intro hid
        exact hnotin (List.mem_map.mpr ⟨e', he', hid⟩)
      rw [htail, hothers, List.filter_cons_of_pos (by simp [hnew]),
        values_save_of_fresh (k := .event) hnew, List.append_assoc]
      rfl

theorem leases_appendEvents {authority : Option CommitAuthority} {events : List Event}
    (happend : st.appendEvents authority events = .ok st') : st'.leases = st.leases := by
  refine appendEvents_induction (P := fun s => s.leases = st.leases) ?_ rfl happend
  intro s s' e _ hs hstep
  rcases appendEventAs_eq_ok hstep with ⟨-, -, -, rfl⟩ | ⟨-, rfl⟩
  · exact hs
  · exact hs

theorem distinct_of_prepared {reader : VerifiedOutcomeStoreReader}
    {p : PreparedVerifiedOutcomeCommit}
    (hprepared : prepareVerifiedOutcomeCommit digest now reader request = .ok p) :
    p.accepted.id ≠ p.confirmed.id := by
  obtain ⟨suffix, -, hids⟩ := ids_of_prepared hprepared
  simp only [PreparedVerifiedOutcomeCommit.events, List.map_cons, List.map_nil,
    List.cons.injEq, and_true] at hids
  rw [hids.1, hids.2]
  intro hsame
  have hchars := congrArg String.toList hsame
  rw [String.toList_append, String.toList_append] at hchars
  simp at hchars

theorem added_of_prepared {p : PreparedVerifiedOutcomeCommit}
    (hprepared : prepareVerifiedOutcomeCommit digest now st.reader request = .ok p)
    (hfresh : st.getRecord p.outcome.id = none)
    (happend : (st.save .record p.outcome).appendEvents none p.events = .ok st') :
    Added st st' p.outcome := by
  have hcommitted := committed_of_appendEvents hfresh happend
  have hdistinct := distinct_of_prepared hprepared
  have hevents : (st.save .record p.outcome).getEvent = st.getEvent := by
    funext id
    rw [getEvent, save, get_put_of_ne st (by decide)]
    rfl
  obtain ⟨d, rfl⟩ := prepare_eq_ok.mp hprepared
  refine ⟨⟨rfl, rfl, rfl⟩, ?_, ⟨_, _, rfl, rfl, rfl, rfl, hdistinct, ?_, hcommitted.present⟩,
    fun k hrecord hevent => ?_, (leases_appendEvents happend).trans rfl⟩
  · rw [appendEvents_records happend (by decide)]
    exact values_save_of_fresh (k := .record) hfresh
  · have hids : ((d.facts digest now).events.map (fun e => e.id)).Nodup := by
      simpa [PreparedVerifiedOutcomeCommit.events] using hdistinct
    have hvalues := values_appendEvents hids happend
    rw [hevents, save, records_put_of_ne st (by decide)] at hvalues
    exact hvalues
  · rw [appendEvents_records happend hevent, save, records_put_of_ne st hrecord]

/-! ## The call made again -/

/-- The request with its references and versions in another order. -/
def reordered (request : VerifiedOutcomeCommitRequest) (evidenceRefs versions : List String) :
    VerifiedOutcomeCommitRequest :=
  { request with evidenceRefs := evidenceRefs, subjectVersionRefs := versions }

theorem prepare_reordered {reader : VerifiedOutcomeStoreReader} {evidenceRefs versions : List String}
    (hevidence : evidenceRefs.Perm request.evidenceRefs)
    (hversions : versions.Perm request.subjectVersionRefs) :
    prepareVerifiedOutcomeCommit digest now reader (reordered request evidenceRefs versions) =
      prepareVerifiedOutcomeCommit digest now reader request := by
  have hrefs := Text.normalized_perm hevidence
  have hsubject := Text.normalized_perm hversions
  simp only [Text.normalized] at hrefs hsubject
  simp only [prepareVerifiedOutcomeCommit, reordered, hrefs, hsubject, hevidence.length_eq]

/-- The objects that the request is bound to are as they were. -/
structure BoundUnchanged (st st' : MemoryStore) (request : VerifiedOutcomeCommitRequest) :
    Prop where
  action : st'.get .action request.actionRef = st.get .action request.actionRef
  attempt : st'.get .attempt request.expectedAttemptRef = st.get .attempt request.expectedAttemptRef
  step : ∀ attempt : StepAttempt, st.get .attempt request.expectedAttemptRef = some attempt →
    st'.get .step attempt.stepId = st.get .step attempt.stepId
  run : st'.getRun request.expectedRunId = st.getRun request.expectedRunId
  work : st'.getWork request.expectedWorkId = st.getWork request.expectedWorkId
  evidence : ∀ ref ∈ Text.normalized request.evidenceRefs, ∀ r, st.getRecord ref = some r →
    st'.getRecord ref = some r

/-- The outcome and its events are as they were. -/
structure OutcomeKept (st st' : MemoryStore) (o : BaseRecord) : Prop where
  outcome : st'.getRecord o.id = st.getRecord o.id
  events : ∀ id e, st.getEvent id = some e → e.subjectRef = o.id → st'.getEvent id = some e

theorem BoundUnchanged.agree (h : BoundUnchanged st st' request) :
    Agree st.reader st'.reader request where
  action a ha := ⟨a, h.action.trans ha, Kind.sameBinding_refl .action a⟩
  attempt a ha := ⟨a, h.attempt.trans ha, Kind.sameBinding_refl .attempt a⟩
  step a ha s hs := ⟨s, (h.step a ha).trans hs, Kind.sameBinding_refl .step s⟩
  run r hr := ⟨r, h.run.trans hr, Kind.sameBinding_refl .run r⟩
  work w hw := ⟨w, h.work.trans hw, Kind.sameBinding_refl .work w⟩
  record ref hmem r hr _ := ⟨r, h.evidence ref hmem r hr, Kind.sameBinding_refl .record r⟩

theorem id_of_sameSemantics {r r' : BaseRecord}
    (h : sameVerifiedOutcomeSemantics r.dump r'.dump = true) : r.id = r'.id := by
  have hget (r : BaseRecord) : Fields.get? "id" (Fields.pop r.dump "created_at") =
      some (.str r.id) := by
    simp [BaseRecord.dump, Fields.pop, Fields.get?]
  exact Json.str.inj (Json.pyEq_str.mp (Json.pyEq_get "id" h (hget r) (hget r')))

theorem replayVerifiedOutcome_eq_ok {prepared : PreparedVerifiedOutcomeCommit} :
    st.replayVerifiedOutcome prepared o = .ok st ↔
      sameVerifiedOutcomeSemantics o.dump prepared.outcome.dump = true ∧
        (∀ e ∈ prepared.events, ∃ stored, st.getEvent e.id = some stored ∧
          sameVerifiedOutcomeSemantics stored.dump e.dump = true) ∧ o.cls = .outcomeRecord := by
  rw [replayVerifiedOutcome, Result.check_eq_ok, Result.check_eq_ok, Result.check_eq_ok]
  simp [Result.pure_eq_ok, guardValue_eq_ok, Option.any_eq_true]

/-- What a call that returned leaves: the outcome it returned, and its events. -/
structure Stands (st : MemoryStore) (prepared : PreparedVerifiedOutcomeCommit) (o : BaseRecord) :
    Prop where
  found : st.getRecord prepared.outcome.id = some o
  replays : st.replayVerifiedOutcome prepared o = .ok st

theorem exists_stands (h : st.returnVerifiedOutcome digest now request = (.ok o, st')) :
    ∃ prepared, prepareVerifiedOutcomeCommit digest now st.reader request = .ok prepared ∧
      Stands st' prepared o := by
  obtain ⟨prepared, hprepare, ⟨hfound, hreplay, rfl⟩ | ⟨hfresh, happend, rfl⟩⟩ :=
    returnVerifiedOutcome_eq_ok.mp h
  · exact ⟨prepared, hprepare, hfound, hreplay⟩
  · have hcommitted := committed_of_appendEvents hfresh happend
    obtain ⟨d, rfl⟩ := prepare_eq_ok.mp hprepare
    refine ⟨_, hprepare, hcommitted.self, replayVerifiedOutcome_eq_ok.mpr ⟨?_, ?_, rfl⟩⟩
    · exact Fields.pyEq_refl _
    · exact hcommitted.present

theorem Stands.kept {prepared : PreparedVerifiedOutcomeCommit} (h : Stands st prepared o)
    (hsubject : ∀ e ∈ prepared.events, e.subjectRef = prepared.outcome.id)
    (hkept : OutcomeKept st st' o) : Stands st' prepared o := by
  obtain ⟨hsame, hevents, hclass⟩ := replayVerifiedOutcome_eq_ok.mp h.replays
  have hid := id_of_sameSemantics hsame
  refine ⟨?_, replayVerifiedOutcome_eq_ok.mpr ⟨hsame, fun e he => ?_, hclass⟩⟩
  · rw [← hid, hkept.outcome, hid]
    exact h.found
  · obtain ⟨stored, hstored, hsemantics⟩ := hevents e he
    refine ⟨stored, hkept.events e.id stored hstored ?_, hsemantics⟩
    rw [subjectRef_of_sameSemantics hsemantics, hsubject e he, hid]

/-- The clock of the replay does not count. -/
theorem Stands.createdAt {prepared : PreparedVerifiedOutcomeCommit} (h : Stands st prepared o)
    (later : Time) : Stands st (prepared.createdAt later) o := by
  obtain ⟨hsame, hevents, hclass⟩ := replayVerifiedOutcome_eq_ok.mp h.replays
  refine ⟨h.found, replayVerifiedOutcome_eq_ok.mpr ⟨?_, events_later later hevents, hclass⟩⟩
  rw [sameVerifiedOutcomeSemantics, PreparedVerifiedOutcomeCommit.createdAt,
    BaseRecord.pop_createdAt]
  exact hsame

/-- A call whose outcome stands returns it, at any time and in any order of its references. -/
theorem returnVerifiedOutcome_again {st₂ : MemoryStore} {later : Time}
    {evidenceRefs versions : List String}
    (h : st.returnVerifiedOutcome digest now request = (.ok o, st'))
    (hevidence : evidenceRefs.Perm request.evidenceRefs)
    (hversions : versions.Perm request.subjectVersionRefs)
    (hbound : BoundUnchanged st st₂ request) (hkept : OutcomeKept st' st₂ o) :
    st₂.returnVerifiedOutcome digest later (reordered request evidenceRefs versions) =
      (.ok o, st₂) := by
  obtain ⟨prepared, hprepare, hstands⟩ := exists_stands h
  have hagain := prepare_later later (prepare_congr hbound.agree hprepare)
  rw [← prepare_reordered hevidence hversions] at hagain
  have hfound := (hstands.kept (subjectRef_of_prepared hprepare) hkept).createdAt later
  exact returnVerifiedOutcome_eq_ok.mpr ⟨_, hagain, .inl ⟨hfound.found, hfound.replays, rfl⟩⟩

/-- A call leaves the objects alone that it is bound to. -/
theorem boundUnchanged_of_returned
    (h : st.returnVerifiedOutcome digest now request = (.ok o, st')) :
    BoundUnchanged st st' request := by
  obtain ⟨prepared, -, ⟨-, -, rfl⟩ | ⟨hfresh, happend, -⟩⟩ := returnVerifiedOutcome_eq_ok.mp h
  · exact ⟨rfl, rfl, fun _ _ => rfl, rfl, rfl, fun _ _ _ hr => hr⟩
  · have hcommitted := committed_of_appendEvents hfresh happend
    have hget (k : Kind) (hevent : k ≠ .event) (hrecord : k ≠ .record) (id : String) :
        st'.get k id = st.get k id := congrFun (hcommitted.others k hevent hrecord) id
    refine ⟨hget .action (by decide) (by decide) _, hget .attempt (by decide) (by decide) _,
      fun _ _ => hget .step (by decide) (by decide) _, hget .run (by decide) (by decide) _,
      hget .work (by decide) (by decide) _, fun ref _ r hr => ?_⟩
    rw [hcommitted.records ref, hr]
    rintro rfl
    exact absurd (hfresh.symm.trans hr) (by simp)

/-! ## The commit of a verified outcome, as a whole -/

/-- A call that raises leaves the store as it was.  The first call that commits an outcome adds
it, with those of its events that the journal does not have; a call that finds its outcome adds
nothing.  While the objects of the request, the outcome and its events are as they were left, the
call can be made again, with its references in any order: it returns the same record and adds
nothing. -/
theorem verified_outcome_commit_idempotent (digest : Json → String) (now : Time)
    (st : MemoryStore) (request : VerifiedOutcomeCommitRequest) :
    (∀ e st', st.returnVerifiedOutcome digest now request = (.error e, st') → st' = st) ∧
      ∀ o st', st.returnVerifiedOutcome digest now request = (.ok o, st') →
        (st.getRecord o.id = none → Added st st' o) ∧
        (st.getRecord o.id ≠ none → st' = st) ∧
        ∀ st₂ later evidenceRefs versions, evidenceRefs.Perm request.evidenceRefs →
          versions.Perm request.subjectVersionRefs → BoundUnchanged st st₂ request →
          OutcomeKept st' st₂ o →
          st₂.returnVerifiedOutcome digest later (reordered request evidenceRefs versions) =
            (.ok o, st₂) := by
  refine ⟨fun e st' h => inTransaction_error h, fun o st' h => ⟨?_, ?_, ?_⟩⟩
  · intro hnone
    obtain ⟨prepared, hprepare, ⟨hfound, hreplay, -⟩ | ⟨hfresh, happend, rfl⟩⟩ :=
      returnVerifiedOutcome_eq_ok.mp h
    · rw [id_of_sameSemantics (replayVerifiedOutcome_eq_ok.mp hreplay).1, hfound] at hnone
      exact absurd hnone (by simp)
    · exact added_of_prepared hprepare hfresh happend
  · intro hsome
    obtain ⟨prepared, hprepare, ⟨-, -, rfl⟩ | ⟨hfresh, -, rfl⟩⟩ :=
      returnVerifiedOutcome_eq_ok.mp h
    · rfl
    · exact absurd hfresh hsome
  · intro st₂ later evidenceRefs versions hevidence hversions hbound hkept
    exact returnVerifiedOutcome_again h hevidence hversions hbound hkept

end Spec

/-! ## One outcome, committed twice -/

/-- The store with the execution and its proof. -/
def deployProved : MemoryStore := Prog.execAll (step fun _ => "00") empty (verifying.take 6)

theorem verified_outcome_commit_idempotent_deploy :
    ∃ o st', deployProved.returnVerifiedOutcome (fun _ => "00") 2 deployRequest = (.ok o, st') ∧
      Added deployProved st' o ∧
      st'.returnVerifiedOutcome (fun _ => "00") 3 (reordered deployRequest ["record_1"] ["app@1"]) =
        (.ok o, st') := by
  have hcommit := verified_outcome_commit_idempotent (fun _ => "00") 2 deployProved deployRequest
  have hid : (deployProved.returnVerifiedOutcome (fun _ => "00") 2 deployRequest).1.map
      BaseRecord.id = .ok "outcome_verified_00" := by
    decide
  cases hleft : deployProved.returnVerifiedOutcome (fun _ => "00") 2 deployRequest with
  | mk returned st' =>
    rw [hleft] at hid
    obtain ⟨o, rfl, hoid⟩ := Result.map_eq_ok.mp hid
    obtain ⟨hadded, -, hagain⟩ := hcommit.2 o st' hleft
    exact ⟨o, st', rfl, hadded (by rw [hoid]; rfl), hagain st' 3 _ _ (.refl _) (.refl _)
      (boundUnchanged_of_returned hleft) ⟨rfl, fun _ _ he _ => he⟩⟩

def deployAccepted : Event :=
  { id := "event_objective_verification_00", createdAt := 1,
    type := "ObjectiveVerificationAccepted", subjectRef := "outcome_verified_00",
    payload := [("semantic_level", .str "objective-verification"),
      ("authoritative_outcome", .bool true), ("objective_result", .str "pass"),
      ("outcome_ref", .str "outcome_verified_00"), ("action_ref", .str "action_1"),
      ("verification_refs", .ofStrings ["record_1"]),
      ("verification_binding_digest", .str "00")] }

/-- The store with the execution, its proof, and one event of the outcome. -/
def deployJournaled : MemoryStore :=
  deployProved.step (fun _ => "00") (1, .save .event deployAccepted)

/-- The store after the commit, with the outcome written again under its next version. -/
def deployRewritten : MemoryStore :=
  let committed := (deployProved.returnVerifiedOutcome (fun _ => "00") 2 deployRequest).2
  match committed.getRecord "outcome_verified_00" with
  | some o => committed.step (fun _ => "00")
      (3, .compareAndSwap .record "outcome_verified_00" 1 { o with version := 2 })
  | none => committed

/-- An event that the journal has already is not added, and an outcome that was written again is
not returned. -/
theorem verified_outcome_commit_refused :
    (deployJournaled.getRecord "outcome_verified_00" = none ∧
        (deployJournaled.returnVerifiedOutcome (fun _ => "00") 2 deployRequest).1.isOk = true ∧
        deployJournaled.exportState.events.length = 1 ∧
        (deployJournaled.returnVerifiedOutcome (fun _ => "00") 2
          deployRequest).2.exportState.events.length = 2) ∧
      BoundUnchanged deployProved deployRewritten deployRequest ∧
      (deployProved.returnVerifiedOutcome (fun _ => "00") 2 deployRequest).1.isOk = true ∧
      (deployRewritten.returnVerifiedOutcome (fun _ => "00") 4 deployRequest).1.map BaseRecord.id =
        .error (.valueError "verified-outcome deterministic identity rebound") := by
  refine ⟨⟨?_, ?_, ?_, ?_⟩, ?_, ?_, ?_⟩
  · rfl
  · decide
  · decide
  · decide
  · have hrefs : Text.normalized deployRequest.evidenceRefs = ["record_1"] := by decide
    refine ⟨rfl, rfl, fun _ _ => rfl, rfl, rfl, fun ref hmem r hr => ?_⟩
    rw [hrefs, List.mem_singleton] at hmem
    subst hmem
    exact hr
  · decide
  · decide

end MemoryStore
end PortableRuntime
