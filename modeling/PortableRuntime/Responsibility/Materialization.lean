import PortableRuntime.Python.Equality
import PortableRuntime.Responsibility.Growth

/-!
# Materializing a commitment again

`materialize_work` finds the Work of a commitment under a deterministic id and compares it
with one built afresh, creation time apart.  The fresh one is open and takes the time of the
call as its last update.
-/

namespace PortableRuntime

/-- What happens to a store with Works: a call of the kernel, or a Work that is saved. -/
inductive WorkMove where
  | kernel (call : KernelCall)
  | saveWork (work : Work)

def WorkMove.step (ids : StableId) (s : ResponsibilityStore) : WorkMove → ResponsibilityStore
  | kernel call => call.step ids s
  | saveWork work => s.putWork work

namespace ResponsibilityStore

/-- The dump of the Work of a commitment, without its times. -/
def workContent (workId : String) (c : Commitment) (proposal : WorkProposal) : Fields :=
  (materializedWork workId c proposal 0).dump.without ["created_at", "updated_at"]

/-- The Work has the content it was created with, and the clock stands at its last update. -/
structure AsCreated (ids : StableId) (stored : Work) (c : Commitment) (proposal : WorkProposal)
    (clock : Time) : Prop where
  content : (stored.dump.without ["created_at", "updated_at"]).pyEq
    (workContent (ids.text "work" [c.id, proposal.id]) c proposal) = true
  unmoved : stored.updatedAt = clock

theorem dump_pyEq_iff {stored : Work} {ids : StableId} {c : Commitment} {proposal : WorkProposal}
    {clock : Time} :
    (stored.dump.pop "created_at").pyEq ((materializedWork
      (ids.text "work" [c.id, proposal.id]) c proposal clock).dump.pop "created_at") = true ↔
      AsCreated ids stored c proposal clock := by
  have hupdated (work : Work) :
      Fields.get? "updated_at" (work.dump.pop "created_at") = some (.datetime work.updatedAt) := by
    rw [Fields.get?_pop _ (by decide)]
    rfl
  rw [Fields.pyEq_pop_iff (hupdated _) (hupdated _)]
  constructor
  · rintro ⟨htime, hcontent⟩
    exact ⟨hcontent, by simpa [Json.pyEq, materializedWork] using htime⟩
  · rintro ⟨hcontent, hclock⟩
    exact ⟨by simp [Json.pyEq, materializedWork, hclock], hcontent⟩

/-! ## What moves keep -/

/-- Works are stored under their ids. -/
def WorksKeyed (s : ResponsibilityStore) : Prop :=
  ∀ k work, s.works.get? k = some work → work.id = k

section Moves

variable {ids : StableId} {s : ResponsibilityStore}

theorem WorksKeyed.putWork (h : s.WorksKeyed) (work : Work) : (s.putWork work).WorksKeyed := by
  intro k w hw
  rw [ResponsibilityStore.putWork, Dict.get?_set] at hw
  split at hw
  · next hk => exact Option.some.inj hw ▸ hk.symm
  · exact h k w hw

theorem WorksKeyed.step (h : s.WorksKeyed) (move : WorkMove) : (move.step ids s).WorksKeyed := by
  cases move with
  | kernel call => exact step_induction (fun _ work hs => hs.putWork work) (fun _ _ hs _ _ => hs) h
  | saveWork work => exact h.putWork work

theorem WorksKeyed.empty : WorksKeyed empty := by
  intro k work hwork
  exact absurd hwork (by simp [ResponsibilityStore.empty])

theorem journalGet_move {k : String} {v : ResponsibilityObject} (h : s.journalGet k = some v)
    (move : WorkMove) : (move.step ids s).journalGet k = some v := by
  cases move with
  | kernel call =>
    exact step_induction (I := fun s => s.journalGet k = some v) (fun _ _ hs => hs)
      (fun _ _ hs hfresh _ => journalGet_record_of_some hfresh hs) h
  | saveWork work => exact h

theorem works_putWork_isSome {k : String} (h : (s.works.get? k).isSome = true) (work : Work) :
    ((s.putWork work).works.get? k).isSome = true := by
  rw [ResponsibilityStore.putWork, Dict.get?_set]
  split
  · rfl
  · exact h

/-- A Work is replaced but never lost. -/
theorem works_move {k : String} (h : (s.works.get? k).isSome = true) (move : WorkMove) :
    ((move.step ids s).works.get? k).isSome = true := by
  cases move with
  | kernel call =>
    exact step_induction (I := fun s => (s.works.get? k).isSome = true)
      (fun _ work hs => works_putWork_isSome hs work) (fun _ _ hs _ _ => hs) h
  | saveWork work => exact works_putWork_isSome h work

/-- A commitment whose Work is stored gives that Work or an error. -/
theorem materializeWork_of_stored {s' : ResponsibilityStore} {id : String} {c : Commitment}
    {proposal : WorkProposal} {stored work : Work} {clock : Time} {gate : Result Unit}
    (hc : s.journalGet id = some (.commitment c))
    (hproposal : s.journalGet c.proposalRef = some (.proposal proposal))
    (hstored : s.works.get? (ids.text "work" [c.id, proposal.id]) = some stored) :
    s.materializeWork ids id clock gate = .ok (work, s') ↔
      AsCreated ids stored c proposal clock ∧ stored = work ∧ s = s' := by
  rw [materializeWork, getCommitment_eq_ok.mpr hc]
  dsimp only [bind, Except.bind]
  rw [getProposal_eq_ok.mpr hproposal]
  dsimp only
  rw [hstored]
  dsimp only
  rw [← dump_pyEq_iff]
  constructor
  · intro h
    obtain ⟨hguard, h⟩ := Result.check_eq_ok.mp h
    rw [Result.pure_eq_ok, Prod.mk.injEq] at h
    exact ⟨guardValue_eq_ok.mp hguard, h⟩
  · rintro ⟨hsame, rfl, rfl⟩
    exact Result.check_eq_ok.mpr ⟨guardValue_eq_ok.mpr hsame, rfl⟩

end Moves

/-- After a call that returned a Work and any moves, another call returns the stored Work of
the same id and leaves the store alone exactly when the Work is as it was created and the
clock stands at its last update. -/
theorem materialize_again_iff (ids : StableId) (before later : List WorkMove) {id : String}
    {clock clock' : Time} {gate gate' : Result Unit} {work : Work} {s' : ResponsibilityStore}
    (h : (run (WorkMove.step ids) empty before).materializeWork ids id clock gate =
      .ok (work, s')) :
    (∃ again, (run (WorkMove.step ids) s' later).materializeWork ids id clock' gate' =
        .ok (again, run (WorkMove.step ids) s' later) ∧
      (run (WorkMove.step ids) s' later).works.get? work.id = some again ∧ again.id = work.id) ↔
    ∃ c proposal stored,
      (run (WorkMove.step ids) s' later).journalGet id = some (.commitment c) ∧
      (run (WorkMove.step ids) s' later).journalGet c.proposalRef = some (.proposal proposal) ∧
      (run (WorkMove.step ids) s' later).works.get? work.id = some stored ∧
      AsCreated ids stored c proposal clock' := by
  obtain ⟨c, proposal, hc, hproposal, hcases⟩ := materializeWork_cases h
  have hkeyed : WorksKeyed (run (WorkMove.step ids) empty before) :=
    run_preserves (fun _ move hs => hs.step move) WorksKeyed.empty
  -- In either case the call leaves the Work stored under its id.
  have hfirst : work.id = ids.text "work" [c.id, proposal.id] ∧
      s'.journalGet id = some (.commitment c) ∧
      s'.journalGet c.proposalRef = some (.proposal proposal) ∧
      (s'.works.get? work.id).isSome = true ∧ WorksKeyed s' := by
    rcases hcases with ⟨rfl, hstored⟩ | ⟨-, hwork, rfl⟩
    · have hid : work.id = ids.text "work" [c.id, proposal.id] := hkeyed _ _ hstored
      exact ⟨hid, hc, hproposal, by rw [hid, hstored]; rfl, hkeyed⟩
    · refine ⟨by rw [hwork]; rfl, hc, hproposal, ?_, hkeyed.putWork work⟩
      rw [putWork, Dict.get?_set, if_pos rfl]
      rfl
  obtain ⟨hid, hc', hproposal', hstored', hkeyed'⟩ := hfirst
  have hkept : (run (WorkMove.step ids) s' later).journalGet id = some (.commitment c) ∧
      (run (WorkMove.step ids) s' later).journalGet c.proposalRef = some (.proposal proposal) ∧
      ((run (WorkMove.step ids) s' later).works.get? work.id).isSome = true ∧
      WorksKeyed (run (WorkMove.step ids) s' later) :=
    run_preserves (I := fun s => s.journalGet id = some (.commitment c) ∧
        s.journalGet c.proposalRef = some (.proposal proposal) ∧
        (s.works.get? work.id).isSome = true ∧ WorksKeyed s)
      (fun s move hs => ⟨journalGet_move hs.1 move, journalGet_move hs.2.1 move,
        works_move hs.2.2.1 move, hs.2.2.2.step move⟩)
      ⟨hc', hproposal', hstored', hkeyed'⟩
  obtain ⟨hcNow, hproposalNow, hsome, hkeyedNow⟩ := hkept
  obtain ⟨stored, hstored⟩ := Option.isSome_iff_exists.mp hsome
  have hagain := @materializeWork_of_stored ids _ (run (WorkMove.step ids) s' later) id c proposal
    stored stored clock' gate' hcNow hproposalNow (hid ▸ hstored)
  constructor
  · rintro ⟨again, hcall, hget, -⟩
    obtain rfl : stored = again := Option.some.inj (hstored.symm.trans hget)
    exact ⟨c, proposal, stored, hcNow, hproposalNow, hstored, (hagain.mp hcall).1⟩
  · rintro ⟨c', proposal', stored', hc', hproposal', hget, hcreated⟩
    obtain rfl : c = c' := by simpa using hcNow.symm.trans hc'
    obtain rfl : proposal = proposal' := by simpa using hproposalNow.symm.trans hproposal'
    obtain rfl : stored = stored' := Option.some.inj (hstored.symm.trans hget)
    exact ⟨stored, hagain.mpr ⟨hcreated, rfl, rfl⟩, hstored, hkeyedNow _ _ hstored⟩

end ResponsibilityStore

namespace Listing

/-- The moves up to the commitment, and the Work made of it at a time. -/
def committing : List WorkMove := committed.map .kernel

def work (clock : Time) : Work :=
  ResponsibilityStore.materializedWork (ids.text "work" ["commitment", "proposal"]) commitment
    proposal clock

def withWork (clock : Time) : ResponsibilityStore :=
  (run (WorkMove.step ids) .empty committing).putWork (work clock)

end Listing

namespace ResponsibilityStore

theorem materialize_listing :
    (run (WorkMove.step Listing.ids) empty Listing.committing).materializeWork Listing.ids
      "commitment" 8 (.ok ()) = .ok (Listing.work 8, Listing.withWork 8) := by
  have hcommitment : (run (WorkMove.step Listing.ids) empty Listing.committing).getCommitment
      "commitment" = .ok Listing.commitment := by decide
  have hproposal : (run (WorkMove.step Listing.ids) empty Listing.committing).getProposal
      "proposal" = .ok Listing.proposal := by decide
  have hnone : (run (WorkMove.step Listing.ids) empty Listing.committing).works.get?
      (Listing.ids.text "work" ["commitment", "proposal"]) = none := by
    rw [← Option.isNone_iff_eq_none]
    decide
  rw [materializeWork, hcommitment]
  dsimp only [bind, Except.bind]
  rw [show Listing.commitment.proposalRef = "proposal" from rfl, hproposal]
  dsimp only
  rw [show Listing.commitment.id = "commitment" from rfl,
    show Listing.proposal.id = "proposal" from rfl, hnone]
  rfl

/-- The same call at the time of the first gives the Work again. -/
theorem materialize_again_listing :
    ∃ again, (Listing.withWork 8).materializeWork Listing.ids "commitment" 8 (.ok ()) =
        .ok (again, Listing.withWork 8) ∧
      (Listing.withWork 8).works.get? (Listing.work 8).id = some again ∧
      again.id = (Listing.work 8).id := by
  refine (materialize_again_iff Listing.ids Listing.committing [] materialize_listing).mpr ?_
  have hcommitment : (Listing.withWork 8).getCommitment "commitment" = .ok Listing.commitment := by
    decide
  have hproposal : (Listing.withWork 8).getProposal "proposal" = .ok Listing.proposal := by
    decide
  refine ⟨Listing.commitment, Listing.proposal, Listing.work 8, getCommitment_eq_ok.mp hcommitment,
    getProposal_eq_ok.mp hproposal, ?_, ?_, rfl⟩
  · exact (Dict.get?_set _ _ _ _).trans (if_pos rfl)
  · exact Fields.pyEq_refl _

/-- A microsecond later, or after the Work has started, the call raises. -/
theorem materialize_again_raises :
    (run (WorkMove.step Listing.ids) empty Listing.committing).materializeWork Listing.ids
        "commitment" 8 (.ok ()) = .ok (Listing.work 8, Listing.withWork 8) ∧
    ((Listing.withWork 8).materializeWork Listing.ids "commitment" 9 (.ok ())).isOk = false ∧
    ((WorkMove.step Listing.ids (Listing.withWork 8)
      (.saveWork { Listing.work 8 with status := .running })).materializeWork Listing.ids
        "commitment" 8 (.ok ())).isOk = false := by
  exact ⟨materialize_listing, by decide, by decide⟩

end ResponsibilityStore
end PortableRuntime
