import PortableRuntime.Stores.Calls
import PortableRuntime.Stores.Sqlite

/-!
# Lease exclusion and monotone generations

The reports of a history and the lease of the state it ends in determine each other:
one ledger for each store, kept by every call.
-/

namespace PortableRuntime

open LeaseReport

/-! ## The in-memory store -/

namespace MemoryStore

variable {digest : Json → String} {st : MemoryStore} {runId : String}

theorem isSome_getRun_put {k : Kind} {id : String} {v : Model k} (h : (st.getRun runId).isSome) :
    ((st.put k id v).getRun runId).isSome := by
  by_cases hk : k = .run
  · subst hk
    rw [getRun, get_put_self]
    split
    · rfl
    · exact h
  · rw [getRun, get_put_of_ne st (Ne.symm hk)]
    exact h

theorem isSome_getRun_saveAll {incoming : State} (h : (st.getRun runId).isSome) :
    ((st.saveAll incoming).getRun runId).isSome :=
  Dict.get?_setAll_isSome h

/-- A checked save of a run leaves the leases alone and keeps every stored run. -/
theorem saveRun_leases (digest : Json → String) (st : MemoryStore) (runId : String) (now : Time)
    (v : Run) :
    (st.step digest (now, .save .run v)).leases = st.leases ∧
      ((st.getRun runId).isSome → ((st.step digest (now, .save .run v)).getRun runId).isSome) := by
  unfold step
  cases hcall : st.call digest now (.save .run v) with
  | error e => exact ⟨rfl, fun h => h⟩
  | ok st' =>
    have hsave : st.saveModel now .run v = .ok st' := hcall
    obtain ⟨-, -, rfl⟩ := saveModel_eq_ok (by decide) hsave
    exact ⟨rfl, isSome_getRun_put⟩

theorem importState_leases (digest : Json → String) (st : MemoryStore) (runId : String)
    (now : Time) (state : State) :
    (st.step digest (now, .importState state)).leases = st.leases ∧
      ((st.getRun runId).isSome →
        ((st.step digest (now, .importState state)).getRun runId).isSome) := by
  unfold step
  cases hcall : st.call digest now (.importState state) with
  | error e => exact ⟨rfl, fun h => h⟩
  | ok st' =>
    obtain ⟨-, -, -, -, rfl⟩ := importState_eq_ok.mp hcall
    exact ⟨rfl, isSome_getRun_saveAll⟩

/-- An acquisition that nothing blocks issues the next generation and shows it on the run. -/
theorem acquireLease_granted {clock : Clock} {id owner : String} (runId : String) (ttl : Time)
    (h : (st.leases.get? id).any (leaseBlocks clock owner) = false) :
    (st.acquireLease clock id owner ttl).1 = true ∧
    (st.acquireLease clock id owner ttl).2.leases =
      st.leases.set id ⟨owner, clock.monotonic + ttl, st.nextGeneration id⟩ ∧
    ((st.getRun runId).isSome → ((st.acquireLease clock id owner ttl).2.getRun runId).isSome) ∧
    ((st.getRun id).isSome → ((st.acquireLease clock id owner ttl).2.getRun id).map
      Run.leaseGeneration = some (st.nextGeneration id)) := by
  rw [acquireLease, h]
  have hrun : (st.setLease id ⟨owner, clock.monotonic + ttl, st.nextGeneration id⟩).getRun id =
      st.getRun id := rfl
  simp only [Bool.false_eq_true, if_false, hrun]
  cases hget : st.getRun id with
  | none => exact ⟨rfl, rfl, fun h => h, by simp⟩
  | some run =>
    refine ⟨rfl, rfl, isSome_getRun_put, ?_⟩
    simp [getRun, get_put_self]

theorem acquireLease_blocked {clock : Clock} {id owner : String} (ttl : Time)
    (h : (st.leases.get? id).any (leaseBlocks clock owner) = true) :
    st.acquireLease clock id owner ttl = (false, st) := by
  rw [acquireLease, if_pos h]

/-- A renewal moves the expiry of the lease at most. -/
theorem renewLease_leases (st : MemoryStore) (runId : String) (clock : Clock) (id owner : String)
    (ttl : Time) :
    ((st.renewLease clock id owner ttl).2.leases = st.leases ∨
      ∃ lease expiresAt, st.leases.get? id = some lease ∧
        (st.renewLease clock id owner ttl).2.leases =
          st.leases.set id { lease with expiresAt }) ∧
    ((st.getRun runId).isSome → ((st.renewLease clock id owner ttl).2.getRun runId).isSome) := by
  rw [renewLease]
  cases hlease : st.leases.get? id with
  | none => exact ⟨.inl rfl, fun h => h⟩
  | some lease =>
    dsimp only
    split_ifs
    · exact ⟨.inl rfl, fun h => h⟩
    · have hrun : (st.setLease id { lease with expiresAt := clock.monotonic + ttl }).getRun id =
        st.getRun id := rfl
      rw [hrun]
      cases st.getRun id with
      | none => exact ⟨.inr ⟨lease, _, rfl, rfl⟩, fun h => h⟩
      | some run =>
        dsimp only
        split_ifs
        · exact ⟨.inr ⟨lease, _, rfl, rfl⟩, fun h => h⟩
        · exact ⟨.inr ⟨lease, _, rfl, rfl⟩, isSome_getRun_put⟩

/-- A release is refused, or it deletes the lease of its owner. -/
theorem releaseLease_leases (st : MemoryStore) (runId id owner : String) :
    ((st.releaseLease id owner = (false, st)) ∨
      ∃ lease, st.leases.get? id = some lease ∧ lease.owner = owner ∧
        (st.releaseLease id owner).1 = true ∧
        (st.releaseLease id owner).2.leases = st.leases.erase id) ∧
    ((st.getRun runId).isSome → ((st.releaseLease id owner).2.getRun runId).isSome) := by
  rw [releaseLease]
  cases hlease : st.leases.get? id with
  | none => exact ⟨.inl rfl, fun h => h⟩
  | some lease =>
    dsimp only
    split_ifs with howner
    · exact ⟨.inl rfl, fun h => h⟩
    · have hrun : ({ st with leases := st.leases.erase id } : MemoryStore).getRun id =
        st.getRun id := rfl
      have hlast := not_not.mp howner
      rw [hrun]
      cases st.getRun id with
      | none => exact ⟨.inr ⟨lease, rfl, hlast, rfl, rfl⟩, fun h => h⟩
      | some run =>
        dsimp only
        split_ifs
        · exact ⟨.inr ⟨lease, rfl, hlast, rfl, rfl⟩, isSome_getRun_put⟩
        · exact ⟨.inr ⟨lease, rfl, hlast, rfl, rfl⟩, fun h => h⟩

/-- What a call does to the lease of one stored run, and what it reports. -/
theorem leaseStep_cases (digest : Json → String) (hrun : (st.getRun runId).isSome) (c : Clock × LeaseCall) :
    ((st.leaseStep digest c).getRun runId).isSome ∧
    ((leaseReport runId st c = none ∧
        ((st.leaseStep digest c).leases.get? runId).map (fun l => (l.owner, l.generation)) =
          (st.leases.get? runId).map (fun l => (l.owner, l.generation)) ∧
        (∀ owner ttl, c.2 = .acquire runId owner ttl → st.leases.get? runId ≠ none)) ∨
      (∃ owner ttl expiresAt, c.2 = .acquire runId owner ttl ∧
        leaseReport runId st c = some (.acquired owner (st.nextGeneration runId)) ∧
        (st.leaseStep digest c).leases.get? runId =
          some ⟨owner, expiresAt, st.nextGeneration runId⟩) ∨
      (∃ lease owner, c.2 = .release runId owner ∧ st.leases.get? runId = some lease ∧
        leaseReport runId st c = some (.released lease.owner lease.generation) ∧
        (st.leaseStep digest c).leases.get? runId = none)) := by
  obtain ⟨clock, call⟩ := c
  cases call with
  | acquire id owner ttl =>
    cases hblock : (st.leases.get? id).any (leaseBlocks clock owner) with
    | true =>
      have hrefused := acquireLease_blocked ttl hblock
      refine ⟨by simpa [leaseStep, hrefused] using hrun, .inl ⟨?_, ?_, ?_⟩⟩
      · simp [leaseReport, hrefused]
      · simp [leaseStep, hrefused]
      · intro _ _ heq hnone
        obtain ⟨rfl, -, -⟩ := LeaseCall.acquire.inj heq
        rw [hnone] at hblock
        exact absurd hblock (by simp)
    | false =>
      obtain ⟨hfst, hleases, hstored, hshown⟩ := acquireLease_granted runId ttl hblock
      refine ⟨hstored hrun, ?_⟩
      by_cases hid : id = runId
      · subst hid
        refine .inr (.inl ⟨owner, ttl, clock.monotonic + ttl, rfl, ?_, ?_⟩)
        · obtain ⟨run, hget, hgeneration⟩ := Option.map_eq_some_iff.mp (hshown hrun)
          simp [leaseReport, hfst, hget, hgeneration]
        · simp [leaseStep, hleases]
      · refine .inl ⟨by simp [leaseReport, hid], ?_, ?_⟩
        · simp [leaseStep, hleases, Dict.get?_set_of_ne _ (Ne.symm hid)]
        · intro _ _ heq
          exact absurd (LeaseCall.acquire.inj heq).1 hid
  | renew id owner ttl =>
    obtain ⟨hleases, hstored⟩ := renewLease_leases st runId clock id owner ttl
    refine ⟨hstored hrun, .inl ⟨rfl, ?_, by simp⟩⟩
    rcases hleases with hsame | ⟨lease, expiresAt, hget, hset⟩
    · simp [leaseStep, hsame]
    · by_cases hid : runId = id
      · subst hid
        simp [leaseStep, hset, hget]
      · simp [leaseStep, hset, Dict.get?_set_of_ne _ hid]
  | release id owner =>
    obtain ⟨hleases, hstored⟩ := releaseLease_leases st runId id owner
    refine ⟨hstored hrun, ?_⟩
    rcases hleases with hrefused | ⟨lease, hget, rfl, hfst, herase⟩
    · exact .inl ⟨by simp [leaseReport, hrefused], by simp [leaseStep, hrefused], by simp⟩
    · by_cases hid : runId = id
      · subst hid
        exact .inr (.inr ⟨lease, lease.owner, rfl, hget, by simp [leaseReport, hfst, hget],
          by simp [leaseStep, herase, Dict.get?_erase]⟩)
      · refine .inl ⟨by simp [leaseReport, Ne.symm hid], ?_, by simp⟩
        simp [leaseStep, herase, Dict.get?_erase, hid]
  | saveRun v =>
    obtain ⟨hleases, hstored⟩ := saveRun_leases digest st runId clock.wall v
    exact ⟨hstored hrun, .inl ⟨rfl, by simp [leaseStep, hleases], by simp⟩⟩
  | importState state =>
    obtain ⟨hleases, hstored⟩ := importState_leases digest st runId clock.wall state
    exact ⟨hstored hrun, .inl ⟨rfl, by simp [leaseStep, hleases], by simp⟩⟩

/-- The run stays stored, and the owner of its lease is whoever acquired it last. -/
structure Held (runId : String) (log : List LeaseReport) (st : MemoryStore) : Prop where
  stored : (st.getRun runId).isSome
  holder : holder log = (st.leases.get? runId).map Lease.owner

theorem Held.leaseStep {log : List LeaseReport} (digest : Json → String) (h : Held runId log st)
    (c : Clock × LeaseCall) :
    Held runId (log ++ (leaseReport runId st c).toList) (st.leaseStep digest c) := by
  obtain ⟨hstored, hcases⟩ := leaseStep_cases digest h.stored c
  refine ⟨hstored, ?_⟩
  rcases hcases with ⟨hreport, hlease, -⟩ | ⟨owner, ttl, expiresAt, -, hreport, hlease⟩ |
    ⟨lease, owner, -, -, hreport, hlease⟩
  · have howner := congrArg (Option.map Prod.fst) hlease
    simp only [Option.map_map, Function.comp_def] at howner
    rw [hreport, Option.toList_none, List.append_nil, h.holder, howner]
  · rw [hreport, Option.toList_some, holder_append, hlease]
    rfl
  · rw [hreport, Option.toList_some, holder_append, hlease]
    rfl

/-- The reports of a history and the store it leaves.  While the lease is free the store
itself remembers nothing: the last generation is that of some release. -/
structure Ledger (runId : String) (log : List LeaseReport) (st : MemoryStore) : Prop where
  increasing : (generations log).Pairwise (· < ·)
  positive : ∀ g ∈ generations log, 1 ≤ g
  returned : ∀ g ∈ returnedGenerations log, g ∈ generations log
  leased : ∀ lease, st.leases.get? runId = some lease →
    lease.generation ∈ generations log ∧ ∀ g ∈ generations log, g ≤ lease.generation
  free : st.leases.get? runId = none →
    ∀ g ∈ generations log, ∃ r ∈ returnedGenerations log, g ≤ r

/-- The generation the mirror of a run shows. -/
def storedGeneration (st : MemoryStore) (runId : String) : Int :=
  (st.getRun runId).elim 0 Run.leaseGeneration

/-- A free lease is only acquired while the stored run shows at least the generation of
every lease given back so far. -/
def MirrorsReturned (runId : String) (log : List LeaseReport) (st : MemoryStore)
    (c : Clock × LeaseCall) : Prop :=
  ∀ owner ttl, c.2 = .acquire runId owner ttl → st.leases.get? runId = none →
    ∀ g ∈ returnedGenerations log, g ≤ st.storedGeneration runId

theorem nextGeneration_of_leased {lease : Lease} (h : st.leases.get? runId = some lease) :
    lease.generation < st.nextGeneration runId := by
  rw [nextGeneration, h]
  cases st.getRun runId with
  | none =>
    show lease.generation < lease.generation + 1
    omega
  | some run =>
    dsimp only [Option.elim]
    split_ifs <;> omega

theorem nextGeneration_of_free (h : st.leases.get? runId = none) :
    st.nextGeneration runId = max 1 (st.storedGeneration runId + 1) := by
  rw [nextGeneration, h, storedGeneration]
  cases st.getRun runId with
  | none => rfl
  | some run =>
    show (if run.leaseGeneration ≠ 0 ∧ run.leaseGeneration ≠ 0 then
      max (0 + 1) (run.leaseGeneration + 1) else 0 + 1) = max 1 (run.leaseGeneration + 1)
    split_ifs <;> omega

namespace Ledger

variable {log : List LeaseReport}

theorem one_le_nextGeneration (h : Ledger runId log st) : 1 ≤ st.nextGeneration runId := by
  cases hlease : st.leases.get? runId with
  | none =>
    have := nextGeneration_of_free hlease
    omega
  | some lease =>
    have := h.positive _ (h.leased lease hlease).1
    have := nextGeneration_of_leased hlease
    omega

/-- The next generation is new exactly when the mirror shows what was returned. -/
theorem lt_nextGeneration_iff (h : Ledger runId log st) :
    (∀ g ∈ generations log, g < st.nextGeneration runId) ↔
      (st.leases.get? runId = none →
        ∀ g ∈ returnedGenerations log, g ≤ st.storedGeneration runId) := by
  constructor
  · intro hnew hfree g hg
    have hlt := hnew g (h.returned g hg)
    have hpos := h.positive g (h.returned g hg)
    rw [nextGeneration_of_free hfree] at hlt
    omega
  · intro hmirror g hg
    cases hlease : st.leases.get? runId with
    | none =>
      obtain ⟨r, hr, hle⟩ := h.free hlease g hg
      have hshown := hmirror hlease r hr
      rw [nextGeneration_of_free hlease]
      omega
    | some lease =>
      have hle := (h.leased lease hlease).2 g hg
      have hlt := nextGeneration_of_leased hlease
      omega

theorem unchanged {st' : MemoryStore} (h : Ledger runId log st)
    (hlease : (st'.leases.get? runId).map (fun l => (l.owner, l.generation)) =
      (st.leases.get? runId).map (fun l => (l.owner, l.generation))) : Ledger runId log st' where
  increasing := h.increasing
  positive := h.positive
  returned := h.returned
  leased lease hget := by
    rw [hget] at hlease
    obtain ⟨old, hold, heq⟩ := Option.map_eq_some_iff.mp hlease.symm
    rw [← (Prod.mk.inj heq).2]
    exact h.leased old hold
  free hnone := h.free (by rw [hnone] at hlease; exact Option.map_eq_none_iff.mp hlease.symm)

theorem acquired {st' : MemoryStore} {owner : String} {expiresAt : Time} {g : Int}
    (h : Ledger runId log st) (hpos : 1 ≤ g)
    (hlease : st'.leases.get? runId = some ⟨owner, expiresAt, g⟩)
    (hnew : ∀ g' ∈ generations log, g' < g) : Ledger runId (log ++ [.acquired owner g]) st' where
  increasing := by
    rw [generations_append, List.pairwise_append]
    simpa [issued, h.increasing] using hnew
  positive g' hg' := by
    rw [generations_append] at hg'
    rcases List.mem_append.mp hg' with hg' | hg'
    · exact h.positive g' hg'
    · simp only [issued, Option.toList_some, List.mem_singleton] at hg'
      omega
  returned r hr := by
    rw [returnedGenerations_append] at hr
    rw [generations_append]
    exact List.mem_append_left _ (h.returned r (by simpa [LeaseReport.returned] using hr))
  leased lease hget := by
    obtain rfl := Option.some.inj (hlease.symm.trans hget)
    rw [generations_append]
    refine ⟨by simp [issued], fun g' hg' => ?_⟩
    rcases List.mem_append.mp hg' with hg' | hg'
    · exact (hnew g' hg').le
    · simp only [issued, Option.toList_some, List.mem_singleton] at hg'
      exact hg'.le
  free hnone := absurd (hlease.symm.trans hnone) (by simp)

theorem released {st' : MemoryStore} {lease : Lease} (h : Ledger runId log st)
    (hget : st.leases.get? runId = some lease)
    (hfree : st'.leases.get? runId = none) :
    Ledger runId (log ++ [.released lease.owner lease.generation]) st' := by
  obtain ⟨hmem, hmax⟩ := h.leased lease hget
  have hgenerations : generations (log ++ [.released lease.owner lease.generation]) =
      generations log := by
    simp [generations_append, issued]
  have hreturned : returnedGenerations (log ++ [.released lease.owner lease.generation]) =
      returnedGenerations log ++ [lease.generation] := by
    simp [returnedGenerations_append, LeaseReport.returned]
  refine ⟨?_, ?_, ?_, ?_, ?_⟩
  · rw [hgenerations]
    exact h.increasing
  · rw [hgenerations]
    exact h.positive
  · rw [hgenerations, hreturned]
    intro r hr
    rcases List.mem_append.mp hr with hr | hr
    · exact h.returned r hr
    · obtain rfl := List.mem_singleton.mp hr
      exact hmem
  · intro l hl
    exact absurd (hl.symm.trans hfree) (by simp)
  · rw [hgenerations, hreturned]
    intro _ g hg
    exact ⟨lease.generation, by simp, hmax g hg⟩

/-- One call keeps the ledger, provided a free lease is acquired under a mirror that
shows the returned generations; otherwise the acquisition repeats a generation. -/
theorem leaseStep (digest : Json → String) (h : Ledger runId log st)
    (hrun : (st.getRun runId).isSome) (c : Clock × LeaseCall) :
    (MirrorsReturned runId log st c →
      Ledger runId (log ++ (leaseReport runId st c).toList) (st.leaseStep digest c)) ∧
    (¬ MirrorsReturned runId log st c →
      ¬ (generations (log ++ (leaseReport runId st c).toList)).Pairwise (· < ·)) := by
  obtain ⟨-, hcases⟩ := leaseStep_cases digest hrun c
  rcases hcases with ⟨hreport, hlease, hnot⟩ | ⟨owner, ttl, expiresAt, hcall, hreport, hlease⟩ |
    ⟨lease, owner, hcall, hget, hreport, hlease⟩
  · have hC : MirrorsReturned runId log st c := by
      intro owner ttl hcall hfree
      exact absurd hfree (hnot owner ttl hcall)
    refine ⟨fun _ => ?_, fun hnC => absurd hC hnC⟩
    rw [hreport, Option.toList_none, List.append_nil]
    exact h.unchanged hlease
  · have hiff : MirrorsReturned runId log st c ↔
        ∀ g ∈ generations log, g < st.nextGeneration runId := by
      rw [h.lt_nextGeneration_iff]
      exact ⟨fun hC => hC owner ttl hcall, fun hmirror _ _ _ => hmirror⟩
    rw [hreport, hiff]
    refine ⟨h.acquired h.one_le_nextGeneration hlease, fun hrepeats hpairwise => ?_⟩
    rw [Option.toList_some, generations_append, List.pairwise_append] at hpairwise
    exact hrepeats (fun g hg => hpairwise.2.2 g hg _ (by simp [issued]))
  · have hC : MirrorsReturned runId log st c := by
      intro _ _ hacquire
      exact absurd (hcall.symm.trans hacquire) (by simp)
    refine ⟨fun _ => ?_, fun hnC => absurd hC hnC⟩
    rw [hreport]
    exact h.released hget hlease

end Ledger

end MemoryStore
/-! ## The SQLite store -/

namespace SqliteStore

variable {digest : Json → String} {st : SqliteStore} {runId : String}

theorem leaseStep_of_ok {c : Clock × LeaseCall} {b : Bool} {st' : SqliteStore}
    (h : st.leaseCall digest c = .ok (b, st')) : st.leaseStep digest c = st' := by
  rw [leaseStep, h]

/-- A save of a run or an import writes objects only. -/
theorem map_eq_ok {x : Result SqliteStore} {b : Bool} {st' : SqliteStore}
    (h : x.map (true, ·) = .ok (b, st')) : x = .ok st' := by
  cases x with
  | error e => exact absurd h (by simp [Except.map])
  | ok a =>
    simp only [Except.map, Except.ok.injEq, Prod.mk.injEq] at h
    rw [h.2]

theorem saveRun_leases {now : Time} {v : Run} {st' : SqliteStore}
    (h : st.saveRun now v = .ok st') : st'.leases = st.leases := by
  simp only [saveRun, atomicGraphSave, Result.check_eq_ok, Result.pure_eq_ok] at h
  rw [← h.2.2]
  rfl

theorem importState_leases {now : Time} {state : State} {st' : SqliteStore}
    (h : st.importState digest now state = .ok st') : st'.leases = st.leases := by
  simp only [importState, Result.check_eq_ok, Result.pure_eq_ok] at h
  rw [← h.2.2.2.2]

theorem isSome_getRun {st : SqliteStore} :
    (st.getRun runId).isSome = (st.loadRunPayload runId).isSome := by
  rw [getRun, Option.isSome_map]

theorem isSome_getRun_put {k : Kind} {id : String} {v : Model k} (h : (st.getRun runId).isSome) :
    ((st.put k id v).getRun runId).isSome := by
  rw [isSome_getRun, loadRunPayload] at h ⊢
  by_cases hk : k = .run
  · subst hk
    simp only [put, Function.update_self, Dict.get?_set]
    split
    · rfl
    · exact h
  · simpa only [put, Function.update_of_ne (Ne.symm hk)] using h

theorem isSome_getRun_writeLease {id : String} {run : Run} {lease : LeaseRow}
    (h : (st.getRun runId).isSome) : ((st.writeLease id run lease).getRun runId).isSome := by
  refine isSome_getRun_put ?_
  rwa [isSome_getRun] at h ⊢

/-- No lease call removes a stored run. -/
theorem isSome_getRun_leaseStep (digest : Json → String) (h : (st.getRun runId).isSome)
    (c : Clock × LeaseCall) : ((st.leaseStep digest c).getRun runId).isSome := by
  obtain ⟨clock, call⟩ := c
  cases hcall : st.leaseCall digest (clock, call) with
  | error e => rwa [leaseStep, hcall]
  | ok r =>
    obtain ⟨b, st'⟩ := r
    rw [leaseStep_of_ok hcall]
    cases call with
    | acquire id owner ttl =>
      rcases acquireLease_eq_ok hcall with ⟨-, rfl⟩ | ⟨-, run, -, -, rfl⟩
      · exact h
      · exact isSome_getRun_writeLease h
    | renew id owner ttl =>
      rcases renewLease_eq_ok hcall with rfl | ⟨lease, run, -, -, rfl⟩
      · exact h
      · exact isSome_getRun_writeLease h
    | release id owner =>
      rcases releaseLease_eq_ok hcall with ⟨-, rfl⟩ | ⟨-, lease, run, -, -, rfl⟩
      · exact h
      · exact isSome_getRun_writeLease h
    | saveRun v =>
      have hsave := map_eq_ok hcall
      simp only [saveRun, atomicGraphSave, Result.check_eq_ok, Result.pure_eq_ok] at hsave
      rw [← hsave.2.2]
      exact isSome_getRun_put h
    | importState state =>
      have himport := map_eq_ok hcall
      simp only [importState, Result.check_eq_ok, Result.pure_eq_ok] at himport
      rw [← himport.2.2.2.2, isSome_getRun]
      rw [isSome_getRun] at h
      exact Dict.get?_setAll_isSome h

/-- What a call does to the row of one lease, and what it reports. -/
theorem leaseStep_cases (digest : Json → String) (st : SqliteStore) (runId : String)
    (c : Clock × LeaseCall) :
    (leaseReport digest runId st c = none ∧
      ((st.leaseStep digest c).leases.get? runId = st.leases.get? runId ∨
        ∃ lease expiresAt heartbeatAt, st.leases.get? runId = some lease ∧ lease.owner ≠ none ∧
          (st.leaseStep digest c).leases.get? runId =
            some { lease with expiresAt := some expiresAt, heartbeatAt })) ∨
    (∃ owner generation expiresAt heartbeatAt,
      leaseReport digest runId st c = some (.acquired owner generation) ∧
      (st.leaseStep digest c).leases.get? runId =
        some ⟨some owner, generation, some expiresAt, heartbeatAt⟩ ∧
      ((st.leaseStep digest c).getRun runId).isSome ∧
      ∀ lease, st.leases.get? runId = some lease → generation = lease.generation + 1) ∨
    (∃ lease owner, st.leases.get? runId = some lease ∧ lease.owner = some owner ∧
      leaseReport digest runId st c = some (.released owner lease.generation) ∧
      (st.leaseStep digest c).leases.get? runId =
        some { lease with owner := none, expiresAt := none, heartbeatAt := none }) := by
  obtain ⟨clock, call⟩ := c
  cases hcall : st.leaseCall digest (clock, call) with
  | error e =>
    have hstep : st.leaseStep digest (clock, call) = st := by rw [leaseStep, hcall]
    refine .inl ⟨?_, .inl (by rw [hstep])⟩
    cases call <;> simp [leaseReport, hcall]
  | ok r =>
    obtain ⟨b, st'⟩ := r
    rw [leaseStep_of_ok hcall]
    cases call with
    | acquire id owner ttl =>
      rcases acquireLease_eq_ok hcall with ⟨rfl, rfl⟩ | ⟨rfl, run, hrun, -, rfl⟩
      · exact .inl ⟨by simp [leaseReport, hcall], .inl rfl⟩
      · by_cases hid : runId = id
        · subst hid
          refine .inr (.inl ⟨owner, _, clock.wall + ttl, some clock.wall, ?_,
            by rw [get?_writeLease, if_pos rfl], by rw [getRun_writeLease]; rfl, ?_⟩)
          · simp only [leaseReport, hcall, if_true, getRun_writeLease, Option.map_some]
            rfl
          · intro lease hlease
            rw [hlease]
            rfl
        · refine .inl ⟨by simp [leaseReport, hcall, Ne.symm hid], .inl ?_⟩
          rw [get?_writeLease, if_neg hid]
    | renew id owner ttl =>
      refine .inl ⟨by simp [leaseReport], ?_⟩
      rcases renewLease_eq_ok hcall with rfl | ⟨lease, run, hlease, howner, rfl⟩
      · exact .inl rfl
      · by_cases hid : runId = id
        · subst hid
          exact .inr ⟨lease, _, _, hlease, by simp [howner], by rw [get?_writeLease, if_pos rfl]⟩
        · exact .inl (by rw [get?_writeLease, if_neg hid])
    | release id owner =>
      rcases releaseLease_eq_ok hcall with ⟨rfl, rfl⟩ | ⟨rfl, lease, run, hlease, howner, rfl⟩
      · exact .inl ⟨by simp [leaseReport, hcall], .inl rfl⟩
      · by_cases hid : runId = id
        · subst hid
          exact .inr (.inr ⟨lease, owner, hlease, howner, by simp [leaseReport, hcall, hlease],
            by rw [get?_writeLease, if_pos rfl]⟩)
        · exact .inl ⟨by simp [leaseReport, hcall, Ne.symm hid],
            .inl (by rw [get?_writeLease, if_neg hid])⟩
    | saveRun v =>
      refine .inl ⟨by simp [leaseReport], .inl ?_⟩
      rw [saveRun_leases (map_eq_ok hcall)]
    | importState state =>
      refine .inl ⟨by simp [leaseReport], .inl ?_⟩
      rw [importState_leases (map_eq_ok hcall)]

/-- The reports of a history and the row of the lease.  A row is never deleted, and it
keeps the last generation when its owner leaves. -/
structure Ledger (runId : String) (log : List LeaseReport) (st : SqliteStore) : Prop where
  increasing : (generations log).Pairwise (· < ·)
  last : (generations log).getLast? = (st.leases.get? runId).map LeaseRow.generation
  holder : holder log = (st.leases.get? runId).bind LeaseRow.owner
  expiry : ∀ lease, st.leases.get? runId = some lease →
    (lease.owner = none ↔ lease.expiresAt = none)
  stored : ∀ lease, st.leases.get? runId = some lease → (st.getRun runId).isSome

namespace Ledger

variable {log : List LeaseReport}

theorem le_last {l : List Int} (h : l.Pairwise (· < ·)) {m : Int} (hlast : l.getLast? = some m) :
    ∀ g ∈ l, g ≤ m := by
  intro g hg
  obtain ⟨init, rfl⟩ := List.getLast?_eq_some_iff.mp hlast
  rw [List.pairwise_append] at h
  rcases List.mem_append.mp hg with hg | hg
  · exact (h.2.2 g hg m (by simp)).le
  · exact (List.mem_singleton.mp hg).le

theorem leaseStep (digest : Json → String) (h : Ledger runId log st) (c : Clock × LeaseCall) :
    Ledger runId (log ++ (leaseReport digest runId st c).toList) (st.leaseStep digest c) := by
  rcases leaseStep_cases digest st runId c with
    ⟨hreport, hsame | ⟨lease, expiresAt, heartbeatAt, hget, howner, hrow⟩⟩ |
    ⟨owner, generation, expiresAt, heartbeatAt, hreport, hrow, hstored, hnext⟩ |
    ⟨lease, owner, hget, howner, hreport, hrow⟩
  · rw [hreport, Option.toList_none, List.append_nil]
    refine ⟨h.increasing, hsame ▸ h.last, hsame ▸ h.holder, hsame ▸ h.expiry, ?_⟩
    intro lease hlease
    exact isSome_getRun_leaseStep digest (h.stored lease (hsame.symm.trans hlease)) c
  · rw [hreport, Option.toList_none, List.append_nil]
    refine ⟨h.increasing, ?_, ?_, ?_, fun _ _ => isSome_getRun_leaseStep digest (h.stored _ hget) c⟩
    · rw [h.last, hget, hrow]
      rfl
    · rw [h.holder, hget, hrow]
      rfl
    · intro lease' hlease'
      obtain rfl := Option.some.inj (hrow.symm.trans hlease')
      simp [howner]
  · rw [hreport]
    have hgenerations : generations (log ++ (some (acquired owner generation)).toList) =
        generations log ++ [generation] := generations_append log _
    have hnew : ∀ g ∈ generations log, g < generation := by
      intro g hg
      cases hget : st.leases.get? runId with
      | none =>
        have hempty : generations log = [] := by simpa [hget] using h.last
        exact absurd hg (by simp [hempty])
      | some lease =>
        have hle := le_last h.increasing (by rw [h.last, hget]; rfl) g hg
        have hstep := hnext lease hget
        omega
    refine ⟨?_, ?_, ?_, ?_, fun _ _ => hstored⟩
    · rw [hgenerations, List.pairwise_append]
      simpa [h.increasing] using hnew
    · rw [hgenerations, hrow]
      simp
    · rw [Option.toList_some, holder_append, hrow]
      rfl
    · intro lease hlease
      obtain rfl := Option.some.inj (hrow.symm.trans hlease)
      simp
  · rw [hreport]
    have hgenerations : generations (log ++ (some (released owner lease.generation)).toList) =
        generations log := by
      simp [generations_append, issued]
    refine ⟨hgenerations ▸ h.increasing, ?_, ?_, ?_,
      fun _ _ => isSome_getRun_leaseStep digest (h.stored _ hget) c⟩
    · rw [hgenerations, h.last, hget, hrow]
      rfl
    · rw [Option.toList_some, holder_append, hrow]
      rfl
    · intro lease' hlease'
      obtain rfl := Option.some.inj (hrow.symm.trans hlease')
      simp

end Ledger

/-- Every history that starts without leases keeps its ledger. -/
theorem ledger_of_run (digest : Json → String) (runId : String)
    (hfresh : st.leases = Dict.empty) (calls : List (Clock × LeaseCall)) :
    Ledger runId (leaseReports digest runId st calls) (run (leaseStep digest) st calls) := by
  have hstart : Ledger runId [] st := by
    refine ⟨.nil, ?_, ?_, ?_, ?_⟩ <;> simp [hfresh, generations, holder]
  exact emitted_invariant (J := Ledger runId) (fun log s c h => h.leaseStep digest c) hstart

end SqliteStore
end PortableRuntime
