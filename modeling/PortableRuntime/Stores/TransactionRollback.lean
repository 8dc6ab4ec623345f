import PortableRuntime.Stores.Leases
import PortableRuntime.Stores.TerminalPairs

/-!
# Transactions over shared Run objects

A transaction of the in-memory store copies its dictionaries when it begins and puts the
copies back when it fails.  The dictionaries hold Run objects, not copies of them, and a
lease call writes into the object of its run.  Every other call puts an object of its own in
the place of the old one, so a Run object is an address here and everything else a value.
-/

namespace PortableRuntime

/-- The calls that put no Run object into the store. -/
def MemoryStore.Op.storesRun : MemoryStore.Op → Bool
  | .save .run _ => true
  | .compareAndSwap .run _ _ _ => true
  | .commitTerminal _ _ _ => true
  | .importState _ => true
  | _ => false

abbrev RunRef := Nat

/-- The store as its callers see it: a Run is read through its object. -/
def throughObjects (heap : RunRef → Run) (rest : MemoryStore) (runs : Dict String RunRef) :
    MemoryStore :=
  { rest with records := Function.update rest.records .run (runs.mapValues heap) }

/-- What an open transaction puts back.  `begun` is a history variable, the store when it
began. -/
structure TransactionMark where
  rest : MemoryStore
  runs : Dict String RunRef
  begun : MemoryStore

/-- `rest` holds the leases and every kind but the Runs. -/
structure SharedStore where
  heap : RunRef → Run
  next : RunRef
  rest : MemoryStore
  runs : Dict String RunRef
  marks : List TransactionMark := []

/-- What the body of a transaction does: make a Run object, call a method of the store, or
begin or end a transaction inside this one.  A method that stores a Run is given an object. -/
inductive SharedStore.Move where
  | make (run : Run)
  | call (now : Time) (op : {op : MemoryStore.Op // op.storesRun = false})
  | saveRun (now : Time) (object : RunRef)
  | compareAndSwapRun (now : Time) (id : String) (expected : Int) (object : RunRef)
  | commitTerminal (now : Time) (work : Work) (object : RunRef) (verificationRefs : List String)
  | importState (now : Time) (state : State)
  | acquireLease (clock : Clock) (runId owner : String) (ttl : Time)
  | renewLease (clock : Clock) (runId owner : String) (ttl : Time)
  | releaseLease (runId owner : String)
  | enter
  | leave (raises : Bool)

namespace SharedStore

def view (s : SharedStore) : MemoryStore := throughObjects s.heap s.rest s.runs

/-- A new object. -/
def make (s : SharedStore) (run : Run) : SharedStore :=
  { s with heap := Function.update s.heap s.next run, next := s.next + 1 }

/-- A call that leaves the objects alone, and has stored those of `runs`. -/
def stores (s : SharedStore) (runs : Dict String RunRef) : Result MemoryStore → SharedStore
  | .ok st => { s with rest := st, runs := runs }
  | .error _ => s

/-- An imported Run is a new object under its id. -/
def importRun (s : SharedStore) (run : Run) : SharedStore :=
  { s.make run with runs := s.runs.set run.id s.next }

/-- A lease call has left `st`: its lease is stored, and the object of its run is written. -/
def leased (s : SharedStore) (runId : String) (st : MemoryStore) : SharedStore :=
  { s with
    rest := { s.rest with leases := st.leases }
    heap := match s.runs.get? runId, st.getRun runId with
      | some object, some run => Function.update s.heap object run
      | _, _ => s.heap }

def enter (s : SharedStore) : SharedStore :=
  { s with marks := { rest := s.rest, runs := s.runs, begun := s.view } :: s.marks }

/-- `self._records = snapshot`, `self._leases = lease_snapshot`. -/
def rollback (s : SharedStore) (mark : TransactionMark) : SharedStore :=
  { s with rest := mark.rest, runs := mark.runs }

def leave (s : SharedStore) (raises : Bool) : SharedStore :=
  match s.marks with
  | [] => s
  | mark :: outer => { if raises then s.rollback mark else s with marks := outer }

def step (digest : Json → String) (s : SharedStore) : Move → SharedStore
  | .make run => s.make run
  | .call now op => s.stores s.runs (s.view.call digest now op.1)
  | .saveRun now object =>
    if object < s.next then
      s.stores (s.runs.set (s.heap object).id object)
        (s.view.call digest now (.save .run (s.heap object)))
    else s
  | .compareAndSwapRun now id expected object =>
    if object < s.next then
      match s.view.compareAndSwap now .run id expected (s.heap object) with
      | .ok (true, st) => s.stores (s.runs.set id object) (.ok st)
      | _ => s
    else s
  | .commitTerminal now work object refs =>
    if object < s.next then
      s.stores (s.runs.set (s.heap object).id object)
        (s.view.call digest now (.commitTerminal work (s.heap object) refs))
    else s
  | .importState now state =>
    match s.view.importState digest now state with
    | .ok st =>
      { (MemoryStore.asImported state .run).foldl importRun s with rest := st }
    | .error _ => s
  | .acquireLease clock runId owner ttl =>
    s.leased runId (s.view.acquireLease clock runId owner ttl).2
  | .renewLease clock runId owner ttl =>
    s.leased runId (s.view.renewLease clock runId owner ttl).2
  | .releaseLease runId owner => s.leased runId (s.view.releaseLease runId owner).2
  | .enter => s.enter
  | .leave raises => s.leave raises

/-! ## The store of values behind the objects -/

/-- What the store of values does in a step; it knows nothing of transactions. -/
def plainStep (digest : Json → String) (s : SharedStore) : Move → MemoryStore
  | .call now op => s.view.step digest (now, op.1)
  | .saveRun now object =>
    if object < s.next then s.view.step digest (now, .save .run (s.heap object)) else s.view
  | .compareAndSwapRun now id expected object =>
    if object < s.next then
      s.view.step digest (now, .compareAndSwap .run id expected (s.heap object))
    else s.view
  | .commitTerminal now work object refs =>
    if object < s.next then s.view.step digest (now, .commitTerminal work (s.heap object) refs)
    else s.view
  | .importState now state => s.view.step digest (now, .importState state)
  | .acquireLease clock runId owner ttl => (s.view.acquireLease clock runId owner ttl).2
  | .renewLease clock runId owner ttl => (s.view.renewLease clock runId owner ttl).2
  | .releaseLease runId owner => (s.view.releaseLease runId owner).2
  | .make _ | .enter | .leave _ => s.view

/-- The objects in use have been made. -/
structure Allocated (s : SharedStore) : Prop where
  stored : ∀ object ∈ s.runs.values, object < s.next
  held : ∀ mark ∈ s.marks, ∀ object ∈ mark.runs.values, object < s.next

/-- No object is stored under two ids. -/
def Unshared (s : SharedStore) : Prop :=
  ∀ id id' object, s.runs.get? id = some object → s.runs.get? id' = some object → id = id'

end SharedStore

namespace MemoryStore

/-- A call that is given no Run object leaves the Runs alone. -/
theorem call_records_run {digest : Json → String} {now : Time} {st st' : MemoryStore} {op : Op}
    (hop : op.storesRun = false) (h : st.call digest now op = .ok st') :
    st'.records .run = st.records .run := by
  cases op with
  | save k value =>
    have hk : Kind.run ≠ k := by
      rintro rfl
      cases hop
    by_cases hevent : k = .event
    · subst hevent
      rcases appendEventAs_eq_ok (show st.appendEventAs none value = .ok st' from h) with
        ⟨-, -, -, rfl⟩ | ⟨-, rfl⟩
      · rfl
      · exact records_put_of_ne st (by decide) _ _
    · obtain ⟨-, -, rfl⟩ := saveModel_eq_ok hevent h
      exact records_put_of_ne st hk _ _
  | compareAndSwap k id expected value =>
    have hk : Kind.run ≠ k := by
      rintro rfl
      cases hop
    obtain ⟨⟨b, st₁⟩, hswap, rfl⟩ := Result.map_eq_ok.mp h
    rcases compareAndSwap_eq_ok hswap with ⟨-, rfl⟩ | ⟨-, -, -, -, -, -, rfl⟩
    · rfl
    · exact records_put_of_ne st hk _ _
  | commitTerminal => cases hop
  | commitVerifiedOutcome request =>
    obtain ⟨prepared, -, rfl | ⟨-, happend⟩⟩ := commitVerifiedOutcome_eq_ok h
    · rfl
    · rw [appendEvents_records happend (by decide)]
      exact records_put_of_ne st (by decide) _ _
  | commitHistoricalExperienceUse use =>
    rcases commitHistoricalExperienceUse_eq_ok h with rfl | ⟨-, -, -, -, event, -, happend⟩
    · rfl
    · rcases appendEventAs_eq_ok happend with ⟨-, -, -, rfl⟩ | ⟨-, rfl⟩
      · exact records_put_of_ne st (by decide) _ _
      · rw [save, records_put_of_ne _ (by decide)]
        exact records_put_of_ne st (by decide) _ _
  | commitEvents authority prepare =>
    rcases commitEvents_eq_ok h with rfl | ⟨events, -, happend⟩
    · rfl
    · exact appendEvents_records happend (by decide)
  | importState => cases hop

/-- The records after a lease call: as they were, or with the run of the lease written. -/
def LeaseRecords (st : MemoryStore) (runId : String) (records : Records) : Prop :=
  records = st.records ∨ ∃ run, (st.getRun runId).isSome = true ∧
    records = (st.put .run runId run).records

theorem records_acquireLease (clock : Clock) (st : MemoryStore) (runId owner : String)
    (ttl : Time) : st.LeaseRecords runId (st.acquireLease clock runId owner ttl).2.records := by
  unfold acquireLease
  split
  · exact .inl rfl
  · dsimp only
    split
    · exact .inl rfl
    · next run hrun => exact .inr ⟨_, by rw [show st.getRun runId = some run from hrun]; rfl, rfl⟩

theorem records_renewLease (clock : Clock) (st : MemoryStore) (runId owner : String)
    (ttl : Time) : st.LeaseRecords runId (st.renewLease clock runId owner ttl).2.records := by
  unfold renewLease
  split
  · exact .inl rfl
  · split
    · exact .inl rfl
    · dsimp only
      split
      · exact .inl rfl
      · next run hrun =>
        split
        · exact .inl rfl
        · exact .inr ⟨_, by rw [show st.getRun runId = some run from hrun]; rfl, rfl⟩

theorem records_releaseLease (st : MemoryStore) (runId owner : String) :
    st.LeaseRecords runId (st.releaseLease runId owner).2.records := by
  unfold releaseLease
  split
  · exact .inl rfl
  · split
    · exact .inl rfl
    · dsimp only
      split
      · exact .inl rfl
      · next run hrun =>
        split
        · exact .inr ⟨_, by rw [show st.getRun runId = some run from hrun]; rfl, rfl⟩
        · exact .inl rfl

end MemoryStore

namespace SharedStore

section View

variable {digest : Json → String} {s : SharedStore}

theorem throughObjects_congr {heap heap' : RunRef → Run} {rest : MemoryStore}
    {runs : Dict String RunRef} (h : ∀ object ∈ runs.values, heap' object = heap object) :
    throughObjects heap' rest runs = throughObjects heap rest runs := by
  rw [throughObjects, Dict.mapValues_congr h, throughObjects]

theorem mem_values_set {d : Dict String RunRef} {k : String} {object v : RunRef}
    (h : object ∈ (d.set k v).values) : object = v ∨ object ∈ d.values := by
  obtain ⟨k', hget⟩ := Dict.mem_values.mp h
  rw [Dict.get?_set] at hget
  split at hget
  · exact .inl (Option.some.inj hget).symm
  · exact .inr (Dict.mem_values.mpr ⟨k', hget⟩)

theorem throughObjects_eq {heap : RunRef → Run} {st : MemoryStore} {runs : Dict String RunRef}
    (h : st.records .run = runs.mapValues heap) : throughObjects heap st runs = st := by
  have hrecords : Function.update st.records .run (runs.mapValues heap) = st.records := by
    rw [← h, Function.update_eq_self]
  rw [throughObjects, hrecords]

@[simp] theorem view_records_run (s : SharedStore) :
    s.view.records .run = s.runs.mapValues s.heap := by
  simp [view, throughObjects]

/-- A call that returns leaves what the objects it has stored say. -/
theorem view_stores {runs : Dict String RunRef} {now : Time} {op : MemoryStore.Op}
    (h : ∀ st, s.view.call digest now op = .ok st → st.records .run = runs.mapValues s.heap) :
    (s.stores runs (s.view.call digest now op)).view = s.view.step digest (now, op) := by
  rw [MemoryStore.step]
  cases hcall : s.view.call digest now op with
  | ok st => exact throughObjects_eq (h st hcall)
  | error e => rfl

theorem records_foldl_importRun (h : ∀ object ∈ s.runs.values, object < s.next)
    (runs : List Run) :
    (runs.foldl SharedStore.importRun s).runs.mapValues (runs.foldl SharedStore.importRun s).heap =
      (s.runs.mapValues s.heap).setAll (·.id) runs := by
  induction runs generalizing s with
  | nil => rfl
  | cons run rest ih =>
    have himported : (s.importRun run).runs.mapValues (s.importRun run).heap =
        (s.runs.mapValues s.heap).set run.id run := by
      change (s.runs.set run.id s.next).mapValues (Function.update s.heap s.next run) = _
      rw [Dict.mapValues_set, Function.update_self]
      congr 1
      refine Dict.mapValues_congr (fun object hobject => ?_)
      exact Function.update_of_ne (Nat.ne_of_lt (h object hobject)) run s.heap
    rw [List.foldl_cons, ih, himported]
    · rfl
    · intro object hobject
      rcases mem_values_set hobject with rfl | hold
      · exact Nat.lt_succ_self s.next
      · exact Nat.lt_succ_of_lt (h object hold)

/-- Writing into the object of a run is writing the run, where no other id has the object. -/
theorem mapValues_update (h : s.Unshared) {runId : String} {object : RunRef} {run : Run}
    (hobject : s.runs.get? runId = some object) :
    s.runs.mapValues (Function.update s.heap object run) =
      (s.runs.mapValues s.heap).set runId run := by
  have hother : ∀ e ∈ s.runs.entries, e.1 ≠ runId → e.2 ≠ object := by
    intro e he hne hsame
    exact hne (h e.1 runId object (Dict.get?_eq_some.mpr (hsame ▸ he)) hobject)
  have hwrite : ∀ l : List (String × RunRef), (l.map Prod.fst).Nodup →
      (∀ e ∈ l, e.1 ≠ runId → e.2 ≠ object) → Dict.lookup runId l = some object →
      l.map (fun e => (e.1, Function.update s.heap object run e.2)) =
        Dict.place runId run (l.map (fun e => (e.1, s.heap e.2))) := by
    intro l hnodup hl hlookup
    induction l with
    | nil => exact nomatch hlookup
    | cons e rest ih =>
      obtain ⟨id, other⟩ := e
      obtain ⟨hid, hrest⟩ := List.nodup_cons.mp hnodup
      by_cases hsame : id = runId
      · subst hsame
        obtain rfl : other = object := by simpa [Dict.lookup] using hlookup
        rw [List.map_cons, Function.update_self, List.map_cons, Dict.place, if_pos rfl]
        congr 1
        refine List.map_congr_left (fun e he => ?_)
        have hne : e.1 ≠ id := fun hkey => hid (List.mem_map.mpr ⟨e, he, hkey⟩)
        rw [Function.update_of_ne (hl e (List.mem_cons_of_mem _ he) hne)]
      · have hne : other ≠ object := hl (id, other) List.mem_cons_self hsame
        rw [List.map_cons, Function.update_of_ne hne, List.map_cons, Dict.place, if_neg hsame]
        congr 1
        refine ih hrest (fun e he => hl e (List.mem_cons_of_mem _ he)) ?_
        simpa [Dict.lookup, hsame] using hlookup
  unfold Dict.mapValues Dict.set
  congr 1
  exact hwrite s.runs.entries s.runs.nodup hother hobject

/-- A lease call writes the object of its run, or none. -/
theorem heap_leased (s : SharedStore) (runId : String) (st : MemoryStore) :
    (s.leased runId st).heap = s.heap ∨ ∃ object run, s.runs.get? runId = some object ∧
      st.getRun runId = some run ∧
      (s.leased runId st).heap = Function.update s.heap object run := by
  unfold SharedStore.leased
  cases hobject : s.runs.get? runId with
  | none => exact .inl rfl
  | some object =>
    cases hrun : st.getRun runId with
    | none => exact .inl rfl
    | some run => exact .inr ⟨object, run, rfl, rfl, rfl⟩

/-- A lease call in the object of its run is the lease call on the value. -/
theorem view_leased (h : s.Unshared) {runId : String} {st : MemoryStore}
    (hst : s.view.LeaseRecords runId st.records) : (s.leased runId st).view = st := by
  have hget : s.view.getRun runId = (s.runs.get? runId).map s.heap := by
    rw [MemoryStore.getRun, MemoryStore.get, view_records_run, Dict.get?_mapValues]
  have hview : (s.leased runId st).view.records = st.records := by
    rcases hst with hsame | ⟨run, hsome, hput⟩
    · have hheap : (s.leased runId st).heap = s.heap := by
        have hrun : st.getRun runId = (s.runs.get? runId).map s.heap := by
          rw [← hget, MemoryStore.getRun, MemoryStore.get, hsame]
          rfl
        rcases heap_leased s runId st with hheap | ⟨object, run, hobject, hread, hheap⟩
        · exact hheap
        · rw [hrun, hobject] at hread
          rw [hheap, ← Option.some.inj hread]
          exact Function.update_eq_self object s.heap
      rw [hsame]
      change Function.update s.rest.records .run (s.runs.mapValues (s.leased runId st).heap) = _
      rw [hheap]
      rfl
    · rw [hget, Option.isSome_map] at hsome
      obtain ⟨object, hobject⟩ := Option.isSome_iff_exists.mp hsome
      have hrun : st.getRun runId = some run := by
        rw [MemoryStore.getRun, MemoryStore.get, hput]
        exact (MemoryStore.get_put_self s.view .run runId runId run).trans (if_pos rfl)
      have hheap : (s.leased runId st).heap = Function.update s.heap object run := by
        rw [SharedStore.leased, hobject, hrun]
      rw [hput]
      change Function.update s.rest.records .run (s.runs.mapValues (s.leased runId st).heap) =
        Function.update s.view.records .run ((s.view.records .run).set runId run)
      rw [hheap, mapValues_update h hobject, view_records_run, view, throughObjects,
        Function.update_idem]
  have hleases : (s.leased runId st).view.leases = st.leases := rfl
  cases st
  cases hleft : (s.leased runId _).view
  simp_all

/-- Where no object has two ids, the store does what the store of values does. -/
theorem view_step (hs : s.Allocated) (hunshared : s.Unshared) {move : Move}
    (hmove : ∀ raises, move ≠ .leave raises) :
    (s.step digest move).view = s.plainStep digest move := by
  cases move with
  | make run =>
    refine throughObjects_congr (fun object hobject => ?_)
    exact Function.update_of_ne (Nat.ne_of_lt (hs.stored object hobject)) run s.heap
  | call now op =>
    exact view_stores (fun st hst =>
      (MemoryStore.call_records_run op.2 hst).trans (view_records_run s))
  | saveRun now object =>
    rw [SharedStore.step, plainStep]
    split
    · refine view_stores (fun st hst => ?_)
      have hsave : s.view.saveModel now .run (s.heap object) = .ok st := hst
      obtain ⟨-, -, rfl⟩ := MemoryStore.saveModel_eq_ok (by decide) hsave
      rw [Dict.mapValues_set, ← view_records_run]
      exact MemoryStore.records_put_self s.view .run _ _
    · rfl
  | compareAndSwapRun now id expected object =>
    rw [SharedStore.step, plainStep]
    split
    · rw [MemoryStore.step, MemoryStore.call]
      cases hswap : s.view.compareAndSwap now .run id expected (s.heap object) with
      | error e => rfl
      | ok p =>
        obtain ⟨swapped, st⟩ := p
        rcases MemoryStore.compareAndSwap_eq_ok hswap with ⟨rfl, rfl⟩ |
          ⟨rfl, -, -, -, -, -, rfl⟩
        · rfl
        · change throughObjects s.heap (s.view.put .run id (s.heap object))
            (s.runs.set id object) = _
          refine throughObjects_eq ?_
          rw [Dict.mapValues_set, ← view_records_run]
          exact MemoryStore.records_put_self s.view .run _ _
    · rfl
  | commitTerminal now work object refs =>
    rw [SharedStore.step, plainStep]
    split
    · refine view_stores (fun st hst => ?_)
      have hcommit : s.view.commitTerminal now work (s.heap object) refs = .ok st := hst
      obtain ⟨-, -, -, -, rfl⟩ := MemoryStore.commitTerminal_eq_ok.mp hcommit
      rw [Dict.mapValues_set, ← view_records_run]
      refine (MemoryStore.records_put_self (s.view.save .work work) .run _ _).trans ?_
      rw [MemoryStore.save, MemoryStore.records_put_of_ne s.view (by decide)]
      rfl
    · rfl
  | importState now state =>
    rw [SharedStore.step, plainStep, MemoryStore.step, MemoryStore.call]
    cases himport : s.view.importState digest now state with
    | error e => rfl
    | ok st =>
      obtain ⟨-, -, -, -, rfl⟩ := MemoryStore.importState_eq_ok.mp himport
      refine throughObjects_eq ?_
      change (s.view.records .run).setAll _ (MemoryStore.asImported state .run) = _
      rw [view_records_run]
      exact (records_foldl_importRun hs.stored (MemoryStore.asImported state .run)).symm
  | acquireLease clock runId owner ttl =>
    exact view_leased hunshared (MemoryStore.records_acquireLease clock s.view runId owner ttl)
  | renewLease clock runId owner ttl =>
    exact view_leased hunshared (MemoryStore.records_renewLease clock s.view runId owner ttl)
  | releaseLease runId owner =>
    exact view_leased hunshared (MemoryStore.records_releaseLease s.view runId owner)
  | enter => rfl
  | leave raises => exact absurd rfl (hmove raises)

end View

/-! ## What a rollback leaves -/

/-- Whichever open transaction fails now, the exported state and the leases are those it
began with. -/
def RollsBack (s : SharedStore) : Prop :=
  ∀ mark ∈ s.marks,
    (s.rollback mark).view.exportState = mark.begun.exportState ∧
    (s.rollback mark).view.leases = mark.begun.leases

/-- The Run object that a transaction holds for its rollback. -/
def Held (s : SharedStore) (object : RunRef) : Prop :=
  ∃ mark ∈ s.marks, object ∈ mark.runs.values

/-- A lease call leaves the objects alone that an open transaction holds: it writes none of
them, or what is there already. -/
def SparesHeld (s : SharedStore) (runId : String) (st : MemoryStore) : Prop :=
  ∀ object run, s.runs.get? runId = some object → st.getRun runId = some run →
    s.Held object → run = s.heap object

def Spares (s : SharedStore) : Move → Prop
  | .acquireLease clock runId owner ttl =>
    s.SparesHeld runId (s.view.acquireLease clock runId owner ttl).2
  | .renewLease clock runId owner ttl =>
    s.SparesHeld runId (s.view.renewLease clock runId owner ttl).2
  | .releaseLease runId owner => s.SparesHeld runId (s.view.releaseLease runId owner).2
  | _ => True

/-- The objects an open transaction holds read as they did when it began. -/
structure Intact (s : SharedStore) : Prop where
  allocated : s.Allocated
  begun : ∀ mark ∈ s.marks, throughObjects s.heap mark.rest mark.runs = mark.begun

section Rollback

variable {digest : Json → String} {s s' : SharedStore}

theorem Intact.rollsBack (h : s.Intact) : s.RollsBack := by
  intro mark hmark
  have hview : (s.rollback mark).view = mark.begun := h.begun mark hmark
  rw [hview]
  exact ⟨rfl, rfl⟩

/-- A step that writes no object in use, and stores none but made ones. -/
theorem Intact.of_heap (h : s.Intact) (hmarks : s'.marks = s.marks) (hnext : s.next ≤ s'.next)
    (hstored : ∀ object ∈ s'.runs.values, object < s'.next)
    (hheap : ∀ object, s.Held object → s'.heap object = s.heap object) : s'.Intact where
  allocated :=
    { stored := hstored
      held := by
        intro mark hmark object hobject
        exact lt_of_lt_of_le (h.allocated.held mark (hmarks ▸ hmark) object hobject) hnext }
  begun mark hmark := by
    rw [hmarks] at hmark
    rw [← h.begun mark hmark]
    exact throughObjects_congr (fun object hobject => hheap object ⟨mark, hmark, hobject⟩)

theorem Intact.stores (h : s.Intact) {runs : Dict String RunRef} (x : Result MemoryStore)
    (hstored : ∀ object ∈ runs.values, object < s.next) : (s.stores runs x).Intact := by
  cases x with
  | ok st => exact h.of_heap rfl le_rfl hstored (fun _ _ => rfl)
  | error e => exact h

theorem Intact.set (h : s.Intact) {object : RunRef} (hobject : object < s.next) (id : String) :
    ∀ other ∈ (s.runs.set id object).values, other < s.next := by
  intro other hother
  rcases mem_values_set hother with rfl | hold
  · exact hobject
  · exact h.allocated.stored other hold

theorem Intact.make (h : s.Intact) (run : Run) : (s.make run).Intact := by
  refine h.of_heap rfl (Nat.le_succ s.next) (fun object hobject => ?_) (fun object hheld => ?_)
  · exact Nat.lt_succ_of_lt (h.allocated.stored object hobject)
  · obtain ⟨mark, hmark, hobject⟩ := hheld
    have hlt := h.allocated.held mark hmark object hobject
    exact Function.update_of_ne (Nat.ne_of_lt hlt) run s.heap

theorem Intact.importRun (h : s.Intact) (run : Run) : (s.importRun run).Intact :=
  (h.make run).of_heap rfl le_rfl
    (fun object hobject => by
      rcases mem_values_set hobject with rfl | hold
      · exact Nat.lt_succ_self s.next
      · exact Nat.lt_succ_of_lt (h.allocated.stored object hold))
    (fun _ _ => rfl)

theorem Intact.foldl_importRun (h : s.Intact) (runs : List Run) :
    (runs.foldl SharedStore.importRun s).Intact := by
  induction runs generalizing s with
  | nil => exact h
  | cons run rest ih => exact ih (h.importRun run)

theorem Intact.leased (h : s.Intact) {runId : String} {st : MemoryStore}
    (hspares : s.SparesHeld runId st) : (s.leased runId st).Intact := by
  refine h.of_heap rfl le_rfl h.allocated.stored (fun object hheld => ?_)
  rcases heap_leased s runId st with hheap | ⟨written, run, hobject, hrun, hheap⟩
  · rw [hheap]
  · rw [hheap]
    by_cases hsame : object = written
    · subst hsame
      rw [Function.update_self]
      exact hspares object run hobject hrun hheld
    · exact Function.update_of_ne hsame run s.heap

theorem Intact.enter (h : s.Intact) : s.enter.Intact where
  allocated :=
    { stored := h.allocated.stored
      held := by
        intro mark hmark object hobject
        rcases List.mem_cons.mp hmark with rfl | hold
        · exact h.allocated.stored object hobject
        · exact h.allocated.held mark hold object hobject }
  begun mark hmark := by
    rcases List.mem_cons.mp hmark with rfl | hold
    · rfl
    · exact h.begun mark hold

theorem Intact.leave (h : s.Intact) (raises : Bool) : (s.leave raises).Intact := by
  unfold SharedStore.leave
  split
  · exact h
  · next mark outer hmarks =>
    have hheld : ∀ m ∈ outer, ∀ object ∈ m.runs.values, object < s.next :=
      fun m hm => h.allocated.held m (hmarks ▸ List.mem_cons_of_mem mark hm)
    have hbegun : ∀ m ∈ outer, throughObjects s.heap m.rest m.runs = m.begun :=
      fun m hm => h.begun m (hmarks ▸ List.mem_cons_of_mem mark hm)
    cases raises with
    | true =>
      refine { allocated := { stored := fun object hobject => ?_, held := hheld }, begun := hbegun }
      exact h.allocated.held mark (hmarks ▸ List.mem_cons_self) object hobject
    | false =>
      exact { allocated := { stored := h.allocated.stored, held := hheld }, begun := hbegun }

theorem Intact.step (h : s.Intact) {move : Move} (hspares : s.Spares move) :
    (s.step digest move).Intact := by
  cases move with
  | make run => exact h.make run
  | call now op => exact h.stores _ h.allocated.stored
  | saveRun now object =>
    rw [SharedStore.step]
    split
    · next hobject => exact h.stores _ (h.set hobject _)
    · exact h
  | compareAndSwapRun now id expected object =>
    rw [SharedStore.step]
    split
    · next hobject =>
      split
      · exact h.stores _ (h.set hobject id)
      · exact h
    · exact h
  | commitTerminal now work object refs =>
    rw [SharedStore.step]
    split
    · next hobject => exact h.stores _ (h.set hobject _)
    · exact h
  | importState now state =>
    rw [SharedStore.step]
    split
    · have himported := h.foldl_importRun (MemoryStore.asImported state .run)
      exact himported.of_heap rfl le_rfl himported.allocated.stored (fun _ _ => rfl)
    · exact h
  | acquireLease clock runId owner ttl => exact h.leased hspares
  | renewLease clock runId owner ttl => exact h.leased hspares
  | releaseLease runId owner => exact h.leased hspares
  | enter => exact h.enter
  | leave raises => exact h.leave raises

/-- A lease call after which every rollback would restore what it began with has spared the
objects of the open transactions. -/
theorem sparesHeld_of_rollsBack (h : s.Intact) {runId : String} {st : MemoryStore}
    (hrolls : (s.leased runId st).RollsBack) : s.SparesHeld runId st := by
  rintro object run hobject hrun ⟨mark, hmark, hheld⟩
  have hheap : (s.leased runId st).heap = Function.update s.heap object run := by
    rw [SharedStore.leased, hobject, hrun]
  have hexport := congrFun (hrolls mark hmark).1 .run
  have hruns : (mark.runs.mapValues (s.leased runId st).heap).values =
      (mark.runs.mapValues s.heap).values := by
    have hbegun := congrArg (fun st => MemoryStore.exportState st .run) (h.begun mark hmark)
    simp only [MemoryStore.exportState, throughObjects, Function.update_self] at hbegun
    simp only [MemoryStore.exportState, view, throughObjects, rollback, Function.update_self]
      at hexport
    exact hexport.trans hbegun.symm
  rw [Dict.values_mapValues, Dict.values_mapValues, List.map_inj_left, hheap] at hruns
  have hsame := hruns object hheld
  rwa [Function.update_self] at hsame

/-- The end of a transaction by an exception. -/
theorem RollsBack.leave (h : s.RollsBack) {mark : TransactionMark} {outer : List TransactionMark}
    (hmarks : s.marks = mark :: outer) :
    (s.leave true).view.exportState = mark.begun.exportState ∧
    (s.leave true).view.leases = mark.begun.leases := by
  have hview : (s.leave true).view = (s.rollback mark).view := by
    rw [SharedStore.leave, hmarks]
    rfl
  rw [hview]
  exact h mark (hmarks ▸ List.mem_cons_self)

theorem Spares.of_rollsBack (h : s.Intact) {move : Move}
    (hrolls : (s.step digest move).RollsBack) : s.Spares move := by
  cases move with
  | acquireLease clock runId owner ttl => exact sparesHeld_of_rollsBack h hrolls
  | renewLease clock runId owner ttl => exact sparesHeld_of_rollsBack h hrolls
  | releaseLease runId owner => exact sparesHeld_of_rollsBack h hrolls
  | _ => trivial

end Rollback

/-- At every point of every program of store calls and transactions, each open transaction
can be rolled back completely exactly when no lease call has changed a Run object that an
open transaction holds. -/
theorem rollback_complete_iff (digest : Json → String) (s : SharedStore) (hs : s.Allocated)
    (hclosed : s.marks = []) (moves : List Move) :
    (∀ pre, pre <+: moves → (run (step digest) s pre).RollsBack) ↔
      Along (step digest) Spares s moves := by
  refine property_iff_along (I := Intact) (fun _ h => h.rollsBack)
    (fun _ _ h => Spares.of_rollsBack h) (fun _ _ h => h.step) ⟨hs, fun mark hmark => ?_⟩
  rw [hclosed] at hmark
  exact absurd hmark List.not_mem_nil

/-! ## One stored run -/

/-- A store with one run, which nobody has leased. -/
def oneRun : SharedStore where
  heap _ := { id := "run", createdAt := 0, workId := "work", workflowId := "workflow" }
  next := 1
  rest := .empty
  runs := Dict.empty.set "run" 0

theorem oneRun_allocated : oneRun.Allocated where
  stored := by decide
  held _ hmark := absurd hmark List.not_mem_nil

/-- A lease on a run that is not stored goes with the transaction. -/
theorem rollback_complete_missing :
    (run (step (fun _ => "")) oneRun
      [.enter, .acquireLease ⟨0, 0⟩ "missing" "worker" 30]).RollsBack := by
  refine (rollback_complete_iff (fun _ => "") oneRun oneRun_allocated rfl
    [.enter, .acquireLease ⟨0, 0⟩ "missing" "worker" 30, .leave true]).mpr
    ⟨trivial, fun object run hobject => ?_, trivial, trivial⟩ _ ⟨[.leave true], rfl⟩
  have hmissing : oneRun.runs.get? "missing" = none := by decide
  exact absurd (hmissing.symm.trans hobject) (by simp)

/-- The run keeps the owner that a failed transaction has leased it to. -/
theorem rollback_keeps_owner :
    ¬ (∀ pre, pre <+: [.enter, .acquireLease ⟨0, 0⟩ "run" "worker" 30, .leave true] →
      (run (step (fun _ => "")) oneRun pre).RollsBack) ∧
    (oneRun.view.getRun "run").map (·.leaseOwner) = some none ∧
    ((run (step (fun _ => "")) oneRun
      [.enter, .acquireLease ⟨0, 0⟩ "run" "worker" 30, .leave true]).view.getRun "run").map
        (·.leaseOwner) = some (some "worker") := by
  refine ⟨fun h => ?_, by decide, by decide⟩
  have hrolls := h [.enter, .acquireLease ⟨0, 0⟩ "run" "worker" 30] ⟨[.leave true], rfl⟩
  have hexport := (hrolls { rest := oneRun.rest, runs := oneRun.runs, begun := oneRun.view }
    List.mem_cons_self).1
  have howners : (((run (step (fun _ => "")) oneRun
      [.enter, .acquireLease ⟨0, 0⟩ "run" "worker" 30]).rollback
        { rest := oneRun.rest, runs := oneRun.runs, begun := oneRun.view }).view.exportState .run
      ).map (·.leaseOwner) = (oneRun.view.exportState .run).map (·.leaseOwner) := by
    rw [hexport]
  exact absurd howners (by decide)

end SharedStore
end PortableRuntime
