import Mathlib.Data.String.Basic
import PortableRuntime.Library.Sorting
import PortableRuntime.Stores.GraphInvariant
import PortableRuntime.Stores.Sqlite

/-!
# Exporting a state and importing it into an empty store

Into an empty store an import is a check of the state itself: nothing is there to collide
with.  What it stores is what it was given, under the identities of the objects, with each
record read as a plain base record.
-/

namespace PortableRuntime

def Kind.createdAt : (k : Kind) → Model k → Time
  | .work, v => v.createdAt
  | .run, v => v.createdAt
  | .artifact, v => v.createdAt
  | .evidence, v => v.createdAt
  | .decision, v => v.createdAt
  | .action, v => v.createdAt
  | .outcome, v => v.createdAt
  | .knowledge, v => v.createdAt
  | .knowledgeProjection, v => v.createdAt
  | .event, v => v.createdAt
  | .step, v => v.createdAt
  | .attempt, v => v.createdAt
  | .checkpoint, v => v.createdAt
  | .compensation, v => v.createdAt
  | .record, v => v.createdAt
  | .relation, v => v.createdAt
  | .authorization, v => v.createdAt
  | .authorizationUse, v => v.createdAt

/-- What is left of an object in its document: a record loses its class. -/
def Kind.document : (k : Kind) → Model k → Model k
  | .record, (r : BaseRecord) => { r with cls := .baseRecord }
  | _, v => v

namespace Kind

theorem document_of_ne {k : Kind} (hk : k ≠ .record) (v : Model k) : k.document v = v := by
  cases k <;> first | rfl | exact absurd rfl hk

@[simp] theorem identifier_document (k : Kind) (v : Model k) :
    k.identifier (k.document v) = k.identifier v := by
  cases k <;> rfl

@[simp] theorem createdAt_document (k : Kind) (v : Model k) :
    k.createdAt (k.document v) = k.createdAt v := by
  cases k <;> rfl

@[simp] theorem dump_document (k : Kind) (v : Model k) : k.dump (k.document v) = k.dump v := by
  cases k <;> rfl

end Kind

/-- The documents of a state. -/
def State.documents (s : State) : State := fun k => (s k).map k.document

theorem asImported_eq (s : State) : MemoryStore.asImported s = s.documents := by
  funext k
  by_cases hk : k = .record
  · subst hk
    rfl
  · rw [MemoryStore.asImported, Function.update_of_ne hk, State.documents]
    exact (List.map_id'' (fun v => Kind.document_of_ne hk v) _).symm

/-- What an import asks of a state: no closed authority history, and both validators. -/
structure Importable (digest : Json → String) (now : Time) (s : State) : Prop where
  events : MemoryStore.assertImportableEvents s.events = .ok ()
  valid : Valid now s
  authority : validateVerifiedOutcomeAuthorityGraph digest now s = .ok ()

namespace State

def none : State := fun _ => []

theorem importCandidate_none (s : State) : MemoryStore.importCandidate none s = s := by
  funext k
  simp [MemoryStore.importCandidate, mergeBucket, none]

theorem rejectDuplicateIds_eq_ok {k : Kind} {values : List (Model k)} :
    ∀ {seen : List (String × Fields)}, (values.map k.identifier).Nodup →
      (∀ v ∈ values, k.identifier v ∉ seen.map Prod.fst) →
      rejectDuplicateIds k seen values = .ok () := by
  induction values with
  | nil => exact fun _ _ => rfl
  | cons v rest ih =>
    intro seen hnodup hseen
    rw [List.map_cons, List.nodup_cons] at hnodup
    have hnone : seen.find? (fun e => decide (e.1 = k.identifier v)) = Option.none := by
      refine List.find?_eq_none.mpr (fun e he => ?_)
      have hne : e.1 ≠ k.identifier v := fun h =>
        hseen v List.mem_cons_self (List.mem_map.mpr ⟨e, he, h⟩)
      simpa using hne
    rw [rejectDuplicateIds, Result.check_eq_ok, hnone]
    refine ⟨rfl, ih hnodup.2 (fun w hw hmem => ?_)⟩
    rcases List.mem_cons.mp hmem with heq | hmem
    · exact hnodup.1 (List.mem_map.mpr ⟨w, hw, heq⟩)
    · exact hseen w (List.mem_cons_of_mem _ hw) hmem

/-- Nothing in an empty state can be overwritten. -/
theorem transition_none {s : State} (h : s.WellIdentified) :
    assertValidStateTransition none s s = .ok () := by
  have hids (k : Kind) : rejectDuplicateIds k [] (s k) = .ok () :=
    rejectDuplicateIds_eq_ok (h.bucket_nodup k) (by simp)
  simp only [assertValidStateTransition, Result.check_eq_ok, checkEach_eq_ok]
  exact ⟨hids .record, hids .relation, hids .authorizationUse, fun _ _ => rfl, fun _ _ => rfl,
    fun _ _ => rfl⟩

end State

/-! ## The in-memory store -/

namespace MemoryStore

variable {digest : Json → String} {now : Time} {st st' : MemoryStore}

/-- `_list` under the filter of a caller: newest first. -/
def list (st : MemoryStore) (k : Kind) (keep : Model k → Bool) : List (Model k) :=
  ((st.records k).values.insertionSort
    (fun a b => k.createdAt b ≤ k.createdAt a)).filter keep

/-- An import of the export into an empty store is accepted, and nothing that can be read
tells the two stores apart. -/
def RoundTrips (digest : Json → String) (now : Time) (st : MemoryStore) : Prop :=
  ∃ st', empty.importState digest now st.exportState = .ok st' ∧
    (∀ k, (st'.exportState k).map k.dump = (st.exportState k).map k.dump) ∧
    (∀ k id, st'.get k id = st.get k id) ∧ ∀ k keep, st'.list k keep = st.list k keep

/-- Every record is stored as a plain base record. -/
def Unclassed (st : MemoryStore) : Prop := ∀ r ∈ st.exportState.records, r.cls = .baseRecord

theorem importState_empty {s : State} :
    empty.importState digest now s = .ok st' ↔
      Importable digest now s.documents ∧ empty.saveAll s.documents = st' := by
  have hexport : empty.exportState = State.none := rfl
  rw [importState_eq_ok, asImported_eq, hexport, State.importCandidate_none]
  constructor
  · rintro ⟨hevents, -, hvalid, hauthority, hst⟩
    exact ⟨⟨hevents, hvalid, hauthority⟩, hst⟩
  · rintro ⟨h, hst⟩
    exact ⟨h.events, State.transition_none (valid_iff.mp h.valid).identified, h.valid,
      h.authority, hst⟩

theorem documents_of_unclassed (h : st.Unclassed) : st.exportState.documents = st.exportState := by
  funext k
  refine (List.map_congr_left (fun v hv => ?_)).trans (List.map_id _)
  by_cases hk : k = .record
  · subst hk
    have hcls : v.cls = .baseRecord := h v hv
    cases v
    cases hcls
    rfl
  · exact Kind.document_of_ne hk v

/-- A store that keeps each object under its own identity is what an import of it builds. -/
theorem saveAll_exportState (h : Keyed st) :
    (empty.saveAll st.exportState).records = st.records := by
  funext k
  exact Dict.setAll_values (h k)

theorem roundTrips_iff :
    st.RoundTrips digest now ↔
      Importable digest now st.exportState ∧ st.Keyed ∧ st.Unclassed := by
  constructor
  · rintro ⟨st', himport, -, hget, -⟩
    obtain ⟨hok, rfl⟩ := importState_empty.mp himport
    have hkeyed : st.Keyed := by
      intro k id v hv
      rw [← hget] at hv
      exact keyed_empty.saveAll st.exportState.documents k id v hv
    have hcls : st.Unclassed := by
      intro r hr
      obtain ⟨id, hid⟩ := Dict.mem_values.mp hr
      have hsaved : (empty.saveAll st.exportState.documents).get .record id = some r :=
        (hget .record id).trans hid
      rcases Dict.get?_setAll hsaved with ⟨hmem, -⟩ | ⟨-, hnone⟩
      · obtain ⟨w, -, rfl⟩ := List.mem_map.mp hmem
        rfl
      · exact absurd hnone (by simp [empty])
    exact ⟨documents_of_unclassed hcls ▸ hok, hkeyed, hcls⟩
  · rintro ⟨hok, hkeyed, hcls⟩
    have hdocuments := documents_of_unclassed hcls
    have hrecords := saveAll_exportState hkeyed
    refine ⟨_, importState_empty.mpr ⟨by rwa [hdocuments], rfl⟩, ?_, ?_, ?_⟩
    · intro k
      rw [hdocuments, exportState, hrecords, exportState]
    · intro k id
      rw [hdocuments, get, hrecords, get]
    · intro k keep
      rw [hdocuments, list, hrecords, list]

end MemoryStore

/-! ## The SQLite store -/

/-- `_RECORD_MODELS`: the class that the type of a record names. -/
def recordModel : RecordType → RecordClass
  | .evidenceArtifact => .evidenceArtifact
  | .observation => .observation
  | .assertion => .assertion
  | .goal => .goal
  | .constraint => .constraint
  | .experiment => .experiment
  | .decision => .decisionRecord
  | .action => .actionRecord
  | .outcome => .outcomeRecord
  | .revision => .revisionRecord
  | .changeObject => .changeObjectRecord
  | .policy => .policyRecord
  | .derivation => .derivation

/-- A database: the store and the `created_at` column of its rows. -/
structure SqliteDatabase where
  store : SqliteStore
  created : Kind → String → String

/-- `ORDER BY created_at DESC, id DESC`, on pairs of the two columns. -/
def rowPrecedes (a b : String × String) : Prop := b.1 < a.1 ∨ (a.1 = b.1 ∧ b.2 ≤ a.2)

instance : DecidableRel rowPrecedes := fun a b =>
  inferInstanceAs (Decidable (b.1 < a.1 ∨ (a.1 = b.1 ∧ b.2 ≤ a.2)))

instance : Std.Total rowPrecedes where
  total a b := by
    rcases lt_trichotomy a.1 b.1 with h | h | h
    · exact .inr (.inl h)
    · rcases le_total a.2 b.2 with h' | h'
      · exact .inr (.inr ⟨h.symm, h'⟩)
      · exact .inl (.inr ⟨h, h'⟩)
    · exact .inl (.inl h)

instance : IsTrans (String × String) rowPrecedes where
  trans a b c := by
    rintro (h | ⟨h, hid⟩) (h' | ⟨h', hid'⟩)
    · exact .inl (h'.trans h)
    · exact .inl (h' ▸ h)
    · exact .inl (h ▸ h')
    · exact .inr ⟨h.trans h', hid'.trans hid⟩

theorem rowPrecedes_antisymm {a b : String × String} (h : rowPrecedes a b)
    (h' : rowPrecedes b a) : a = b := by
  rcases h with h | ⟨h, hid⟩
  · rcases h' with h' | ⟨h', -⟩
    · exact absurd h (lt_asymm h')
    · exact absurd h (h' ▸ lt_irrefl _)
  · rcases h' with h' | ⟨-, hid'⟩
    · exact absurd h' (h ▸ lt_irrefl _)
    · exact Prod.ext h (le_antisymm hid' hid)

theorem SqliteStore.importState_eq_ok {digest : Json → String} {now : Time} {st st' : SqliteStore}
    {state : State} : st.importState digest now state = .ok st' ↔
      MemoryStore.assertImportableEvents (MemoryStore.asImported state).events = .ok () ∧
      assertValidStateTransition st.exportState
        (MemoryStore.importCandidate st.exportState (MemoryStore.asImported state))
        (MemoryStore.asImported state) = .ok () ∧
      Valid now (MemoryStore.importCandidate st.exportState (MemoryStore.asImported state)) ∧
      validateVerifiedOutcomeAuthorityGraph digest now
        (MemoryStore.importCandidate st.exportState (MemoryStore.asImported state)) = .ok () ∧
      { st with records := fun k =>
          (st.records k).setAll k.identifier (MemoryStore.asImported state k) } = st' := by
  simp only [importState, Result.check_eq_ok, Result.pure_eq_ok, assertValidStateGraph_eq_ok]

theorem SqliteStore.atomicGraphSave_eq_ok {now : Time} {st st' : SqliteStore} {k : Kind}
    {v : Model k} : st.atomicGraphSave now k v = .ok st' ↔
      MemoryStore.terminalWrite k v = false ∧ Valid now (st.exportState.merge k [v]) ∧
        st.save k v = st' := by
  simp only [atomicGraphSave, MemoryStore.rejectUnprovenTerminalWrite, Result.check_eq_ok,
    Result.pure_eq_ok, guardValue_eq_ok, assertValidCandidateWrite, assertValidStateGraph_eq_ok,
    Bool.not_eq_true']

namespace SqliteDatabase

def empty : SqliteDatabase := { store := SqliteStore.empty, created := fun _ _ => "" }

/-- The documents of the rows, which hold no class. -/
def exportState (db : SqliteDatabase) : State := db.store.exportState.documents

/-- A saved row takes the text of its document's `created_at` in its column. -/
def atomicGraphSave (now : Time) (db : SqliteDatabase) (k : Kind) (value : Model k) :
    Result SqliteDatabase := do
  let store ← db.store.atomicGraphSave now k value
  return { store
           created := fun k' id =>
             if k' = k ∧ id = k.identifier value then Text.dateTime (k.createdAt value) ++ "Z"
             else db.created k' id }

/-- Imported rows take `created_at.isoformat()` in their column. -/
def importState (digest : Json → String) (now : Time) (db : SqliteDatabase) (state : State) :
    Result SqliteDatabase := do
  let store ← db.store.importState digest now state
  return { store
           created := fun k id => (State.find (state k) id).elim (db.created k id)
             (fun v => Text.isoformat (k.createdAt v)) }

/-- The rows of a kind in the order `_list` reads them. -/
def rows (db : SqliteDatabase) (k : Kind) : List (String × Model k) :=
  (db.store.records k).entries.insertionSort
    (fun a b => rowPrecedes (db.created k a.1, a.1) (db.created k b.1, b.1))

section Read

-- `model_validate` of a class, on the document of a record.
variable (modelValidate : RecordClass → Fields → Result BaseRecord)

/-- A row is read back as its kind's model, a record by its type. -/
def restore : (k : Kind) → Model k → Result (Model k)
  | .record, (r : BaseRecord) => modelValidate (recordModel r.recordType) r.dump
  | _, v => .ok v

/-- `_get`, and `get_run` with the lease of the run laid over it. -/
def get (db : SqliteDatabase) : (k : Kind) → String → Result (Option (Model k))
  | .run, id => .ok (db.store.getRun id)
  | k, id => ((db.store.records k).get? id).mapM (restore modelValidate k)

/-- `_list` under the filter of a caller. -/
def list (db : SqliteDatabase) (k : Kind) (keep : Model k → Bool) : Result (List (Model k)) := do
  return (← ((db.rows k).map Prod.snd).mapM (restore modelValidate k)).filter keep

/-- An import of the export into an empty store is accepted, and nothing that can be read
tells the two stores apart. -/
def RoundTrips (digest : Json → String) (now : Time) (db : SqliteDatabase) : Prop :=
  ∃ db', empty.importState digest now db.exportState = .ok db' ∧
    (∀ k, (db'.exportState k).map k.dump = (db.exportState k).map k.dump) ∧
    (∀ k id, db'.get modelValidate k id = db.get modelValidate k id) ∧
    ∀ k keep, db'.list modelValidate k keep = db.list modelValidate k keep

/-- Every stored record can be read, and reads under its own identity. -/
def Readable (db : SqliteDatabase) : Prop :=
  ∀ id r, (db.store.records .record).get? id = some r →
    ∃ read, restore modelValidate .record r = .ok read ∧ read.id = r.id

end Read

/-- What an export does not carry is what an import makes of it: the keys of the rows are
the identities of their objects, no lease differs from its mirror in the stored run, and
the `created_at` column orders the rows as the text that an import puts there. -/
structure Reproducible (db : SqliteDatabase) : Prop where
  keyed : ∀ k id v, (db.store.records k).get? id = some v → k.identifier v = id
  mirrored : ∀ id run lease, db.store.loadRunPayload id = some run →
    db.store.leases.get? id = some lease → lease.overlay run = run
  ordered : ∀ k, ∀ a ∈ (db.store.records k).entries, ∀ b ∈ (db.store.records k).entries,
    (rowPrecedes (db.created k a.1, a.1) (db.created k b.1, b.1) ↔
      rowPrecedes (Text.isoformat (k.createdAt a.2), a.1) (Text.isoformat (k.createdAt b.2), b.1))

/-! ### What an import of a state builds -/

theorem atomicGraphSave_eq_ok {now : Time} {db db' : SqliteDatabase} {k : Kind} {v : Model k} :
    db.atomicGraphSave now k v = .ok db' ↔ MemoryStore.terminalWrite k v = false ∧
      Valid now (db.store.exportState.merge k [v]) ∧
      { store := db.store.save k v
        created := fun k' id => if k' = k ∧ id = k.identifier v then
          Text.dateTime (k.createdAt v) ++ "Z" else db.created k' id } = db' := by
  simp only [atomicGraphSave, Result.bind_eq_ok, SqliteStore.atomicGraphSave_eq_ok,
    Result.pure_eq_ok]
  constructor
  · rintro ⟨store, ⟨hterminal, hvalid, rfl⟩, hdb⟩
    exact ⟨hterminal, hvalid, hdb⟩
  · rintro ⟨hterminal, hvalid, hdb⟩
    exact ⟨_, ⟨hterminal, hvalid, rfl⟩, hdb⟩

/-- The database that holds exactly the objects of a state. -/
def holding (s : State) : SqliteDatabase where
  store := { records := fun k => Dict.empty.setAll k.identifier (s k) }
  created := fun k id => (State.find (s k) id).elim "" (fun v => Text.isoformat (k.createdAt v))

variable {digest : Json → String} {now : Time} {db db' : SqliteDatabase} {s : State} {k : Kind}
  {modelValidate : RecordClass → Fields → Result BaseRecord}

theorem importState_empty : empty.importState digest now s.documents = .ok db' ↔
    Importable digest now s.documents ∧ holding s.documents = db' := by
  have hexport : SqliteStore.empty.exportState = State.none := rfl
  have hdocuments : MemoryStore.asImported s.documents = s.documents := by
    funext k
    rw [asImported_eq, State.documents, State.documents, List.map_map]
    refine List.map_congr_left (fun v _ => ?_)
    cases k <;> rfl
  have hstore (store : SqliteStore) : empty.store.importState digest now s.documents = .ok store ↔
      Importable digest now s.documents ∧ (holding s.documents).store = store := by
    rw [empty, SqliteStore.importState_eq_ok, hdocuments, hexport, State.importCandidate_none]
    constructor
    · rintro ⟨hevents, -, hvalid, hauthority, rfl⟩
      exact ⟨⟨hevents, hvalid, hauthority⟩, rfl⟩
    · rintro ⟨h, rfl⟩
      exact ⟨h.events, State.transition_none (valid_iff.mp h.valid).identified, h.valid,
        h.authority, rfl⟩
  simp only [importState, Result.bind_eq_ok, Result.pure_eq_ok, hstore]
  constructor
  · rintro ⟨store, ⟨h, rfl⟩, rfl⟩
    exact ⟨h, rfl⟩
  · rintro ⟨h, rfl⟩
    exact ⟨_, ⟨h, rfl⟩, rfl⟩

theorem importState_exportState : empty.importState digest now db.exportState = .ok db' ↔
    Importable digest now db.exportState ∧ holding db.exportState = db' := importState_empty

theorem get?_holding (h : s.WellIdentified) {id : String} {v : Model k} :
    ((holding s).store.records k).get? id = some v ↔ v ∈ s k ∧ k.identifier v = id :=
  Dict.get?_setAll_empty (h.bucket_nodup k)

theorem created_holding (h : s.WellIdentified) {v : Model k} (hv : v ∈ s k) :
    (holding s).created k (k.identifier v) = Text.isoformat (k.createdAt v) := by
  have hfind : State.find (s k) (k.identifier v) = some v :=
    (State.find_eq_some (h.bucket_nodup k)).mpr ⟨hv, rfl⟩
  simp only [holding, hfind, Option.elim_some]

theorem mem_exportState {v : Model k} : v ∈ db.exportState k ↔
    ∃ id w, (db.store.records k).get? id = some w ∧ k.document w = v := by
  simp only [exportState, State.documents, SqliteStore.exportState, List.mem_map,
    List.mem_insertionSort, Dict.get?_eq_some, Prod.exists]
  constructor
  · rintro ⟨w, ⟨id, u, hmem, rfl⟩, rfl⟩
    exact ⟨id, u, hmem, rfl⟩
  · rintro ⟨id, w, hmem, rfl⟩
    exact ⟨w, ⟨id, w, hmem, rfl⟩, rfl⟩

/-- A row and its document read the same. -/
theorem restore_document (v : Model k) :
    restore modelValidate k (k.document v) = restore modelValidate k v := by
  cases k <;> rfl

/-- The rows of an export as rows of its documents. -/
def documentRow (k : Kind) (e : String × Model k) : String × Model k := (e.1, k.document e.2)

section Keyed

variable (hkeyed : ∀ k id v, (db.store.records k).get? id = some v → k.identifier v = id)
include hkeyed

theorem get?_holding_exportState (h : db.exportState.WellIdentified) (id : String) :
    ((holding db.exportState).store.records k).get? id =
      ((db.store.records k).get? id).map k.document := by
  ext v
  rw [get?_holding h, mem_exportState, Option.map_eq_some_iff]
  constructor
  · rintro ⟨⟨id', w, hw, rfl⟩, hid⟩
    rw [Kind.identifier_document, hkeyed k id' w hw] at hid
    exact ⟨w, hid ▸ hw, rfl⟩
  · rintro ⟨w, hw, rfl⟩
    exact ⟨⟨id, w, hw, rfl⟩, by rw [Kind.identifier_document, hkeyed k id w hw]⟩

theorem created_holding_exportState (h : db.exportState.WellIdentified) {e : String × Model k}
    (he : e ∈ (db.store.records k).entries) :
    (holding db.exportState).created k e.1 = Text.isoformat (k.createdAt e.2) := by
  have hget := Dict.get?_eq_some.mpr he
  have hdocument : k.document e.2 ∈ db.exportState k := mem_exportState.mpr ⟨e.1, e.2, hget, rfl⟩
  have hcreated := created_holding h hdocument
  rwa [Kind.identifier_document, Kind.createdAt_document, hkeyed k e.1 e.2 hget] at hcreated

/-- The import stores the rows in the order of the export. -/
theorem entries_holding_exportState (h : db.exportState.WellIdentified) :
    ((holding db.exportState).store.records k).entries =
      ((db.store.records k).entries.insertionSort (fun a b => a.1 ≤ b.1)).map (documentRow k) := by
  have hdistinct := h.bucket_nodup k
  show (Dict.empty.setAll k.identifier (db.exportState k)).entries = _
  rw [Dict.setAll_empty,
    Dict.entries_ofPairs (by simpa [List.map_map, Function.comp_def] using hdistinct)]
  simp only [exportState, State.documents, SqliteStore.exportState, List.map_map]
  refine List.map_congr_left (fun e he => ?_)
  have hid : k.identifier e.2 = e.1 :=
    hkeyed k e.1 e.2 (Dict.get?_eq_some.mpr ((List.mem_insertionSort _).mp he))
  simp [documentRow, hid]

theorem exportState_holding (h : db.exportState.WellIdentified) :
    (holding db.exportState).exportState = db.exportState := by
  funext k
  have hsorted : (((holding db.exportState).store.records k).entries).Pairwise
      (fun a b => a.1 ≤ b.1) := by
    rw [entries_holding_exportState hkeyed h, List.pairwise_map]
    exact List.pairwise_insertionSort _ _
  rw [exportState, State.documents, SqliteStore.exportState, hsorted.insertionSort_eq,
    entries_holding_exportState hkeyed h, exportState, State.documents, SqliteStore.exportState,
    List.map_map, List.map_map, List.map_map]
  refine List.map_congr_left (fun e _ => ?_)
  cases k <;> rfl

/-- Read in the order of the column, the imported rows are the documents of the rows. -/
theorem rows_holding (h : db.exportState.WellIdentified) (hdb : db.Reproducible) :
    (holding db.exportState).rows k = (db.rows k).map (documentRow k) := by
  have hentries := @entries_holding_exportState db k hkeyed h
  have hperm : ((holding db.exportState).store.records k).entries.Perm
      ((db.store.records k).entries.map (documentRow k)) := by
    rw [hentries]
    exact (List.perm_insertionSort _ _).map _
  refine List.Perm.eq_of_pairwise ?_ (List.pairwise_insertionSort _ _) ?_
    ((List.perm_insertionSort _ _).trans (hperm.trans ((List.perm_insertionSort _ _).map _).symm))
  · intro a b ha hb hab hba
    have hkey : a.1 = b.1 := congrArg Prod.snd (rowPrecedes_antisymm hab hba)
    have hmem := (List.mem_insertionSort _).mp ha
    obtain ⟨e, he, rfl⟩ := List.mem_map.mp hb
    have he' : documentRow k e ∈ ((holding db.exportState).store.records k).entries :=
      hperm.mem_iff.mpr (List.mem_map_of_mem ((List.mem_insertionSort _).mp he))
    exact List.inj_on_of_nodup_map ((holding db.exportState).store.records k).nodup hmem he' hkey
  · rw [List.pairwise_map]
    refine (List.pairwise_insertionSort (fun a b => rowPrecedes (db.created k a.1, a.1)
      (db.created k b.1, b.1)) (db.store.records k).entries).imp_of_mem ?_
    intro a b ha hb hab
    have ha' := (List.mem_insertionSort _).mp ha
    have hb' := (List.mem_insertionSort _).mp hb
    show rowPrecedes ((holding db.exportState).created k a.1, a.1)
      ((holding db.exportState).created k b.1, b.1)
    rw [created_holding_exportState hkeyed h ha', created_holding_exportState hkeyed h hb']
    exact (hdb.ordered k a ha' b hb').mp hab

end Keyed

theorem get_holding (h : db.exportState.WellIdentified) (hdb : db.Reproducible) (id : String) :
    (holding db.exportState).get modelValidate k id = db.get modelValidate k id := by
  have hrow := @get?_holding_exportState db k hdb.keyed h id
  by_cases hk : k = .run
  · subst hk
    have hpayload : (holding db.exportState).store.getRun id = db.store.loadRunPayload id := by
      rw [SqliteStore.getRun, SqliteStore.loadRunPayload, hrow, SqliteStore.loadRunPayload]
      cases (db.store.records .run).get? id <;> rfl
    have hmirror : db.store.getRun id = db.store.loadRunPayload id := by
      rw [SqliteStore.getRun]
      cases hrun : db.store.loadRunPayload id with
      | none => rfl
      | some run =>
        cases hlease : db.store.leases.get? id with
        | none => rfl
        | some lease => exact congrArg some (hdb.mirrored id run lease hrun hlease)
    show Except.ok ((holding db.exportState).store.getRun id) = Except.ok (db.store.getRun id)
    rw [hpayload, hmirror]
  · have hread (d : SqliteDatabase) : d.get modelValidate k id =
        ((d.store.records k).get? id).mapM (restore modelValidate k) := by
      cases k <;> first | rfl | exact absurd rfl hk
    rw [hread, hread, hrow]
    cases (db.store.records k).get? id with
    | none => rfl
    | some v => exact congrArg (Functor.map some) (restore_document v)

theorem list_holding (h : db.exportState.WellIdentified) (hdb : db.Reproducible)
    (keep : Model k → Bool) :
    (holding db.exportState).list modelValidate k keep = db.list modelValidate k keep := by
  have hread : (((holding db.exportState).rows k).map Prod.snd).mapM (restore modelValidate k) =
      ((db.rows k).map Prod.snd).mapM (restore modelValidate k) := by
    rw [rows_holding hdb.keyed h hdb, List.map_map, List.mapM_map, List.mapM_map]
    congr 1
    funext e
    exact restore_document e.2
  rw [list, hread, list]

theorem roundTrips_of_reproducible (h : Importable digest now db.exportState)
    (hdb : db.Reproducible) : db.RoundTrips modelValidate digest now := by
  have hid := (valid_iff.mp h.valid).identified
  refine ⟨_, importState_exportState.mpr ⟨h, rfl⟩, fun k => ?_,
    fun k id => get_holding hid hdb id, fun k keep => list_holding hid hdb keep⟩
  rw [exportState_holding hdb.keyed hid]

/-! ### What two databases that read alike have in common -/

theorem get_of_none {id : String} (h : (db.store.records k).get? id = none) :
    db.get modelValidate k id = .ok none := by
  cases k with
  | run => simp [get, SqliteStore.getRun, SqliteStore.loadRunPayload, h]
  | _ => simp [get, h, pure, Except.pure]

theorem exists_restore (hread : db.Readable modelValidate) {id : String} {v : Model k}
    (hv : (db.store.records k).get? id = some v) :
    ∃ read, restore modelValidate k v = .ok read ∧ k.identifier read = k.identifier v := by
  cases k with
  | record => exact hread id v hv
  | _ => exact ⟨v, rfl, rfl⟩

theorem exists_get (hread : db.Readable modelValidate) {id : String} {v : Model k}
    (hv : (db.store.records k).get? id = some v) :
    ∃ read, db.get modelValidate k id = .ok (some read) ∧ k.identifier read = k.identifier v := by
  obtain ⟨read, hrestore, hid⟩ := exists_restore hread hv
  cases k with
  | run =>
    cases hlease : db.store.leases.get? id with
    | none =>
      exact ⟨v, by simp [get, SqliteStore.getRun, SqliteStore.loadRunPayload, hv, hlease], rfl⟩
    | some lease =>
      exact ⟨lease.overlay v,
        by simp [get, SqliteStore.getRun, SqliteStore.loadRunPayload, hv, hlease], rfl⟩
  | _ => exact ⟨read, by simp [get, hv, hrestore], hid⟩

theorem readable_holding (h : db.exportState.WellIdentified) (hread : db.Readable modelValidate) :
    (holding db.exportState).Readable modelValidate := by
  intro id r hr
  obtain ⟨hmem, -⟩ := (get?_holding h).mp hr
  obtain ⟨id', w, hw, rfl⟩ := mem_exportState.mp hmem
  exact hread id' w hw

section Alike

variable (h : db.exportState.WellIdentified) (hread : db.Readable modelValidate)
include h hread

theorem keyed_of_get (hget : ∀ k id, (holding db.exportState).get modelValidate k id =
    db.get modelValidate k id) (k : Kind) (id : String) (v : Model k)
    (hv : (db.store.records k).get? id = some v) : k.identifier v = id := by
  obtain ⟨read, hgot, hsame⟩ := exists_get hread hv
  rw [← hget] at hgot
  cases hrow : ((holding db.exportState).store.records k).get? id with
  | none =>
    rw [get_of_none hrow] at hgot
    exact absurd hgot (by simp)
  | some w =>
    obtain ⟨read', hgot', hsame'⟩ := exists_get (readable_holding h hread) hrow
    rw [hgot', Except.ok.injEq, Option.some.injEq] at hgot
    rw [← hsame, ← hgot, hsame']
    exact ((get?_holding h).mp hrow).2

theorem mirrored_of_get (hget : ∀ k id, (holding db.exportState).get modelValidate k id =
    db.get modelValidate k id) (id : String) (run : Run) (lease : LeaseRow)
    (hrun : db.store.loadRunPayload id = some run) (hlease : db.store.leases.get? id = some lease) :
    lease.overlay run = run := by
  have hrow : ((holding db.exportState).store.records .run).get? id = some run := by
    rw [get?_holding_exportState (keyed_of_get h hread hget) h]
    exact congrArg (Option.map (Kind.document .run)) hrun
  have hsame : (holding db.exportState).store.getRun id = db.store.getRun id :=
    Except.ok.inj (hget .run id)
  rw [SqliteStore.getRun, SqliteStore.getRun, hrun, hlease, SqliteStore.loadRunPayload, hrow] at hsame
  exact (Option.some.inj hsame).symm

end Alike

/-- A list of rows that can be read reads under the identities of the rows. -/
theorem exists_mapM_restore {values : List (Model k)}
    (h : ∀ v ∈ values, ∃ read, restore modelValidate k v = .ok read ∧
      k.identifier read = k.identifier v) :
    ∃ reads, values.mapM (restore modelValidate k) = .ok reads ∧
      reads.map k.identifier = values.map k.identifier := by
  induction values with
  | nil => exact ⟨[], rfl, rfl⟩
  | cons v rest ih =>
    obtain ⟨read, hread, hid⟩ := h v List.mem_cons_self
    obtain ⟨reads, hreads, hids⟩ := ih (fun w hw => h w (List.mem_cons_of_mem _ hw))
    refine ⟨read :: reads, ?_, ?_⟩
    · rw [List.mapM_cons, hread]
      simp only [bind, Except.bind, hreads]
      rfl
    · rw [List.map_cons, List.map_cons, hid, hids]

theorem mem_rows {e : String × Model k} : e ∈ db.rows k ↔
    (db.store.records k).get? e.1 = some e.2 := by
  rw [rows, List.mem_insertionSort, Dict.get?_eq_some]

/-- What `_list` returns shows the order of the keys. -/
theorem exists_list (hread : db.Readable modelValidate)
    (hkeyed : ∀ k id v, (db.store.records k).get? id = some v → k.identifier v = id) :
    ∃ reads, db.list modelValidate k (fun _ => true) = .ok reads ∧
      reads.map k.identifier = (db.rows k).map Prod.fst := by
  obtain ⟨reads, hreads, hids⟩ := @exists_mapM_restore k modelValidate ((db.rows k).map Prod.snd)
    (fun v hv => by
      obtain ⟨e, he, rfl⟩ := List.mem_map.mp hv
      exact exists_restore hread (mem_rows.mp he))
  refine ⟨reads, ?_, ?_⟩
  · rw [list, hreads]
    exact congrArg Except.ok (List.filter_eq_self.mpr (fun _ _ => rfl))
  · rw [hids, List.map_map]
    exact List.map_congr_left (fun e he => hkeyed k e.1 e.2 (mem_rows.mp he))

theorem pairwise_rows (db : SqliteDatabase) (k : Kind) :
    ((db.rows k).map Prod.fst).Pairwise
      (fun x y => rowPrecedes (db.created k x, x) (db.created k y, y)) := by
  rw [List.pairwise_map]
  exact List.pairwise_insertionSort _ _

theorem reproducible_of_roundTrips (hread : db.Readable modelValidate)
    (h : db.RoundTrips modelValidate digest now) :
    Importable digest now db.exportState ∧ db.Reproducible := by
  obtain ⟨db', himport, -, hget, hlist⟩ := h
  obtain ⟨hok, rfl⟩ := importState_exportState.mp himport
  have hid := (valid_iff.mp hok.valid).identified
  have hkeyed := keyed_of_get hid hread hget
  refine ⟨hok, hkeyed, mirrored_of_get hid hread hget, ?_⟩
  intro k a ha b hb
  have hkeyed' (k : Kind) (id : String) (v : Model k)
      (hv : ((holding db.exportState).store.records k).get? id = some v) : k.identifier v = id :=
    ((get?_holding hid).mp hv).2
  obtain ⟨reads, hreads, hids⟩ := @exists_list db k modelValidate hread hkeyed
  obtain ⟨reads', hreads', hids'⟩ :=
    @exists_list (holding db.exportState) k modelValidate (readable_holding hid hread) hkeyed'
  have hkeys : ((holding db.exportState).rows k).map Prod.fst = (db.rows k).map Prod.fst := by
    have hsame := hlist k (fun _ => true)
    rw [hreads, hreads', Except.ok.injEq] at hsame
    rw [← hids, ← hids', hsame]
  have hrefl (d : SqliteDatabase) (x : String) :
      rowPrecedes (d.created k x, x) (d.created k x, x) := .inr ⟨rfl, le_rfl⟩
  have hanti (d : SqliteDatabase) (x y : String)
      (hxy : rowPrecedes (d.created k x, x) (d.created k y, y))
      (hyx : rowPrecedes (d.created k y, y) (d.created k x, x)) : x = y :=
    congrArg Prod.snd (rowPrecedes_antisymm hxy hyx)
  have hmem (e : String × Model k) (he : e ∈ (db.store.records k).entries) :
      e.1 ∈ (db.rows k).map Prod.fst :=
    List.mem_map_of_mem (mem_rows.mpr (Dict.get?_eq_some.mpr he))
  have hsame := rel_iff_of_pairwise (pairwise_rows db k)
    (hkeys ▸ pairwise_rows (holding db.exportState) k) (fun x => ⟨hrefl db x, hrefl _ x⟩)
    (hanti db) (hanti _) (hmem a ha) (hmem b hb)
  rwa [created_holding_exportState hkeyed hid ha, created_holding_exportState hkeyed hid hb]
    at hsame

end SqliteDatabase

/-- A store round-trips exactly when the import's own checks accept its state and the store
holds nothing that the documents do not say: no object under another identity and no record
with a class of its own in memory; no such object, no lease beside its mirror and no other
order of the rows in SQLite, where the records can be read. -/
theorem export_import_roundTrip (digest : Json → String) :
    (∀ (now : Time) (st : MemoryStore), st.RoundTrips digest now ↔
      Importable digest now st.exportState ∧ st.Keyed ∧ st.Unclassed) ∧
    (∀ (now : Time) (ops : List MemoryStore.Op),
      Along (MemoryStore.stepAt digest now) (MemoryStore.Conforming digest now) .empty ops →
      ((run (MemoryStore.stepAt digest now) .empty ops).RoundTrips digest now ↔
        MemoryStore.assertImportableEvents
            (run (MemoryStore.stepAt digest now) .empty ops).exportState.events = .ok () ∧
          validateVerifiedOutcomeAuthorityGraph digest now
            (run (MemoryStore.stepAt digest now) .empty ops).exportState = .ok () ∧
          (run (MemoryStore.stepAt digest now) .empty ops).Unclassed)) ∧
    ∀ (modelValidate : RecordClass → Fields → Result BaseRecord) (now : Time)
      (db : SqliteDatabase),
      (Importable digest now db.exportState ∧ db.Reproducible →
        db.RoundTrips modelValidate digest now) ∧
      (db.Readable modelValidate → db.RoundTrips modelValidate digest now →
        Importable digest now db.exportState ∧ db.Reproducible) := by
  refine ⟨fun now st => MemoryStore.roundTrips_iff, fun now ops h => ?_, fun modelValidate now db =>
    ⟨fun hdb => SqliteDatabase.roundTrips_of_reproducible hdb.1 hdb.2,
      fun hread => SqliteDatabase.reproducible_of_roundTrips hread⟩⟩
  have hsound := run_invariant (fun _ _ hst hC => MemoryStore.Sound.stepAt hst hC)
    MemoryStore.sound_empty h
  rw [MemoryStore.roundTrips_iff]
  constructor
  · rintro ⟨hok, -, hcls⟩
    exact ⟨hok.events, hok.authority, hcls⟩
  · rintro ⟨hevents, hauthority, hcls⟩
    exact ⟨⟨hevents, hsound.valid, hauthority⟩, hsound.keyed, hcls⟩

/-! ## A goal, and two works of one second -/

def savedGoal : BaseRecord :=
  { cls := .goal, id := "record_1", recordType := .goal, createdAt := 0,
    lifecycleStatus := .proposed,
    fields := [("direction", .str ""), ("completion_criteria", .arr []), ("claimed_by", .null),
      ("source", .null)] }

def earlyWork : Work := { id := "work_1", createdAt := 0, title := "", updatedAt := 0 }

def lateWork : Work := { id := "work_2", createdAt := 500000, title := "", updatedAt := 0 }

/-- A goal comes back as a plain base record; and the later of two works, listed last before
the export because `.` sorts before `Z`, is listed first after the import because `+` sorts
before `.`. -/
theorem goal_and_works_do_not_roundTrip :
    (¬ ∀ (digest : Json → String) (now : Time) (ops : List MemoryStore.Op),
      MemoryStore.assertImportableEvents
          (run (MemoryStore.stepAt digest now) .empty ops).exportState.events = .ok () →
        (run (MemoryStore.stepAt digest now) .empty ops).RoundTrips digest now) ∧
    ∃ db₁ db₂, SqliteDatabase.empty.atomicGraphSave 0 .work earlyWork = .ok db₁ ∧
      db₁.atomicGraphSave 0 .work lateWork = .ok db₂ ∧
      ∀ modelValidate digest now, ¬ db₂.RoundTrips modelValidate digest now := by
  constructor
  · intro h
    have hgoal := (MemoryStore.roundTrips_iff.mp (h (fun _ => "") 0 [.save .record savedGoal]
      (by decide))).2.2
    have hcls : ((run (MemoryStore.stepAt (fun _ => "") 0) .empty
        [.save .record savedGoal]).exportState.records.map BaseRecord.cls) = [.goal] := by
      decide
    obtain ⟨r, hr, hrcls⟩ := List.mem_map.mp (hcls ▸ List.mem_singleton_self RecordClass.goal)
    exact absurd ((hgoal r hr).symm.trans hrcls) (by decide)
  · refine ⟨_, _, SqliteDatabase.atomicGraphSave_eq_ok.mpr ⟨rfl, by decide, rfl⟩,
      SqliteDatabase.atomicGraphSave_eq_ok.mpr ⟨rfl, by decide, rfl⟩, ?_⟩
    intro modelValidate digest now h
    have hordered := (SqliteDatabase.reproducible_of_roundTrips
      (fun id r hr => absurd hr (by simp [SqliteDatabase.empty, SqliteStore.empty, SqliteStore.save,
        SqliteStore.put])) h).2.ordered .work ("work_1", earlyWork)
      (Dict.get?_eq_some.mp rfl) ("work_2", lateWork) (Dict.get?_eq_some.mp rfl)
    exact absurd hordered (by decide)

end PortableRuntime
