import PortableRuntime.Core.Models
import PortableRuntime.Governance.Projection

/-!
# Governance history in the journal

The journal of the runtime keeps governance events among others, each with a payload of plain
values.  Writing an object and reading it back gives the object, so that a journal is read as the
events that were recorded, and an event of another version stops the reading.
-/

namespace PortableRuntime

theorem FrozenSet.ofList_items (s : FrozenSet) : FrozenSet.ofList s.items = s := by
  apply FrozenSet.ext_items
  have hnodup : s.items.Nodup := s.ascending.imp (fun h => ne_of_lt h)
  show (s.items.dedup).insertionSort (· ≤ ·) = s.items
  rw [hnodup.dedup]
  exact List.Pairwise.insertionSort_eq (s.ascending.imp (fun h => le_of_lt h))

namespace Governance

def governanceHistorySchema : String := "distinction-governance-history-v1"
def distinctionGovernanceContractVersion : String := "distinction-governance-1.0"

def governanceStateSeeded : String := "governance.distinction.state.seeded"
def governanceReviewOpened : String := "governance.distinction.review.opened"
def governanceDecisionRecorded : String := "governance.distinction.decision.recorded"
def governanceApplicationCommitted : String := "governance.distinction.application.committed"
def governanceEventProcessed : String := "governance.distinction.event.processed"

def governanceHistoryEventTypes : List String :=
  [governanceStateSeeded, governanceReviewOpened, governanceDecisionRecorded,
    governanceApplicationCommitted, governanceEventProcessed]

/-! ## Payloads -/

def historyPayload (values : Fields) : Fields :=
  [("schema_version", .str governanceHistorySchema),
   ("contract_version", .str distinctionGovernanceContractVersion)] ++ values

def blockingPayload (value : Option BlockingCondition) : Json :=
  value.elim .null (fun condition => .obj
    [("context_names", .ofStrings condition.contextNames.items),
     ("scope_any", .ofStrings condition.scopeAny.items),
     ("scope_all", .ofStrings condition.scopeAll.items)])

def partitionPayload (partition : Partition) : Json :=
  .arr (partition.map (fun cell => .ofStrings cell.items))

def statePayload (schemeId : String) (state : DistinctionState) : Fields :=
  [("scheme_id", .str schemeId), ("qualification", .str state.qualification),
   ("activation", .str state.activation), ("scope", .ofStrings state.scope.items),
   ("partition", partitionPayload state.partition), ("version", .int state.version)]

def obligationPayload (value : ReviewObligation) : Fields :=
  [("id", .str value.id), ("target", .str value.target), ("trigger_ref", .str value.triggerRef),
   ("basis_refs", .ofStrings value.basisRefs), ("context", .str value.context),
   ("blocking", .bool value.blocking),
   ("blocking_condition", blockingPayload value.blockingCondition),
   ("closure_requirements", .ofStrings value.closureRequirements.items),
   ("invalidates_decisions", .ofStrings value.invalidatesDecisions.items)]

def decisionPayload (value : GovernanceDecision) : Fields :=
  [("id", .str value.id), ("actor", .str value.actor), ("operation", .str value.operation),
   ("target", .str value.target), ("context", .str value.context),
   ("review_refs", .ofStrings value.reviewRefs), ("disposition", .str value.disposition),
   ("expected_state_anchor", .str value.expectedStateAnchor),
   ("basis_anchors", .arr (value.basisAnchors.map (fun item => .ofStrings [item.1, item.2]))),
   ("scope_snapshot", .ofStrings value.scopeSnapshot.items),
   ("partition_snapshot", partitionPayload value.partitionSnapshot),
   ("closure_facts", .ofStrings value.closureFacts.items),
   ("required_qualification", .ofOption value.requiredQualification),
   ("required_activation", .ofOption value.requiredActivation),
   ("superseded", .bool value.superseded)]

/-- The application inside of a receipt. -/
def governedPayload (application : GovernedApplication) : Fields :=
  [("id", .str application.id), ("actor", .str application.actor),
   ("operation", .str application.operation), ("scheme_id", .str application.schemeId),
   ("target", .str application.target), ("decision_ref", .str application.decisionRef),
   ("context", .str application.context),
   ("new_qualification", .ofOption application.newQualification),
   ("new_activation", .ofOption application.newActivation),
   ("review_obligation_id", .ofOption application.reviewObligationId)]

def applicationPayload (value : ApplicationReceipt) : Fields :=
  [("application", .obj (governedPayload value.application)),
   ("effect_kind", .str value.effectKind), ("pre_anchor", .str value.preAnchor),
   ("post_anchor", .str value.postAnchor)]

/-! ## Restored objects -/

/-- `payload[name]`. -/
def subscript (payload : Fields) (name : String) : Result Json :=
  match Fields.get? name payload with
  | some value => .ok value
  | none => .error (.runtimeError (Text.pyRepr name))

/-- `item[n]` for an index that is not negative. -/
def itemAt (n : Nat) : Json → Result Json
  | .arr items =>
    match items[n]? with
    | some item => .ok item
    | none => .error (.runtimeError "list index out of range")
  | .obj _ => .error (.runtimeError (toString n))
  | .null => .error (.typeError "'NoneType' object is not subscriptable")
  | .bool _ => .error (.typeError "'bool' object is not subscriptable")
  | .int _ => .error (.typeError "'int' object is not subscriptable")
  | .float _ _ => .error (.typeError "'float' object is not subscriptable")
  | text =>
    match text.pyStr.toList[n]? with
    | some c => .ok (.str (String.singleton c))
    | none => .error (.runtimeError "string index out of range")

/-- `str(payload[name])`. -/
def strAt (payload : Fields) (name : String) : Result String :=
  Json.pyStr <$> subscript payload name

/-- `[str(item) for item in payload.get(name, [])]`. -/
def strItems (payload : Fields) (name : String) : Result (List String) := do
  let items ← (payload.getOr name (.arr [])).iterate
  return items.map Json.pyStr

def frozenItems (payload : Fields) (name : String) : Result FrozenSet :=
  FrozenSet.ofList <$> strItems payload name

def frozenCell (cell : Json) : Result FrozenSet := do
  let items ← cell.iterate
  return .ofList (items.map Json.pyStr)

def frozenCells (payload : Fields) (name : String) : Result Partition := do
  let items ← (payload.getOr name (.arr [])).iterate
  items.mapM frozenCell

/-- `None if payload.get(name) is None else str(payload[name])`. -/
def optionalStr (payload : Fields) (name : String) : Option String :=
  match payload.get name with
  | .null => none
  | value => some value.pyStr

def restoreBlocking : Json → Result (Option BlockingCondition)
  | .obj value => do
    let contextNames ← frozenItems value "context_names"
    let scopeAny ← frozenItems value "scope_any"
    let scopeAll ← frozenItems value "scope_all"
    return some { contextNames, scopeAny, scopeAll }
  | _ => return none

def restoreState (payload : Fields) : Result (String × DistinctionState) := do
  let schemeId ← strAt payload "scheme_id"
  let qualification ← strAt payload "qualification"
  let activation ← strAt payload "activation"
  let scope ← frozenItems payload "scope"
  let partition ← frozenCells payload "partition"
  let version ← versionInt (payload.getOr "version" (.int 0))
  let state := { qualification, activation, scope, partition, version }
  guardValue (stateAdmissibleFor schemeId state)
    "canonical governance history contains inadmissible state"
  return (schemeId, state)

def restoreObligation (payload : Fields) : Result ReviewObligation := do
  let id ← strAt payload "id"
  let target ← strAt payload "target"
  let triggerRef ← strAt payload "trigger_ref"
  let basisRefs ← strItems payload "basis_refs"
  let context ← strAt payload "context"
  let blocking := (payload.getOr "blocking" (.bool true)).truthy
  let blockingCondition ← restoreBlocking (payload.get "blocking_condition")
  let closureRequirements ← frozenItems payload "closure_requirements"
  let invalidatesDecisions ← frozenItems payload "invalidates_decisions"
  return { id, target, triggerRef, basisRefs, context, blocking, blockingCondition,
           closureRequirements, invalidatesDecisions }

def restoreAnchor (item : Json) : Result (String × String) := do
  let basis ← itemAt 0 item
  let anchor ← itemAt 1 item
  return (basis.pyStr, anchor.pyStr)

def restoreDecision (payload : Fields) : Result GovernanceDecision := do
  let id ← strAt payload "id"
  let actor ← strAt payload "actor"
  let operation ← strAt payload "operation"
  let target ← strAt payload "target"
  let context ← strAt payload "context"
  let reviewRefs ← strItems payload "review_refs"
  let disposition ← strAt payload "disposition"
  let expectedStateAnchor ← strAt payload "expected_state_anchor"
  let items ← (payload.getOr "basis_anchors" (.arr [])).iterate
  let basisAnchors ← items.mapM restoreAnchor
  let scopeSnapshot ← frozenItems payload "scope_snapshot"
  let partitionSnapshot ← frozenCells payload "partition_snapshot"
  let closureFacts ← frozenItems payload "closure_facts"
  return { id, actor, operation, target, context, reviewRefs, disposition, expectedStateAnchor,
           basisAnchors, scopeSnapshot, partitionSnapshot, closureFacts,
           requiredQualification := optionalStr payload "required_qualification"
           requiredActivation := optionalStr payload "required_activation"
           superseded := (payload.getOr "superseded" (.bool false)).truthy }

def restoreApplication (payload : Fields) : Result ApplicationReceipt :=
  match payload.get "application" with
  | .obj raw => do
    let id ← strAt raw "id"
    let actor ← strAt raw "actor"
    let operation ← strAt raw "operation"
    let schemeId ← strAt raw "scheme_id"
    let target ← strAt raw "target"
    let decisionRef ← strAt raw "decision_ref"
    let context ← strAt raw "context"
    let effectKind ← strAt payload "effect_kind"
    let preAnchor ← strAt payload "pre_anchor"
    let postAnchor ← strAt payload "post_anchor"
    return {
      application :=
        { id, actor, operation, schemeId, target, decisionRef, context,
          newQualification := optionalStr raw "new_qualification"
          newActivation := optionalStr raw "new_activation"
          reviewObligationId := optionalStr raw "review_obligation_id" }
      effectKind, preAnchor, postAnchor }
  | _ => raiseValue "canonical governance application payload is malformed"

/-! ## What is written is read back -/

theorem strItems_ofStrings {payload : Fields} {name : String} {l : List String}
    (h : Fields.get? name payload = some (.ofStrings l)) : strItems payload name = .ok l := by
  rw [strItems, Fields.getOr, h]
  show Except.ok ((l.map Json.str).map Json.pyStr) = _
  rw [List.map_map]
  exact congrArg Except.ok (List.map_id l)

theorem frozenItems_items {payload : Fields} {name : String} {s : FrozenSet}
    (h : Fields.get? name payload = some (.ofStrings s.items)) :
    frozenItems payload name = .ok s := by
  rw [frozenItems, strItems_ofStrings h]
  exact congrArg Except.ok s.ofList_items

theorem frozenCells_partition {payload : Fields} {name : String} {p : Partition}
    (h : Fields.get? name payload = some (partitionPayload p)) :
    frozenCells payload name = .ok p := by
  rw [frozenCells, Fields.getOr, h]
  show (p.map (fun cell => Json.ofStrings cell.items)).mapM frozenCell = .ok p
  rw [Result.mapM_eq_ok, List.forall₂_map_left_iff, List.forall₂_same]
  intro cell _
  show Except.ok (FrozenSet.ofList ((cell.items.map Json.str).map Json.pyStr)) = .ok cell
  rw [List.map_map, show Json.pyStr ∘ Json.str = id from rfl, List.map_id, cell.ofList_items]

theorem optionalStr_ofOption {payload : Fields} {name : String} {v : Option String}
    (h : payload.get name = .ofOption v) : optionalStr payload name = v := by
  rw [optionalStr, h]
  cases v with
  | none => rfl
  | some text => rfl

theorem restoreBlocking_blockingPayload (value : Option BlockingCondition) :
    restoreBlocking (blockingPayload value) = .ok value := by
  cases value with
  | none => rfl
  | some condition =>
    show (do
      let contextNames ← frozenItems _ "context_names"
      let scopeAny ← frozenItems _ "scope_any"
      let scopeAll ← frozenItems _ "scope_all"
      return some (BlockingCondition.mk contextNames scopeAny scopeAll)) = _
    rw [frozenItems_items (s := condition.contextNames) rfl,
      frozenItems_items (s := condition.scopeAny) rfl,
      frozenItems_items (s := condition.scopeAll) rfl]
    rfl

/-- An object read back is the one that was written, unless it was not admissible. -/
theorem restoreState_statePayload (schemeId : String) (state : DistinctionState) :
    restoreState (statePayload schemeId state) = (do
      guardValue (stateAdmissibleFor schemeId state)
        "canonical governance history contains inadmissible state"
      return (schemeId, state)) := by
  rw [restoreState, frozenItems_items (s := state.scope) rfl,
    frozenCells_partition (p := state.partition) rfl]
  rfl

theorem restoreObligation_obligationPayload (value : ReviewObligation) :
    restoreObligation (obligationPayload value) = .ok value := by
  rw [restoreObligation, strItems_ofStrings (l := value.basisRefs) rfl,
    frozenItems_items (s := value.closureRequirements) rfl,
    frozenItems_items (s := value.invalidatesDecisions) rfl,
    show (obligationPayload value).get "blocking_condition" =
      blockingPayload value.blockingCondition from rfl,
    restoreBlocking_blockingPayload]
  rfl

theorem restoreAnchor_pair (item : String × String) :
    restoreAnchor (.ofStrings [item.1, item.2]) = .ok item := rfl

theorem restoreDecision_decisionPayload (value : GovernanceDecision) :
    restoreDecision (decisionPayload value) = .ok value := by
  have hanchors : (value.basisAnchors.map (fun item => Json.ofStrings [item.1, item.2])).mapM
      restoreAnchor = .ok value.basisAnchors := by
    rw [Result.mapM_eq_ok, List.forall₂_map_left_iff, List.forall₂_same]
    intro item _
    exact restoreAnchor_pair item
  have hiterate : ((decisionPayload value).getOr "basis_anchors" (.arr [])).iterate =
      .ok (value.basisAnchors.map (fun item => Json.ofStrings [item.1, item.2])) := rfl
  rw [restoreDecision, strItems_ofStrings (l := value.reviewRefs) rfl, hiterate,
    frozenItems_items (s := value.scopeSnapshot) rfl,
    frozenCells_partition (p := value.partitionSnapshot) rfl,
    frozenItems_items (s := value.closureFacts) rfl,
    optionalStr_ofOption (v := value.requiredQualification) rfl,
    optionalStr_ofOption (v := value.requiredActivation) rfl]
  simp only [bind, Except.bind, hanchors]
  rfl

theorem restoreApplication_applicationPayload (value : ApplicationReceipt) :
    restoreApplication (applicationPayload value) = .ok value := by
  rw [restoreApplication, show (applicationPayload value).get "application" =
    .obj (governedPayload value.application) from rfl]
  dsimp only
  rw [optionalStr_ofOption (v := value.application.newQualification) rfl,
    optionalStr_ofOption (v := value.application.newActivation) rfl,
    optionalStr_ofOption (v := value.application.reviewObligationId) rfl]
  rfl

/-! ## Events -/

/-- `_event_id`, of the text that the digest of an identity starts with. -/
def eventId (digest : String → String) (id : EventId) : String :=
  "gov_" ++ id.1 ++ "_" ++ digest id.2

/-- The event that is appended for a governance event, at the time of the append. -/
def GovernanceEvent.event (digest : String → String) (now : Time) (e : GovernanceEvent) : Event :=
  match e with
  | .stateSeeded schemeId state =>
    { id := eventId digest e.id, createdAt := now, type := governanceStateSeeded,
      subjectRef := schemeId, payload := historyPayload [("state", .obj (statePayload schemeId state))] }
  | .reviewOpened obligation =>
    { id := eventId digest e.id, createdAt := now, type := governanceReviewOpened,
      subjectRef := obligation.target,
      payload := historyPayload [("obligation", .obj (obligationPayload obligation))] }
  | .decisionRecorded decision =>
    { id := eventId digest e.id, createdAt := now, type := governanceDecisionRecorded,
      subjectRef := decision.target,
      payload := historyPayload [("decision", .obj (decisionPayload decision))] }
  | .applicationCommitted receipt nextState =>
    { id := eventId digest e.id, createdAt := now, type := governanceApplicationCommitted,
      subjectRef := receipt.application.schemeId,
      payload := historyPayload ([("receipt", .obj (applicationPayload receipt))] ++
        nextState.elim [] (fun state =>
          [("next_state", .obj (statePayload receipt.application.schemeId state))])) }
  | .eventProcessed eventRef obligationIds =>
    { id := eventId digest e.id, createdAt := now, type := governanceEventProcessed,
      subjectRef := eventRef,
      payload := historyPayload [("event_instance_key", .str eventRef),
        ("obligation_ids", .ofStrings obligationIds)] }

/-- Reject unversioned, unknown, or incompatible governance history. -/
def validateGovernanceHistoryEvent (event : Event) : Result Unit := do
  if !governanceHistoryEventTypes.contains event.type then return ()
  let schema := event.payload.get "schema_version"
  let contract := event.payload.get "contract_version"
  guardValue (schema.eqStr governanceHistorySchema)
    (s!"unsupported governance history schema {schema.pyRepr}; expected " ++
      Text.pyRepr governanceHistorySchema)
  guardValue (contract.eqStr distinctionGovernanceContractVersion)
    (s!"unsupported governance contract version {contract.pyRepr}; expected " ++
      Text.pyRepr distinctionGovernanceContractVersion)

namespace Replay

/-- The state of a scheme, unless a version at least as great has been read. -/
def takeState (r : Replay) (read : String × DistinctionState) : Replay :=
  if (r.states.get? read.1).all (fun current => current.version < read.2.version) then
    { r with states := r.states.set read.1 read.2 }
  else r

def takeReceipt (r : Replay) (receipt : ApplicationReceipt) : Result Replay := do
  let applications ← bindIdentity r.applications receipt.application.id receipt
    "canonical history rebinds governed application identity"
  let discharged :=
    if receipt.effectKind = "review_discharge" then
      r.discharged ++ (receipt.application.reviewObligationId.filter (· ≠ "")).toList
    else r.discharged
  return { r with applications, discharged }

/-- One turn of the loop over the journal. -/
def readEvent (r : Replay) (event : Event) : Result Replay := do
  if !governanceHistoryEventTypes.contains event.type then return r
  validateGovernanceHistoryEvent event
  let payload := event.payload
  if event.type = governanceStateSeeded then
    match payload.get "state" with
    | .obj raw => return r.takeState (← restoreState raw)
    | _ => return r
  else if event.type = governanceReviewOpened then
    match payload.get "obligation" with
    | .obj raw =>
      let obligation ← restoreObligation raw
      let obligations ← bindIdentity r.obligations obligation.id obligation
        "canonical history rebinds review obligation identity"
      return { r with obligations }
    | _ => return r
  else if event.type = governanceDecisionRecorded then
    match payload.get "decision" with
    | .obj raw =>
      let decision ← restoreDecision raw
      let decisions ← bindIdentity r.decisions decision.id decision
        "canonical history rebinds governance decision identity"
      return { r with decisions }
    | _ => return r
  else if event.type = governanceApplicationCommitted then
    match payload.get "receipt" with
    | .obj raw =>
      let receipt ← restoreApplication raw
      let r ← r.takeReceipt receipt
      match payload.get "next_state" with
      | .obj raw => return r.takeState (← restoreState raw)
      | _ => return r
    | _ => return r
  else
    let key := ((payload.get "event_instance_key").pyOr (.str event.subjectRef)).pyStr
    let ids ← strItems payload "obligation_ids"
    let processed ← bindIdentity r.processed key ids
      "canonical history rebinds processed event identity"
    return { r with processed }

end Replay

/-- `reconstruct_governance_history` on the events of a journal. -/
def readGovernanceHistory (events : List Event) :
    Result (GovernanceConfiguration × Dict String (List String)) := do
  let r ← events.foldlM Replay.readEvent {}
  guardValue (globalStateAdmissible r.configuration)
    "canonical governance history reconstructs inadmissible state"
  return (r.configuration, r.processed)

/-! ## The journal and what it records -/

section Reading

variable (digest : String → String) (now : Time) (r : Replay)

theorem contains_event_type (e : GovernanceEvent) :
    governanceHistoryEventTypes.contains (e.event digest now).type = true := by
  cases e <;> rfl

theorem validate_event (e : GovernanceEvent) :
    validateGovernanceHistoryEvent (e.event digest now) = .ok () := by
  cases e <;> rfl

theorem readState_eq (schemeId : String) (state : DistinctionState) :
    r.readState schemeId state = (do
      let read ← restoreState (statePayload schemeId state)
      return r.takeState read) := by
  rw [restoreState_statePayload, Replay.readState]
  cases stateAdmissibleFor schemeId state with
  | false => rfl
  | true =>
    show (if _ then pure _ else pure _) = pure (Replay.takeState _ _)
    rw [Replay.takeState]
    split
    · rfl
    · rfl

theorem read_applicationCommitted_eq (receipt : ApplicationReceipt)
    (nextState : Option DistinctionState) :
    r.read (.applicationCommitted receipt nextState) = (do
      let r ← r.takeReceipt receipt
      match nextState with
      | some state => r.readState receipt.application.schemeId state
      | none => return r) := by
  rw [Replay.read, Replay.takeReceipt]
  cases bindIdentity r.applications receipt.application.id receipt
    "canonical history rebinds governed application identity" with
  | error e => rfl
  | ok applications => rfl

/-- A turn of the loop on the event of a record reads the record. -/
theorem readEvent_event (e : GovernanceEvent) : r.readEvent (e.event digest now) = r.read e := by
  have hread : r.readEvent (e.event digest now) = _ :=
    if_neg (by rw [contains_event_type]; decide)
  rw [hread, validate_event]
  cases e with
  | stateSeeded schemeId state =>
    show (do
      let read ← restoreState (statePayload schemeId state)
      return r.takeState read) = _
    rw [← readState_eq]
    rfl
  | reviewOpened obligation =>
    show (do
      let obligation ← restoreObligation (obligationPayload obligation)
      let obligations ← bindIdentity r.obligations obligation.id obligation _
      return { r with obligations }) = _
    rw [restoreObligation_obligationPayload]
    rfl
  | decisionRecorded decision =>
    show (do
      let decision ← restoreDecision (decisionPayload decision)
      let decisions ← bindIdentity r.decisions decision.id decision _
      return { r with decisions }) = _
    rw [restoreDecision_decisionPayload]
    rfl
  | applicationCommitted receipt nextState =>
    rw [read_applicationCommitted_eq]
    cases nextState with
    | none =>
      show (restoreApplication (applicationPayload receipt) >>= fun receipt =>
        r.takeReceipt receipt >>= fun r => pure r) = _
      rw [restoreApplication_applicationPayload]
      rfl
    | some state =>
      show (do
        let receipt ← restoreApplication (applicationPayload receipt)
        let r ← r.takeReceipt receipt
        let read ← restoreState (statePayload _ state)
        return r.takeState read) = _
      rw [restoreApplication_applicationPayload]
      simp only [readState_eq]
      rfl
  | eventProcessed eventRef obligationIds =>
    have hkey : ((Json.str eventRef).pyOr (.str eventRef)).pyStr = eventRef := by
      rw [Json.pyOr, ite_self]
      rfl
    show (do
      let ids ← strItems (historyPayload [("event_instance_key", .str eventRef),
        ("obligation_ids", .ofStrings obligationIds)]) "obligation_ids"
      let processed ← bindIdentity r.processed ((Json.str eventRef).pyOr (.str eventRef)).pyStr ids _
      return { r with processed }) = _
    rw [hkey, strItems_ofStrings (l := obligationIds) rfl]
    rfl

theorem readEvent_other {event : Event}
    (h : governanceHistoryEventTypes.contains event.type = false) : r.readEvent event = .ok r :=
  if_pos (by rw [h]; rfl)

end Reading

/-- An entry of the journal: a governance event with the time of its append, or an event of another
kind. -/
inductive JournalEntry where
  | record (now : Time) (e : GovernanceEvent)
  | other (event : Event) (h : governanceHistoryEventTypes.contains event.type = false)

namespace JournalEntry

def event (digest : String → String) : JournalEntry → Event
  | .record now e => e.event digest now
  | .other event _ => event

def recorded? : JournalEntry → Option GovernanceEvent
  | .record _ e => some e
  | .other _ _ => none

end JournalEntry

theorem foldlM_readEvent (digest : String → String) (r : Replay) (entries : List JournalEntry) :
    (entries.map (JournalEntry.event digest)).foldlM Replay.readEvent r =
      (entries.filterMap JournalEntry.recorded?).foldlM Replay.read r := by
  induction entries generalizing r with
  | nil => rfl
  | cons entry rest ih =>
    rw [List.map_cons, List.foldlM_cons]
    cases entry with
    | record now e =>
      show (r.readEvent (e.event digest now) >>= fun r => _) =
        (e :: rest.filterMap JournalEntry.recorded?).foldlM Replay.read r
      rw [List.foldlM_cons, readEvent_event]
      exact bind_congr ih
    | other event h =>
      show (r.readEvent event >>= fun r => _) =
        (rest.filterMap JournalEntry.recorded?).foldlM Replay.read r
      rw [readEvent_other r h]
      exact ih r

/-! ## Other versions -/

/-- An event that carries the schema and the contract of this version. -/
def Versioned (event : Event) : Prop :=
  (event.payload.get "schema_version").eqStr governanceHistorySchema = true ∧
    (event.payload.get "contract_version").eqStr distinctionGovernanceContractVersion = true

theorem validateGovernanceHistoryEvent_eq_ok {event : Event}
    (htype : governanceHistoryEventTypes.contains event.type = true) :
    validateGovernanceHistoryEvent event = .ok () ↔ Versioned event := by
  have hvalidate : validateGovernanceHistoryEvent event = _ := if_neg (by rw [htype]; decide)
  rw [hvalidate, Result.check_eq_ok, guardValue_eq_ok, guardValue_eq_ok]
  exact Iff.rfl

theorem versioned_of_readEvent {r r' : Replay} {event : Event} (h : r.readEvent event = .ok r')
    (htype : governanceHistoryEventTypes.contains event.type = true) : Versioned event := by
  have hread : r.readEvent event = _ := if_neg (by rw [htype]; decide)
  rw [hread, Result.check_eq_ok] at h
  exact (validateGovernanceHistoryEvent_eq_ok htype).mp h.1

theorem versioned_of_foldlM {events : List Event} {r r' : Replay}
    (h : events.foldlM Replay.readEvent r = .ok r') {event : Event} (hmem : event ∈ events)
    (htype : governanceHistoryEventTypes.contains event.type = true) : Versioned event := by
  induction events generalizing r with
  | nil => cases hmem
  | cons first rest ih =>
    rw [List.foldlM_cons, Result.bind_eq_ok] at h
    obtain ⟨next, hfirst, hrest⟩ := h
    cases List.mem_cons.mp hmem with
    | inl hhere =>
      rw [hhere] at htype ⊢
      exact versioned_of_readEvent hfirst htype
    | inr hlater => exact ih hrest hlater

end Governance

open Governance

/-- A journal is read as the history of the events that were recorded in it, in its order, whatever
other events stand between them; and no journal is read that has a governance event of another
version. -/
theorem governance_journal_round_trip (digest : String → String) :
    (∀ entries : List JournalEntry,
      readGovernanceHistory (entries.map (JournalEntry.event digest)) =
        reconstructGovernanceHistory (entries.filterMap JournalEntry.recorded?)) ∧
    ∀ (events : List Event) history, readGovernanceHistory events = .ok history →
      ∀ event ∈ events, governanceHistoryEventTypes.contains event.type = true →
        Versioned event := by
  constructor
  · intro entries
    rw [readGovernanceHistory, reconstructGovernanceHistory, foldlM_readEvent]
  · intro events history h event hmem htype
    obtain ⟨r, hread, -⟩ := Result.bind_eq_ok.mp h
    exact versioned_of_foldlM hread hmem htype

end PortableRuntime
