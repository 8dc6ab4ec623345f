import PortableRuntime.Protocol.Rules
import PortableRuntime.Workflows.Completion

/-!
# Terminal Work/Run pairs
-/

namespace PortableRuntime

/-- `_completion_proof_refs`. -/
def proofRefs (metadata : Fields) : Json := metadata.get "_completion_proof_refs"

/-- The proof references as texts; none unless the metadata lists them. -/
def proofRefTexts (metadata : Fields) : List String :=
  match proofRefs metadata with
  | .arr items => items.map Json.pyStr
  | _ => []

def completionFields : List String :=
  ["completion_verification_scope", "completion_work_version", "completion_acceptance_criteria",
   "completion_required_obligations", "completion_covered_obligations",
   "completion_missing_obligations"]

/-- The works of a state by identity. -/
def State.worksById (s : State) : Dict String Work := State.byId (k := .work) s.works

def State.runsById (s : State) : Dict String Run := State.byId (k := .run) s.runs

def proofErrors (s : State) (work : Work) (run : Run) : List String :=
  match CompletionAuthority.validateProofInvariant work run (proofRefTexts run.metadata)
      s.parsedRecords.get? with
  | .ok _ => []
  | .error e => [s!"run {run.id} terminal proof invalid: {e.message}"]

def runErrors (s : State) (run : Run) : List String :=
  if run.status ≠ .succeeded then []
  else match s.worksById.get? run.workId with
    | none => [s!"run {run.id} succeeded without local Work {Text.pyRepr run.workId}"]
    | some work =>
      errorIf (work.status ≠ .completed)
        s!"run {run.id} succeeded without completed Work {Text.pyRepr work.id}" ++
      proofErrors s work run

/-- The metadata of a completed Work agrees with that of a succeeded Run of it. -/
def pairErrors (work : Work) (run : Run) : List String :=
  errorIf (!(proofRefs work.metadata).isArr ||
      !(proofRefs work.metadata).pyEq (proofRefs run.metadata))
    s!"work {work.id} terminal proof refs do not match succeeded Run {run.id}" ++
  completionFields.flatMap (fun field =>
    errorIf (!(work.metadata.get field).pyEq (run.metadata.get field))
      (s!"work {work.id} terminal completion metadata {Text.pyRepr field} " ++
        s!"does not match succeeded Run {run.id}"))

/-- The succeeded Runs of a Work. -/
def State.pairedRuns (s : State) (work : Work) : List Run :=
  s.runsById.values.filter (fun run => run.workId = work.id && run.status = .succeeded)

def workErrors (s : State) (work : Work) : List String :=
  if work.status ≠ .completed then []
  else if (s.pairedRuns work).isEmpty then [s!"work {work.id} completed without a succeeded Run"]
  else (s.pairedRuns work).flatMap (pairErrors work)

def terminalErrors (s : State) : List String :=
  s.runsById.values.flatMap (runErrors s) ++ s.worksById.values.flatMap (workErrors s)

end PortableRuntime
