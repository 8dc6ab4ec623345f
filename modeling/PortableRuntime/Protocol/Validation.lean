import PortableRuntime.Protocol.Promotion
import PortableRuntime.Protocol.Revision
import PortableRuntime.Protocol.Terminal

/-!
# Validation of a whole state graph
-/

namespace PortableRuntime

/-- All cross-object invariant violations in a state snapshot, judged at `now`. -/
def validateStateGraph (now : Time) (s : State) : Result (List String) := do
  let promotions ← collect (promotionErrors now s) s.records
  let projections ← collect (projectionErrors now s) s.projections
  let revisions ← collect (revisionErrors now s) s.parsedRecords.values
  return identityErrors s ++ s.records.flatMap recordErrors ++
    s.relations.flatMap (relationErrors s) ++
    Kind.all.flatMap (fun k => (s k).flatMap (referenceErrors s k)) ++
    s.authorizations.flatMap (authorizationErrors s) ++ s.uses.flatMap (useErrors s) ++
    promotions ++ projections ++ revisions ++ s.supersedes.flatMap (supersedesErrors s) ++
    terminalErrors s ++ supersederErrors s ++ lineageErrors s

/-- The exception a list of errors is raised as. -/
def raiseErrors (errors : List String) : Result Unit :=
  if errors.isEmpty then .ok ()
  else raiseValue ("state graph validation failed: " ++ Text.join "; " errors)

def assertValidStateGraph (now : Time) (s : State) : Result Unit := do
  raiseErrors (← validateStateGraph now s)

/-- A state whose validation returns no error. -/
def Valid (now : Time) (s : State) : Prop := validateStateGraph now s = .ok []

theorem assertValidStateGraph_eq_ok {now : Time} {s : State} :
    assertValidStateGraph now s = .ok () ↔ Valid now s := by
  cases h : validateStateGraph now s with
  | error e => simp [assertValidStateGraph, Valid, h, bind, Except.bind]
  | ok errors =>
    cases errors with
    | nil => simp [assertValidStateGraph, Valid, h, bind, Except.bind, raiseErrors]
    | cons a rest =>
      simp [assertValidStateGraph, Valid, h, bind, Except.bind, raiseErrors, raiseValue]

instance (now : Time) (s : State) : Decidable (Valid now s) :=
  inferInstanceAs (Decidable (validateStateGraph now s = .ok []))

/-! ## Candidate writes -/

/-- The objects of a bucket without the identities of the new ones, then the new ones. -/
def mergeBucket (k : Kind) (old new : List (Model k)) : List (Model k) :=
  old.filter (fun m => !(new.map k.identifier).contains (k.identifier m)) ++ new

def State.merge (s : State) (k : Kind) (values : List (Model k)) : State :=
  Function.update s k (mergeBucket k (s k) values)

/-- Validate one normal write against the complete candidate graph. -/
def assertValidCandidateWrite (now : Time) (s : State) (k : Kind) (value : Model k) :
    Result Unit :=
  assertValidStateGraph now (s.merge k [value])

/-- Validate a completed Work and a succeeded Run in one full snapshot. -/
def assertValidTerminalPair (now : Time) (s : State) (work : Work) (run : Run) : Result Unit :=
  assertValidStateGraph now ((s.merge .work [work]).merge .run [run])

end PortableRuntime
