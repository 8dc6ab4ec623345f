import PortableRuntime.Core.Models

/-
Lifecycle state machines of the semantic records.

The machines are tables over the texts of the statuses, because a transition is
checked from a predecessor status that is any text a record's metadata names.
-/

namespace PortableRuntime

inductive RecordType where
  | evidenceArtifact | observation | assertion | goal | constraint | experiment | decision
  | action | outcome | revision | changeObject | policy | derivation
deriving Repr, DecidableEq, Inhabited

def RecordType.text : RecordType → String
  | .evidenceArtifact => "EvidenceArtifact"
  | .observation => "Observation"
  | .assertion => "Assertion"
  | .goal => "Goal"
  | .constraint => "Constraint"
  | .experiment => "Experiment"
  | .decision => "Decision"
  | .action => "Action"
  | .outcome => "Outcome"
  | .revision => "Revision"
  | .changeObject => "ChangeObject"
  | .policy => "Policy"
  | .derivation => "Derivation"

inductive LifecycleStatus where
  | draft | current | superseded | archived | proposed | authorized | applied | verified
  | accepted | rejected | rolledBack | candidate | official | deprecated | recorded | confirmed
deriving Repr, DecidableEq, Inhabited

def LifecycleStatus.text : LifecycleStatus → String
  | .draft => "draft"
  | .current => "current"
  | .superseded => "superseded"
  | .archived => "archived"
  | .proposed => "proposed"
  | .authorized => "authorized"
  | .applied => "applied"
  | .verified => "verified"
  | .accepted => "accepted"
  | .rejected => "rejected"
  | .rolledBack => "rolled-back"
  | .candidate => "candidate"
  | .official => "official"
  | .deprecated => "deprecated"
  | .recorded => "recorded"
  | .confirmed => "confirmed"

/-- The allowed successors of each status, for the types that have a machine. -/
def lifecycleMachine : RecordType → Option (List (String × List String))
  | .assertion => some
      [("draft", ["current", "archived"]), ("current", ["superseded", "archived"]),
       ("superseded", ["archived"]), ("archived", [])]
  | .revision => some
      [("proposed", ["authorized", "rejected", "archived"]),
       ("authorized", ["applied", "rejected"]), ("applied", ["verified", "rolled-back"]),
       ("verified", ["accepted", "rejected", "rolled-back"]), ("accepted", []),
       ("rejected", []), ("rolled-back", []), ("archived", [])]
  | .policy => some
      [("draft", ["candidate", "archived"]), ("candidate", ["official", "archived"]),
       ("official", ["deprecated", "archived"]), ("deprecated", ["archived"]),
       ("archived", [])]
  | .action => some
      [("recorded", ["verified", "current"]), ("verified", ["current", "superseded"]),
       ("current", ["superseded"]), ("superseded", [])]
  | .outcome => some
      [("recorded", ["confirmed", "superseded"]), ("confirmed", ["superseded"]),
       ("superseded", []), ("archived", [])]
  | _ => none

def isValidLifecycleTransition (recordType : RecordType) (fromStatus toStatus : String) : Bool :=
  match lifecycleMachine recordType with
  | none => true
  | some machine =>
    ((machine.find? (fun row => row.1 == fromStatus)).elim [] Prod.snd).contains toStatus ||
      fromStatus == toStatus

/-- The message of the `ValueError`, or `none` when the transition is valid. -/
def validateLifecycleTransition (recordType : RecordType) (fromStatus toStatus : String) :
    Option String :=
  if isValidLifecycleTransition recordType fromStatus toStatus then none
  else some s!"invalid lifecycle {recordType.text}: {Text.pyRepr fromStatus} -> {Text.pyRepr toStatus}"

theorem validateLifecycleTransition_eq_none {recordType : RecordType}
    {fromStatus toStatus : String} :
    validateLifecycleTransition recordType fromStatus toStatus = none ↔
      isValidLifecycleTransition recordType fromStatus toStatus = true := by
  simp [validateLifecycleTransition]

theorem isValidLifecycleTransition_self (recordType : RecordType) (status : String) :
    isValidLifecycleTransition recordType status status = true := by
  cases h : lifecycleMachine recordType <;> simp [isValidLifecycleTransition, h]

end PortableRuntime
