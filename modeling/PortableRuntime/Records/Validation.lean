import PortableRuntime.Records.Models

/-!
# Validation of a single record
-/

namespace PortableRuntime

/-- Whether an Observation carries explicit acquisition provenance. -/
def hasObservationProvenance (record : BaseRecord) : Bool :=
  ["acquisition_provenance", "acquisition_ref", "collector_ref", "instrument_ref"].any
    (fun key => match record.metadata.get key with
      | .str s => Text.nonBlank s
      | .arr items => !items.isEmpty
      | .obj fields => !fields.isEmpty
      | _ => false)

def proposalStatuses : List LifecycleStatus := [.proposed, .rejected]

/-- Reject undeclared top-level fields on normal canonical writes. -/
def validateCanonicalWrite (record : BaseRecord) : List String :=
  (if record.modelExtra.isEmpty then [] else
    ["canonical record writes forbid undeclared fields: " ++
      Text.join ", " (Text.sorted record.modelExtra)]) ++
    (if record.recordType = .outcome ∧ record.lifecycleStatus = .confirmed then
      ["confirmed Outcome requires verified-outcome authority commit"] else [])

def revisionLinks : List String := ["revises_ref", "produces_ref", "supersedes_ref"]

def validateRecord (record : BaseRecord) : List String :=
  (if record.recordType = .evidenceArtifact ∧ record.epistemicStatus.isSome then
    ["EvidenceArtifact must not carry epistemic_status"] else []) ++
  (if record.recordType = .observation ∧ record.sourceRefs.isEmpty ∧
      !hasObservationProvenance record then
    ["Observation requires source_refs or explicit acquisition provenance"] else []) ++
  (if record.recordType = .assertion ∧ record.lifecycleStatus = .current ∧
      record.epistemicStatus.isNone then
    ["Assertion in current must have epistemic_status"] else []) ++
  (if record.recordType = .revision ∧ !proposalStatuses.contains record.lifecycleStatus then
    (revisionLinks.filter (fun field => !(record.getattr field).truthy)).map
      (fun field => s!"Revision {record.id} requires {field} outside proposed/rejected") ++
    (let revisesRef := record.getattr "revises_ref"
     let producesRef := record.getattr "produces_ref"
     if revisesRef.truthy && producesRef.truthy && revisesRef.pyEq producesRef then
       ["Revision revises_ref and produces_ref must differ"] else [])
   else [])

/-- `str(previous)` for a predecessor status the metadata names. -/
def previousLifecycle (record : BaseRecord) : Option String :=
  match record.metadata.get "previous_lifecycle_status" with
  | .null => none
  | previous => some previous.pyStr

/-- The transition a record claims to have made is one of its type's machine. -/
def claimedTransition (record : BaseRecord) : Option String :=
  (previousLifecycle record).bind (fun previous =>
    validateLifecycleTransition record.recordType previous record.lifecycleStatus.text)

/-- The content of a record: everything but the timestamp, the status and the version. -/
def BaseRecord.content (r : BaseRecord) : Fields :=
  r.dump.without ["created_at", "lifecycle_status", "version"]

/-- Validate lifecycle/version invariants available on one canonical write. -/
def validateRecordWrite (record : BaseRecord) (existing : Option BaseRecord) : List String :=
  validateRecord record ++
  (if record.version < 1 then [s!"record {record.id} has invalid version {record.version}"]
   else []) ++
  (claimedTransition record).toList ++
  (match existing with
    | some old =>
      if old.id = record.id ∧ !old.content.pyEq record.content ∧ record.version ≤ old.version then
        [s!"record {record.id} version must advance beyond {old.version} for a changed semantic write"]
      else []
    | none => [])

/-- Compare authoritative record content while ignoring creation timestamps. -/
def semanticPayloadChanged (record existing : BaseRecord) : Bool :=
  !(existing.dump.pop "created_at").pyEq (record.dump.pop "created_at")

end PortableRuntime
