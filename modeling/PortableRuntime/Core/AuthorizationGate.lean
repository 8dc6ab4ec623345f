import PortableRuntime.Core.Boundary
import PortableRuntime.Core.EffectRules

/-!
# The authorization gate

What a request says of its actor, its resource and its versions, and the judgment whether
some grant lets that actor act.
-/

namespace PortableRuntime

def codeAuthorizationUnavailable : String := "AuthorizationUnavailable"

namespace InvocationRequest

variable (request : InvocationRequest)

/-- The field of the request, else a string under `actor_ref` in its metadata. -/
def extractActor : Option String :=
  match given request.actorRef with
  | some actor => some actor
  | none => (request.metadata.get "actor_ref").asStr?

/-- The first parameter of three names that holds a string. -/
def resourceParameter : Option String :=
  (["resource", "path", "target"].filterMap (fun k => (request.parameters.get k).asStr?)).head?

def extractResource : Option String :=
  match given request.resourceRef with
  | some resource => some resource
  | none =>
    match (request.metadata.get "resource_ref").pyOr (request.metadata.get "resource") with
    | .str resource => some resource
    | .arr (first :: _) => some first.pyStr
    | _ => request.resourceParameter

def extractVersions : List String :=
  if request.subjectVersionRefs.isEmpty then
    match request.metadata.get "subject_version_refs" with
    | .str version => [version]
    | .arr versions => versions.map Json.pyStr
    | _ => []
  else request.subjectVersionRefs

end InvocationRequest

/-- The grants that the store lists: an error where the store has no such list or its
lookup raises. -/
abbrev GrantListing := Except String (List AuthorizationGrant)

/-- The first grant of the actor that authorizes the action. -/
def authorizedBy (action : CanonicalAuthorizationRequest) (grants : List AuthorizationGrant)
    (now : Time) : Option AuthorizationGrant :=
  grants.find? (fun grant =>
    grant.granteeRef = action.actorRef && isAuthorizedFor action grant now)

namespace EffectAuthority

variable (a : EffectAuthority)

/-- Whether the contract or the rule asks for an authorization. -/
def authorizationLevel (contract : CapabilityContract) (rule : Option CapabilityEffectRule) :
    AuthorizationRequirement :=
  let required : Bool := rule.elim (contract.authorizationRequirement = .required)
    CapabilityEffectRule.authorizationRequired
  if required then .required else contract.authorizationRequirement

/-- The typed action that grants are asked about. -/
def canonicalAction (request : InvocationRequest) (contract : CapabilityContract)
    (actor : String) : CanonicalAuthorizationRequest :=
  { capability := request.capability
    actorRef := actor
    resourceRef := request.extractResource
    subjectVersionRefs := request.extractVersions
    effectClass := a.effectiveImpact request (some contract) none }

/-- The judgment on a request and its reason.  `grants` are those of the qualification
snapshot; without them the store is asked, and `listing` is its answer. -/
def checkAuthorization (request : InvocationRequest) (contract : CapabilityContract)
    (grants : Option (List AuthorizationGrant)) (listing : GrantListing) (now : Time) :
    Bool × String :=
  let rule := a.effectRegistry.resolve request.capability
  if authorizationLevel contract rule ≠ .required then
    (true, "authorization not required by contract")
  else match grants.elim listing .ok with
    | .error reason => (false, s!"{codeAuthorizationUnavailable}: {reason}")
    | .ok [] => (false, "AuthorizationRequired: no grants for capability requiring authorization")
    | .ok grants => match given request.extractActor with
      | none => (false, "AuthorizationRequired: actor missing")
      | some actor =>
        if rule.elim contract.resourceRequired CapabilityEffectRule.resourceRequired &&
            (given request.extractResource).isNone then
          (false, "ResourceRequired: resource missing but capability rule requires resource")
        else if rule.elim contract.subjectVersionRequired CapabilityEffectRule.versionRequired &&
            request.extractVersions.isEmpty then
          (false, "SubjectVersionRequired: subject_version missing but capability rule " ++
            "requires version")
        else
          let action := a.canonicalAction request contract actor
          if (authorizedBy action grants now).isSome then (true, "authorized")
          else if grants.any (fun grant => grant.granteeRef = actor) then
            (false, s!"AuthorizationDenied: no valid grant authorizes {request.capability} " ++
              s!"with effective_impact {action.effectClass.text} for actor {actor}")
          else (false, s!"AuthorizationDenied: no grant for actor {actor}")

/-- The request names its actor, and its resource and versions where these are required. -/
structure Named (request : InvocationRequest) (contract : CapabilityContract) (actor : String) :
    Prop where
  actor : given request.extractActor = some actor
  resource : ((a.effectRegistry.resolve request.capability).elim contract.resourceRequired
    CapabilityEffectRule.resourceRequired && (given request.extractResource).isNone) = false
  versions : ((a.effectRegistry.resolve request.capability).elim contract.subjectVersionRequired
    CapabilityEffectRule.versionRequired && request.extractVersions.isEmpty) = false

/-- Some grant among those that are read lets the actor act. -/
def Covered (request : InvocationRequest) (contract : CapabilityContract) (actor : String)
    (read : GrantListing) (now : Time) : Prop :=
  ∃ grants grant, read = .ok grants ∧ grant ∈ grants ∧ grant.granteeRef = actor ∧
    isAuthorizedFor (a.canonicalAction request contract actor) grant now = true

theorem authorizedBy_isSome {action : CanonicalAuthorizationRequest}
    {grants : List AuthorizationGrant} {now : Time} :
    (authorizedBy action grants now).isSome = true ↔
      ∃ grant ∈ grants, grant.granteeRef = action.actorRef ∧
        isAuthorizedFor action grant now = true := by
  simp only [authorizedBy, List.find?_isSome, Bool.and_eq_true, decide_eq_true_eq]

/-- A request is accepted just where it needs no authorization, or is named in full and
covered by a grant. -/
theorem checkAuthorization_iff {request : InvocationRequest} {contract : CapabilityContract}
    {grants : Option (List AuthorizationGrant)} {listing : GrantListing} {now : Time} :
    (a.checkAuthorization request contract grants listing now).1 = true ↔
      authorizationLevel contract (a.effectRegistry.resolve request.capability) ≠ .required ∨
        ∃ actor, a.Named request contract actor ∧
          a.Covered request contract actor (grants.elim listing .ok) now := by
  unfold checkAuthorization
  by_cases hlevel :
      authorizationLevel contract (a.effectRegistry.resolve request.capability) = .required
  · simp only [hlevel, ne_eq, not_true_eq_false, if_false, false_or]
    cases hread : grants.elim listing .ok with
    | error reason => simp [Covered]
    | ok read =>
      cases read with
      | nil => simp [Covered]
      | cons first rest =>
        cases hactor : given request.extractActor with
        | none =>
          simp only [Bool.false_eq_true, false_iff, not_exists, not_and]
          intro actor hnamed
          have hnames := hnamed.actor
          rw [hactor] at hnames
          cases hnames
        | some actor =>
          have hcovered : (authorizedBy (a.canonicalAction request contract actor)
                (first :: rest) now).isSome = true ↔
              a.Covered request contract actor (.ok (first :: rest)) now := by
            rw [authorizedBy_isSome]
            constructor
            · rintro ⟨grant, hmem, hgrantee, hcovers⟩
              exact ⟨first :: rest, grant, rfl, hmem, hgrantee, hcovers⟩
            · rintro ⟨grants, grant, hgrants, hmem, hgrantee, hcovers⟩
              obtain rfl := Except.ok.inj hgrants
              exact ⟨grant, hmem, hgrantee, hcovers⟩
          constructor
          · intro h
            split_ifs at h with hresource hversions
            have hfound : (authorizedBy (a.canonicalAction request contract actor)
                (first :: rest) now).isSome = true := by
              by_contra hnone
              rw [Bool.not_eq_true] at hnone
              simp only [hnone, Bool.false_eq_true, if_false] at h
              split_ifs at h
            exact ⟨actor, ⟨hactor, Bool.eq_false_iff.mpr hresource, Bool.eq_false_iff.mpr hversions⟩,
              hcovered.mp hfound⟩
          · rintro ⟨named, hnamed, hfound⟩
            obtain rfl : actor = named := by
              have hnames := hnamed.actor
              rw [hactor] at hnames
              exact Option.some.inj hnames
            simp only [hnamed.resource, hnamed.versions, Bool.false_eq_true, if_false,
              hcovered.mpr hfound, if_true]
  · simp only [ne_eq, hlevel, not_false_eq_true, if_true, true_or]

end EffectAuthority
end PortableRuntime
