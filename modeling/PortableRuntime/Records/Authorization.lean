import PortableRuntime.Records.Models

/-!
# Authorization grants and uses

A grant lets one grantee act on named versions within a window of time.  A use is
the durable evidence that a grant authorized one action at one instant, so it is
judged at that instant and not at the present one.
-/

namespace PortableRuntime

inductive EffectClass where
  | read | writeLocal | writeRemote | deploy | admin | irreversible
deriving Repr, DecidableEq, Inhabited

namespace EffectClass

def text : EffectClass → String
  | .read => "read"
  | .writeLocal => "write-local"
  | .writeRemote => "write-remote"
  | .deploy => "deploy"
  | .admin => "admin"
  | .irreversible => "irreversible"

def all : List EffectClass := [.read, .writeLocal, .writeRemote, .deploy, .admin, .irreversible]

/-- The effect class a text names; a request with another text is refused. -/
def ofText? (s : String) : Option EffectClass := all.find? (fun e => e.text == s)

/-- Position in `EFFECT_ORDER`. -/
def level : EffectClass → Nat
  | .read => 0
  | .writeLocal => 1
  | .writeRemote => 2
  | .deploy => 3
  | .admin => 4
  | .irreversible => 5

end EffectClass

structure TypedCondition where
  kind : String
  params : Fields := []
  satisfied : Bool := false
  authorityRef : Option String := none
  extra : Fields := []
deriving Repr, Inhabited

def TypedCondition.dump (c : TypedCondition) : Json :=
  .obj ([("kind", .str c.kind), ("params", .obj c.params), ("satisfied", .bool c.satisfied),
    ("authority_ref", .ofOption c.authorityRef)] ++ c.extra)

/-- Strict, typed authorization input used by the canonical primitive. -/
structure CanonicalAuthorizationRequest where
  capability : String
  actorRef : String
  resourceRef : Option String := none
  subjectVersionRefs : List String := []
  effectClass : EffectClass := .read
deriving Repr, Inhabited

theorem noExpiry : ∀ t ∈ (none : Option Time), (0 : Time) ≤ t := by decide

structure AuthorizationGrant where
  id : String
  createdAt : Time
  principalRef : String
  granteeRef : String
  allowedCapabilities : List String := []
  resourceScope : List String := []
  effectCeiling : Option String := none
  validFrom : Time
  expiresAt : Option Time := none
  conditions : List String := []
  typedConditions : List TypedCondition := []
  revocable : Bool := true
  revokedAt : Option Time := none
  sourceDecisionRef : Option String := none
  subjectVersionRefs : List String := []
  metadata : Fields := []
  extra : Fields := []
  checkTime : ∀ t ∈ expiresAt, validFrom ≤ t := by first | exact noExpiry | decide
deriving Repr

instance : Inhabited AuthorizationGrant :=
  ⟨{ id := "", createdAt := 0, principalRef := "", granteeRef := "", validFrom := 0 }⟩

def AuthorizationGrant.dump (g : AuthorizationGrant) : Fields :=
  [("id", .str g.id), ("created_at", .datetime g.createdAt),
   ("principal_ref", .str g.principalRef), ("grantee_ref", .str g.granteeRef),
   ("allowed_capabilities", .ofStrings g.allowedCapabilities),
   ("resource_scope", .ofStrings g.resourceScope),
   ("effect_ceiling", .ofOption g.effectCeiling), ("valid_from", .datetime g.validFrom),
   ("expires_at", dumpTime g.expiresAt), ("conditions", .ofStrings g.conditions),
   ("typed_conditions", .arr (g.typedConditions.map TypedCondition.dump)),
   ("revocable", .bool g.revocable), ("revoked_at", dumpTime g.revokedAt),
   ("source_decision_ref", .ofOption g.sourceDecisionRef),
   ("subject_version_refs", .ofStrings g.subjectVersionRefs), ("metadata", .obj g.metadata)] ++
    g.extra

/-- Durable at-time evidence that a grant authorized one concrete action. -/
structure AuthorizationUse where
  id : String
  createdAt : Time
  authorizationRef : String
  capability : String
  actorRef : String
  resourceRef : String
  effectClass : EffectClass
  subjectVersionRefs : List String
  authorizedAt : Time
  shape : (Text.nonBlank authorizationRef && Text.nonBlank capability && Text.nonBlank actorRef &&
    Text.nonBlank resourceRef && !subjectVersionRefs.isEmpty) = true := by decide
deriving Repr

instance : Inhabited AuthorizationUse :=
  ⟨{ id := "", createdAt := 0, authorizationRef := "a", capability := "c", actorRef := "a",
     resourceRef := "r", effectClass := .read, subjectVersionRefs := ["v"], authorizedAt := 0 }⟩

def AuthorizationUse.dump (u : AuthorizationUse) : Fields :=
  [("id", .str u.id), ("created_at", .datetime u.createdAt),
   ("authorization_ref", .str u.authorizationRef), ("capability", .str u.capability),
   ("actor_ref", .str u.actorRef), ("resource_ref", .str u.resourceRef),
   ("effect_class", .str u.effectClass.text),
   ("subject_version_refs", .ofStrings u.subjectVersionRefs),
   ("authorized_at", .datetime u.authorizedAt)]

/-- The request a use is evidence for. -/
def AuthorizationUse.request (u : AuthorizationUse) : CanonicalAuthorizationRequest where
  capability := u.capability
  actorRef := u.actorRef
  resourceRef := some u.resourceRef
  subjectVersionRefs := u.subjectVersionRefs
  effectClass := u.effectClass

/-! ## Matching -/

def normCap (cap : String) : String := Text.lower (Text.strip cap)

/-- Exact match, `*`, or a `prefix.*` pattern. -/
def capabilityMatches (allowed : List String) (requested : String) : Bool :=
  let req := normCap requested
  allowed.any (fun pat =>
    let p := normCap pat
    p == "*" || p == req ||
      (Text.endsWith p ".*" &&
        (req == Text.dropEnd p 2 || Text.startsWith req (Text.dropEnd p 2 ++ "."))))

/-- Typed identity matching: case-sensitive, no substring. -/
def resourceMatches (scope : List String) (resource : Option String) : Bool :=
  scope.isEmpty || match resource with
    | none => false
    | some r => r != "" && scope.any (fun pat =>
        if pat == "*" then true
        else if Text.endsWith pat "*" then Text.startsWith r (Text.dropEnd pat 1)
        else r == pat || Text.startsWith r (pat ++ "/"))

def effectLevel (effect : String) : Option Nat :=
  (EffectClass.ofText? (Text.lower (Text.strip effect))).map EffectClass.level

/-- Whether the requested effect is within the ceiling. -/
def effectAllows (ceiling : Option String) (requested : EffectClass) : Bool :=
  match ceiling with
  | none => true
  | some c => match effectLevel requested.text, effectLevel c with
    | some req, some ceil => req ≤ ceil
    | _, _ => false

/-- Free-form conditions are never satisfied; typed ones all have to be. -/
def conditionsSatisfied (grant : AuthorizationGrant) : Bool :=
  grant.conditions.isEmpty && grant.typedConditions.all TypedCondition.satisfied

/-! ## Validity of a grant -/

/-- Revoked, expired or not yet valid at `ts`. -/
def outsideWindow (grant : AuthorizationGrant) (ts : Time) : Bool :=
  grant.revokedAt.any (· ≤ ts) || grant.expiresAt.any (· ≤ ts) || ts < grant.validFrom

def windowErrors (grant : AuthorizationGrant) (ts : Time) : List String :=
  (grant.revokedAt.toList.filter (· ≤ ts)).map
      (fun t => s!"grant {grant.id} has been revoked at {Text.isoformat t}") ++
    (grant.expiresAt.toList.filter (· ≤ ts)).map
      (fun t => s!"grant {grant.id} expired at {Text.isoformat t}") ++
    (if ts < grant.validFrom then
      [s!"grant {grant.id} not yet valid until {Text.isoformat grant.validFrom}"] else [])

def shapeErrors (grant : AuthorizationGrant) : List String :=
  (if grant.principalRef = "" then ["principal_ref required"] else []) ++
    (if grant.granteeRef = "" then ["grantee_ref required"] else []) ++
    (if grant.allowedCapabilities.isEmpty then ["allowed_capabilities must not be empty"] else []) ++
    (if grant.conditions.isEmpty then [] else
      [s!"grant {grant.id} has free-form conditions which are not satisfied (must be typed)"]) ++
    (grant.typedConditions.filter (fun tc => !tc.satisfied)).map
      (fun tc => s!"grant {grant.id} typed condition {tc.kind} not satisfied") ++
    (match grant.effectCeiling with
      | some c => if (effectLevel c).isNone then
          [s!"grant {grant.id} has unknown effect_ceiling {Text.pyRepr c}"] else []
      | none => [])

/-- The errors of a grant at `ts`; none when it is valid. -/
def validateGrant (grant : AuthorizationGrant) (ts : Time) : List String :=
  windowErrors grant ts ++ shapeErrors grant

/-- What a request needs of a grant apart from the time. -/
def requestMatches (action : CanonicalAuthorizationRequest) (grant : AuthorizationGrant) : Bool :=
  conditionsSatisfied grant && Text.nonBlank action.capability && Text.nonBlank action.actorRef &&
    capabilityMatches grant.allowedCapabilities action.capability &&
    (grant.resourceScope.isEmpty || resourceMatches grant.resourceScope action.resourceRef) &&
    action.actorRef == grant.granteeRef && effectAllows grant.effectCeiling action.effectClass &&
    (if grant.subjectVersionRefs.isEmpty then action.subjectVersionRefs.isEmpty
     else action.subjectVersionRefs.any grant.subjectVersionRefs.contains)

def isAuthorizedFor (action : CanonicalAuthorizationRequest) (grant : AuthorizationGrant)
    (ts : Time) : Bool :=
  !outsideWindow grant ts && requestMatches action grant

/-- Whether a durable use covers one typed request, at the time of the use. -/
def authorizationUseCoversRequest (use : AuthorizationUse) (grant : AuthorizationGrant)
    (request : CanonicalAuthorizationRequest) : Bool :=
  use.authorizationRef == grant.id && use.capability == request.capability &&
    use.actorRef == request.actorRef && use.resourceRef == request.resourceRef.getD "" &&
    use.effectClass == request.effectClass &&
    request.subjectVersionRefs.all use.subjectVersionRefs.contains &&
    isAuthorizedFor request grant use.authorizedAt

theorem windowErrors_eq_nil {grant : AuthorizationGrant} {ts : Time} :
    windowErrors grant ts = [] ↔ outsideWindow grant ts = false := by
  cases hr : grant.revokedAt <;> cases he : grant.expiresAt <;>
    simp [windowErrors, outsideWindow, hr, he, and_assoc]

/-- A grant is valid at `ts` when its shape is and `ts` is within its window. -/
theorem validateGrant_eq_nil {grant : AuthorizationGrant} {ts : Time} :
    validateGrant grant ts = [] ↔ outsideWindow grant ts = false ∧ shapeErrors grant = [] := by
  rw [validateGrant, List.append_eq_nil_iff, windowErrors_eq_nil]

end PortableRuntime
