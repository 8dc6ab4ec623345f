import PortableRuntime.Core.AuthorizationGate
import PortableRuntime.Library.FirstWins
import PortableRuntime.Python.Equality

/-!
# Policies and their obligations

The engine asks every policy and merges the answers: a denial wins over a deferral, a
deferral over the union of the requirements, and these over permission.  The gate of the
boundary then looks for a proof of every obligation that is left.
-/

namespace PortableRuntime

inductive Disposition where
  | allow | deny | defer | require
deriving Repr, DecidableEq, Inhabited

inductive PolicyStatus where
  | allow | deny | requireApproval | requireVerification
deriving Repr, DecidableEq, Inhabited

/-- A policy obligation.  One that is not waivable is a hard boundary. -/
structure Obligation where
  kind : String
  params : Fields := []
  waivable : Bool := true
deriving Repr, Inhabited

structure PolicyDecision where
  disposition : Option Disposition := none
  obligations : List Obligation := []
  reasonRefs : List String := []
  policyRefs : List String := []
  status : Option PolicyStatus := none
  reason : Option String := none
  metadata : Fields := []
deriving Repr, Inhabited

structure PolicyContext where
  workId : Option String := none
  capability : Option String := none
  providerId : Option String := none
  action : Option String := none
  payload : Fields := []
  metadata : Fields := []

/-- A policy answers with a decision or raises. -/
abbrev Policy := PolicyContext → Result PolicyDecision

/-! ## Decisions under the old and the new fields -/

def approvalObligation : Obligation :=
  { kind := "approval", params := [("required_role", .str "owner")] }

def revalidationObligation : Obligation := { kind := "revalidation_before_execution" }

namespace PolicyDecision

/-- A decision with a status alone gets its disposition, and an obligation if it requires
something and names nothing. -/
def syncDisposition (d : PolicyDecision) : PolicyDecision :=
  match d.disposition, d.status with
  | none, some status =>
    let disposition : Disposition := match status with
      | .allow => .allow
      | .deny => .deny
      | .requireApproval | .requireVerification => .require
    if disposition = .require && d.obligations.isEmpty then
      { d with
        disposition := some disposition
        obligations :=
          [if status = .requireApproval then approvalObligation else revalidationObligation]
        reasonRefs := (given d.reason).elim d.reasonRefs (fun reason => [reason]) }
    else { d with disposition := some disposition }
  | _, _ => d

/-- The status that stands for a disposition. -/
def legacyStatus (d : PolicyDecision) : Disposition → PolicyStatus
  | .allow => .allow
  | .deny => .deny
  | .defer => .requireApproval
  | .require =>
    if d.obligations.any (fun o => o.kind = "revalidation_before_execution") &&
        !d.obligations.any (fun o => o.kind = "approval") then .requireVerification
    else .requireApproval

/-- A decision with a disposition alone gets its status and a reason. -/
def syncStatus (d : PolicyDecision) : PolicyDecision :=
  match d.status, d.disposition with
  | none, some disposition =>
    { d with
      status := some (d.legacyStatus disposition)
      reason :=
        if truthy d.reason then d.reason
        else if !d.reasonRefs.isEmpty then some (Text.join ";" d.reasonRefs)
        else if !d.obligations.isEmpty then
          some ("requires " ++ Text.join "," (d.obligations.map Obligation.kind))
        else d.reason }
  | _, _ => d

/-- The validator of a decision. -/
def sync (d : PolicyDecision) : PolicyDecision :=
  let d := d.syncDisposition.syncStatus
  { d with
    disposition := some (d.disposition.getD .allow)
    status := some (d.status.getD .allow)
    reason :=
      if d.reason.isNone && !d.reasonRefs.isEmpty then some (Text.join ";" d.reasonRefs)
      else d.reason }

def denies (d : PolicyDecision) : Bool := d.disposition = some .deny || d.status = some .deny

def defers (d : PolicyDecision) : Bool := d.disposition = some .defer

def requires (d : PolicyDecision) : Bool := d.disposition = some .require

end PolicyDecision

/-! ## The engine -/

/-- `sorted(params.items())`, each item as it is printed. -/
def Obligation.paramItems (o : Obligation) : List String :=
  (o.params.insertionSort (fun p q => p.1 ≤ q.1)).map
    (fun p => s!"({Text.pyRepr p.1}, {p.2.pyRepr})")

/-- What two obligations share when one of them is dropped: the two parts of the text
`kind:[items]`.  The flag is not among them. -/
def Obligation.mergeKey (o : Obligation) : String × String :=
  (o.kind, "[" ++ Text.join ", " o.paramItems ++ "]")

/-- `str(tuple(items))`. -/
def Obligation.paramsText (o : Obligation) : String :=
  match o.paramItems with
  | [item] => s!"({item},)"
  | items => "(" ++ Text.join ", " items ++ ")"

namespace PolicyEngine

/-- The first obligation under each key. -/
def mergeObligations (seen : List (String × String)) : List Obligation → List Obligation
  | [] => []
  | o :: rest =>
    if seen.contains o.mergeKey then mergeObligations seen rest
    else o :: mergeObligations (o.mergeKey :: seen) rest

/-- Two obligations of one kind with different parameters. -/
def detectObligationConflict (obligations : List Obligation) : Bool :=
  obligations.any (fun o => obligations.any (fun o' =>
    o.kind = o'.kind && o.paramsText ≠ o'.paramsText))

/-- The obligations of every policy that requires something. -/
def required (decisions : List PolicyDecision) : List Obligation :=
  (decisions.filter PolicyDecision.requires).flatMap PolicyDecision.obligations

def reasonRefs (decisions : List PolicyDecision) : List String :=
  (decisions.filter PolicyDecision.requires).flatMap (fun d =>
    if d.reasonRefs.isEmpty then (given d.reason).toList else d.reasonRefs)

def policyRefs (decisions : List PolicyDecision) : List String :=
  (decisions.filter PolicyDecision.requires).flatMap (fun d =>
    if d.policyRefs.isEmpty then [""] else d.policyRefs)

/-- Requirements that exclude each other count as a denial. -/
def requirement (decisions : List PolicyDecision) : PolicyDecision :=
  let uniq := mergeObligations [] (required decisions)
  let reasons := reasonRefs decisions
  if detectObligationConflict uniq then
    { disposition := some .deny, status := some .deny,
      reason := some "policy-conflict: conflicting obligations",
      reasonRefs := "policy-conflict" :: reasons, policyRefs := policyRefs decisions,
      obligations := uniq, metadata := [("conflict", .bool true), ("blocked", .bool true)] }
  else
    { disposition := some .require,
      status := some (if uniq.any (fun o => o.kind = "approval") then .requireApproval
        else .requireVerification),
      reason := some (if reasons.isEmpty then "requires obligations" else Text.join ";" reasons),
      reasonRefs := reasons, policyRefs := policyRefs decisions, obligations := uniq }

/-- A decision that requires something by its status alone. -/
def legacyRequirement (decisions : List PolicyDecision) : Option PolicyDecision :=
  decisions.find? (fun d =>
    d.status = some .requireApproval || d.status = some .requireVerification)

/-- Deny, then defer, then the union of the requirements, then allow. -/
def combine (decisions : List PolicyDecision) : PolicyDecision :=
  match decisions.find? PolicyDecision.denies with
  | some d => d
  | none => match decisions.find? PolicyDecision.defers with
    | some d => d
    | none =>
      if (required decisions).isEmpty then
        (legacyRequirement decisions).getD
          { disposition := some .allow, status := some .allow,
            reason := some "all policies allow" }
      else requirement decisions

def evaluate (policies : List Policy) (context : PolicyContext) : Result PolicyDecision := do
  let decisions ← policies.mapM (fun policy => policy context)
  return combine (decisions.map PolicyDecision.sync)

end PolicyEngine
/-! ## Proofs of obligations -/

/-- What the gates read of the qualification snapshot. -/
structure QualificationProofs where
  obligationProofs : List Json := []
  grants : List AuthorizationGrant := []
deriving Repr, Inhabited

/-- `_as_procedure_item` of a stored object in the bucket of obligation proofs: its
metadata, with its identifier and a kind where these are not there yet. -/
def obligationItem (id : String) (metadata : Fields) : Json :=
  let setDefault (fields : Fields) (name : String) (value : Json) : Fields :=
    if fields.has name then fields else fields ++ [(name, value)]
  .obj (setDefault (setDefault metadata "id" (.str id)) "kind"
    ((metadata.get "obligation").pyOr (metadata.get "qualification_kind")))

/-- The kind a proof entry names, null where it names none. -/
def entryKind (fields : Fields) : Json := (fields.get "kind").pyOr (fields.get "obligation")

/-- Whether a proof entry names a kind, and not that of the obligation. -/
def namesOther (fields : Fields) (o : Obligation) : Bool :=
  match entryKind fields with
  | .null => false
  | kind => kind.pyStr ≠ o.kind

/-- Whether a handed-off entry says to whom. -/
def handedOver (fields : Fields) : Bool :=
  ((fields.get "handoff_ref").pyOr (fields.get "authority_ref")).truthy

/-- `value is True`. -/
def Json.isTrue : Json → Bool
  | .bool b => b
  | _ => false

/-- Whether a proof value says that an obligation is met.  A status that is a list or an
object cannot be looked up and raises. -/
def statusEntrySatisfied (value : Json) (o : Obligation) : Result Bool :=
  match value with
  | .bool b => .ok b
  | .str s => .ok (["satisfied", "waived", "handed-off", "true", "True"].contains s)
  | .obj fields =>
    if namesOther fields o then .ok false
    else do
      let status := Fields.get fields "status"
      if ← status.inSet ["satisfied", "waived", "handed-off"] then
        if status.eqStr "waived" && !(Fields.get fields "waiver_authority_ref").truthy then
          return false
        else if status.eqStr "waived" && !o.waivable then return false
        else if status.eqStr "handed-off" then return handedOver fields
        else return true
      else return (Fields.get fields "satisfied").isTrue
  | _ => .ok false

/-- The first entry of a list that meets an obligation, null where none does. -/
def firstSatisfied (o : Obligation) : List Json → Result Json
  | [] => .ok .null
  | candidate :: rest => do
    if ← statusEntrySatisfied candidate o then return candidate
    firstSatisfied o rest

/-- What the proofs, a map by kind or a list, hold for an obligation. -/
def proofValue (proofs : Json) (o : Obligation) : Result Json :=
  match proofs with
  | .obj map => .ok (Fields.get map o.kind)
  | .arr entries => firstSatisfied o entries
  | _ => .ok .null

/-- The proofs of the snapshot; without a snapshot, those that the metadata carry. -/
def obligationProofs (request : InvocationRequest) (snapshot : Option QualificationProofs) : Json :=
  match snapshot with
  | some snapshot => .arr snapshot.obligationProofs
  | none => (request.metadata.get "obligation_refs").pyOr
      (request.metadata.get "policy_obligation_refs")

/-- The grants of the snapshot, where it resolved any. -/
def snapshotGrants (snapshot : Option QualificationProofs) : Option (List AuthorizationGrant) :=
  (snapshot.map QualificationProofs.grants).filter (fun grants => !grants.isEmpty)

def codePolicyDenied : String := "PolicyDenied"
def codePolicyUnavailable : String := "PolicyUnavailable"
def codeObligationUnsatisfied : String := "ObligationUnsatisfied"

/-- The facts a policy gate decides on: the registries, the contract, the snapshot, the
grants that the store lists, and the time. -/
structure PolicyFacts where
  authority : EffectAuthority
  request : InvocationRequest
  contract : CapabilityContract
  snapshot : Option QualificationProofs := none
  listing : GrantListing
  now : Time

namespace PolicyFacts

variable (f : PolicyFacts)

def proofs : Json := obligationProofs f.request f.snapshot

def checkAuthorization : Bool × String :=
  f.authority.checkAuthorization f.request f.contract (snapshotGrants f.snapshot) f.listing f.now

/-- Whether the capability needs an authorization at all. -/
def authorizationRequired : Bool :=
  (f.authority.effectRegistry.resolve f.request.capability).any
      CapabilityEffectRule.authorizationRequired ||
    f.contract.authorizationRequirement = .required

def noProof (o : Obligation) : String :=
  s!"{codeObligationUnsatisfied}: required policy obligation {o.kind} has no satisfied proof"

/-- One obligation: `none` where it is met, else the reason of the refusal.  An approval
without a proof value can be met by a grant. -/
def obligationFailure (o : Obligation) : Result (Option String) := do
  let value ← proofValue f.proofs o
  if value.isNone && o.kind = "approval" && f.authorizationRequired then
    match f.checkAuthorization with
    | (true, _) => return none
    | (false, reason) =>
      if Text.startsWith reason codeAuthorizationUnavailable then return some reason
      else return some (noProof o)
  else
    let satisfied ← statusEntrySatisfied value o
    return if satisfied then none else some (noProof o)

/-- The first obligation that is not met. -/
def obligationsFailure : List Obligation → Result (Option String)
  | [] => .ok none
  | o :: rest => do
    match ← f.obligationFailure o with
    | some reason => return some reason
    | none => obligationsFailure rest

/-- What the boundary tells the policies. -/
def context : PolicyContext :=
  { workId := f.request.workId
    capability := some f.request.capability
    payload :=
      [("capability", .str f.request.capability), ("parameters", .obj f.request.parameters),
       ("instruction", .ofOption f.request.instruction)]
    metadata := f.request.metadata }

/-- The gate on what an engine answers: nothing, or the code and the reason of a refusal. -/
def decisionGate (evaluated : Result PolicyDecision) : Except (String × String) Unit :=
  match evaluated with
  | .error e => .error (codePolicyUnavailable, s!"policy evaluation failed: {e.message}")
  | .ok decision =>
    if decision.denies then
      .error (codePolicyDenied, "policy denied: " ++ (given decision.reason).getD "deny")
    else if decision.defers then
      .error (codePolicyDenied, "policy deferred: " ++ (given decision.reason).getD "defer")
    else if decision.requires then
      match f.obligationsFailure decision.obligations with
      | .error e =>
        .error (codePolicyUnavailable, s!"policy obligation evaluation failed: {e.message}")
      | .ok (some reason) =>
        .error (if Text.startsWith reason codeAuthorizationUnavailable then
          codeAuthorizationUnavailable else codeObligationUnsatisfied, reason)
      | .ok none => .ok ()
    else .ok ()

/-- The policy gate of a boundary whose engine asks the policies. -/
def policyGate (policies : List Policy) : Except (String × String) Unit :=
  f.decisionGate (PolicyEngine.evaluate policies f.context)

/-! ## Hard boundaries -/

/-- Whether an entry that is not a waiver marks its obligation as met. -/
def marksMet (fields : Fields) : Bool :=
  let status := fields.get "status"
  status.eqStr "satisfied" || (status.eqStr "handed-off" && handedOver fields) ||
    (!(["satisfied", "waived", "handed-off"].any status.eqStr) && (fields.get "satisfied").isTrue)

/-- Whether a proof value names the obligation and marks it met.  The key of a map names
the kind of a value that names none itself. -/
def properEntry (keyed : Bool) (o : Obligation) : Json → Bool
  | .obj fields => (!(entryKind fields).isNone || keyed) && !namesOther fields o && marksMet fields
  | .bool b => keyed && b
  | _ => false

/-- Whether the proofs contain such an entry. -/
def hasEntry (o : Obligation) : Bool :=
  match f.proofs with
  | .obj map => properEntry true o (Fields.get map o.kind)
  | .arr entries => entries.any (properEntry false o)
  | _ => false

/-- A proof that a hard obligation is met. -/
def Proven (o : Obligation) : Prop :=
  f.hasEntry o = true ∨
    (o.kind = "approval" ∧ f.authorizationRequired = true ∧ f.checkAuthorization.1 = true)

/-- Some policy requires an obligation that cannot be waived. -/
def HardlyRequired (policies : List Policy) (o : Obligation) : Prop :=
  ∃ policy : Policy, policy ∈ policies ∧ ∃ d, policy f.context = .ok d ∧
    d.sync.requires = true ∧ o ∈ d.sync.obligations ∧ o.waivable = false

/-- The decisions of the policies. -/
def decisions (policies : List Policy) : Result (List PolicyDecision) :=
  (policies.mapM (fun policy : Policy => policy f.context)).map (List.map PolicyDecision.sync)

/-- The obligations left after the merge. -/
def surviving (decisions : List PolicyDecision) : List Obligation :=
  PolicyEngine.mergeObligations [] (PolicyEngine.required decisions)

/-- Nothing else stops the gate: no policy denies or defers, no requirements exclude each
other, and no obligation is left open. -/
structure Unstopped (decisions : List PolicyDecision) : Prop where
  notDenied : ∀ d ∈ decisions, d.denies = false
  notDeferred : ∀ d ∈ decisions, d.defers = false
  noConflict : PolicyEngine.detectObligationConflict (surviving decisions) = false
  met : ∀ u ∈ surviving decisions, f.obligationFailure u = .ok none

/-- The engine keeps this copy: the first that is required with its kind and parameters. -/
def Keeps (policies : List Policy) (u : Obligation) : Prop :=
  ∃ ds, f.decisions policies = .ok ds ∧
    (PolicyEngine.required ds).find? (fun o => o.mergeKey = u.mergeKey) = some u

/-- A value that the gate accepts for an obligation. -/
def Accepted (u : Obligation) (value : Json) : Prop :=
  proofValue f.proofs u = .ok value ∧ statusEntrySatisfied value u = .ok true

def Json.isMap : Json → Bool
  | .obj _ => true
  | _ => false

/-- The values that the proofs hold for an obligation: the one under its kind in a map, and
every entry of a list. -/
def valuesFor (o : Obligation) : List Json :=
  match f.proofs with
  | .obj map => [Fields.get map o.kind]
  | .arr entries => entries
  | _ => []

/-- A value that counts for a copy of an obligation and is no proof of it: a bare status, in a
list a bare boolean or an entry without a kind, and a waiver where the copy can be waived. -/
def loose (keyed : Bool) (u : Obligation) : Json → Bool
  | .str status => ["satisfied", "waived", "handed-off", "true", "True"].contains status
  | .bool b => b && !keyed
  | .obj fields =>
    let status := Fields.get fields "status"
    !namesOther fields u && (status.inSet []).isOk &&
      ((entryKind fields).isNone && !keyed && marksMet fields ||
        status.eqStr "waived" && (Fields.get fields "waiver_authority_ref").truthy && u.waivable)
  | _ => false

/-! ### The merge -/

theorem mergeObligations_eq (seen : List (String × String)) (l : List Obligation) :
    PolicyEngine.mergeObligations seen l = keepFirst Obligation.mergeKey seen l := by
  induction l generalizing seen with
  | nil => rfl
  | cons o rest ih =>
    rw [PolicyEngine.mergeObligations, keepFirst, ih, ih]
    by_cases hseen : o.mergeKey ∈ seen
    · rw [if_pos (List.contains_iff_mem.mpr hseen), if_pos hseen]
    · rw [if_neg (fun h => hseen (List.contains_iff_mem.mp h)), if_neg hseen]

theorem mem_of_mem_mergeObligations {u : Obligation} {l : List Obligation}
    {seen : List (String × String)} (h : u ∈ PolicyEngine.mergeObligations seen l) : u ∈ l := by
  rw [mergeObligations_eq] at h
  exact mem_of_mem_keepFirst h

/-- Every obligation has a copy that survives. -/
theorem exists_mergeObligations {o : Obligation} {l : List Obligation}
    {seen : List (String × String)} (h : o ∈ l) (hseen : o.mergeKey ∉ seen) :
    ∃ u ∈ PolicyEngine.mergeObligations seen l, u.mergeKey = o.mergeKey := by
  rw [mergeObligations_eq]
  exact exists_mem_keepFirst h hseen

theorem mem_required {o : Obligation} {decisions : List PolicyDecision} :
    o ∈ PolicyEngine.required decisions ↔
      ∃ d ∈ decisions, d.requires = true ∧ o ∈ d.obligations := by
  rw [PolicyEngine.required, List.mem_flatMap]
  constructor
  · rintro ⟨d, hd, ho⟩
    rw [List.mem_filter] at hd
    exact ⟨d, hd.1, hd.2, ho⟩
  · rintro ⟨d, hd, hrequires, ho⟩
    exact ⟨d, List.mem_filter.mpr ⟨hd, hrequires⟩, ho⟩

/-! ### What the gate accepts -/

variable {f}

theorem firstSatisfied_mem {o : Obligation} {entries : List Json} {value : Json}
    (h : firstSatisfied o entries = .ok value)
    (hsatisfied : statusEntrySatisfied value o = .ok true) : value ∈ entries := by
  induction entries with
  | nil =>
    rw [firstSatisfied, Except.ok.injEq] at h
    rw [← h] at hsatisfied
    cases hsatisfied
  | cons candidate rest ih =>
    rw [firstSatisfied, Result.bind_eq_ok] at h
    obtain ⟨satisfied, hcandidate, h⟩ := h
    cases satisfied with
    | true =>
      rw [if_pos rfl, Result.pure_eq_ok] at h
      rw [← h]
      exact List.mem_cons_self
    | false =>
      rw [if_neg Bool.false_ne_true] at h
      exact List.mem_cons_of_mem candidate (ih h)

theorem inSet_eq_ok {j : Json} {names : List String} {b : Bool} (h : j.inSet names = .ok b) :
    b = names.any j.eqStr := by
  unfold Json.inSet at h
  split at h
  · cases h
  · cases h
  · rw [Except.ok.injEq] at h
    exact h.symm

/-- An entry that meets an obligation and is no waiver marks it met. -/
theorem marksMet_of_satisfied {fields : Fields} {u : Obligation}
    (h : statusEntrySatisfied (.obj fields) u = .ok true)
    (hwaived : (Fields.get fields "status").eqStr "waived" = false) :
    namesOther fields u = false ∧ marksMet fields = true := by
  simp only [statusEntrySatisfied] at h
  cases hnames : namesOther fields u with
  | true => simp [hnames] at h
  | false =>
    refine ⟨rfl, ?_⟩
    simp only [hnames, Bool.false_eq_true, if_false, Result.bind_eq_ok] at h
    obtain ⟨known, hknown, h⟩ := h
    have hknown := inSet_eq_ok hknown
    cases known with
    | false =>
      simp only [Bool.false_eq_true, if_false, Result.pure_eq_ok] at h
      simp [marksMet, ← hknown, h]
    | true =>
      simp only [hwaived, if_true, Bool.false_and, Bool.false_eq_true, if_false] at h
      cases hhanded : (Fields.get fields "status").eqStr "handed-off" with
      | true =>
        simp only [hhanded, if_true, Result.pure_eq_ok] at h
        simp [marksMet, hhanded, h]
      | false =>
        have hsatisfied : (Fields.get fields "status").eqStr "satisfied" = true := by
          simpa [hwaived, hhanded] using hknown.symm
        simp [marksMet, hsatisfied]

theorem inSet_isOk {j : Json} {names : List String} (h : (j.inSet []).isOk = true) :
    j.inSet names = .ok (names.any j.eqStr) := by
  unfold Json.inSet at h ⊢
  split at h
  · cases h
  · cases h
  · rfl

theorem isOk_inSet {j : Json} {names : List String} {b : Bool} (h : j.inSet names = .ok b) :
    (j.inSet []).isOk = true := by
  unfold Json.inSet at h ⊢
  split at h
  · cases h
  · cases h
  · rfl

/-- A loose value counts, and is no entry of its obligation. -/
theorem accepted_of_loose {keyed : Bool} {u o : Obligation} {value : Json}
    (h : loose keyed u value = true) :
    statusEntrySatisfied value u = .ok true ∧ properEntry keyed o value = false := by
  cases value with
  | str status => exact ⟨congrArg Except.ok h, rfl⟩
  | bool b =>
    simp only [loose, Bool.and_eq_true, Bool.not_eq_true'] at h
    simp [statusEntrySatisfied, properEntry, h.1, h.2]
  | obj fields =>
    simp only [loose, Bool.and_eq_true, Bool.not_eq_true', Bool.or_eq_true] at h
    obtain ⟨⟨hnames, hstatus⟩, h⟩ := h
    rcases h with ⟨⟨hnone, hkeyed⟩, hmet⟩ | ⟨⟨hwaived, hauthority⟩, hwaivable⟩
    · refine ⟨?_, by simp [properEntry, hnone, hkeyed]⟩
      simp only [marksMet, Bool.or_eq_true, Bool.and_eq_true, Bool.not_eq_true'] at hmet
      rcases hmet with (hsatisfied | ⟨hhanded, hover⟩) | ⟨hunknown, hsatisfied⟩
      · rw [statusEntrySatisfied, hnames, Json.pyEq_str.mp hsatisfied]
        rfl
      · rw [statusEntrySatisfied, hnames, Json.pyEq_str.mp hhanded, hover]
        rfl
      · simp only [statusEntrySatisfied, hnames, inSet_isOk hstatus, hunknown, hsatisfied]
        rfl
    · have hstatus := Json.pyEq_str.mp hwaived
      constructor
      · rw [statusEntrySatisfied, hnames, hstatus, hauthority, hwaivable]
        rfl
      · rw [properEntry, marksMet, hstatus]
        exact Bool.and_false _
  | _ => cases h

theorem readable_of_satisfied {fields : Fields} {u : Obligation}
    (h : statusEntrySatisfied (.obj fields) u = .ok true) :
    namesOther fields u = false ∧ ((Fields.get fields "status").inSet []).isOk = true := by
  simp only [statusEntrySatisfied] at h
  cases hnames : namesOther fields u with
  | true => simp [hnames] at h
  | false =>
    simp only [hnames, Bool.false_eq_true, if_false, Result.bind_eq_ok] at h
    obtain ⟨known, hknown, -⟩ := h
    exact ⟨rfl, isOk_inSet hknown⟩

/-- A waiver counts with an authority, for a copy that can be waived. -/
theorem loose_of_waived {keyed : Bool} {fields : Fields} {u : Obligation}
    (h : statusEntrySatisfied (.obj fields) u = .ok true)
    (hwaived : (Fields.get fields "status").eqStr "waived" = true) :
    loose keyed u (.obj fields) = true := by
  obtain ⟨hnames, hstatus⟩ := readable_of_satisfied h
  simp only [statusEntrySatisfied] at h
  rw [hnames, Json.pyEq_str.mp hwaived] at h
  cases hauthority : (Fields.get fields "waiver_authority_ref").truthy with
  | false =>
    rw [hauthority] at h
    cases h
  | true =>
    cases hwaivable : u.waivable with
    | false =>
      rw [hauthority, hwaivable] at h
      cases h
    | true => simp [loose, hnames, hstatus, hwaived, hauthority, hwaivable]

/-- A value that counts is loose or a proper entry. -/
theorem loose_or_properEntry {keyed : Bool} {u o : Obligation} {value : Json}
    (h : statusEntrySatisfied value u = .ok true) (hkind : u.kind = o.kind) :
    loose keyed u value = true ∨ properEntry keyed o value = true := by
  cases value with
  | str status => exact Or.inl (Except.ok.inj h)
  | bool b =>
    obtain rfl := Except.ok.inj h
    cases keyed
    · exact Or.inl rfl
    · exact Or.inr rfl
  | obj fields =>
    obtain ⟨hnames, hstatus⟩ := readable_of_satisfied h
    have hother : namesOther fields o = false := by
      rw [← hnames]
      simp only [namesOther, hkind]
    cases hwaived : (Fields.get fields "status").eqStr "waived" with
    | true => exact Or.inl (loose_of_waived h hwaived)
    | false =>
      obtain ⟨-, hmet⟩ := marksMet_of_satisfied h hwaived
      cases hnone : (entryKind fields).isNone with
      | false => exact Or.inr (by simp [properEntry, hnone, hother, hmet])
      | true =>
        cases keyed
        · exact Or.inl (by simp [loose, hnames, hstatus, hnone, hmet])
        · exact Or.inr (by simp [properEntry, hother, hmet])
  | _ => cases h

theorem hasEntry_of_accepted {u o : Obligation} {value : Json} (h : f.Accepted u value)
    (hvalues : ∀ v ∈ f.valuesFor o, loose (Json.isMap f.proofs) u v = false)
    (hkind : u.kind = o.kind) : f.hasEntry o = true := by
  obtain ⟨hvalue, hsatisfied⟩ := h
  have hcases : loose (Json.isMap f.proofs) u value = true ∨
      properEntry (Json.isMap f.proofs) o value = true := loose_or_properEntry hsatisfied hkind
  unfold hasEntry
  unfold valuesFor at hvalues
  cases hproofs : f.proofs with
  | obj map =>
    rw [hproofs] at hvalue hcases hvalues
    rw [proofValue, Except.ok.injEq, hkind] at hvalue
    subst hvalue
    refine hcases.resolve_left (fun hloose => ?_)
    exact Bool.false_ne_true ((hvalues _ List.mem_cons_self).symm.trans hloose)
  | arr entries =>
    rw [hproofs] at hvalue hcases hvalues
    have hmem : value ∈ entries := firstSatisfied_mem hvalue hsatisfied
    refine List.any_eq_true.mpr ⟨value, hmem, hcases.resolve_left (fun hloose => ?_)⟩
    exact Bool.false_ne_true ((hvalues _ hmem).symm.trans hloose)
  | _ =>
    -- Anything else holds no value, and nothing accepts that.
    rw [hproofs] at hvalue
    cases hvalue
    cases hsatisfied

/-- An obligation is met by an accepted value, or it is an approval and a grant counts. -/
theorem accepted_or_granted {u : Obligation} (h : f.obligationFailure u = .ok none) :
    (∃ value, f.Accepted u value) ∨
      (u.kind = "approval" ∧ f.authorizationRequired = true ∧
        f.checkAuthorization.1 = true) := by
  rw [obligationFailure, Result.bind_eq_ok] at h
  obtain ⟨value, hvalue, h⟩ := h
  by_cases hgrant : (value.isNone && u.kind = "approval" && f.authorizationRequired) = true
  · right
    rw [if_pos hgrant] at h
    rw [Bool.and_eq_true, Bool.and_eq_true, decide_eq_true_eq] at hgrant
    cases hcheck : f.checkAuthorization with
    | mk allowed reason =>
      cases allowed with
      | true => exact ⟨hgrant.1.2, hgrant.2, rfl⟩
      | false =>
        simp only [hcheck] at h
        split_ifs at h <;> cases h
  · left
    rw [if_neg hgrant, Result.bind_eq_ok] at h
    obtain ⟨satisfied, hsatisfied, h⟩ := h
    cases satisfied with
    | true => exact ⟨value, hvalue, hsatisfied⟩
    | false => cases h

theorem obligationsFailure_eq_none {l : List Obligation} :
    f.obligationsFailure l = .ok none ↔ ∀ u ∈ l, f.obligationFailure u = .ok none := by
  induction l with
  | nil => simp [obligationsFailure]
  | cons u rest ih =>
    rw [obligationsFailure, Result.bind_eq_ok, List.forall_mem_cons]
    constructor
    · rintro ⟨failure, hfailure, h⟩
      cases failure with
      | some reason => cases h
      | none => exact ⟨hfailure, ih.mp h⟩
    · rintro ⟨hu, hrest⟩
      exact ⟨none, hu, ih.mpr hrest⟩

/-! ### When the gate passes -/

/-- The hard obligations of policies that all answered. -/
theorem hardlyRequired_iff {policies : List Policy} {ds : List PolicyDecision}
    (h : f.decisions policies = .ok ds) {o : Obligation} :
    f.HardlyRequired policies o ↔ o ∈ PolicyEngine.required ds ∧ o.waivable = false := by
  rw [decisions] at h
  cases hanswers : policies.mapM (fun policy : Policy => policy f.context) with
  | error e =>
    rw [hanswers] at h
    cases h
  | ok answers =>
    rw [hanswers, Except.map, Except.ok.injEq] at h
    subst h
    rw [mem_required]
    constructor
    · rintro ⟨policy, hpolicy, d, hd, hrequires, ho, hhard⟩
      have hmem : d ∈ answers := (Result.mem_of_mapM hanswers d).mpr ⟨policy, hpolicy, hd⟩
      exact ⟨⟨d.sync, List.mem_map.mpr ⟨d, hmem, rfl⟩, hrequires, ho⟩, hhard⟩
    · rintro ⟨⟨synced, hsynced, hrequires, ho⟩, hhard⟩
      obtain ⟨d, hd, rfl⟩ := List.mem_map.mp hsynced
      obtain ⟨policy, hpolicy, hd⟩ := (Result.mem_of_mapM hanswers d).mp hd
      exact ⟨policy, hpolicy, d, hd, hrequires, ho, hhard⟩

theorem evaluate_eq (policies : List Policy) :
    PolicyEngine.evaluate policies f.context =
      (f.decisions policies).map PolicyEngine.combine := by
  rw [PolicyEngine.evaluate, decisions]
  cases policies.mapM (fun policy : Policy => policy f.context) <;> rfl

/-- Where something is required and nothing is denied or deferred, the requirements are
merged. -/
theorem combine_eq_requirement {ds : List PolicyDecision} {o : Obligation}
    (ho : o ∈ PolicyEngine.required ds) (hdeny : ∀ d ∈ ds, d.denies = false)
    (hdefer : ∀ d ∈ ds, d.defers = false) :
    PolicyEngine.combine ds = PolicyEngine.requirement ds := by
  have hnoDeny : ds.find? PolicyDecision.denies = none := by
    rw [List.find?_eq_none]
    intro d hd
    rw [hdeny d hd]
    exact Bool.false_ne_true
  have hnoDefer : ds.find? PolicyDecision.defers = none := by
    rw [List.find?_eq_none]
    intro d hd
    rw [hdefer d hd]
    exact Bool.false_ne_true
  have hrequired : (PolicyEngine.required ds).isEmpty = false := by
    rw [List.isEmpty_eq_false_iff]
    exact List.ne_nil_of_mem ho
  rw [PolicyEngine.combine, hnoDeny, hnoDefer, hrequired]
  rfl

theorem decisionGate_eq_ok {decision : PolicyDecision} :
    f.decisionGate (.ok decision) = .ok () ↔ decision.denies = false ∧ decision.defers = false ∧
      (decision.requires = true → f.obligationsFailure decision.obligations = .ok none) := by
  unfold decisionGate
  cases hdenies : decision.denies with
  | true => simp [hdenies]
  | false =>
    cases hdefers : decision.defers with
    | true => simp [hdenies, hdefers]
    | false =>
      cases hrequires : decision.requires with
      | false => simp [hdenies, hdefers, hrequires]
      | true =>
        simp only [hdenies, hdefers, hrequires, Bool.false_eq_true, if_false, if_true, true_and,
          true_implies]
        cases hfailure : f.obligationsFailure decision.obligations with
        | error e => simp
        | ok failure => cases failure <;> simp

theorem requirement_of_conflict {ds : List PolicyDecision}
    (h : PolicyEngine.detectObligationConflict (surviving ds) = true) :
    (PolicyEngine.requirement ds).denies = true := by
  have hconflict : PolicyEngine.detectObligationConflict
      (PolicyEngine.mergeObligations [] (PolicyEngine.required ds)) = true := h
  rw [PolicyEngine.requirement]
  simp only [hconflict, if_true]
  rfl

theorem requirement_of_noConflict {ds : List PolicyDecision}
    (h : PolicyEngine.detectObligationConflict (surviving ds) = false) :
    (PolicyEngine.requirement ds).denies = false ∧ (PolicyEngine.requirement ds).defers = false ∧
      (PolicyEngine.requirement ds).requires = true ∧
      (PolicyEngine.requirement ds).obligations = surviving ds := by
  have hconflict : PolicyEngine.detectObligationConflict
      (PolicyEngine.mergeObligations [] (PolicyEngine.required ds)) = false := h
  rw [PolicyEngine.requirement]
  simp only [hconflict, Bool.false_eq_true, if_false]
  refine ⟨?_, rfl, rfl, rfl⟩
  by_cases happroval : (PolicyEngine.mergeObligations [] (PolicyEngine.required ds)).any
      (fun o => o.kind = "approval") = true
  · simp [PolicyDecision.denies, happroval]
  · simp [PolicyDecision.denies, happroval]

/-- With something required, the gate passes where nothing stops it, and nowhere else. -/
theorem policyGate_eq_ok {policies : List Policy} {ds : List PolicyDecision} {o : Obligation}
    (h : f.decisions policies = .ok ds) (ho : o ∈ PolicyEngine.required ds) :
    f.policyGate policies = .ok () ↔ f.Unstopped ds := by
  have hevaluate : PolicyEngine.evaluate policies f.context = .ok (PolicyEngine.combine ds) := by
    rw [evaluate_eq, h]
    rfl
  rw [policyGate, hevaluate, decisionGate_eq_ok]
  constructor
  · rintro ⟨hdenies, hdefers, hmet⟩
    have hdeny : ∀ d ∈ ds, d.denies = false := by
      intro d hd
      cases hfind : ds.find? PolicyDecision.denies with
      | none => exact Bool.not_eq_true _ ▸ List.find?_eq_none.mp hfind d hd
      | some first =>
        rw [PolicyEngine.combine, hfind] at hdenies
        exact absurd (List.find?_some hfind) (by simp [hdenies])
    have hdefer : ∀ d ∈ ds, d.defers = false := by
      intro d hd
      have hnoDeny : ds.find? PolicyDecision.denies = none := by
        rw [List.find?_eq_none]
        intro d' hd'
        rw [hdeny d' hd']
        exact Bool.false_ne_true
      cases hfind : ds.find? PolicyDecision.defers with
      | none => exact Bool.not_eq_true _ ▸ List.find?_eq_none.mp hfind d hd
      | some first =>
        rw [PolicyEngine.combine, hnoDeny, hfind] at hdefers
        exact absurd (List.find?_some hfind) (by simp [hdefers])
    rw [combine_eq_requirement ho hdeny hdefer] at hdenies hmet
    cases hconflict : PolicyEngine.detectObligationConflict (surviving ds) with
    | true =>
      rw [requirement_of_conflict hconflict] at hdenies
      cases hdenies
    | false =>
      obtain ⟨-, -, hrequires, hobligations⟩ := requirement_of_noConflict hconflict
      have hall := hmet hrequires
      rw [hobligations, obligationsFailure_eq_none] at hall
      exact ⟨hdeny, hdefer, hconflict, hall⟩
  · intro hunstopped
    rw [combine_eq_requirement ho hunstopped.notDenied hunstopped.notDeferred]
    obtain ⟨hdenies, hdefers, -, hobligations⟩ := requirement_of_noConflict hunstopped.noConflict
    refine ⟨hdenies, hdefers, fun _ => ?_⟩
    rw [hobligations, obligationsFailure_eq_none]
    exact hunstopped.met

/-- The copy that is kept survives the merge. -/
theorem mem_surviving_iff {ds : List PolicyDecision} {u : Obligation} :
    u ∈ surviving ds ↔
      (PolicyEngine.required ds).find? (fun o => o.mergeKey = u.mergeKey) = some u := by
  rw [surviving, mergeObligations_eq, mem_keepFirst_iff]
  exact and_iff_right List.not_mem_nil

/-- A passed gate has a proof of a hard obligation if no value that the proofs hold for it is
loose for the copy that is kept. -/
theorem proven_of_policyGate {policies : List Policy} {o : Obligation}
    (ho : f.HardlyRequired policies o)
    (hvalues : ∀ u, f.Keeps policies u → u.mergeKey = o.mergeKey →
      ∀ v ∈ f.valuesFor o, loose (Json.isMap f.proofs) u v = false)
    (hpass : f.policyGate policies = .ok ()) : f.Proven o := by
  cases hds : f.decisions policies with
  | error e =>
    rw [policyGate, evaluate_eq, hds] at hpass
    cases hpass
  | ok ds =>
    obtain ⟨hrequired, -⟩ := (hardlyRequired_iff hds).mp ho
    have hunstopped := (policyGate_eq_ok hds hrequired).mp hpass
    obtain ⟨u, hu, hkey⟩ := exists_mergeObligations hrequired List.not_mem_nil
    have hkind : u.kind = o.kind := (Prod.mk.injEq _ _ _ _ ▸ hkey).1
    rcases accepted_or_granted (hunstopped.met u hu) with ⟨value, haccepted⟩ | hgranted
    · exact Or.inl (hasEntry_of_accepted haccepted
        (hvalues u ⟨ds, hds, mem_surviving_iff.mp hu⟩ hkey) hkind)
    · exact Or.inr ⟨hkind ▸ hgranted.1, hgranted.2⟩

/-- A decision that requires the one obligation. -/
def requirementOf (o : Obligation) : PolicyDecision :=
  { disposition := some .require, obligations := [o] }

theorem denies_requirementOf (o : Obligation) : (requirementOf o).sync.denies = false := by
  show ((some Disposition.require = some .deny : Bool) ||
    (some ((requirementOf o).legacyStatus .require) = some .deny : Bool)) = false
  rw [PolicyDecision.legacyStatus]
  split_ifs <;> rfl

/-- A policy that always requires the one obligation. -/
def requiring (o : Obligation) : Policy := fun _ => .ok (requirementOf o)

/-- A request whose proofs hold the one value for a kind, in the metadata under its kind or in
the snapshot. -/
def holding (keyed : Bool) (kind : String) (value : Json) : PolicyFacts where
  authority := .create none none
  request :=
    { id := "q1", capability := "git.diff",
      metadata := if keyed then [("obligation_refs", .obj [(kind, value)])] else [] }
  contract := readContract "git.diff"
  snapshot := if keyed then none else some { obligationProofs := [value] }
  listing := .ok []
  now := 0

theorem proofs_holding (keyed : Bool) (kind : String) (value : Json) :
    (holding keyed kind value).proofs =
      if keyed then .obj [(kind, value)] else .arr [value] := by
  cases keyed <;> rfl

/-- The one value that is held counts for every obligation of its kind that accepts it. -/
theorem obligationFailure_holding {keyed : Bool} {kind : String} {u : Obligation} {value : Json}
    (hkind : u.kind = kind) (h : statusEntrySatisfied value u = .ok true) :
    (holding keyed kind value).obligationFailure u = .ok none := by
  have hvalue : proofValue (holding keyed kind value).proofs u = .ok value := by
    rw [proofs_holding]
    cases keyed with
    | false =>
      show firstSatisfied u [value] = .ok value
      rw [firstSatisfied, h]
      rfl
    | true =>
      show Except.ok (Fields.get [(kind, value)] u.kind) = .ok value
      simp [hkind, Fields.get, Fields.get?]
  have hnone : value.isNone = false := by
    cases value with
    | null => cases h
    | _ => rfl
  rw [obligationFailure, hvalue]
  show (if value.isNone && _ && _ then _ else _) = _
  rw [hnone]
  show (statusEntrySatisfied value u >>= _) = _
  rw [h]
  rfl

/-- One loose value passes a hard boundary without a proof. -/
theorem policyGate_of_loose {keyed : Bool} {o u : Obligation} {value : Json}
    (hhard : o.waivable = false) (hcopy : u.mergeKey = o.mergeKey)
    (h : loose keyed u value = true) :
    (holding keyed o.kind value).HardlyRequired [requiring u, requiring o] o ∧
      (holding keyed o.kind value).Keeps [requiring u, requiring o] u ∧
      (holding keyed o.kind value).policyGate [requiring u, requiring o] = .ok () ∧
      ¬ (holding keyed o.kind value).Proven o := by
  obtain ⟨haccepted, hproper⟩ := accepted_of_loose (o := o) h
  have hkind : u.kind = o.kind := (Prod.mk.injEq _ _ _ _ ▸ hcopy).1
  have hds : (holding keyed o.kind value).decisions [requiring u, requiring o] =
      .ok [(requirementOf u).sync, (requirementOf o).sync] := rfl
  have hrequired : PolicyEngine.required [(requirementOf u).sync, (requirementOf o).sync] = [u, o] :=
    rfl
  have ho : o ∈ PolicyEngine.required [(requirementOf u).sync, (requirementOf o).sync] := by
    rw [hrequired]
    exact List.mem_cons_of_mem u List.mem_cons_self
  have hsurviving : surviving [(requirementOf u).sync, (requirementOf o).sync] = [u] := by
    rw [surviving, hrequired, mergeObligations_eq]
    simp [keepFirst, hcopy]
  refine ⟨(hardlyRequired_iff hds).mpr ⟨ho, hhard⟩, ⟨_, hds, ?_⟩,
    (policyGate_eq_ok hds ho).mpr ⟨?_, ?_, ?_, ?_⟩, ?_⟩
  · rw [hrequired, List.find?_cons, decide_eq_true rfl]
  · intro d hd
    rcases List.mem_pair.mp hd with rfl | rfl
    · exact denies_requirementOf u
    · exact denies_requirementOf o
  · intro d hd
    rcases List.mem_pair.mp hd with rfl | rfl <;> rfl
  · rw [hsurviving]
    simp [PolicyEngine.detectObligationConflict]
  · intro u' hu'
    rw [hsurviving, List.mem_singleton] at hu'
    rw [hu']
    exact obligationFailure_holding hkind haccepted
  · rintro (hentry | ⟨-, hrequires, -⟩)
    · rw [hasEntry, proofs_holding] at hentry
      cases keyed with
      | false => simp [hproper] at hentry
      | true => simp [hproper, Fields.get, Fields.get?] at hentry
    · cases hrequires

def softRollback : Obligation := { kind := "rollback_required" }

def hardRollback : Obligation := { kind := "rollback_required", waivable := false }

/-- A snapshot that holds the one stored proof. -/
def withProof (metadata : Fields) : PolicyFacts where
  authority := .create none none
  request := { id := "q1", capability := "git.diff" }
  contract := readContract "git.diff"
  snapshot := some { obligationProofs := [obligationItem "rec_1" metadata] }
  listing := .ok []
  now := 0

/-- A stored proof that names no obligation at all meets the hard boundary alone. -/
example : (withProof [("status", .str "satisfied")]).policyGate [requiring hardRollback] = .ok () :=
  rfl

end PolicyFacts
end PortableRuntime
