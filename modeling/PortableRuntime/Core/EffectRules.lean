import Mathlib.Order.MinMax
import PortableRuntime.Core.Capabilities
import PortableRuntime.Library.Dict
import PortableRuntime.Records.Authorization

/-!
# Effect rules and capability contracts

Two registries say what a capability does to the world.  A contract is also an effect
rule, and a rule registered on its own also becomes a contract, so that the two normally
agree.  The boundary reads its impact class from the contract and from the request.
-/

namespace PortableRuntime

inductive AuthorizationRequirement where
  | none | optional | required
deriving Repr, DecidableEq, Inhabited

inductive ProcedureProfile where
  | minimal | standard | enhanced
deriving Repr, DecidableEq, Inhabited

/-- Minimal runtime-owned effect and authorization rule. -/
structure CapabilityEffectRule where
  capability : String
  impactClass : EffectClass := .read
  authorizationRequired : Bool := false
  resourceRequired : Bool := false
  versionRequired : Bool := false
  blastRadius : Option Int := none
  exposure : Option Int := none
deriving Repr, DecidableEq, Inhabited

structure CapabilityContract where
  capability : String
  minimumImpactClass : EffectClass := .read
  effectSemantics : SideEffectClass := .pure
  reversibility : Reversibility := .unknown
  authorizationRequirement : AuthorizationRequirement := .required
  minimumProcedureProfile : ProcedureProfile := .minimal
  resourceRequired : Bool := false
  subjectVersionRequired : Bool := false
  defaultIndependenceRequirements : List String := []
  blastRadius : Option Int := none
  exposure : Option Int := none
deriving Repr, DecidableEq, Inhabited

/-! ## Exact and `prefix.*` matching -/

/-- Whether a registered name covers a capability that has no entry of its own. -/
def patternCovers (pattern capability : String) : Bool :=
  (Text.endsWith pattern ".*" &&
      Text.startsWith capability (Text.dropEnd pattern 2 ++ ".")) || pattern == "*"

def nameMatches (pattern capability : String) : Bool :=
  pattern == capability || patternCovers pattern capability

/-- The entry under the capability itself, else the first pattern that covers it. -/
def resolveName {α : Type} (entries : Dict String α) (capability : String) : Option α :=
  match entries.get? capability with
  | some value => some value
  | none =>
    (entries.entries.find? (fun e => patternCovers e.1 capability)).map Prod.snd

/-- The registered values whose name matches a capability. -/
def matching {α : Type} (entries : Dict String α) (capability : String) : List α :=
  (entries.entries.filter (fun e => nameMatches e.1 capability)).map Prod.snd

section
variable {α : Type} {entries : Dict String α} {capability : String} {value : α}

theorem mem_keys_of_get? {name : String} (h : entries.get? name = some value) :
    name ∈ entries.keys := by
  by_contra hname
  rw [Dict.get?_eq_none.mpr hname] at h
  cases h

theorem mem_matching : value ∈ matching entries capability ↔
    ∃ name, entries.get? name = some value ∧ nameMatches name capability = true := by
  rw [matching, List.mem_map]
  constructor
  · rintro ⟨⟨name, v⟩, hmem, rfl⟩
    have hentry := List.mem_filter.mp hmem
    exact ⟨name, Dict.get?_eq_some.mpr hentry.1, hentry.2⟩
  · rintro ⟨name, hget, hmatches⟩
    exact ⟨(name, value), List.mem_filter.mpr ⟨Dict.get?_eq_some.mp hget, hmatches⟩, rfl⟩

theorem resolveName_eq_some (h : resolveName entries capability = some value) :
    ∃ name, entries.get? name = some value ∧ nameMatches name capability = true := by
  unfold resolveName at h
  cases hexact : entries.get? capability with
  | some v =>
    rw [hexact, Option.some.injEq] at h
    exact ⟨capability, h ▸ hexact, by simp [nameMatches]⟩
  | none =>
    rw [hexact, Option.map_eq_some_iff] at h
    obtain ⟨⟨name, v⟩, hfind, rfl⟩ := h
    have hcovers : patternCovers name capability = true := by
      simpa using List.find?_some hfind
    refine ⟨name, Dict.get?_eq_some.mpr (List.mem_of_find?_eq_some hfind), ?_⟩
    rw [nameMatches, hcovers, Bool.or_true]

/-- A capability that some name matches is resolved. -/
theorem resolveName_isSome {name : String} (hget : entries.get? name = some value)
    (hmatches : nameMatches name capability = true) :
    ∃ v, resolveName entries capability = some v := by
  unfold resolveName
  cases hexact : entries.get? capability with
  | some v => exact ⟨v, rfl⟩
  | none =>
    have hne : (name == capability) = false := by
      by_contra hname
      rw [Bool.not_eq_false, beq_iff_eq] at hname
      subst hname
      rw [hget] at hexact
      cases hexact
    rw [nameMatches, hne, Bool.false_or] at hmatches
    have hfound : (entries.entries.find? (fun e => patternCovers e.1 capability)).isSome :=
      List.find?_isSome.mpr ⟨(name, value), Dict.get?_eq_some.mp hget, hmatches⟩
    obtain ⟨e, he⟩ := Option.isSome_iff_exists.mp hfound
    exact ⟨e.2, by rw [he, Option.map_some]⟩

end

/-! ## The effect registry -/

structure CapabilityEffectRegistry where
  rules : Dict String CapabilityEffectRule := .empty
deriving Inhabited

namespace CapabilityEffectRegistry

def register (r : CapabilityEffectRegistry) (rule : CapabilityEffectRule) :
    CapabilityEffectRegistry :=
  { rules := r.rules.set rule.capability rule }

def registerAll (r : CapabilityEffectRegistry) (rules : List CapabilityEffectRule) :
    CapabilityEffectRegistry :=
  rules.foldl register r

def resolve (r : CapabilityEffectRegistry) (capability : String) : Option CapabilityEffectRule :=
  resolveName r.rules capability

def hasRule (r : CapabilityEffectRegistry) (capability : String) : Bool :=
  (r.resolve capability).isSome

def list (r : CapabilityEffectRegistry) : List CapabilityEffectRule := r.rules.values

end CapabilityEffectRegistry

def builtinEffectRules : List CapabilityEffectRule :=
  [{ capability := "observe.*" },
   { capability := "verify.*" },
   { capability := "reason.*" },
   { capability := "human.*" },
   { capability := "code.read" },
   { capability := "code.edit", impactClass := .writeLocal, authorizationRequired := true,
     resourceRequired := true, versionRequired := true },
   { capability := "code.test", impactClass := .writeLocal, authorizationRequired := true,
     resourceRequired := true, versionRequired := true },
   { capability := "shell.exec", impactClass := .writeLocal, authorizationRequired := true,
     resourceRequired := true },
   { capability := "git.diff" },
   { capability := "deploy.*", impactClass := .deploy, authorizationRequired := true,
     resourceRequired := true, versionRequired := true },
   { capability := "test.read" },
   { capability := "test.side_effect", impactClass := .writeRemote, authorizationRequired := true },
   { capability := "test.write_local", impactClass := .writeLocal, authorizationRequired := true },
   { capability := "test.write_remote", impactClass := .writeRemote,
     authorizationRequired := true },
   { capability := "test.deploy", impactClass := .deploy, authorizationRequired := true,
     resourceRequired := true, versionRequired := true },
   { capability := "test.admin", impactClass := .admin, authorizationRequired := true,
     resourceRequired := true },
   { capability := "test.irreversible", impactClass := .irreversible,
     authorizationRequired := true, resourceRequired := true, versionRequired := true }]

/-- An empty list of rules counts as none given. -/
def CapabilityEffectRegistry.create (rules : List CapabilityEffectRule) :
    CapabilityEffectRegistry :=
  registerAll {} (if rules.isEmpty then builtinEffectRules else rules)

/-! ## The contract registry -/

def readContract (capability : String) : CapabilityContract :=
  { capability, authorizationRequirement := .none }

def builtinContracts : List CapabilityContract :=
  let deploy (capability : String) : CapabilityContract :=
    { capability, minimumImpactClass := .deploy, effectSemantics := .reconcilable,
      reversibility := .compensatable, minimumProcedureProfile := .standard,
      resourceRequired := true, subjectVersionRequired := true,
      defaultIndependenceRequirements := ["credential_domain", "provider_family"],
      blastRadius := some 5, exposure := some 5 }
  let code (capability : String) : CapabilityContract :=
    { capability, minimumImpactClass := .writeLocal, effectSemantics := .idempotent,
      reversibility := .reversible, minimumProcedureProfile := .standard,
      resourceRequired := true, subjectVersionRequired := true,
      blastRadius := some 1, exposure := some 1 }
  let remote (capability : String) : CapabilityContract :=
    { capability, minimumImpactClass := .writeRemote, effectSemantics := .reconcilable,
      reversibility := .compensatable, minimumProcedureProfile := .standard,
      blastRadius := some 1, exposure := some 1 }
  [deploy "deploy.prod", deploy "deploy.*", code "code.edit", readContract "code.read",
   code "code.test",
   { capability := "shell.exec", minimumImpactClass := .writeLocal,
     effectSemantics := .reconcilable, minimumProcedureProfile := .standard,
     resourceRequired := true, blastRadius := some 1, exposure := some 1 },
   readContract "git.diff", remote "test.side_effect", deploy "test.deploy",
   readContract "test.read",
   { capability := "test.write_local", minimumImpactClass := .writeLocal,
     effectSemantics := .idempotent, reversibility := .reversible,
     authorizationRequirement := .optional, blastRadius := some 1, exposure := some 1 },
   remote "test.write_remote",
   { capability := "test.admin", minimumImpactClass := .admin,
     effectSemantics := .irreversibleOpaque, reversibility := .irreversible,
     minimumProcedureProfile := .enhanced, resourceRequired := true,
     defaultIndependenceRequirements := ["credential_domain", "provider_family"],
     blastRadius := some 10, exposure := some 10 },
   { capability := "test.irreversible", minimumImpactClass := .irreversible,
     effectSemantics := .irreversibleOpaque, reversibility := .irreversible,
     minimumProcedureProfile := .enhanced, resourceRequired := true,
     subjectVersionRequired := true,
     defaultIndependenceRequirements := ["credential_domain", "provider_family"],
     blastRadius := some 10, exposure := some 10 },
   readContract "reason.generate", readContract "observe.*", readContract "verify.*",
   readContract "human.*", readContract "reason.*"]

/-- The effect rule a contract stands for. -/
def CapabilityContract.effectRule (c : CapabilityContract) : CapabilityEffectRule :=
  { capability := c.capability, impactClass := c.minimumImpactClass,
    authorizationRequired := c.authorizationRequirement = .required,
    resourceRequired := c.resourceRequired, versionRequired := c.subjectVersionRequired }

/-- The contract a rule stands for. -/
def CapabilityEffectRule.contract (rule : CapabilityEffectRule) : CapabilityContract :=
  { capability := rule.capability, minimumImpactClass := rule.impactClass,
    effectSemantics := if rule.impactClass = .read then .pure else .reconcilable,
    reversibility := .unknown,
    authorizationRequirement := if rule.authorizationRequired then .required else .none,
    minimumProcedureProfile := if rule.authorizationRequired then .standard else .minimal,
    resourceRequired := rule.resourceRequired, subjectVersionRequired := rule.versionRequired,
    blastRadius := rule.blastRadius, exposure := rule.exposure }

/-- Whether a capability without a contract has to be refused.  Only explicit read-only
names are safe. -/
def isSideEffectCapability (capability : String) : Bool :=
  let lower := Text.lower capability
  if lower == "test.read" || Text.endsWith lower ".read" then false
  else if ["observe.", "verify.", "human.", "reason."].any (Text.startsWith lower) then false
  else if Text.startsWith lower "code." then true
  else ["deploy", "admin", "irreversible", "write", "side_effect"].any (Text.hasInfix lower)

structure CapabilityContractRegistry where
  contracts : Dict String CapabilityContract := .empty
  effectRegistry : CapabilityEffectRegistry := {}
deriving Inhabited

namespace CapabilityContractRegistry

def register (r : CapabilityContractRegistry) (contract : CapabilityContract) :
    CapabilityContractRegistry :=
  { contracts := r.contracts.set contract.capability contract,
    effectRegistry := r.effectRegistry.register contract.effectRule }

/-- A built-in contract also passes on its bounded exposure. -/
def registerBuiltin (r : CapabilityContractRegistry) (contract : CapabilityContract) :
    CapabilityContractRegistry :=
  { contracts := r.contracts.set contract.capability contract,
    effectRegistry := r.effectRegistry.register
      { contract.effectRule with
        blastRadius := contract.blastRadius
        exposure := contract.exposure } }

def registerEffectRule (r : CapabilityContractRegistry) (rule : CapabilityEffectRule) :
    CapabilityContractRegistry :=
  { contracts := r.contracts.set rule.capability rule.contract,
    effectRegistry := r.effectRegistry.register rule }

/-- The rules of a supplied effect registry are registered once more at the end, and
become no contracts. -/
def create (contracts : List CapabilityContract)
    (effectRegistry : Option CapabilityEffectRegistry) : CapabilityContractRegistry :=
  let supplied := effectRegistry.elim [] CapabilityEffectRegistry.list
  let start : CapabilityContractRegistry :=
    { effectRegistry := effectRegistry.getD (CapabilityEffectRegistry.create []) }
  let filled := contracts.foldl register (builtinContracts.foldl registerBuiltin start)
  { filled with effectRegistry := filled.effectRegistry.registerAll supplied }

/-- The contract of a capability: a read contract for a name without one, and
`EffectContractMissing`, here `none`, for a name that sounds like a side effect. -/
def resolve (r : CapabilityContractRegistry) (capability : String) : Option CapabilityContract :=
  match resolveName r.contracts capability with
  | some contract => some contract
  | none =>
    if isSideEffectCapability capability then none else some (readContract capability)

end CapabilityContractRegistry

/-! ## The effective impact -/

/-- A request with what the gates of the boundary read of it. -/
structure InvocationRequest extends CapabilityRequest where
  instruction : Option String := none
  parameters : Fields := []
  constraints : Fields := []
  preferredProviderIds : List String := []
  excludedProviderIds : List String := []
  actorRef : Option String := none
  resourceRef : Option String := none
  subjectVersionRefs : List String := []
  effectClass : EffectClass := .read
deriving Repr, Inhabited

/-- The registries of a boundary.  Unless it was given an effect registry beside its
contracts, it reads the one inside them. -/
structure EffectAuthority where
  contractRegistry : CapabilityContractRegistry
  ownEffectRegistry : Option CapabilityEffectRegistry := none

/-- The constructor of the boundary. -/
def EffectAuthority.create (contractRegistry : Option CapabilityContractRegistry)
    (effectRegistry : Option CapabilityEffectRegistry) : EffectAuthority :=
  match contractRegistry with
  | some registry => { contractRegistry := registry, ownEffectRegistry := effectRegistry }
  | none => { contractRegistry := .create [] effectRegistry }

def EffectAuthority.effectRegistry (a : EffectAuthority) : CapabilityEffectRegistry :=
  a.ownEffectRegistry.getD a.contractRegistry.effectRegistry

/-- The class of the highest level among those given, in the order of `_IMPACT_ORDER`. -/
def computeEffectiveImpact (contractMinimum : EffectClass)
    (providerMinimum requested : Option EffectClass) : EffectClass :=
  let levels :=
    contractMinimum.level :: (providerMinimum.toList ++ requested.toList).map EffectClass.level
  let maxLevel := levels.foldl max 0
  (EffectClass.all.find? (fun e => e.level = maxLevel)).getD contractMinimum

/-- The class the request asks for: its field, or its metadata where that is higher. -/
def requestedImpact (request : InvocationRequest) : EffectClass :=
  match (request.metadata.get "requested_effect_class").asStr?.bind EffectClass.ofText? with
  | some requested =>
    if request.effectClass.level < requested.level then requested else request.effectClass
  | none => request.effectClass

namespace EffectAuthority

variable (a : EffectAuthority)

/-- The rule counts only where there is no contract. -/
def effectiveImpact (request : InvocationRequest) (contract : Option CapabilityContract)
    (providerMinimum : Option EffectClass) : EffectClass :=
  let rule := a.effectRegistry.resolve request.capability
  let minimum := match contract, rule with
    | some contract, _ => contract.minimumImpactClass
    | none, some rule => rule.impactClass
    | none, none => .read
  computeEffectiveImpact minimum providerMinimum (some (requestedImpact request))

/-- What `execute` decides about a request before its gates: the contract, the effective
impact, and whether the invocation is precommitted and charged as a side effect. -/
structure Classification where
  contract : CapabilityContract
  effective : EffectClass
  sideEffect : Bool
deriving Repr, DecidableEq

/-- `none` where `execute` ends with `EffectContractMissing`. -/
def classify (request : InvocationRequest) : Option Classification :=
  (a.contractRegistry.resolve request.capability).map (fun contract =>
    let effective := a.effectiveImpact request (some contract) none
    { contract, effective, sideEffect := EffectClass.read.level < effective.level })

end EffectAuthority

theorem EffectClass.level_le (e : EffectClass) : e.level ≤ 5 := by cases e <;> decide

/-- Every level up to the highest one is the level of a class. -/
theorem EffectClass.find_level {n : Nat} (h : n ≤ 5) :
    ∃ e : EffectClass, EffectClass.all.find? (fun e => e.level = n) = some e ∧ e.level = n := by
  have hall : ∀ n : Fin 6,
      (EffectClass.all.find? (fun e => e.level = n.val)).map EffectClass.level = some n.val := by
    decide
  have hn := hall ⟨n, by omega⟩
  rw [Option.map_eq_some_iff] at hn
  obtain ⟨e, hfind, hlevel⟩ := hn
  exact ⟨e, hfind, hlevel⟩

theorem level_computeEffectiveImpact (minimum : EffectClass) (requested : EffectClass) :
    (computeEffectiveImpact minimum none (some requested)).level =
      max minimum.level requested.level := by
  have hbound : max minimum.level requested.level ≤ 5 :=
    Nat.max_le.mpr ⟨minimum.level_le, requested.level_le⟩
  obtain ⟨e, hfind, hlevel⟩ := EffectClass.find_level hbound
  have hmax : List.foldl max 0 [minimum.level, requested.level] =
      max minimum.level requested.level := by
    simp only [List.foldl_cons, List.foldl_nil, Nat.zero_max]
  rw [computeEffectiveImpact]
  simp only [Option.toList_none, Option.toList_some, List.nil_append, List.map_cons,
    List.map_nil, hmax, hfind, Option.getD_some]
  exact hlevel

theorem effectClass_le_requestedImpact (request : InvocationRequest) :
    request.effectClass.level ≤ (requestedImpact request).level := by
  unfold requestedImpact
  cases hrequested :
      (request.metadata.get "requested_effect_class").asStr?.bind EffectClass.ofText? with
  | none => exact le_rfl
  | some requested =>
    by_cases hlevel : request.effectClass.level < requested.level
    · simp only [hlevel, if_true]
      exact hlevel.le
    · simp only [hlevel, if_false]
      exact le_rfl

theorem le_requestedImpact {request : InvocationRequest} {text : String} {e : EffectClass}
    (hget : request.metadata.get "requested_effect_class" = .str text)
    (htext : EffectClass.ofText? text = some e) :
    e.level ≤ (requestedImpact request).level := by
  have hrequested :
      (request.metadata.get "requested_effect_class").asStr?.bind EffectClass.ofText? = some e := by
    rw [hget]
    exact htext
  unfold requestedImpact
  by_cases hlevel : request.effectClass.level < e.level
  · simp only [hrequested, hlevel, if_true]
    exact le_rfl
  · simp only [hrequested, hlevel, if_false]
    exact not_lt.mp hlevel

/-! ## Registries that agree -/

namespace CapabilityContractRegistry

/-- Each name has the same class as a rule and as a contract. -/
def InStep (r : CapabilityContractRegistry) : Prop :=
  ∀ name, (r.effectRegistry.rules.get? name).map CapabilityEffectRule.impactClass =
    (r.contracts.get? name).map CapabilityContract.minimumImpactClass

/-- A call that fills the registries after their construction. -/
inductive Registration where
  | contract (c : CapabilityContract)
  | effectRule (rule : CapabilityEffectRule)

def apply (r : CapabilityContractRegistry) : Registration → CapabilityContractRegistry
  | .contract c => r.register c
  | .effectRule rule => r.registerEffectRule rule

variable {r : CapabilityContractRegistry}

theorem inStep_of_keys
    (h : ∀ name ∈ r.effectRegistry.rules.keys ++ r.contracts.keys,
      (r.effectRegistry.rules.get? name).map CapabilityEffectRule.impactClass =
        (r.contracts.get? name).map CapabilityContract.minimumImpactClass) : r.InStep := by
  intro name
  by_cases hname : name ∈ r.effectRegistry.rules.keys ++ r.contracts.keys
  · exact h name hname
  · rw [List.mem_append, not_or] at hname
    rw [Dict.get?_eq_none.mpr hname.1, Dict.get?_eq_none.mpr hname.2, Option.map_none,
      Option.map_none]

/-- Without a supplied effect registry the registries start in step. -/
theorem inStep_create : (create [] none).InStep := inStep_of_keys (by decide)

theorem InStep.set (h : r.InStep) (name : String) {c : CapabilityContract}
    {rule : CapabilityEffectRule} (hclass : rule.impactClass = c.minimumImpactClass) :
    InStep { contracts := r.contracts.set name c,
             effectRegistry := { rules := r.effectRegistry.rules.set name rule } } := by
  intro other
  by_cases hname : other = name
  · subst hname
    simp [hclass]
  · simp only [Dict.get?_set_of_ne _ hname]
    exact h other

theorem InStep.apply (h : r.InStep) (call : Registration) : (r.apply call).InStep := by
  cases call with
  | contract c => exact h.set c.capability rfl
  | effectRule rule => exact h.set rule.capability rfl

/-- However the registries are filled after their construction, they stay in step. -/
theorem InStep.run (h : r.InStep) (calls : List Registration) :
    (calls.foldl CapabilityContractRegistry.apply r).InStep := by
  induction calls generalizing r with
  | nil => exact h
  | cons call rest ih => exact ih (h.apply call)

/-- In step, and with one name alone that matches a capability, its rule is no higher than
its contract. -/
theorem InStep.le_minimum (h : r.InStep) {capability : String}
    (halone : ∀ name name', name ∈ r.effectRegistry.rules.keys →
      name' ∈ r.effectRegistry.rules.keys → nameMatches name capability →
        nameMatches name' capability → name = name')
    {contract : CapabilityContract} (hcontract : r.resolve capability = some contract)
    {rule : CapabilityEffectRule} (hrule : rule ∈ matching r.effectRegistry.rules capability) :
    rule.impactClass.level ≤ contract.minimumImpactClass.level := by
  obtain ⟨name, hget, hmatches⟩ := mem_matching.mp hrule
  have hcontract_at : (r.contracts.get? name).map CapabilityContract.minimumImpactClass =
      some rule.impactClass := by
    rw [← h name, hget, Option.map_some]
  obtain ⟨own, hown, hclass⟩ := Option.map_eq_some_iff.mp hcontract_at
  obtain ⟨resolved, hresolved⟩ := resolveName_isSome hown hmatches
  have hsame : resolved = contract := by
    rw [resolve, hresolved] at hcontract
    exact Option.some.inj hcontract
  obtain ⟨name', hget', hmatches'⟩ := resolveName_eq_some hresolved
  have hrule_at : (r.effectRegistry.rules.get? name').map CapabilityEffectRule.impactClass =
      some resolved.minimumImpactClass := by
    rw [h name', hget', Option.map_some]
  obtain ⟨rule', hrule', -⟩ := Option.map_eq_some_iff.mp hrule_at
  have hkey : name = name' := by
    refine halone name name' ?_ ?_ hmatches hmatches'
    · exact mem_keys_of_get? hget
    · exact mem_keys_of_get? hrule'
  subst hkey
  rw [hown, Option.some.injEq] at hget'
  rw [← hsame, ← hget', hclass]

end CapabilityContractRegistry
/-! ## Classification covers the rules -/

namespace EffectAuthority

variable (a : EffectAuthority) (request : InvocationRequest)

/-- The registered effect rules that match the capability of a request. -/
def matchingRules : List CapabilityEffectRule :=
  matching a.effectRegistry.rules request.capability

/-- A classification below none of its sources. -/
structure NotUnderClassified (c : Classification) : Prop where
  rules : ∀ rule ∈ a.matchingRules request, rule.impactClass.level ≤ c.effective.level
  contract : c.contract.minimumImpactClass.level ≤ c.effective.level
  declared : request.effectClass.level ≤ c.effective.level
  declaredInMetadata : ∀ text e, request.metadata.get "requested_effect_class" = .str text →
    EffectClass.ofText? text = some e → e.level ≤ c.effective.level
  charged : ∀ rule ∈ a.matchingRules request, rule.impactClass ≠ .read → c.sideEffect = true

/-- Where no rule is higher than both the contract that `contract` returns and the class
the request asks for. -/
def RulesCovered (contract : CapabilityContract) : Prop :=
  ∀ rule ∈ a.matchingRules request,
    rule.impactClass.level ≤ contract.minimumImpactClass.level ∨
      rule.impactClass.level ≤ (requestedImpact request).level

variable {a request}

theorem level_effective {c : Classification} (h : a.classify request = some c) :
    c.effective.level =
      max c.contract.minimumImpactClass.level (requestedImpact request).level := by
  rw [classify, Option.map_eq_some_iff] at h
  obtain ⟨contract, -, rfl⟩ := h
  exact level_computeEffectiveImpact contract.minimumImpactClass (requestedImpact request)

theorem sideEffect_eq {c : Classification} (h : a.classify request = some c) :
    c.sideEffect = decide (0 < c.effective.level) := by
  rw [classify, Option.map_eq_some_iff] at h
  obtain ⟨contract, -, rfl⟩ := h
  rfl

theorem contract_eq {c : Classification} (h : a.classify request = some c) :
    a.contractRegistry.resolve request.capability = some c.contract := by
  rw [classify, Option.map_eq_some_iff] at h
  obtain ⟨contract, hcontract, rfl⟩ := h
  exact hcontract

theorem level_pos {e : EffectClass} (h : e ≠ .read) : 0 < e.level := by
  cases e with
  | read => exact absurd rfl h
  | _ => decide

/-- The rules are covered just where the contract and the request cover them: no rule is
consulted once there is a contract, and there always is one. -/
theorem classify_covers_iff (a : EffectAuthority) (request : InvocationRequest) :
    (∀ c, a.classify request = some c → a.NotUnderClassified request c) ↔
      ∀ contract, a.contractRegistry.resolve request.capability = some contract →
        a.RulesCovered request contract := by
  constructor
  · intro h contract hcontract rule hrule
    have hclassify : ∃ c, a.classify request = some c ∧ c.contract = contract :=
      ⟨_, by rw [classify, hcontract, Option.map_some], rfl⟩
    obtain ⟨c, hc, rfl⟩ := hclassify
    have hle := (h c hc).rules rule hrule
    rwa [level_effective hc, le_max_iff] at hle
  · intro h c hc
    have hlevel := level_effective hc
    have hcovered := h c.contract (contract_eq hc)
    have hrules : ∀ rule ∈ a.matchingRules request,
        rule.impactClass.level ≤ c.effective.level := by
      intro rule hrule
      rw [hlevel, le_max_iff]
      exact hcovered rule hrule
    have hrequested : (requestedImpact request).level ≤ c.effective.level := by
      rw [hlevel]
      exact le_max_right _ _
    refine ⟨hrules, ?_, ?_, ?_, ?_⟩
    · rw [hlevel]
      exact le_max_left _ _
    · exact (effectClass_le_requestedImpact request).trans hrequested
    · intro text e hget htext
      exact (le_requestedImpact hget htext).trans hrequested
    · intro rule hrule hread
      rw [sideEffect_eq hc, decide_eq_true_eq]
      exact (level_pos hread).trans_le (hrules rule hrule)

/-- However its registries are filled after their construction, a boundary that shares the
effect registry of its contracts covers every capability that one name alone matches. -/
theorem rulesCovered_of_calls (hshared : a.ownEffectRegistry = none)
    {calls : List CapabilityContractRegistry.Registration}
    (hbuilt : a.contractRegistry =
      calls.foldl CapabilityContractRegistry.apply (CapabilityContractRegistry.create [] none))
    (halone : ∀ name name', name ∈ a.effectRegistry.rules.keys →
      name' ∈ a.effectRegistry.rules.keys → nameMatches name request.capability →
        nameMatches name' request.capability → name = name')
    {contract : CapabilityContract}
    (hcontract : a.contractRegistry.resolve request.capability = some contract) :
    a.RulesCovered request contract := by
  have hstep : a.contractRegistry.InStep := by
    rw [hbuilt]
    exact CapabilityContractRegistry.inStep_create.run calls
  have hregistry : a.effectRegistry = a.contractRegistry.effectRegistry := by
    rw [effectRegistry, hshared, Option.getD_none]
  intro rule hrule
  rw [hregistry] at halone
  rw [matchingRules, hregistry] at hrule
  exact Or.inl (hstep.le_minimum halone hcontract hrule)

/-- A boundary that was given one rule, and no contract, for `payments.charge`. -/
def payments : EffectAuthority :=
  .create none (some (.create [{ capability := "payments.charge", impactClass := .irreversible }]))

def charge : InvocationRequest := { id := "q1", capability := "payments.charge" }

/-- An irreversible capability is executed as a read: it is neither precommitted nor
charged. -/
theorem charge_underClassified :
    ∃ c, payments.classify charge = some c ∧ c.effective = .read ∧ c.sideEffect = false ∧
      ¬ payments.NotUnderClassified charge c := by
  refine ⟨⟨readContract "payments.charge", .read, false⟩, by decide, rfl, rfl, ?_⟩
  intro h
  have hrule : ({ capability := "payments.charge", impactClass := .irreversible } :
      CapabilityEffectRule) ∈ payments.matchingRules charge := by decide
  exact absurd (h.rules _ hrule) (by decide)

end EffectAuthority
end PortableRuntime
