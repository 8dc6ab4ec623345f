import PortableRuntime.Core.Execute

/-!
# Routing under constraints

A request is routed to the best of the candidates that match its hard constraints, its failure
domains and its independence from other providers.  A reference provider that the registry does
not know is left out of the comparison, unless the registry knows none of them.
-/

namespace PortableRuntime

/-- A descriptor with the fields that routing reads. -/
structure RoutedProvider extends ProviderDescriptor where
  name : String := ""
  version : String := ""
  capabilities : List String := []
  enabled : Bool := true
  priority : Int := 0
  tags : List String := []
  constraints : Fields := []
  metadata : Fields := []
  providerFamily : Option String := none
  modelFamily : Option String := none
  operator : Option String := none
  executionDomain : Option String := none
  credentialDomain : Option String := none
  dataSourceDomain : Option String := none
  evaluationDomain : Option String := none
  networkDomain : Option String := none
  trustBoundary : Option String := none
  extra : Fields := []

inductive AttributeValue where
  | json (j : Json)
  | set (items : List String)

namespace AttributeValue

def isNone : AttributeValue → Bool
  | json .null => true
  | _ => false

/-- `==` between attributes. -/
def pyEq : AttributeValue → AttributeValue → Bool
  | json a, json b => a.pyEq b
  | set a, set b => a.all b.contains && b.all a.contains
  | _, _ => false

end AttributeValue

namespace RoutedProvider

def attributes (d : RoutedProvider) : Fields :=
  [("id", .str d.id), ("name", .str d.name), ("version", .str d.version),
   ("capabilities", .ofStrings d.capabilities), ("enabled", .bool d.enabled),
   ("priority", .int d.priority), ("constraints", .obj d.constraints),
   ("metadata", .obj d.metadata), ("effect_semantics", .str d.effectSemantics.text),
   ("side_effect_class", .str d.sideEffectClass.text), ("reversibility", .str d.reversibility.text),
   ("provider_family", .ofOption d.providerFamily), ("model_family", .ofOption d.modelFamily),
   ("operator", .ofOption d.operator), ("execution_domain", .ofOption d.executionDomain),
   ("credential_domain", .ofOption d.credentialDomain),
   ("data_source_domain", .ofOption d.dataSourceDomain),
   ("evaluation_domain", .ofOption d.evaluationDomain),
   ("network_domain", .ofOption d.networkDomain), ("trust_boundary", .ofOption d.trustBoundary)] ++
    d.extra

/-- `getattr(descriptor, name, None)`. -/
def getattr (d : RoutedProvider) (name : String) : AttributeValue :=
  if name = "tags" then .set d.tags else .json (d.attributes.get name)

end RoutedProvider

/-! ## Independence -/

structure IndependenceContext where
  referenceProviderRefs : List String := []
  independentOn : List String := []
deriving Repr, DecidableEq

namespace IndependenceContext

/-- `is_satisfied`: every value that is asked for is known, and no reference shares it. -/
def isSatisfied (c : IndependenceContext) (candidate : RoutedProvider)
    (references : List RoutedProvider) : Bool :=
  c.independentOn.all (fun dim => !(candidate.getattr dim).isNone &&
    references.all (fun ref => !(ref.getattr dim).isNone &&
      !(candidate.getattr dim).pyEq (ref.getattr dim)))

/-- `list(j)` of strings, where `j` is what is there or else an empty list. -/
def stringList (j : Json) : Result (List String) := do
  let items ← (j.pyOr (.arr [])).iterate
  items.mapM (fun item => orRaise item.asStr? "Input should be a valid string")

def create (refs dims : Json) : Result IndependenceContext := do
  return { referenceProviderRefs := ← stringList refs, independentOn := ← stringList dims }

def namedIn (fields : Fields) : Json :=
  (fields.get "reference_provider_refs").pyOr (fields.get "independent_from_provider_ids")

/-- `from_request`: the metadata, its independence constraints, the constraints of the request,
and last the short forms, the first of these that says anything. -/
def fromRequest (request : InvocationRequest) : Result (Option IndependenceContext) := do
  let meta' := request.metadata
  let constraints := request.constraints
  if let some ic := (meta'.get "independence_context").asFields? then
    return some (← create (ic.get "reference_provider_refs") (ic.get "independent_on"))
  let ind := (meta'.get "independence_constraints").asFields?.getD []
  if !ind.isEmpty then
    return some (← create (namedIn ind) (ind.get "independent_on"))
  let refs := namedIn constraints
  let dims := (constraints.get "independent_on").pyOr (constraints.get "required_independence")
  if refs.truthy || dims.truthy then
    if dims.truthy then return some (← create refs dims)
    return some (← create (refs.pyOr ((namedIn ind).pyOr refs)) (ind.get "independent_on"))
  let refs2 := (meta'.get "independent_from").pyOr (constraints.get "independent_from")
  if refs2.truthy then
    return some (← create (if refs2.isArr then refs2 else .arr [refs2])
      (meta'.get "independent_on"))
  return none

end IndependenceContext

/-! ## Selection -/

namespace ConstraintRouter

/-- What a request constrains, but for what the router reads itself. -/
def hardConstraints (request : InvocationRequest) : Fields :=
  request.constraints.filter (fun f =>
    !(["required_failure_domains", "independence_constraints"].contains f.1))

def matchesHard (request : InvocationRequest) (d : RoutedProvider) : Bool :=
  (hardConstraints request).all (fun f => (d.constraints.get f.1).pyEq f.2)

/-- The index of each preferred provider. -/
def preferred (request : InvocationRequest) : Dict String Nat :=
  Dict.ofPairs request.preferredProviderIds.zipIdx

def preference (request : InvocationRequest) (d : RoutedProvider) : Nat :=
  ((preferred request).get? d.id).getD (preferred request).entries.length

/-- Preferred providers come first, then those of a higher priority, then by id. -/
def precedes (request : InvocationRequest) (a b : RoutedProvider) : Prop :=
  preference request a < preference request b ∨
    (preference request a = preference request b ∧
      (b.priority < a.priority ∨ (a.priority = b.priority ∧ a.id ≤ b.id)))

instance (request : InvocationRequest) : DecidableRel (precedes request) :=
  fun _ _ => inferInstanceAs (Decidable (_ ∨ _))

/-- `DeterministicPriorityRouting.select`. -/
def selectByPriority (request : InvocationRequest) (candidates : List RoutedProvider) :
    Option RoutedProvider :=
  ((candidates.filter (matchesHard request)).insertionSort (precedes request)).head?

/-- The registered descriptors by id. -/
def descriptorsById (descriptors : List RoutedProvider) : Dict String RoutedProvider :=
  Dict.ofPairs (descriptors.map (fun d => (d.id, d)))

/-- The references that the registry knows. -/
def referenceDescriptors (registry : Option (List RoutedProvider))
    (independence : Option IndependenceContext) : List RoutedProvider :=
  match independence, registry with
  | some c, some descriptors =>
    if c.independentOn.isEmpty then []
    else c.referenceProviderRefs.filterMap (descriptorsById descriptors).get?
  | _, _ => []

/-- Whether independence lets a candidate pass. -/
def independent (independence : Option IndependenceContext) (references : List RoutedProvider)
    (candidate : RoutedProvider) : Bool :=
  match independence with
  | none => true
  | some c =>
    if c.independentOn.isEmpty then true
    else if references.isEmpty then
      -- without references the values only have to be known
      c.independentOn.all (fun domain => !(candidate.getattr domain).isNone) &&
        c.referenceProviderRefs.isEmpty
    else c.isSatisfied candidate references

def inRequiredDomains (request : InvocationRequest) (candidate : RoutedProvider) : Bool :=
  match request.constraints.get "required_failure_domains" with
  | .obj domains => domains.all (fun f => (candidate.getattr f.1).pyEq (.json f.2))
  | _ => true

/-- `ConstraintRouter.select`. -/
def select (registry : Option (List RoutedProvider)) (request : InvocationRequest)
    (candidates : List RoutedProvider) : Result (Option RoutedProvider) := do
  let independence ← IndependenceContext.fromRequest request
  let references := referenceDescriptors registry independence
  return selectByPriority request (candidates.filter (fun candidate =>
    independent independence references candidate && inRequiredDomains request candidate))

/-! ## What is selected -/

variable {registry : Option (List RoutedProvider)} {request : InvocationRequest}
  {candidates : List RoutedProvider} {c : IndependenceContext} {d : RoutedProvider}

/-- A provider with this id is registered. -/
def Registered (registry : Option (List RoutedProvider)) (ref : String) (r : RoutedProvider) :
    Prop :=
  ∃ descriptors, registry = some descriptors ∧ (descriptorsById descriptors).get? ref = some r

/-- Both values are known and differ. -/
def Differs (dim : String) (d r : RoutedProvider) : Prop :=
  (d.getattr dim).isNone = false ∧ (r.getattr dim).isNone = false ∧
    (d.getattr dim).pyEq (r.getattr dim) = false

/-- The hard constraints and the failure domains of a request. -/
structure Constrained (request : InvocationRequest) (d : RoutedProvider) : Prop where
  hard : ∀ f ∈ hardConstraints request, (d.constraints.get f.1).pyEq f.2 = true
  domains : ∀ domains, request.constraints.get "required_failure_domains" = .obj domains →
    ∀ f ∈ domains, (d.getattr f.1).pyEq (.json f.2) = true

/-- Every named reference is registered and differs in every dimension. -/
def IndependentOfAll (registry : Option (List RoutedProvider)) (c : IndependenceContext)
    (d : RoutedProvider) : Prop :=
  ∀ ref ∈ c.referenceProviderRefs, ∀ dim ∈ c.independentOn, ∃ r, Registered registry ref r ∧
    Differs dim d r

def KnowsAll (c : IndependenceContext) (d : RoutedProvider) : Prop :=
  ∀ dim ∈ c.independentOn, (d.getattr dim).isNone = false

/-- A value is known in every dimension, at least one named reference is registered, and those
that are differ. -/
structure IndependentOfRegistered (registry : Option (List RoutedProvider))
    (c : IndependenceContext) (d : RoutedProvider) : Prop where
  known : KnowsAll c d
  registered : c.independentOn ≠ [] → c.referenceProviderRefs ≠ [] →
    ∃ ref ∈ c.referenceProviderRefs, ∃ r, Registered registry ref r
  differs : ∀ ref ∈ c.referenceProviderRefs, ∀ r, Registered registry ref r →
    ∀ dim ∈ c.independentOn, Differs dim d r

theorem constrained_iff : Constrained request d ↔
    matchesHard request d = true ∧ inRequiredDomains request d = true := by
  constructor
  · intro h
    refine ⟨List.all_eq_true.mpr h.hard, ?_⟩
    unfold inRequiredDomains
    split
    · next domains hdomains => exact List.all_eq_true.mpr (h.domains domains hdomains)
    · rfl
  · rintro ⟨hhard, hdomains⟩
    refine ⟨List.all_eq_true.mp hhard, fun domains hget => ?_⟩
    rw [inRequiredDomains, hget] at hdomains
    exact List.all_eq_true.mp hdomains

theorem mem_referenceDescriptors (hdims : c.independentOn ≠ []) {r : RoutedProvider} :
    r ∈ referenceDescriptors registry (some c) ↔
      ∃ ref ∈ c.referenceProviderRefs, Registered registry ref r := by
  cases registry with
  | none => exact iff_of_false List.not_mem_nil (fun ⟨_, _, _, h, _⟩ => nomatch h)
  | some descriptors =>
    rw [referenceDescriptors, if_neg (by rwa [List.isEmpty_iff]), List.mem_filterMap]
    constructor
    · rintro ⟨ref, href, hget⟩
      exact ⟨ref, href, descriptors, rfl, hget⟩
    · rintro ⟨ref, href, _, hsome, hget⟩
      obtain rfl := Option.some.inj hsome
      exact ⟨ref, href, hget⟩

theorem isSatisfied_iff {references : List RoutedProvider} :
    c.isSatisfied d references = true ↔
      KnowsAll c d ∧ ∀ dim ∈ c.independentOn, ∀ r ∈ references, Differs dim d r := by
  simp only [IndependenceContext.isSatisfied, List.all_eq_true, Bool.and_eq_true,
    Bool.not_eq_true', KnowsAll, Differs]
  constructor
  · intro h
    exact ⟨fun dim hdim => (h dim hdim).1, fun dim hdim r hr => ⟨(h dim hdim).1, (h dim hdim).2 r hr⟩⟩
  · rintro ⟨hknown, hdiffers⟩ dim hdim
    exact ⟨hknown dim hdim, fun r hr => (hdiffers dim hdim r hr).2⟩

/-- What the router lets pass is independent of what is registered. -/
theorem independent_iff :
    independent (some c) (referenceDescriptors registry (some c)) d = true ↔
      IndependentOfRegistered registry c d := by
  by_cases hdims : c.independentOn = []
  · rw [independent, if_pos (List.isEmpty_iff.mpr hdims)]
    refine iff_of_true rfl ⟨?_, fun h => absurd hdims h, ?_⟩
    · intro dim hdim
      rw [hdims] at hdim
      exact absurd hdim List.not_mem_nil
    · intro _ _ _ _ dim hdim
      rw [hdims] at hdim
      exact absurd hdim List.not_mem_nil
  · have hmem : ∀ {r}, r ∈ referenceDescriptors registry (some c) ↔
        ∃ ref ∈ c.referenceProviderRefs, Registered registry ref r :=
      mem_referenceDescriptors hdims
    rw [independent, if_neg (by rwa [List.isEmpty_iff])]
    split
    · next hempty =>
      have hnone : ∀ ref ∈ c.referenceProviderRefs, ∀ r, ¬ Registered registry ref r := by
        intro ref href r hr
        have := hmem.mpr ⟨ref, href, hr⟩
        rw [List.isEmpty_iff.mp hempty] at this
        exact List.not_mem_nil this
      simp only [Bool.and_eq_true, List.all_eq_true, Bool.not_eq_true', List.isEmpty_iff]
      constructor
      · rintro ⟨hknown, hrefs⟩
        refine ⟨hknown, fun _ h => absurd hrefs h, fun ref href r hr => ?_⟩
        exact absurd hr (hnone ref href r)
      · intro h
        refine ⟨h.known, Classical.byContradiction (fun hrefs => ?_)⟩
        obtain ⟨ref, href, r, hr⟩ := h.registered hdims hrefs
        exact hnone ref href r hr
    · next hempty =>
      rw [isSatisfied_iff]
      constructor
      · rintro ⟨hknown, hdiffers⟩
        refine ⟨hknown, fun _ _ => ?_, fun ref href r hr dim hdim => ?_⟩
        · obtain ⟨r, hr⟩ := List.exists_mem_of_ne_nil _ (fun h => hempty (List.isEmpty_iff.mpr h))
          obtain ⟨ref, href, hregistered⟩ := hmem.mp hr
          exact ⟨ref, href, r, hregistered⟩
        · exact hdiffers dim hdim r (hmem.mpr ⟨ref, href, hr⟩)
      · intro h
        refine ⟨h.known, fun dim hdim r hr => ?_⟩
        obtain ⟨ref, href, hregistered⟩ := hmem.mp hr
        exact h.differs ref href r hregistered dim hdim

theorem independentOfRegistered_of_all (h : IndependentOfAll registry c d) (hknown : KnowsAll c d) :
    IndependentOfRegistered registry c d where
  known := hknown
  registered hdims hrefs := by
    obtain ⟨ref, href⟩ := List.exists_mem_of_ne_nil _ hrefs
    obtain ⟨dim, hdim⟩ := List.exists_mem_of_ne_nil _ hdims
    obtain ⟨r, hr, -⟩ := h ref href dim hdim
    exact ⟨ref, href, r, hr⟩
  differs ref href r hr dim hdim := by
    obtain ⟨r', ⟨descriptors, hregistry, hget⟩, hdiffers⟩ := h ref href dim hdim
    obtain ⟨descriptors', hregistry', hget'⟩ := hr
    obtain rfl := Option.some.inj (hregistry.symm.trans hregistry')
    obtain rfl := Option.some.inj (hget.symm.trans hget')
    exact hdiffers

/-- The provider that is selected stands first among those that pass. -/
theorem selectByPriority_eq_some (h : selectByPriority request candidates = some d) :
    d ∈ candidates ∧ matchesHard request d = true := by
  have hmem := List.mem_of_mem_head? h
  rw [List.mem_insertionSort, List.mem_filter] at hmem
  exact hmem

theorem exists_selectByPriority {candidate : RoutedProvider} (hmem : candidate ∈ candidates)
    (hmatches : matchesHard request candidate = true) :
    ∃ d, selectByPriority request candidates = some d := by
  have hne : (candidates.filter (matchesHard request)).insertionSort (precedes request) ≠ [] := by
    refine List.ne_nil_of_mem (a := candidate) ?_
    rw [List.mem_insertionSort]
    exact List.mem_filter.mpr ⟨hmem, hmatches⟩
  exact ⟨_, List.head?_eq_some_head hne⟩

/-- Routing is sound for what is registered, and finds a provider if one meets all that a request
names. -/
theorem select_sound_complete :
    (∀ d, select registry request candidates = .ok (some d) →
      d ∈ candidates ∧ Constrained request d ∧
        ∀ c, IndependenceContext.fromRequest request = .ok (some c) →
          IndependentOfRegistered registry c d) ∧
    (∀ independence candidate, IndependenceContext.fromRequest request = .ok independence →
      candidate ∈ candidates → Constrained request candidate →
      (∀ c, independence = some c → IndependentOfAll registry c candidate ∧ KnowsAll c candidate) →
      ∃ d, select registry request candidates = .ok (some d)) := by
  constructor
  · intro d h
    obtain ⟨independence, hindependence, h⟩ := Result.bind_eq_ok.mp h
    obtain ⟨hmem, hhard⟩ := selectByPriority_eq_some (Result.pure_eq_ok.mp h)
    obtain ⟨hcandidate, hpasses⟩ := List.mem_filter.mp hmem
    obtain ⟨hindependent, hdomains⟩ := Bool.and_eq_true_iff.mp hpasses
    refine ⟨hcandidate, constrained_iff.mpr ⟨hhard, hdomains⟩, fun c hc => ?_⟩
    obtain rfl := Except.ok.inj (hindependence.symm.trans hc)
    exact independent_iff.mp hindependent
  · intro independence candidate hindependence hmem hconstrained hall
    obtain ⟨hhard, hdomains⟩ := constrained_iff.mp hconstrained
    have hindependent : independent independence (referenceDescriptors registry independence)
        candidate = true := by
      cases independence with
      | none => rfl
      | some c =>
        obtain ⟨hof, hknown⟩ := hall c rfl
        exact independent_iff.mpr (independentOfRegistered_of_all hof hknown)
    have hpasses : candidate ∈ candidates.filter (fun candidate =>
        independent independence (referenceDescriptors registry independence) candidate &&
          inRequiredDomains request candidate) :=
      List.mem_filter.mpr ⟨hmem, Bool.and_eq_true_iff.mpr ⟨hindependent, hdomains⟩⟩
    obtain ⟨d, hd⟩ := exists_selectByPriority hpasses hhard
    exact ⟨d, Result.bind_eq_ok.mpr ⟨independence, hindependence, Result.pure_eq_ok.mpr hd⟩⟩

def providerOf (id : String) (family : Option String) : RoutedProvider :=
  { id := id, providerFamily := family }

/-- A request that is to differ in the provider family from some providers. -/
def independentRequest (refs : List String) : InvocationRequest :=
  { id := "req_1", capability := "files.read",
    metadata := [("independence_context", .obj [("reference_provider_refs", .ofStrings refs),
      ("independent_on", .ofStrings ["provider_family"])])] }

def otherProvider : RoutedProvider := providerOf "other" (some "b")

def knownProvider : RoutedProvider := providerOf "known" (some "a")

theorem registered_known : Registered (some [knownProvider]) "known" knownProvider :=
  ⟨_, rfl, rfl⟩

theorem differs_other_known : Differs "provider_family" otherProvider knownProvider := by
  refine ⟨?_, ?_, ?_⟩ <;> decide

/-- A provider of another family than the one it is to be independent of. -/
theorem select_other :
    (∃ d, select (some [knownProvider]) (independentRequest ["known"]) [otherProvider] =
      .ok (some d)) ∧
    ∀ d, select (some [knownProvider]) (independentRequest ["known"]) [otherProvider] =
        .ok (some d) →
      d ∈ [otherProvider] ∧ Constrained (independentRequest ["known"]) d ∧
        ∀ c, IndependenceContext.fromRequest (independentRequest ["known"]) = .ok (some c) →
          IndependentOfRegistered (some [knownProvider]) c d := by
  refine ⟨select_sound_complete.2
    (some { referenceProviderRefs := ["known"], independentOn := ["provider_family"] })
    otherProvider rfl List.mem_cons_self (constrained_iff.mpr ⟨rfl, rfl⟩) (fun c hc => ?_),
    select_sound_complete.1⟩
  obtain rfl := Option.some.inj hc
  constructor
  · intro ref href dim hdim
    rw [List.mem_singleton.mp href, List.mem_singleton.mp hdim]
    exact ⟨knownProvider, registered_known, differs_other_known⟩
  · intro dim hdim
    rw [List.mem_singleton.mp hdim]
    exact differs_other_known.1

/-- What a request would promise if every named reference counted. -/
def SoundComplete (registry : Option (List RoutedProvider)) (request : InvocationRequest)
    (candidates : List RoutedProvider) : Prop :=
  (∀ d, select registry request candidates = .ok (some d) →
    d ∈ candidates ∧ Constrained request d ∧
      ∀ c, IndependenceContext.fromRequest request = .ok (some c) →
        IndependentOfAll registry c d) ∧
  (∀ independence candidate, IndependenceContext.fromRequest request = .ok independence →
    candidate ∈ candidates → Constrained request candidate →
    (∀ c, independence = some c → IndependentOfAll registry c candidate) →
    ∃ d, select registry request candidates = .ok (some d))

/-- A reference that is not registered is left out beside one that is, and without references a
candidate has to know its own values. -/
theorem not_soundComplete :
    ¬ SoundComplete (some [knownProvider]) (independentRequest ["known", "ghost"])
        [otherProvider] ∧
      ¬ SoundComplete (some []) (independentRequest []) [providerOf "plain" none] := by
  constructor
  · intro h
    have hselect : select (some [knownProvider]) (independentRequest ["known", "ghost"])
        [otherProvider] = .ok (some otherProvider) := rfl
    obtain ⟨-, -, hall⟩ := h.1 _ hselect
    obtain ⟨r, ⟨descriptors, hregistry, hget⟩, -⟩ := hall
      { referenceProviderRefs := ["known", "ghost"], independentOn := ["provider_family"] } rfl
      "ghost" (by decide) "provider_family" (by decide)
    obtain rfl := Option.some.inj hregistry
    cases hget
  · intro h
    have hselect : select (some []) (independentRequest []) [providerOf "plain" none] =
        .ok none := rfl
    obtain ⟨d, hd⟩ := h.2 (some { independentOn := ["provider_family"] }) (providerOf "plain" none)
      rfl List.mem_cons_self (constrained_iff.mpr ⟨rfl, rfl⟩) (fun c hc ref href => by
        obtain rfl := Option.some.inj hc
        cases href)
    cases hselect.symm.trans hd

end ConstraintRouter
end PortableRuntime
