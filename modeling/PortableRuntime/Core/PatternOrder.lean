import Mathlib.Data.List.MinMax
import PortableRuntime.Core.EffectRules

/-!
# The order in which patterns are registered

Both registries take the entry of the capability itself, and without one the entry of the
first pattern that covers it, in the order in which the names were first registered.  So
they agree with the narrowest pattern where no wider one was registered before it.
-/

namespace PortableRuntime

/-! ## Names in the order of their first registration -/

/-- Two lists of names that agree on the first name with any property. -/
def SameFirst (keys names : List String) : Prop := ∀ p, keys.find? p = names.find? p

theorem SameFirst.mem_iff {keys names : List String} (h : SameFirst keys names) (name : String) :
    name ∈ keys ↔ name ∈ names := by
  have hfind := h (· == name)
  have hmem (l : List String) : name ∈ l ↔ (l.find? (· == name)).isSome := by
    simp [List.find?_isSome]
  rw [hmem keys, hmem names, hfind]

section
variable {α : Type} {d : Dict String α} {names : List String} {name : String}

/-- A name that is set again keeps its place. -/
theorem SameFirst.set_of_mem (h : SameFirst d.keys names) (hname : name ∈ names) (value : α) :
    SameFirst (d.set name value).keys names := by
  rw [SameFirst, Dict.keys_set_of_mem ((h.mem_iff name).mpr hname)]
  exact h

theorem SameFirst.set (h : SameFirst d.keys names) (name : String) (value : α) :
    SameFirst (d.set name value).keys (names ++ [name]) := by
  intro p
  by_cases hname : name ∈ d.keys
  · rw [Dict.keys_set_of_mem hname, List.find?_append, ← h p]
    cases hfind : d.keys.find? p with
    | some first => rfl
    | none =>
      have hfalse : ¬ p name = true := List.find?_eq_none.mp hfind name hname
      rw [List.find?_singleton, if_neg hfalse]
      rfl
  · rw [Dict.keys_set_of_not_mem hname, List.find?_append, List.find?_append, h p]

end

/-! ## The first pattern and the narrowest one -/

/-- The name under which a capability is resolved: itself where it is registered, else the
first pattern that covers it. -/
def registeredPattern (names : List String) (capability : String) : Option String :=
  if capability ∈ names then some capability else names.find? (patternCovers · capability)

/-- The name under which a capability ought to be resolved: itself where it is registered,
else the longest pattern that covers it.  A bare `*` is the shortest. -/
structure Narrowest (names : List String) (capability pattern : String) : Prop where
  registered : pattern ∈ names
  exact : capability ∈ names → pattern = capability
  covers : capability ∉ names → patternCovers pattern capability = true
  longest : capability ∉ names → ∀ other ∈ names, patternCovers other capability = true →
    other.length ≤ pattern.length

/-- No wider pattern was registered before the narrowest one. -/
def NarrowestFirst (names : List String) (capability : String) : Prop :=
  ∀ pattern, Narrowest names capability pattern → registeredPattern names capability = some pattern

/-- A capability that some name matches has a narrowest one. -/
theorem exists_narrowest {names : List String} {capability first : String}
    (h : registeredPattern names capability = some first) :
    ∃ pattern, Narrowest names capability pattern := by
  rw [registeredPattern] at h
  by_cases hmem : capability ∈ names
  · exact ⟨capability, hmem, fun _ => rfl, fun hnot => absurd hmem hnot,
      fun hnot => absurd hmem hnot⟩
  · rw [if_neg hmem] at h
    have hfirst : first ∈ names.filter (patternCovers · capability) :=
      List.mem_filter.mpr ⟨List.mem_of_find?_eq_some h, by simpa using List.find?_some h⟩
    cases hmax : (names.filter (patternCovers · capability)).argmax String.length with
    | none =>
      rw [List.argmax_eq_none.mp hmax] at hfirst
      cases hfirst
    | some pattern =>
      have hpattern := List.mem_filter.mp (List.argmax_mem hmax)
      refine ⟨pattern, hpattern.1, fun hin => absurd hin hmem, fun _ => hpattern.2, ?_⟩
      intro _ other hother hcovers
      exact List.le_of_mem_argmax (List.mem_filter.mpr ⟨hother, hcovers⟩) hmax

theorem registeredPattern_congr {keys names : List String} (h : SameFirst keys names)
    (capability : String) :
    registeredPattern keys capability = registeredPattern names capability := by
  rw [registeredPattern, registeredPattern, h]
  simp only [h.mem_iff]

/-- The narrowest name depends on which names there are. -/
theorem narrowest_congr {keys names : List String} (h : ∀ name, name ∈ keys ↔ name ∈ names)
    (capability pattern : String) :
    Narrowest keys capability pattern ↔ Narrowest names capability pattern := by
  constructor
  · rintro ⟨hregistered, hexact, hcovers, hlongest⟩
    simp only [h] at hregistered hexact hcovers hlongest
    exact ⟨hregistered, hexact, hcovers, hlongest⟩
  · rintro ⟨hregistered, hexact, hcovers, hlongest⟩
    simp only [← h] at hregistered hexact hcovers hlongest
    exact ⟨hregistered, hexact, hcovers, hlongest⟩

theorem narrowestFirst_congr {keys names : List String} (h : SameFirst keys names)
    (capability : String) : NarrowestFirst keys capability ↔ NarrowestFirst names capability := by
  simp only [NarrowestFirst, narrowest_congr h.mem_iff, registeredPattern_congr h]

section
variable {α : Type} {entries : Dict String α} {capability pattern : String} {value : α}

/-- A registry looks up what stands under the registered pattern. -/
theorem resolveName_eq_bind (entries : Dict String α) (capability : String) :
    resolveName entries capability =
      (registeredPattern entries.keys capability).bind entries.get? := by
  unfold resolveName registeredPattern
  cases hexact : entries.get? capability with
  | some own =>
    have hmem : capability ∈ entries.keys := mem_keys_of_get? hexact
    rw [if_pos hmem, Option.bind_some, hexact]
  | none =>
    rw [if_neg (Dict.get?_eq_none.mp hexact), Dict.keys, List.find?_map]
    cases hfind : entries.entries.find? (fun e => patternCovers e.1 capability) with
    | none =>
      have hnone : entries.entries.find? ((patternCovers · capability) ∘ Prod.fst) = none := hfind
      rw [hnone]
      rfl
    | some e =>
      have hsome : entries.entries.find? ((patternCovers · capability) ∘ Prod.fst) = some e :=
        hfind
      rw [hsome, Option.map_some, Option.map_some, Option.bind_some]
      exact (Dict.get?_eq_some.mpr (List.mem_of_find?_eq_some hfind)).symm

/-- Where every entry stands under its own name, an entry is what its capability resolves
to just where it stands under the registered pattern. -/
theorem resolveName_eq_some_iff {nameOf : α → String}
    (hown : ∀ name v, entries.get? name = some v → nameOf v = name)
    (hget : entries.get? pattern = some value) :
    resolveName entries capability = some value ↔
      registeredPattern entries.keys capability = some pattern := by
  rw [resolveName_eq_bind, Option.bind_eq_some_iff]
  constructor
  · rintro ⟨name, hname, hvalue⟩
    rw [hname, ← hown name value hvalue, hown pattern value hget]
  · intro hname
    exact ⟨pattern, hname, hget⟩

end

/-! ## The registries as they are filled -/

/-- A call that registers an entry: with both registries, or with the effect registry
alone, which is shared. -/
inductive Filling where
  | both (call : CapabilityContractRegistry.Registration)
  | rule (rule : CapabilityEffectRule)

namespace CapabilityContractRegistry

def Registration.name : Registration → String
  | .contract c => c.capability
  | .effectRule rule => rule.capability

def fill (r : CapabilityContractRegistry) : Filling → CapabilityContractRegistry
  | .both call => r.apply call
  | .rule rule => { r with effectRegistry := r.effectRegistry.register rule }

/-- Every entry stands under its own name, and the names stand in the order of the two
lists. -/
structure FilledBy (r : CapabilityContractRegistry) (contractNames ruleNames : List String) :
    Prop where
  contractOwn : ∀ name c, r.contracts.get? name = some c → c.capability = name
  ruleOwn : ∀ name rule, r.effectRegistry.rules.get? name = some rule → rule.capability = name
  contractOrder : SameFirst r.contracts.keys contractNames
  ruleOrder : SameFirst r.effectRegistry.rules.keys ruleNames

theorem own_set {α : Type} {d : Dict String α} (nameOf : α → String)
    (h : ∀ name v, d.get? name = some v → nameOf v = name) (value : α) :
    ∀ name v, (d.set (nameOf value) value).get? name = some v → nameOf v = name := by
  intro name v hget
  rw [Dict.get?_set] at hget
  split at hget
  · next hname =>
    rw [Option.some.injEq] at hget
    rw [← hget, hname]
  · exact h name v hget

variable {r : CapabilityContractRegistry} {contractNames ruleNames : List String}

theorem FilledBy.rule (h : r.FilledBy contractNames ruleNames) (rule : CapabilityEffectRule) :
    FilledBy { r with effectRegistry := r.effectRegistry.register rule } contractNames
      (ruleNames ++ [rule.capability]) :=
  ⟨h.contractOwn, own_set CapabilityEffectRule.capability h.ruleOwn rule,
    h.contractOrder, h.ruleOrder.set rule.capability rule⟩

/-- What registering a contract with its rule does to both registries. -/
theorem FilledBy.pair (h : r.FilledBy contractNames ruleNames) (c : CapabilityContract)
    (rule : CapabilityEffectRule) (hname : c.capability = rule.capability) :
    FilledBy { contracts := r.contracts.set c.capability c,
               effectRegistry := r.effectRegistry.register rule }
      (contractNames ++ [rule.capability]) (ruleNames ++ [rule.capability]) := by
  have hrule := h.rule rule
  refine ⟨own_set CapabilityContract.capability h.contractOwn c, hrule.ruleOwn, ?_,
    hrule.ruleOrder⟩
  rw [← hname]
  exact h.contractOrder.set c.capability c

theorem FilledBy.apply (h : r.FilledBy contractNames ruleNames) (call : Registration) :
    (r.apply call).FilledBy (contractNames ++ [call.name]) (ruleNames ++ [call.name]) := by
  cases call with
  | contract c => exact h.pair c c.effectRule rfl
  | effectRule rule => exact h.pair rule.contract rule rfl

theorem FilledBy.builtin (h : r.FilledBy contractNames ruleNames) (c : CapabilityContract) :
    (r.registerBuiltin c).FilledBy (contractNames ++ [c.capability])
      (ruleNames ++ [c.capability]) :=
  h.pair c { c.effectRule with blastRadius := c.blastRadius, exposure := c.exposure } rfl

theorem FilledBy.builtins (h : r.FilledBy contractNames ruleNames)
    (contracts : List CapabilityContract) :
    (contracts.foldl registerBuiltin r).FilledBy
      (contractNames ++ contracts.map CapabilityContract.capability)
      (ruleNames ++ contracts.map CapabilityContract.capability) := by
  induction contracts generalizing r contractNames ruleNames with
  | nil =>
    rw [List.map_nil, List.append_nil, List.append_nil]
    exact h
  | cons c rest ih =>
    rw [List.map_cons, List.append_cons contractNames, List.append_cons ruleNames]
    exact ih (h.builtin c)

theorem FilledBy.contracts (h : r.FilledBy contractNames ruleNames)
    (contracts : List CapabilityContract) :
    (contracts.foldl register r).FilledBy
      (contractNames ++ contracts.map CapabilityContract.capability)
      (ruleNames ++ contracts.map CapabilityContract.capability) := by
  induction contracts generalizing r contractNames ruleNames with
  | nil =>
    rw [List.map_nil, List.append_nil, List.append_nil]
    exact h
  | cons c rest ih =>
    rw [List.map_cons, List.append_cons contractNames, List.append_cons ruleNames]
    exact ih (h.apply (.contract c))

theorem FilledBy.rules (h : r.FilledBy contractNames ruleNames)
    (rules : List CapabilityEffectRule) :
    FilledBy { r with effectRegistry := r.effectRegistry.registerAll rules } contractNames
      (ruleNames ++ rules.map CapabilityEffectRule.capability) := by
  induction rules generalizing r ruleNames with
  | nil =>
    rw [List.map_nil, List.append_nil]
    exact h
  | cons rule rest ih =>
    rw [List.map_cons, List.append_cons ruleNames]
    exact ih (h.rule rule)

/-- Rules whose names stand there already change no order. -/
theorem FilledBy.rules_again (h : r.FilledBy contractNames ruleNames)
    {rules : List CapabilityEffectRule} (hsub : ∀ rule ∈ rules, rule.capability ∈ ruleNames) :
    FilledBy { r with effectRegistry := r.effectRegistry.registerAll rules } contractNames
      ruleNames := by
  induction rules generalizing r with
  | nil => exact h
  | cons rule rest ih =>
    have hstep : FilledBy { r with effectRegistry := r.effectRegistry.register rule }
        contractNames ruleNames :=
      ⟨h.contractOwn, own_set CapabilityEffectRule.capability h.ruleOwn rule, h.contractOrder,
        h.ruleOrder.set_of_mem (hsub rule List.mem_cons_self) rule⟩
    exact ih hstep (fun rule' hrule' => hsub rule' (List.mem_cons_of_mem rule hrule'))

end CapabilityContractRegistry

/-- A filling of a contract registry: the rules of the effect registry it was given, if
any, the contracts it was given, and the calls that followed.  A registry given no rules
has the built-in ones. -/
structure Fillings where
  effectRules : Option (List CapabilityEffectRule) := none
  contracts : List CapabilityContract := []
  calls : List Filling := []

namespace Fillings

def registry (f : Fillings) : CapabilityContractRegistry :=
  f.calls.foldl CapabilityContractRegistry.fill
    (.create f.contracts (f.effectRules.map CapabilityEffectRegistry.create))

def contractName : Filling → Option String
  | .both call => some call.name
  | .rule _ => none

def ruleName : Filling → String
  | .both call => call.name
  | .rule rule => rule.capability

/-- The names of the contracts, the built-in ones first. -/
def contractNames (f : Fillings) : List String :=
  (builtinContracts ++ f.contracts).map CapabilityContract.capability ++
    f.calls.filterMap contractName

/-- The names of the effect rules: those of the effect registry first. -/
def ruleNames (f : Fillings) : List String :=
  let own := f.effectRules.getD []
  (if own.isEmpty then builtinEffectRules else own).map CapabilityEffectRule.capability ++
    (builtinContracts ++ f.contracts).map CapabilityContract.capability ++ f.calls.map ruleName

theorem filledBy_calls {r : CapabilityContractRegistry} {contractNames ruleNames : List String}
    (h : r.FilledBy contractNames ruleNames) (calls : List Filling) :
    (calls.foldl CapabilityContractRegistry.fill r).FilledBy
      (contractNames ++ calls.filterMap contractName) (ruleNames ++ calls.map ruleName) := by
  induction calls generalizing r contractNames ruleNames with
  | nil =>
    rw [List.filterMap_nil, List.map_nil, List.append_nil, List.append_nil]
    exact h
  | cons call rest ih =>
    rw [List.map_cons, List.append_cons ruleNames]
    cases call with
    | both call =>
      have hnames : (Filling.both call :: rest).filterMap contractName =
          call.name :: rest.filterMap contractName := rfl
      rw [hnames, List.append_cons contractNames]
      exact ih (h.apply call)
    | rule rule => exact ih (h.rule rule)

theorem filledBy_create (rules : List CapabilityEffectRule) :
    CapabilityContractRegistry.FilledBy { effectRegistry := .create rules } []
      ((if rules.isEmpty then builtinEffectRules else rules).map
        CapabilityEffectRule.capability) := by
  have hempty : CapabilityContractRegistry.FilledBy {} [] [] :=
    ⟨fun _ _ hget => (nomatch hget), fun _ _ hget => (nomatch hget), fun _ => rfl, fun _ => rfl⟩
  exact hempty.rules _

/-- The names of a filled registry stand in the order in which they were first given. -/
theorem filledBy (f : Fillings) : f.registry.FilledBy f.contractNames f.ruleNames := by
  refine filledBy_calls ?_ f.calls
  have hstart := filledBy_create (f.effectRules.getD [])
  have hgiven := (hstart.builtins builtinContracts).contracts f.contracts
  rw [List.nil_append, List.append_assoc, ← List.map_append] at hgiven
  cases hrules : f.effectRules with
  | none =>
    rw [hrules] at hgiven
    exact hgiven
  | some rules =>
    rw [hrules] at hgiven
    refine hgiven.rules_again ?_
    intro rule hrule
    obtain ⟨name, hget⟩ := Dict.mem_values.mp hrule
    have hname : name ∈ (CapabilityEffectRegistry.create rules).rules.keys := mem_keys_of_get? hget
    have hstart' := filledBy_create rules
    rw [hstart'.ruleOwn name rule hget]
    exact List.mem_append_left _ ((hstart'.ruleOrder.mem_iff name).mp hname)

end Fillings

/-! ## What a capability resolves to -/

namespace CapabilityContractRegistry

/-- A stored entry is returned just where it stands under the registered pattern. -/
structure ResolvesRegistered (r : CapabilityContractRegistry)
    (contractNames ruleNames : List String) (capability : String) : Prop where
  contract : ∀ pattern c, r.contracts.get? pattern = some c →
    (r.resolve capability = some c ↔ registeredPattern contractNames capability = some pattern)
  rule : ∀ pattern rule, r.effectRegistry.rules.get? pattern = some rule →
    (r.effectRegistry.resolve capability = some rule ↔
      registeredPattern ruleNames capability = some pattern)

/-- The entry under the narrowest pattern is returned. -/
structure ResolvesNarrowest (r : CapabilityContractRegistry) (capability : String) : Prop where
  contract : ∀ pattern c, Narrowest r.contracts.keys capability pattern →
    r.contracts.get? pattern = some c → r.resolve capability = some c
  rule : ∀ pattern rule, Narrowest r.effectRegistry.rules.keys capability pattern →
    r.effectRegistry.rules.get? pattern = some rule →
      r.effectRegistry.resolve capability = some rule

/-- Two registries with the same entries, in whatever order. -/
structure SameEntries (r r' : CapabilityContractRegistry) : Prop where
  contracts : ∀ name, r.contracts.get? name = r'.contracts.get? name
  rules : ∀ name, r.effectRegistry.rules.get? name = r'.effectRegistry.rules.get? name

variable {r r' : CapabilityContractRegistry} {contractNames ruleNames : List String}

theorem resolve_eq_some_iff (h : r.FilledBy contractNames ruleNames) {capability pattern : String}
    {c : CapabilityContract} (hget : r.contracts.get? pattern = some c) :
    r.resolve capability = some c ↔ resolveName r.contracts capability = some c := by
  rw [resolve]
  cases hname : resolveName r.contracts capability with
  | some own => exact Iff.rfl
  | none =>
    refine ⟨fun hdefault => ?_, fun hnone => absurd hnone (by simp)⟩
    -- the read contract of a name is never one that is registered under it
    have hread : c = readContract capability := by
      split at hdefault
      · next hcase => cases hcase
      · split at hdefault
        · cases hdefault
        · exact (Option.some.inj hdefault).symm
    have hpattern : capability = pattern := by
      rw [← h.contractOwn pattern c hget, hread]
      rfl
    have hmatches : nameMatches pattern capability = true := by
      rw [nameMatches, hpattern, beq_self_eq_true, Bool.true_or]
    obtain ⟨own, hown⟩ := resolveName_isSome hget hmatches
    rw [hname] at hown
    cases hown

theorem FilledBy.resolvesRegistered (h : r.FilledBy contractNames ruleNames)
    (capability : String) : r.ResolvesRegistered contractNames ruleNames capability := by
  constructor
  · intro pattern c hget
    rw [resolve_eq_some_iff h hget, resolveName_eq_some_iff h.contractOwn hget,
      registeredPattern_congr h.contractOrder]
  · intro pattern rule hget
    rw [CapabilityEffectRegistry.resolve, resolveName_eq_some_iff h.ruleOwn hget,
      registeredPattern_congr h.ruleOrder]

theorem exists_get? {α : Type} {d : Dict String α} {name : String} (h : name ∈ d.keys) :
    ∃ value, d.get? name = some value :=
  Option.ne_none_iff_exists'.mp (fun hnone => Dict.get?_eq_none.mp hnone h)

theorem FilledBy.resolvesNarrowest_iff (h : r.FilledBy contractNames ruleNames)
    (capability : String) :
    r.ResolvesNarrowest capability ↔
      NarrowestFirst contractNames capability ∧ NarrowestFirst ruleNames capability := by
  have hregistered := h.resolvesRegistered capability
  constructor
  · intro hnarrowest
    constructor
    · intro pattern hpattern
      rw [← narrowest_congr h.contractOrder.mem_iff] at hpattern
      obtain ⟨c, hget⟩ := exists_get? hpattern.registered
      exact (hregistered.contract pattern c hget).mp (hnarrowest.contract pattern c hpattern hget)
    · intro pattern hpattern
      rw [← narrowest_congr h.ruleOrder.mem_iff] at hpattern
      obtain ⟨rule, hget⟩ := exists_get? hpattern.registered
      exact (hregistered.rule pattern rule hget).mp (hnarrowest.rule pattern rule hpattern hget)
  · rintro ⟨hcontracts, hrules⟩
    constructor
    · intro pattern c hpattern hget
      rw [narrowest_congr h.contractOrder.mem_iff] at hpattern
      exact (hregistered.contract pattern c hget).mpr (hcontracts pattern hpattern)
    · intro pattern rule hpattern hget
      rw [narrowest_congr h.ruleOrder.mem_iff] at hpattern
      exact (hregistered.rule pattern rule hget).mpr (hrules pattern hpattern)

end CapabilityContractRegistry

section
variable {α : Type} {d d' : Dict String α} {capability : String}

theorem mem_keys_congr (h : ∀ name, d.get? name = d'.get? name) (name : String) :
    name ∈ d.keys ↔ name ∈ d'.keys := by
  rw [← not_iff_not, ← Dict.get?_eq_none, ← Dict.get?_eq_none, h]

/-- With the narrowest pattern first in both, the order makes no difference. -/
theorem resolveName_congr (h : ∀ name, d.get? name = d'.get? name)
    (hfirst : NarrowestFirst d.keys capability) (hfirst' : NarrowestFirst d'.keys capability) :
    resolveName d capability = resolveName d' capability := by
  have hmatch := narrowest_congr (mem_keys_congr h) capability
  have hsame : registeredPattern d.keys capability = registeredPattern d'.keys capability := by
    cases hpattern : registeredPattern d.keys capability with
    | some first =>
      obtain ⟨pattern, hnarrowest⟩ := exists_narrowest hpattern
      rw [← hpattern, hfirst pattern hnarrowest, hfirst' pattern ((hmatch pattern).mp hnarrowest)]
    | none =>
      cases hpattern' : registeredPattern d'.keys capability with
      | none => rfl
      | some first =>
        obtain ⟨pattern, hnarrowest⟩ := exists_narrowest hpattern'
        rw [hfirst pattern ((hmatch pattern).mpr hnarrowest)] at hpattern
        cases hpattern
  rw [resolveName_eq_bind, resolveName_eq_bind, hsame]
  exact Option.bind_congr (fun name _ => h name)

end

/-- However the registries are filled, a capability gets the entry under the registered
pattern: itself, or else the first pattern that covers it.  It is the narrowest one just
where no wider pattern was registered first, and then the order of the entries makes no
difference. -/
theorem resolve_registered (f : Fillings) (capability : String) :
    f.registry.ResolvesRegistered f.contractNames f.ruleNames capability ∧
    (f.registry.ResolvesNarrowest capability ↔
      NarrowestFirst f.contractNames capability ∧ NarrowestFirst f.ruleNames capability) ∧
    (∀ f' : Fillings, f.registry.SameEntries f'.registry →
      f.registry.ResolvesNarrowest capability → f'.registry.ResolvesNarrowest capability →
        f.registry.resolve capability = f'.registry.resolve capability ∧
        f.registry.effectRegistry.resolve capability =
          f'.registry.effectRegistry.resolve capability) := by
  have hfilled := f.filledBy
  refine ⟨hfilled.resolvesRegistered capability, hfilled.resolvesNarrowest_iff capability, ?_⟩
  intro f' hentries hnarrowest hnarrowest'
  have hfilled' := f'.filledBy
  rw [hfilled.resolvesNarrowest_iff, ← narrowestFirst_congr hfilled.contractOrder,
    ← narrowestFirst_congr hfilled.ruleOrder] at hnarrowest
  rw [hfilled'.resolvesNarrowest_iff, ← narrowestFirst_congr hfilled'.contractOrder,
    ← narrowestFirst_congr hfilled'.ruleOrder] at hnarrowest'
  constructor
  · rw [CapabilityContractRegistry.resolve, CapabilityContractRegistry.resolve,
      resolveName_congr hentries.contracts hnarrowest.1 hnarrowest'.1]
  · exact resolveName_congr hentries.rules hnarrowest.2 hnarrowest'.2

/-- Reading any payment is registered before the irreversible card payments. -/
def paymentsFirst : Fillings :=
  { calls := [.both (.effectRule { capability := "pay.*" }),
      .both (.effectRule { capability := "pay.card.*", impactClass := .irreversible,
                           authorizationRequired := true })] }

/-- The same entries in the other order. -/
def cardsFirst : Fillings := { calls := paymentsFirst.calls.reverse }

/-- The narrower and stricter rule is shadowed where it was registered last. -/
theorem resolve_depends_on_registration_order :
    (paymentsFirst.registry.resolve "pay.card.eu").map
        CapabilityContract.minimumImpactClass = some .read ∧
    (cardsFirst.registry.resolve "pay.card.eu").map
        CapabilityContract.minimumImpactClass = some .irreversible ∧
    ¬ paymentsFirst.registry.ResolvesNarrowest "pay.card.eu" := by
  refine ⟨by decide +kernel, by decide +kernel, ?_⟩
  intro h
  have hnarrowest : Narrowest paymentsFirst.registry.contracts.keys "pay.card.eu" "pay.card.*" := by
    refine ⟨by decide +kernel, fun hin => absurd hin (by decide +kernel), fun _ => by decide, ?_⟩
    intro _ other hother hcovers
    have hall : ∀ name ∈ paymentsFirst.registry.contracts.keys,
        patternCovers name "pay.card.eu" = true → name.length ≤ "pay.card.*".length := by
      decide +kernel
    exact hall other hother hcovers
  obtain ⟨c, hget⟩ := CapabilityContractRegistry.exists_get? hnarrowest.registered
  have hresolved := h.contract "pay.card.*" c hnarrowest hget
  have hstored : (paymentsFirst.registry.contracts.get? "pay.card.*").map
      CapabilityContract.minimumImpactClass = some .irreversible := by decide +kernel
  have hread : (paymentsFirst.registry.resolve "pay.card.eu").map
      CapabilityContract.minimumImpactClass = some .read := by decide +kernel
  rw [hget] at hstored
  rw [hresolved, hstored] at hread
  cases hread

end PortableRuntime
