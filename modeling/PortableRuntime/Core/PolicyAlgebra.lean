import PortableRuntime.Core.Policies

/-!
# The algebra of policies

What the engine answers is compared with a merge that no order enters into: the strictest
disposition that a policy gives, a denial where requirements exclude each other, and every
obligation that some policy requires, waivable only if each of them says so.
-/

namespace PortableRuntime

/-- How far a disposition is from permission. -/
def Disposition.rank : Disposition → Nat
  | .allow => 0
  | .require => 1
  | .defer => 2
  | .deny => 3

/-- A decision that requires something by its status. -/
def PolicyDecision.requiresByStatus (d : PolicyDecision) : Bool :=
  d.status = some .requireApproval || d.status = some .requireVerification

def PolicyDecision.rank (d : PolicyDecision) : Nat := (d.disposition.getD .allow).rank

/-- The same obligations, waivable in the same way. -/
def PolicyDecision.SameObligations (d d' : PolicyDecision) : Prop :=
  ∀ key waivable, (∃ u ∈ d.obligations, u.mergeKey = key ∧ u.waivable = waivable) ↔
    ∃ u ∈ d'.obligations, u.mergeKey = key ∧ u.waivable = waivable

/-! ## Texts of parameters -/

theorem getLast?_join {sep : String} {c : Char} {items : List String} (hne : items ≠ [])
    (h : ∀ item ∈ items, item.toList.getLast? = some c) :
    (Text.join sep items).toList.getLast? = some c := by
  induction items with
  | nil => exact absurd rfl hne
  | cons first rest ih =>
    cases rest with
    | nil => exact h first List.mem_cons_self
    | cons second rest =>
      have hrest := ih (by simp) (fun item hitem => h item (List.mem_cons_of_mem first hitem))
      rw [show Text.join sep (first :: second :: rest) =
        first ++ sep ++ Text.join sep (second :: rest) from rfl, String.toList_append,
        List.getLast?_append, hrest]
      rfl

theorem Obligation.getLast?_of_mem_paramItems {o : Obligation} {item : String}
    (h : item ∈ o.paramItems) : item.toList.getLast? = some ')' := by
  obtain ⟨p, -, rfl⟩ := List.mem_map.mp h
  simp only [String.toList_append, List.getLast?_append, toString]
  rfl

theorem Obligation.paramsText_cases (o : Obligation) :
    (∃ item, o.paramItems = [item] ∧ o.paramsText = "(" ++ item ++ ",)") ∨
      o.paramsText = "(" ++ Text.join ", " o.paramItems ++ ")" := by
  rw [paramsText]
  split
  · rename_i item hitems
    exact Or.inl ⟨item, hitems, rfl⟩
  · exact Or.inr rfl

theorem Obligation.singleText_ne {o : Obligation} {item : String} :
    "(" ++ item ++ ",)" ≠ "(" ++ Text.join ", " o.paramItems ++ ")" := by
  intro h
  have hlist : item.toList ++ [','] = (Text.join ", " o.paramItems).toList := by
    have htexts := congrArg String.toList h
    simp only [String.toList_append, List.append_assoc] at htexts
    have htail := List.append_cancel_left htexts
    rw [show (",)" : String).toList = [','] ++ [')'] from rfl, ← List.append_assoc] at htail
    exact List.append_cancel_right htail
  have hlast := congrArg List.getLast? hlist
  rw [List.getLast?_concat] at hlast
  by_cases hnone : o.paramItems = []
  · rw [hnone] at hlast
    exact nomatch hlast
  · rw [getLast?_join hnone (fun _ => getLast?_of_mem_paramItems)] at hlast
    exact absurd hlast (by decide)

/-- Texts of parameters that are the same stand for the same parameters. -/
theorem Obligation.mergeKey_of_paramsText {o o' : Obligation} (h : o.paramsText = o'.paramsText) :
    o.mergeKey.2 = o'.mergeKey.2 := by
  rw [mergeKey, mergeKey]
  obtain ⟨item, hitems, htext⟩ | htext := o.paramsText_cases <;>
    obtain ⟨item', hitems', htext'⟩ | htext' := o'.paramsText_cases <;>
    rw [htext, htext'] at h
  · rw [String.append_left_inj, String.append_right_inj] at h
    rw [hitems, hitems', h]
  · exact absurd h (singleText_ne)
  · exact absurd h.symm (singleText_ne)
  · rw [String.append_left_inj, String.append_right_inj] at h
    rw [h]
namespace PolicyEngine

/-! ## The merge without an order -/

/-- Two requirements of one kind with different parameters. -/
def conflicting (ds : List PolicyDecision) : Bool :=
  (required ds).any (fun o => (required ds).any (fun o' =>
    o.kind = o'.kind && o.mergeKey ≠ o'.mergeKey))

def strictest (ds : List PolicyDecision) : Disposition :=
  if ds.any PolicyDecision.denies || conflicting ds then .deny
  else if ds.any PolicyDecision.defers then .defer
  else if ds.any (fun d => d.requires || d.requiresByStatus) then .require
  else .allow

/-- What a decision owes to the decisions it merges. -/
structure Merged (ds : List PolicyDecision) (d : PolicyDecision) : Prop where
  disposition : d.disposition = some (strictest ds)
  obligations : d.disposition = some .require → ∀ key,
    (∃ u ∈ d.obligations, u.mergeKey = key) ↔ ∃ o ∈ required ds, o.mergeKey = key
  hard : d.disposition = some .require → ∀ u ∈ d.obligations,
    u.waivable = false ↔ ∃ o ∈ required ds, o.mergeKey = u.mergeKey ∧ o.waivable = false

/-- What the policies answer. -/
def answers (policies : List Policy) (context : PolicyContext) : Result (List PolicyDecision) :=
  policies.mapM (fun policy => (policy context).map PolicyDecision.sync)

/-- In every order the policies' merge, and no weaker than without one of them. -/
structure Lawful (policies : List Policy) (context : PolicyContext) : Prop where
  merged : ∀ policies' : List Policy, policies'.Perm policies → ∀ d ds,
    evaluate policies' context = .ok d → answers policies context = .ok ds → Merged ds d
  orderless : ∀ policies' : List Policy, policies'.Perm policies → ∀ d d',
    evaluate policies context = .ok d → evaluate policies' context = .ok d' →
      d'.disposition = d.disposition ∧ (d.disposition = some .require → d.SameObligations d')
  monotone : ∀ (policy : Policy) (others : List Policy), (policy :: others).Perm policies →
    ∀ d d', evaluate others context = .ok d → evaluate policies context = .ok d' →
      d.rank ≤ d'.rank ∧ (d.disposition = some .require → d'.disposition = some .require →
        ∀ u ∈ d.obligations, ∃ u' ∈ d'.obligations,
          u'.mergeKey = u.mergeKey ∧ (u.waivable = false → u'.waivable = false))

/-- No decision denies and none defers. -/
def Undecided (ds : List PolicyDecision) : Prop :=
  ∀ d ∈ ds, d.denies = false ∧ d.defers = false

/-- Decisions that leave nothing to their order.  A decision that denies does so by its disposition;
where none does, a deferral does not meet requirements that exclude each other; where nothing is
required by name, what is required by status and by disposition goes together; and what some policy
requires as a hard boundary, every policy that requires it first names as one. -/
structure Agreeing (ds : List PolicyDecision) : Prop where
  denials : ∀ d ∈ ds, d.denies = true → d.disposition = some .deny
  deferrals : (∀ d ∈ ds, d.denies = false) → (∃ d ∈ ds, d.defers = true) → conflicting ds = false
  statuses : Undecided ds → required ds = [] → ∀ d ∈ ds, d.requiresByStatus = true →
    d.requires = true
  statused : Undecided ds → required ds = [] → (∃ d ∈ ds, d.requires = true) →
    ∃ d ∈ ds, d.requiresByStatus = true
  flags : Undecided ds → conflicting ds = false → ∀ d ∈ ds, d.requires = true →
    ∀ u ∈ mergeObligations [] d.obligations,
      (∃ o ∈ required ds, o.mergeKey = u.mergeKey ∧ o.waivable = false) → u.waivable = false

/-! ## The engine's own merge -/

section Combine

variable {ds ds' : List PolicyDecision} {d : PolicyDecision}

theorem combine_of_denies (h : ds.find? PolicyDecision.denies = some d) : combine ds = d := by
  rw [combine, h]

theorem combine_of_defers (hdenies : ds.find? PolicyDecision.denies = none)
    (h : ds.find? PolicyDecision.defers = some d) : combine ds = d := by
  rw [combine, hdenies, h]

theorem find?_of_undecided (h : Undecided ds) :
    ds.find? PolicyDecision.denies = none ∧ ds.find? PolicyDecision.defers = none := by
  constructor
  · exact List.find?_eq_none.mpr (fun d hd => by simp [(h d hd).1])
  · exact List.find?_eq_none.mpr (fun d hd => by simp [(h d hd).2])

theorem combine_of_nothing (h : Undecided ds) (hrequired : required ds = []) :
    combine ds = ((ds.find? PolicyDecision.requiresByStatus).getD
      { disposition := some .allow, status := some .allow,
        reason := some "all policies allow" }) := by
  obtain ⟨hdenies, hdefers⟩ := find?_of_undecided h
  rw [combine, hdenies, hdefers]
  simp only [hrequired, List.isEmpty_nil, if_true]
  rfl

theorem combine_of_required (h : Undecided ds) (hrequired : required ds ≠ []) :
    combine ds = requirement ds := by
  obtain ⟨hdenies, hdefers⟩ := find?_of_undecided h
  rw [combine, hdenies, hdefers]
  simp only [List.isEmpty_iff, hrequired, if_false]

/-- Requirements exclude each other exactly when those that are left do. -/
theorem detectObligationConflict_merged :
    detectObligationConflict (mergeObligations [] (required ds)) = conflicting ds := by
  rw [Bool.eq_iff_iff, detectObligationConflict, conflicting]
  simp only [List.any_eq_true, Bool.and_eq_true, decide_eq_true_eq, PolicyFacts.mergeObligations_eq]
  constructor
  · rintro ⟨o, ho, o', ho', hkind, htext⟩
    refine ⟨o, mem_of_mem_keepFirst ho, o', mem_of_mem_keepFirst ho', hkind, fun hkey => htext ?_⟩
    rw [eq_of_mem_keepFirst ho ho' hkey]
  · rintro ⟨o, ho, o', ho', hkind, hkey⟩
    obtain ⟨u, hu, hukey⟩ : ∃ u ∈ keepFirst Obligation.mergeKey [] (required ds),
        u.mergeKey = o.mergeKey := exists_mem_keepFirst ho List.not_mem_nil
    obtain ⟨u', hu', hukey'⟩ : ∃ u ∈ keepFirst Obligation.mergeKey [] (required ds),
        u.mergeKey = o'.mergeKey := exists_mem_keepFirst ho' List.not_mem_nil
    have hkinds : u.kind = u'.kind := by
      rw [show u.kind = o.kind from congrArg Prod.fst hukey, hkind,
        show u'.kind = o'.kind from congrArg Prod.fst hukey']
    refine ⟨u, hu, u', hu', hkinds, fun htext => hkey ?_⟩
    rw [← hukey, ← hukey']
    exact Prod.ext hkinds (Obligation.mergeKey_of_paramsText htext)

/-- The requirements that are left, where none exclude each other. -/
theorem combine_of_agreed (h : Undecided ds) (hrequired : required ds ≠ [])
    (hconflict : conflicting ds = false) :
    (combine ds).disposition = some .require ∧
      (combine ds).obligations = mergeObligations [] (required ds) := by
  rw [combine_of_required h hrequired, requirement, detectObligationConflict_merged, hconflict]
  exact ⟨rfl, rfl⟩

theorem combine_of_conflict (h : Undecided ds) (hconflict : conflicting ds = true) :
    (combine ds).disposition = some .deny := by
  have hrequired : required ds ≠ [] := by
    intro hnone
    rw [conflicting, hnone] at hconflict
    exact nomatch hconflict
  rw [combine_of_required h hrequired, requirement, detectObligationConflict_merged, hconflict]
  rfl

/-! ## What does not depend on the order -/

theorem required_of_mem (hmem : ∀ d, d ∈ ds ↔ d ∈ ds') (o : Obligation) :
    o ∈ required ds ↔ o ∈ required ds' := by
  simp only [PolicyFacts.mem_required, hmem]

theorem any_of_mem {p : PolicyDecision → Bool} (hmem : ∀ d, d ∈ ds ↔ d ∈ ds') :
    ds.any p = ds'.any p := by
  rw [Bool.eq_iff_iff, List.any_eq_true, List.any_eq_true]
  simp only [hmem]

theorem conflicting_of_mem (hmem : ∀ d, d ∈ ds ↔ d ∈ ds') : conflicting ds = conflicting ds' := by
  rw [Bool.eq_iff_iff, conflicting, conflicting]
  simp only [List.any_eq_true, required_of_mem hmem]

theorem strictest_of_mem (hmem : ∀ d, d ∈ ds ↔ d ∈ ds') : strictest ds = strictest ds' := by
  simp only [strictest, any_of_mem hmem, conflicting_of_mem hmem]

theorem Merged.of_mem (h : Merged ds d) (hmem : ∀ d, d ∈ ds ↔ d ∈ ds') : Merged ds' d where
  disposition := by
    rw [← strictest_of_mem hmem]
    exact h.disposition
  obligations := by
    intro hrequire key
    simp only [← required_of_mem hmem]
    exact h.obligations hrequire key
  hard := by
    intro hrequire u hu
    simp only [← required_of_mem hmem]
    exact h.hard hrequire u hu

theorem Undecided.of_mem (h : Undecided ds) (hmem : ∀ d, d ∈ ds ↔ d ∈ ds') : Undecided ds' :=
  fun d hd => h d ((hmem d).mpr hd)

theorem Agreeing.of_mem (h : Agreeing ds) (hmem : ∀ d, d ∈ ds ↔ d ∈ ds') : Agreeing ds' where
  denials := fun d hd => h.denials d ((hmem d).mpr hd)
  deferrals := by
    intro hdenies hdefers
    rw [← conflicting_of_mem hmem]
    refine h.deferrals (fun d hd => hdenies d ((hmem d).mp hd)) ?_
    obtain ⟨d, hd, hdefer⟩ := hdefers
    exact ⟨d, (hmem d).mpr hd, hdefer⟩
  statuses := by
    intro hundecided hrequired d hd
    refine h.statuses (hundecided.of_mem (fun d => (hmem d).symm)) ?_ d ((hmem d).mpr hd)
    exact List.eq_nil_iff_forall_not_mem.mpr (fun o ho =>
      List.eq_nil_iff_forall_not_mem.mp hrequired o ((required_of_mem hmem o).mp ho))
  statused := by
    rintro hundecided hrequired ⟨d, hd, hrequires⟩
    obtain ⟨d', hd', hstatus⟩ := h.statused (hundecided.of_mem (fun d => (hmem d).symm))
      (List.eq_nil_iff_forall_not_mem.mpr (fun o ho =>
        List.eq_nil_iff_forall_not_mem.mp hrequired o ((required_of_mem hmem o).mp ho)))
      ⟨d, (hmem d).mpr hd, hrequires⟩
    exact ⟨d', (hmem d').mp hd', hstatus⟩
  flags := by
    intro hundecided hconflict d hd hrequires u hu hhard
    rw [← conflicting_of_mem hmem] at hconflict
    refine h.flags (hundecided.of_mem (fun d => (hmem d).symm)) hconflict d ((hmem d).mpr hd)
      hrequires u hu ?_
    obtain ⟨o, ho, hkey⟩ := hhard
    exact ⟨o, (required_of_mem hmem o).mpr ho, hkey⟩

theorem conflicting_of_nothing (h : required ds = []) : conflicting ds = false := by
  rw [conflicting, h]
  rfl

theorem strictest_of_denies (hd : d ∈ ds) (h : d.denies = true) : strictest ds = .deny := by
  have hany : ds.any PolicyDecision.denies = true := List.any_eq_true.mpr ⟨d, hd, h⟩
  rw [strictest, hany, Bool.true_or, if_pos rfl]

theorem strictest_of_conflict (h : conflicting ds = true) : strictest ds = .deny := by
  rw [strictest, h, Bool.or_true, if_pos rfl]

theorem strictest_of_defers (hdenies : ∀ d ∈ ds, d.denies = false)
    (hconflict : conflicting ds = false) (hd : d ∈ ds) (h : d.defers = true) :
    strictest ds = .defer := by
  have hnone : ds.any PolicyDecision.denies = false :=
    List.any_eq_false.mpr (fun d hd => by simp [hdenies d hd])
  have hany : ds.any PolicyDecision.defers = true := List.any_eq_true.mpr ⟨d, hd, h⟩
  rw [strictest, hnone, hconflict, hany]
  rfl

theorem strictest_of_undecided (h : Undecided ds) (hconflict : conflicting ds = false) :
    strictest ds =
      if ds.any (fun d => d.requires || d.requiresByStatus) then .require else .allow := by
  have hdenies : ds.any PolicyDecision.denies = false :=
    List.any_eq_false.mpr (fun d hd => by simp [(h d hd).1])
  have hdefers : ds.any PolicyDecision.defers = false :=
    List.any_eq_false.mpr (fun d hd => by simp [(h d hd).2])
  rw [strictest, hdenies, hdefers, hconflict]
  rfl

theorem strictest_of_demand (h : Undecided ds) (hconflict : conflicting ds = false) (hd : d ∈ ds)
    (hdemand : d.requires = true ∨ d.requiresByStatus = true) : strictest ds = .require := by
  have hany : ds.any (fun d => d.requires || d.requiresByStatus) = true :=
    List.any_eq_true.mpr ⟨d, hd, by simpa using hdemand⟩
  rw [strictest_of_undecided h hconflict, hany, if_pos rfl]

/-- A disposition other than a requirement owes no obligations. -/
theorem Merged.of_disposition {disposition : Disposition}
    (h : d.disposition = some disposition) (hstrictest : strictest ds = disposition)
    (hne : disposition ≠ .require) : Merged ds d := by
  have hnot : d.disposition ≠ some .require := by
    rw [h]
    exact fun hrequire => hne (Option.some.inj hrequire)
  exact ⟨by rw [h, hstrictest], fun hrequire => absurd hrequire hnot,
    fun hrequire => absurd hrequire hnot⟩

theorem denies_eq_false (h : ds.find? PolicyDecision.denies = none) :
    ∀ d ∈ ds, d.denies = false := fun d hd => by simpa using List.find?_eq_none.mp h d hd

theorem undecided_of_find? (hdenies : ds.find? PolicyDecision.denies = none)
    (hdefers : ds.find? PolicyDecision.defers = none) : Undecided ds :=
  fun d hd => ⟨denies_eq_false hdenies d hd, by simpa using List.find?_eq_none.mp hdefers d hd⟩

/-- A requirement by status alone, or none, is merged where nothing is required by name. -/
theorem Agreeing.merged_nothing (h : Agreeing ds) (hundecided : Undecided ds)
    (hrequired : required ds = []) : Merged ds (combine ds) := by
  have hconflict := conflicting_of_nothing hrequired
  rw [combine_of_nothing hundecided hrequired]
  cases hstatus : ds.find? PolicyDecision.requiresByStatus with
  | some d =>
    rw [Option.getD_some]
    have hd := List.mem_of_find?_eq_some hstatus
    have hby : d.requiresByStatus = true := List.find?_some hstatus
    have hrequires := h.statuses hundecided hrequired d hd hby
    have hnone : d.obligations = [] := by
      refine List.eq_nil_iff_forall_not_mem.mpr (fun o ho => ?_)
      exact List.eq_nil_iff_forall_not_mem.mp hrequired o
        (PolicyFacts.mem_required.mpr ⟨d, hd, hrequires, ho⟩)
    refine ⟨?_, fun _ key => ?_, fun _ u hu => ?_⟩
    · rw [strictest_of_demand hundecided hconflict hd (Or.inl hrequires)]
      exact decide_eq_true_eq.mp hrequires
    · rw [hnone, hrequired]
    · rw [hnone] at hu
      cases hu
  | none =>
    rw [Option.getD_none]
    refine Merged.of_disposition rfl ?_ (by decide)
    have hnone : ds.any (fun d => d.requires || d.requiresByStatus) = false := by
      refine List.any_eq_false.mpr (fun d hd hdemand => ?_)
      have hno := List.find?_eq_none.mp hstatus
      rcases Bool.or_eq_true_iff.mp hdemand with hrequires | hby
      · obtain ⟨d', hd', hby⟩ := h.statused hundecided hrequired ⟨d, hd, hrequires⟩
        exact hno d' hd' hby
      · exact hno d hd hby
    rw [strictest_of_undecided hundecided hconflict, hnone]
    rfl

theorem Agreeing.merged (h : Agreeing ds) : Merged ds (combine ds) := by
  cases hdenies : ds.find? PolicyDecision.denies with
  | some d =>
    have hd := List.mem_of_find?_eq_some hdenies
    have hdeny : d.denies = true := List.find?_some hdenies
    rw [combine_of_denies hdenies]
    exact Merged.of_disposition (h.denials d hd hdeny) (strictest_of_denies hd hdeny) (by decide)
  | none =>
    have hnone := denies_eq_false hdenies
    cases hdefers : ds.find? PolicyDecision.defers with
    | some d =>
      have hd := List.mem_of_find?_eq_some hdefers
      have hdefer : d.defers = true := List.find?_some hdefers
      rw [combine_of_defers hdenies hdefers]
      have hconflict := h.deferrals hnone ⟨d, hd, hdefer⟩
      exact Merged.of_disposition (decide_eq_true_eq.mp hdefer)
        (strictest_of_defers hnone hconflict hd hdefer) (by decide)
    | none =>
      have hundecided := undecided_of_find? hdenies hdefers
      by_cases hrequired : required ds = []
      · exact h.merged_nothing hundecided hrequired
      · cases hconflict : conflicting ds with
        | true =>
          exact Merged.of_disposition (combine_of_conflict hundecided hconflict)
            (strictest_of_conflict hconflict) (by decide)
        | false =>
          obtain ⟨hdisposition, hobligations⟩ := combine_of_agreed hundecided hrequired hconflict
          obtain ⟨o, ho⟩ := List.exists_mem_of_ne_nil _ hrequired
          obtain ⟨d, hd, hrequires, -⟩ := PolicyFacts.mem_required.mp ho
          refine ⟨?_, fun _ key => ?_, fun _ u hu => ?_⟩
          · rw [strictest_of_demand hundecided hconflict hd (Or.inl hrequires)]
            exact hdisposition
          · rw [hobligations]
            constructor
            · rintro ⟨u, hu, hkey⟩
              exact ⟨u, PolicyFacts.mem_of_mem_mergeObligations hu, hkey⟩
            · rintro ⟨o, ho, hkey⟩
              obtain ⟨u, hu, hukey⟩ := PolicyFacts.exists_mergeObligations ho List.not_mem_nil
              exact ⟨u, hu, hukey.trans hkey⟩
          · rw [hobligations] at hu
            constructor
            · exact fun hhard => ⟨u, PolicyFacts.mem_of_mem_mergeObligations hu, rfl, hhard⟩
            · -- the one that is left is the first that one of the policies names
              intro hhard
              rw [PolicyFacts.mergeObligations_eq, required] at hu
              obtain ⟨d', hd', hu'⟩ := exists_of_mem_keepFirst_flatMap hu
              rw [← PolicyFacts.mergeObligations_eq] at hu'
              obtain ⟨hmem, hrequires'⟩ := List.mem_filter.mp hd'
              exact h.flags hundecided hconflict d' hmem hrequires' u hu' hhard

/-- Every decision comes first in some order. -/
theorem exists_first (hd : d ∈ ds) : ∃ rest, (d :: rest).Perm ds := by
  obtain ⟨before, after, rfl⟩ := List.append_of_mem hd
  exact ⟨before ++ after, List.perm_middle.symm⟩

theorem required_cons (hrequires : d.requires = true) (rest : List PolicyDecision) :
    required (d :: rest) = d.obligations ++ required rest := by
  rw [required, required, List.filter_cons_of_pos hrequires, List.flatMap_cons]

/-- Decisions that are merged in every order agree. -/
theorem agreeing_of_merged (h : ∀ ds', ds'.Perm ds → Merged ds (combine ds')) : Agreeing ds where
  denials := by
    intro d hd hdeny
    obtain ⟨rest, hperm⟩ := exists_first hd
    have hmerged := (h _ hperm).disposition
    rw [combine_of_denies (List.find?_cons_of_pos hdeny), strictest_of_denies hd hdeny] at hmerged
    exact hmerged
  deferrals := by
    rintro hdenies ⟨d, hd, hdefer⟩
    obtain ⟨rest, hperm⟩ := exists_first hd
    have hnone : (d :: rest).find? PolicyDecision.denies = none :=
      List.find?_eq_none.mpr (fun d hd => by simp [hdenies d (hperm.mem_iff.mp hd)])
    have hmerged := (h _ hperm).disposition
    rw [combine_of_defers hnone (List.find?_cons_of_pos hdefer), decide_eq_true_eq.mp hdefer]
      at hmerged
    refine Bool.eq_false_iff.mpr (fun hconflict => ?_)
    rw [strictest_of_conflict hconflict] at hmerged
    exact nomatch hmerged
  statuses := by
    intro hundecided hrequired d hd hby
    obtain ⟨rest, hperm⟩ := exists_first hd
    have hmem : ∀ d', d' ∈ ds ↔ d' ∈ d :: rest := fun _ => hperm.mem_iff.symm
    have hrequired' : required (d :: rest) = [] :=
      List.eq_nil_iff_forall_not_mem.mpr (fun o ho =>
        List.eq_nil_iff_forall_not_mem.mp hrequired o ((required_of_mem hmem o).mpr ho))
    have hmerged := (h _ hperm).disposition
    rw [combine_of_nothing (hundecided.of_mem hmem) hrequired', List.find?_cons_of_pos hby,
      Option.getD_some, strictest_of_demand hundecided (conflicting_of_nothing hrequired) hd
        (Or.inr hby)] at hmerged
    exact decide_eq_true_eq.mpr hmerged
  statused := by
    rintro hundecided hrequired ⟨d, hd, hrequires⟩
    have hmerged := (h ds (List.Perm.refl ds)).disposition
    rw [strictest_of_demand hundecided (conflicting_of_nothing hrequired) hd (Or.inl hrequires),
      combine_of_nothing hundecided hrequired] at hmerged
    cases hstatus : ds.find? PolicyDecision.requiresByStatus with
    | some d' => exact ⟨d', List.mem_of_find?_eq_some hstatus, List.find?_some hstatus⟩
    | none =>
      rw [hstatus] at hmerged
      exact nomatch hmerged
  flags := by
    intro hundecided hconflict d hd hrequires u hu hhard
    obtain ⟨rest, hperm⟩ := exists_first hd
    have hmem : ∀ d', d' ∈ ds ↔ d' ∈ d :: rest := fun _ => hperm.mem_iff.symm
    have hleft : u ∈ mergeObligations [] (required (d :: rest)) := by
      rw [required_cons hrequires, PolicyFacts.mergeObligations_eq]
      rw [PolicyFacts.mergeObligations_eq] at hu
      exact mem_keepFirst_append_left hu
    have hrequired : required (d :: rest) ≠ [] :=
      List.ne_nil_of_mem (PolicyFacts.mem_of_mem_mergeObligations hleft)
    obtain ⟨hdisposition, hobligations⟩ := combine_of_agreed (hundecided.of_mem hmem) hrequired
      (conflicting_of_mem hmem ▸ hconflict)
    rw [← hobligations] at hleft
    exact ((h _ hperm).hard hdisposition u hleft).mpr hhard

/-- Merged decisions of one list have the same obligations. -/
theorem Merged.sameObligations {d' : PolicyDecision} (h : Merged ds d) (h' : Merged ds d')
    (hrequire : d.disposition = some .require) : d.SameObligations d' := by
  have hrequire' : d'.disposition = some .require := by
    rw [h'.disposition, ← h.disposition, hrequire]
  -- an obligation of one has a counterpart of the other, and whether it is hard is not its own
  have hcounterpart : ∀ {d d' : PolicyDecision}, Merged ds d → Merged ds d' →
      d.disposition = some .require → d'.disposition = some .require → ∀ u ∈ d.obligations,
        ∃ u' ∈ d'.obligations, u'.mergeKey = u.mergeKey ∧ u'.waivable = u.waivable := by
    intro d d' h h' hrequire hrequire' u hu
    obtain ⟨u', hu', hkey⟩ := (h'.obligations hrequire' u.mergeKey).mpr
      ((h.obligations hrequire u.mergeKey).mp ⟨u, hu, rfl⟩)
    refine ⟨u', hu', hkey, ?_⟩
    have hhard := h'.hard hrequire' u' hu'
    rw [hkey, ← h.hard hrequire u hu] at hhard
    cases hwaivable : u.waivable with
    | false => exact hhard.mpr hwaivable
    | true =>
      refine Bool.not_eq_false _ |>.mp (fun hfalse => ?_)
      rw [hhard.mp hfalse] at hwaivable
      exact nomatch hwaivable
  intro key waivable
  constructor
  · rintro ⟨u, hu, rfl, rfl⟩
    exact hcounterpart h h' hrequire hrequire' u hu
  · rintro ⟨u, hu, rfl, rfl⟩
    exact hcounterpart h' h hrequire' hrequire u hu

/-! ## One more policy -/

theorem required_subset (hsub : ds' ⊆ ds) : required ds' ⊆ required ds := by
  intro o ho
  obtain ⟨d, hd, hrequires⟩ := PolicyFacts.mem_required.mp ho
  exact PolicyFacts.mem_required.mpr ⟨d, hsub hd, hrequires⟩

theorem any_mono {α : Type} {p : α → Bool} {l l' : List α} (hsub : l' ⊆ l) (h : l'.any p = true) :
    l.any p = true := by
  obtain ⟨a, ha, hp⟩ := List.any_eq_true.mp h
  exact List.any_eq_true.mpr ⟨a, hsub ha, hp⟩

theorem conflicting_mono (hsub : ds' ⊆ ds) (h : conflicting ds' = true) :
    conflicting ds = true := by
  obtain ⟨o, ho, hconflict⟩ := List.any_eq_true.mp h
  have hrequired := required_subset hsub
  exact List.any_eq_true.mpr ⟨o, hrequired ho, any_mono hrequired hconflict⟩

theorem rank_strictest_mono (hsub : ds' ⊆ ds) : (strictest ds').rank ≤ (strictest ds).rank := by
  have hranks : ∀ deny defer demand deny' defer' demand' : Bool,
      (deny' = true → deny = true) → (defer' = true → defer = true) →
      (demand' = true → demand = true) →
      (if deny' then Disposition.deny else if defer' then .defer
        else if demand' then .require else .allow).rank ≤
      (if deny then Disposition.deny else if defer then .defer
        else if demand then .require else .allow).rank := by
    decide
  refine hranks _ _ _ _ _ _ (fun h => ?_) (any_mono hsub) (any_mono hsub)
  rw [Bool.or_eq_true_iff] at h ⊢
  exact h.imp (any_mono hsub) (conflicting_mono hsub)

/-- The engine's answer is never stricter than the strictest that the policies give. -/
theorem rank_combine_le (ds : List PolicyDecision) :
    (combine ds).rank ≤ (strictest ds).rank := by
  have hmost : ∀ disposition : Disposition, disposition.rank ≤ Disposition.deny.rank := by
    intro disposition
    cases disposition <;> decide
  cases hdenies : ds.find? PolicyDecision.denies with
  | some d =>
    rw [strictest_of_denies (List.mem_of_find?_eq_some hdenies) (List.find?_some hdenies)]
    exact hmost _
  | none =>
    have hnone := denies_eq_false hdenies
    cases hconflict : conflicting ds with
    | true =>
      rw [strictest_of_conflict hconflict]
      exact hmost _
    | false =>
      cases hdefers : ds.find? PolicyDecision.defers with
      | some d =>
        have hdefer : d.defers = true := List.find?_some hdefers
        rw [strictest_of_defers hnone hconflict (List.mem_of_find?_eq_some hdefers) hdefer,
          combine_of_defers hdenies hdefers, PolicyDecision.rank, decide_eq_true_eq.mp hdefer]
        exact Nat.le_refl _
      | none =>
        have hundecided := undecided_of_find? hdenies hdefers
        by_cases hrequired : required ds = []
        · rw [combine_of_nothing hundecided hrequired]
          cases hstatus : ds.find? PolicyDecision.requiresByStatus with
          | none => exact Nat.zero_le _
          | some d =>
            have hd := List.mem_of_find?_eq_some hstatus
            rw [strictest_of_demand hundecided hconflict hd (Or.inr (List.find?_some hstatus)),
              Option.getD_some, PolicyDecision.rank]
            obtain ⟨hdeny, hdefer⟩ := hundecided d hd
            match hdisposition : d.disposition with
            | none | some .allow | some .require => decide
            | some .deny => simp [PolicyDecision.denies, hdisposition] at hdeny
            | some .defer => simp [PolicyDecision.defers, hdisposition] at hdefer
        · obtain ⟨o, ho⟩ := List.exists_mem_of_ne_nil _ hrequired
          obtain ⟨d, hd, hrequires, -⟩ := PolicyFacts.mem_required.mp ho
          rw [strictest_of_demand hundecided hconflict hd (Or.inl hrequires),
            PolicyDecision.rank, (combine_of_agreed hundecided hrequired hconflict).1]
          exact Nat.le_refl _

/-- What the engine requires, some policy does. -/
theorem mem_required_of_combine (hdenials : ∀ d ∈ ds, d.denies = true → d.disposition = some .deny)
    (hrequire : (combine ds).disposition = some .require) {u : Obligation}
    (hu : u ∈ (combine ds).obligations) : u ∈ required ds := by
  cases hdenies : ds.find? PolicyDecision.denies with
  | some d =>
    rw [combine_of_denies hdenies,
      hdenials d (List.mem_of_find?_eq_some hdenies) (List.find?_some hdenies)] at hrequire
    exact nomatch hrequire
  | none =>
    cases hdefers : ds.find? PolicyDecision.defers with
    | some d =>
      have hdefer : d.defers = true := List.find?_some hdefers
      rw [combine_of_defers hdenies hdefers, decide_eq_true_eq.mp hdefer] at hrequire
      exact nomatch hrequire
    | none =>
      have hundecided := undecided_of_find? hdenies hdefers
      by_cases hrequired : required ds = []
      · rw [combine_of_nothing hundecided hrequired] at hrequire hu
        cases hstatus : ds.find? PolicyDecision.requiresByStatus with
        | none =>
          rw [hstatus] at hrequire
          exact nomatch hrequire
        | some d =>
          rw [hstatus, Option.getD_some] at hrequire hu
          exact PolicyFacts.mem_required.mpr
            ⟨d, List.mem_of_find?_eq_some hstatus, decide_eq_true_eq.mpr hrequire, hu⟩
      · cases hconflict : conflicting ds with
        | true =>
          rw [combine_of_conflict hundecided hconflict] at hrequire
          exact nomatch hrequire
        | false =>
          rw [(combine_of_agreed hundecided hrequired hconflict).2] at hu
          exact PolicyFacts.mem_of_mem_mergeObligations hu

theorem Agreeing.monotone (h : Agreeing ds) {d' : PolicyDecision} (hmerged : Merged ds d')
    (hsub : ds' ⊆ ds) :
    (combine ds').rank ≤ d'.rank ∧
      ((combine ds').disposition = some .require → d'.disposition = some .require →
        ∀ u ∈ (combine ds').obligations, ∃ u' ∈ d'.obligations,
          u'.mergeKey = u.mergeKey ∧ (u.waivable = false → u'.waivable = false)) := by
  constructor
  · have hrank : d'.rank = (strictest ds).rank := by
      rw [PolicyDecision.rank, hmerged.disposition, Option.getD_some]
    rw [hrank]
    exact Nat.le_trans (rank_combine_le ds') (rank_strictest_mono hsub)
  · intro hrequire hrequire' u hu
    have hrequired : u ∈ required ds := required_subset hsub
      (mem_required_of_combine (fun d hd => h.denials d (hsub hd)) hrequire hu)
    obtain ⟨u', hu', hkey⟩ :=
      (hmerged.obligations hrequire' u.mergeKey).mpr ⟨u, hrequired, rfl⟩
    exact ⟨u', hu', hkey, fun hhard =>
      (hmerged.hard hrequire' u' hu').mpr ⟨u, hrequired, hkey.symm, hhard⟩⟩

end Combine

/-! ## The policies -/

section Policies

variable {policies policies' : List Policy} {context : PolicyContext}
  {ds ds' : List PolicyDecision} {d : PolicyDecision}

theorem answers_eq_ok : answers policies context = .ok ds ↔
    List.Forall₂ (fun (policy : Policy) d => (policy context).map PolicyDecision.sync = .ok d) policies ds :=
  Result.mapM_eq_ok

theorem evaluate_eq (policies : List Policy) (context : PolicyContext) :
    evaluate policies context = (answers policies context).map combine := by
  have hanswers : answers policies context =
      (policies.mapM (fun policy : Policy => policy context)).map
        (List.map PolicyDecision.sync) := by
    induction policies with
    | nil => rfl
    | cons policy rest ih =>
      rw [answers] at ih
      rw [answers, List.mapM_cons, List.mapM_cons, ih]
      cases policy context with
      | error e => rfl
      | ok d =>
        cases rest.mapM (fun policy : Policy => policy context) <;> rfl
  rw [hanswers, evaluate]
  cases policies.mapM (fun policy => policy context) <;> rfl

theorem evaluate_eq_ok : evaluate policies context = .ok d ↔
    ∃ ds, answers policies context = .ok ds ∧ combine ds = d := by
  rw [evaluate_eq, Result.map_eq_ok]

theorem answers_perm (hperm : policies'.Perm policies) (h : answers policies' context = .ok ds') :
    ∃ ds, answers policies context = .ok ds ∧ ds'.Perm ds := by
  obtain ⟨ds, hforall, hds⟩ := List.perm_comp_forall₂ hperm.symm (answers_eq_ok.mp h)
  exact ⟨ds, answers_eq_ok.mpr hforall, hds.symm⟩

theorem exists_answers_perm (h : answers policies context = .ok ds) (hperm : ds'.Perm ds) :
    ∃ policies', policies'.Perm policies ∧ answers policies' context = .ok ds' := by
  have hflip := List.Forall₂.flip (answers_eq_ok.mp h)
  obtain ⟨policies', hforall, hpolicies⟩ := List.perm_comp_forall₂ hperm hflip
  exact ⟨policies', hpolicies, answers_eq_ok.mpr (List.Forall₂.flip hforall)⟩

/-- The policies of an engine are lawful exactly when what they answer agrees. -/
theorem policy_algebra_iff (policies : List Policy) (context : PolicyContext) :
    Lawful policies context ↔ ∀ ds, answers policies context = .ok ds → Agreeing ds := by
  constructor
  · intro h ds hds
    refine agreeing_of_merged (fun ds' hperm => ?_)
    obtain ⟨policies', hpolicies, hds'⟩ := exists_answers_perm hds hperm
    exact h.merged policies' hpolicies _ ds (evaluate_eq_ok.mpr ⟨ds', hds', rfl⟩) hds
  · intro h
    have hmerged : ∀ policies' : List Policy, policies'.Perm policies → ∀ d ds,
        evaluate policies' context = .ok d → answers policies context = .ok ds → Merged ds d := by
      intro policies' hperm d ds hd hds
      obtain ⟨ds', hds', rfl⟩ := evaluate_eq_ok.mp hd
      obtain ⟨ds₂, hds₂, hperm'⟩ := answers_perm hperm hds'
      obtain rfl : ds = ds₂ := Except.ok.inj (hds.symm.trans hds₂)
      have hmem : ∀ d, d ∈ ds ↔ d ∈ ds' := fun _ => hperm'.mem_iff.symm
      exact ((h ds hds).of_mem hmem).merged.of_mem (fun d => (hmem d).symm)
    refine ⟨hmerged, fun policies' hperm d d' hd hd' => ?_, fun policy others hperm d d' hd hd' => ?_⟩
    · obtain ⟨ds, hds, -⟩ := evaluate_eq_ok.mp hd
      have hfirst := hmerged policies (List.Perm.refl _) d ds hd hds
      have hsecond := hmerged policies' hperm d' ds hd' hds
      exact ⟨by rw [hsecond.disposition, hfirst.disposition], hfirst.sameObligations hsecond⟩
    · obtain ⟨ds, hds, -⟩ := evaluate_eq_ok.mp hd'
      obtain ⟨others', hothers, rfl⟩ := evaluate_eq_ok.mp hd
      refine (h ds hds).monotone (hmerged policies (List.Perm.refl _) d' ds hd' hds) ?_
      obtain ⟨all, hall, hds'⟩ := List.perm_comp_forall₂ hperm (answers_eq_ok.mp hds)
      obtain ⟨first, rest, -, hrest, rfl⟩ := List.forall₂_cons_left_iff.mp hall
      obtain rfl : rest = others' :=
        Except.ok.inj ((answers_eq_ok.mpr hrest).symm.trans hothers)
      exact fun d hd => hds'.mem_iff.mp (List.mem_cons_of_mem first hd)

/-- A rollback is required, and may be waived or not. -/
def rollback (waivable : Bool) : PolicyDecision :=
  { disposition := some .require, status := some .requireVerification, reason := some "rollback",
    reasonRefs := ["rollback"], obligations := [{ kind := "rollback_required", waivable }] }

/-- Of two policies, the first lets the rollback be waived and the second does not. -/
def softThenHard : List Policy := [fun _ => .ok (rollback true), fun _ => .ok (rollback false)]

/-- The hard boundary of the second policy is then dropped as a duplicate. -/
theorem hard_boundary_dropped : ¬ ∀ policies context, Lawful policies context := by
  intro h
  have hmerged := (h softThenHard {}).merged softThenHard (List.Perm.refl _)
    (combine [rollback true, rollback false]) [rollback true, rollback false] rfl rfl
  have hobligations : (combine [rollback true, rollback false]).obligations =
      [{ kind := "rollback_required", waivable := true }] := by rfl
  have hhard := hmerged.hard (by rfl) { kind := "rollback_required", waivable := true }
    (by rw [hobligations]; exact List.mem_singleton_self _)
  have hrequired : required [rollback true, rollback false] =
      [{ kind := "rollback_required", waivable := true },
        { kind := "rollback_required", waivable := false }] := rfl
  refine absurd (hhard.mpr ⟨{ kind := "rollback_required", waivable := false }, ?_, rfl, rfl⟩)
    (by decide)
  rw [hrequired]
  exact List.mem_cons_of_mem _ (List.mem_singleton_self _)

end Policies

end PolicyEngine
end PortableRuntime
