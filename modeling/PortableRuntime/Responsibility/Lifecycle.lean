import PortableRuntime.Responsibility.WorkAdmission

/-!
# Lifecycle histories

A revision and a transition are decided against the current definition and status, and these
are read by replaying the journal: revisions by the version they lead to, transitions by a
time and an id that the caller chose.  The two orders agree for revisions.
-/

namespace PortableRuntime

def ResponsibilityRevision.definition (r : ResponsibilityRevision) : ResponsibilityDefinition :=
  { version := r.toVersion, statement := r.statement, scope := r.scope }

namespace KernelCall

/-- The transition that a call asks for, when it is one of the responsibility. -/
def transitionOf (ref : String) : KernelCall → Option ResponsibilityLifecycleTransition
  | transition t => if t.responsibilityRef = ref then some t else none
  | _ => none

def revisionOf (ref : String) : KernelCall → Option ResponsibilityRevision
  | revise r => if r.responsibilityRef = ref then some r else none
  | _ => none

/-- The call, when the kernel accepts it. -/
def accepted? (ids : StableId) (s : ResponsibilityStore) (call : KernelCall) :
    Option KernelCall :=
  if (call.perform ids s).isOk then some call else none

/-- The accepted calls of a run, oldest first. -/
def accepted (ids : StableId) (calls : List KernelCall) : List KernelCall :=
  emitted (step ids) (accepted? ids) .empty calls

end KernelCall

namespace ResponsibilityStore

def lastTransition (ref : String) (log : List KernelCall) :
    Option ResponsibilityLifecycleTransition :=
  (log.filterMap (KernelCall.transitionOf ref)).getLast?

def lastRevision (ref : String) (log : List KernelCall) : Option ResponsibilityRevision :=
  (log.filterMap (KernelCall.revisionOf ref)).getLast?

/-- The journal can be read of a responsibility, and says what was accepted last. -/
structure ReadsBack (s : ResponsibilityStore) (log : List KernelCall) (ref : String) : Prop where
  status : ∃ status, s.currentStatus ref = .ok status ∧
    ∀ t ∈ lastTransition ref log, status = t.toStatus
  definition : ∃ d, s.currentDefinition ref = .ok d ∧ ∀ r ∈ lastRevision ref log, d = r.definition

/-- After each accepted transition or revision of a run the journal reads back what was
accepted last of its responsibility. -/
def Contiguous (ids : StableId) (calls : List KernelCall) : Prop :=
  ∀ pre call, pre ++ [call] <+: calls →
    (KernelCall.accepted? ids (run (KernelCall.step ids) empty pre) call).isSome = true →
    ∀ ref, (call.transitionOf ref).isSome = true ∨ (call.revisionOf ref).isSome = true →
      ReadsBack (run (KernelCall.step ids) empty (pre ++ [call]))
        (KernelCall.accepted ids (pre ++ [call])) ref

/-- What the kernel asks of a transition: it binds the current version and starts at the
current status, and its id is free or holds the same transition. -/
structure Passes (s : ResponsibilityStore) (t : ResponsibilityLifecycleTransition) : Prop where
  version : ∃ d, s.currentDefinition t.responsibilityRef = .ok d ∧
    t.responsibilityVersion = d.version
  status : s.currentStatus t.responsibilityRef = .ok t.fromStatus
  free : ∀ v, s.journalGet t.id = some v → v.sameSemantics (.transition t) = true

/-- The transition is new, and applied after every recorded one of its responsibility. -/
structure Latest (s : ResponsibilityStore) (t : ResponsibilityLifecycleTransition) : Prop where
  fresh : s.journalGet t.id = none
  last : ∀ t' ∈ s.transitions t.responsibilityRef, ¬ appliedBefore t t'

/-- A transition that passes the kernel's checks is the latest one. -/
def InOrder (s : ResponsibilityStore) : KernelCall → Prop
  | .transition t => s.Passes t → s.Latest t
  | _ => True

/-! ## Saving -/

theorem saveAppendOnly_of_none {s : ResponsibilityStore} {v : ResponsibilityObject}
    (hfresh : s.journalGet v.id = none) : s.saveAppendOnly v = .ok (v, s.record v) := by
  rw [saveAppendOnly, hfresh]
  exact journalSave_of_none hfresh

theorem saveAppendOnly_of_some {s s' : ResponsibilityStore} {v w existing : ResponsibilityObject}
    (hstored : s.journalGet v.id = some existing) :
    s.saveAppendOnly v = .ok (w, s') ↔
      existing.sameSemantics v = true ∧ existing = w ∧ s = s' := by
  rw [saveAppendOnly, hstored]
  dsimp only
  split
  · next hsame => simp [hsame]
  · next hsame => simp [hsame, raiseValue]

theorem transition_eq_ok {s s' : ResponsibilityStore} {t : ResponsibilityLifecycleTransition}
    {w : ResponsibilityObject} :
    s.transition t = .ok (w, s') ↔
      ((∃ d, s.currentDefinition t.responsibilityRef = .ok d ∧
        t.responsibilityVersion = d.version) ∧
        s.currentStatus t.responsibilityRef = .ok t.fromStatus) ∧
      s.saveAppendOnly (.transition t) = .ok (w, s') := by
  rw [transition, Result.bind_eq_ok]
  constructor
  · rintro ⟨d, hd, h⟩
    obtain ⟨hversion, h⟩ := Result.check_eq_ok.mp h
    obtain ⟨status, hstatus, h⟩ := Result.bind_eq_ok.mp h
    obtain ⟨hfrom, h⟩ := Result.check_eq_ok.mp h
    have hfrom : t.fromStatus = status := of_decide_eq_true (guardValue_eq_ok.mp hfrom)
    exact ⟨⟨⟨d, hd, of_decide_eq_true (guardValue_eq_ok.mp hversion)⟩, hfrom ▸ hstatus⟩, h⟩
  · rintro ⟨⟨⟨d, hd, hversion⟩, hstatus⟩, h⟩
    refine ⟨d, hd, Result.check_eq_ok.mpr ⟨guardValue_eq_ok.mpr (decide_eq_true hversion), ?_⟩⟩
    refine Result.bind_eq_ok.mpr ⟨t.fromStatus, hstatus, ?_⟩
    exact Result.check_eq_ok.mpr ⟨guardValue_eq_ok.mpr (decide_eq_true rfl), h⟩

/-- A transition is accepted exactly when it passes the checks; it is then recorded, or found. -/
theorem exists_transition_iff {s : ResponsibilityStore} {t : ResponsibilityLifecycleTransition} :
    (∃ w s', s.transition t = .ok (w, s')) ↔ s.Passes t := by
  constructor
  · rintro ⟨w, s', h⟩
    obtain ⟨⟨hversion, hstatus⟩, hsave⟩ := transition_eq_ok.mp h
    exact ⟨hversion, hstatus, fun v hv => ((saveAppendOnly_of_some hv).mp hsave).1⟩
  · rintro ⟨hversion, hstatus, hfree⟩
    cases hget : s.journalGet t.id with
    | none =>
      exact ⟨_, _, transition_eq_ok.mpr ⟨⟨hversion, hstatus⟩,
        saveAppendOnly_of_none (v := .transition t) hget⟩⟩
    | some v =>
      exact ⟨_, _, transition_eq_ok.mpr ⟨⟨hversion, hstatus⟩,
        (saveAppendOnly_of_some (v := .transition t) hget).mpr ⟨hfree v hget, rfl, rfl⟩⟩⟩

/-! ## Revisions -/

/-- The order in which the revisions of a responsibility are replayed. -/
def revisedBefore (a b : ResponsibilityRevision) : Prop := a.toVersion ≤ b.toVersion

instance : DecidableRel revisedBefore := fun a b => by
  unfold revisedBefore
  infer_instance

instance : Std.Total revisedBefore where
  total a b := le_total a.toVersion b.toVersion

instance : IsTrans ResponsibilityRevision revisedBefore where
  trans _ _ _ := le_trans

/-- A replay that succeeds has met versions between its ends, no version twice. -/
theorem versions_of_foldlM {l : List ResponsibilityRevision} {d d' : ResponsibilityDefinition}
    (h : l.foldlM applyRevision d = .ok d') :
    (∀ r ∈ l, d.version < r.toVersion ∧ r.toVersion ≤ d'.version) ∧
      (l.map (·.toVersion)).Nodup := by
  induction l generalizing d with
  | nil => exact ⟨fun r hr => absurd hr List.not_mem_nil, List.nodup_nil⟩
  | cons r rest ih =>
    obtain ⟨middle, hmiddle, hrest⟩ := Result.bind_eq_ok.mp h
    obtain ⟨hfrom, hto⟩ := Result.check_eq_ok.mp hmiddle
    have hfrom : r.fromVersion = d.version := of_decide_eq_true (guardValue_eq_ok.mp hfrom)
    rw [Result.pure_eq_ok] at hto
    have hmiddleVersion : middle.version = r.toVersion := by rw [← hto]
    have hstep : r.toVersion = d.version + 1 := by rw [← hfrom]; rfl
    have hcount := version_foldlM hrest
    obtain ⟨hbounds, hnodup⟩ := ih hrest
    refine ⟨fun r' hr' => ?_, List.nodup_cons.mpr ⟨fun hmem => ?_, hnodup⟩⟩
    · rcases List.mem_cons.mp hr' with rfl | hr'
      · omega
      · have hbound := hbounds r' hr'
        omega
    · obtain ⟨r', hr', hsame⟩ := List.mem_map.mp hmem
      have hbound := hbounds r' hr'
      have hsame : r'.toVersion = r.toVersion := hsame
      omega

theorem mem_revisions {s : ResponsibilityStore} {ref : String} {r : ResponsibilityRevision} :
    r ∈ s.revisions ref ↔
      s.journalGet r.id = some (.revision r) ∧
        (ResponsibilityObject.revision r).subjectRef = ref := by
  rw [revisions, List.mem_insertionSort, listed, List.mem_filterMap]
  constructor
  · rintro ⟨o, ho, hasR⟩
    obtain rfl := ResponsibilityObject.asRevision_eq_some.mp hasR
    obtain ⟨hget, hsubject, -⟩ := mem_list.mp ho
    exact ⟨hget, (hsubject ref rfl).symm⟩
  · rintro ⟨hget, hsubject⟩
    exact ⟨.revision r, mem_list.mpr ⟨hget, by simp [hsubject], rfl⟩, rfl⟩

/-- An object like a revision is a revision of the same version of the responsibility. -/
theorem eq_revision_of_sameSemantics {existing : ResponsibilityObject}
    {r : ResponsibilityRevision} (h : existing.sameSemantics (.revision r) = true) :
    ∃ r', existing = .revision r' ∧ r'.responsibilityRef = r.responsibilityRef ∧
      r'.fromVersion = r.fromVersion := by
  cases existing with
  | revision r' =>
    have hfields : (({ r' with createdAt := 0 } : ResponsibilityRevision) ==
        { r with createdAt := 0 }) = true := h
    simp only [BEq.beq, instBEqResponsibilityRevision.beq, Bool.and_eq_true,
      decide_eq_true_eq] at hfields
    exact ⟨r', rfl, hfields.2.1, hfields.2.2.1⟩
  | _ => exact absurd h Bool.false_ne_true

/-- What the kernel asks of a revision. -/
structure Revises (s : ResponsibilityStore) (r : ResponsibilityRevision) : Prop where
  version : ∃ d, s.currentDefinition r.responsibilityRef = .ok d ∧ r.fromVersion = d.version
  status : ∃ status, s.currentStatus r.responsibilityRef = .ok status

/-- An accepted revision is new: a recorded one leads to a version that is current or past. -/
theorem Revises.fresh {s : ResponsibilityStore} {r : ResponsibilityRevision} (h : s.Revises r)
    (hfree : ∀ v, s.journalGet r.id = some v → v.sameSemantics (.revision r) = true) :
    s.journalGet r.id = none := by
  obtain ⟨⟨d, hd, hversion⟩, -⟩ := h
  obtain ⟨identity, hidentity, hfold⟩ := Result.bind_eq_ok.mp hd
  by_contra hsome
  obtain ⟨v, hv⟩ := Option.ne_none_iff_exists'.mp hsome
  obtain ⟨r', rfl, href, hfrom⟩ := eq_revision_of_sameSemantics (hfree v hv)
  have hid : r'.id = r.id := id_of_journalGet hv
  have hsubject : (ResponsibilityObject.revision r').subjectRef = r.responsibilityRef :=
    subjectRef_of_ref (congrArg some href)
      (ne_empty_of_journalGet (getResponsibility_eq_ok.mp hidentity))
  have hmem : r' ∈ s.revisions r.responsibilityRef := mem_revisions.mpr ⟨hid ▸ hv, hsubject⟩
  have hbound := ((versions_of_foldlM hfold).1 r' hmem).2
  have hto : r'.toVersion = r'.fromVersion + 1 := rfl
  omega

/-- The definition after an accepted revision is that of the revision. -/
theorem currentDefinition_record_revision {s : ResponsibilityStore} {r : ResponsibilityRevision}
    (h : s.Revises r) (hfresh : s.journalGet r.id = none) :
    (s.record (.revision r)).currentDefinition r.responsibilityRef = .ok r.definition := by
  obtain ⟨⟨d, hd, hversion⟩, -⟩ := h
  obtain ⟨identity, hidentity, hfold⟩ := Result.bind_eq_ok.mp hd
  have hstored := getResponsibility_eq_ok.mp hidentity
  have hsubject : (ResponsibilityObject.revision r).subjectRef = r.responsibilityRef :=
    subjectRef_of_ref rfl (ne_empty_of_journalGet hstored)
  have hperm : ((s.record (.revision r)).listed (·.asRevision) "ResponsibilityRevision"
      r.responsibilityRef).Perm
      (s.listed (·.asRevision) "ResponsibilityRevision" r.responsibilityRef ++ [r]) :=
    listed_record_perm (v := .revision r) hfresh rfl (by simp [hsubject])
  obtain ⟨hbounds, hnodup⟩ := versions_of_foldlM hfold
  have hmem {a : ResponsibilityRevision} (ha : a ∈ s.listed (·.asRevision)
      "ResponsibilityRevision" r.responsibilityRef) : a ∈ s.revisions r.responsibilityRef :=
    (List.mem_insertionSort revisedBefore).mpr ha
  have hlast : (s.record (.revision r)).revisions r.responsibilityRef =
      s.revisions r.responsibilityRef ++ [r] := by
    refine insertionSort_of_perm_of_last (r := revisedBefore) hperm ?_ ?_
    · intro a ha b hb hab hba
      exact List.inj_on_of_nodup_map hnodup (hmem ha) (hmem hb) (le_antisymm hab hba)
    · intro a ha hbefore
      have hbound := (hbounds a (hmem ha)).2
      have hto : r.toVersion = r.fromVersion + 1 := rfl
      have hle : r.toVersion ≤ a.toVersion := hbefore
      omega
  refine Result.bind_eq_ok.mpr ⟨identity, ?_, ?_⟩
  · exact getResponsibility_eq_ok.mpr (journalGet_record_of_some hfresh hstored)
  · rw [hlast, List.foldlM_append]
    refine Result.bind_eq_ok.mpr ⟨d, hfold, Result.bind_eq_ok.mpr ⟨r.definition, ?_, rfl⟩⟩
    exact Result.check_eq_ok.mpr ⟨guardValue_eq_ok.mpr (decide_eq_true hversion), rfl⟩

theorem revise_eq_ok {s s' : ResponsibilityStore} {r : ResponsibilityRevision}
    {w : ResponsibilityObject} (h : s.revise r = .ok (w, s')) :
    s.Revises r ∧ s.journalGet r.id = none ∧ s' = s.record (.revision r) := by
  obtain ⟨d, hd, h⟩ := Result.bind_eq_ok.mp h
  obtain ⟨hversion, h⟩ := Result.check_eq_ok.mp h
  obtain ⟨status, hstatus, h⟩ := Result.bind_eq_ok.mp h
  obtain ⟨-, h⟩ := Result.check_eq_ok.mp h
  have hrevises : s.Revises r :=
    ⟨⟨d, hd, of_decide_eq_true (guardValue_eq_ok.mp hversion)⟩, status, hstatus⟩
  have hfresh : s.journalGet r.id = none :=
    hrevises.fresh (fun v hv => ((saveAppendOnly_of_some hv).mp h).1)
  rw [saveAppendOnly_of_none (v := .revision r) hfresh, Except.ok.injEq, Prod.mk.injEq] at h
  exact ⟨hrevises, hfresh, h.2.symm⟩

/-! ## Calls that leave histories alone -/

/-- The object is part of no history. -/
def Inert (v : ResponsibilityObject) : Prop := v.asRevision = none ∧ v.asTransition = none

/-- Every answer of a computation over the store records inert objects only. -/
def Keeps {α : Type} (s : ResponsibilityStore) (x : Result (α × ResponsibilityStore)) : Prop :=
  ∀ a s', x = .ok (a, s') → s' = s ∨ ∃ v, Inert v ∧ s.journalGet v.id = none ∧ s' = s.record v

section Keeps

variable {α β : Type} {s : ResponsibilityStore}

theorem Keeps.bind {x : Result β} {f : β → Result (α × ResponsibilityStore)}
    (h : ∀ b, x = .ok b → s.Keeps (f b)) : s.Keeps (x >>= f) := by
  intro a s' hx
  obtain ⟨b, hb, hf⟩ := Result.bind_eq_ok.mp hx
  exact h b hb a s' hf

theorem Keeps.raise {message : String} :
    s.Keeps (raiseValue message : Result (α × ResponsibilityStore)) := by
  intro a s' h
  exact absurd h (by simp [raiseValue])

theorem Keeps.unchanged {a : α} : s.Keeps (pure (a, s)) := by
  intro a' s' h
  rw [Result.pure_eq_ok, Prod.mk.injEq] at h
  exact .inl h.2.symm

theorem Keeps.map {x : Result (α × ResponsibilityStore)} {f : α → β} (h : s.Keeps x) :
    s.Keeps (x >>= fun p => pure (f p.1, p.2)) := by
  intro b s' hx
  obtain ⟨⟨a, s''⟩, hp, hf⟩ := Result.bind_eq_ok.mp hx
  rw [Result.pure_eq_ok, Prod.mk.injEq] at hf
  exact hf.2 ▸ h a s'' hp

theorem Keeps.save {v : ResponsibilityObject} (h : Inert v) : s.Keeps (s.saveAppendOnly v) := by
  intro w s' hsave
  rcases saveAppendOnly_cases hsave with rfl | ⟨hfresh, rfl⟩
  · exact .inl rfl
  · exact .inr ⟨v, h, hfresh, rfl⟩

theorem keeps_resolveExpectation {v : ResponsibilityExpectationResolution} :
    s.Keeps (s.resolveExpectation v) := by
  refine .bind (fun e _ => .bind fun _ _ => ?_)
  split
  · exact .save ⟨rfl, rfl⟩
  · split
    · exact .unchanged
    · exact .raise
  · exact .raise

theorem keeps_assessDueExpectation {ids : StableId} {id : String} {t clock : Time}
    {observed : List String} : s.Keeps (s.assessDueExpectation ids id t clock observed) := by
  refine .bind (fun e _ => .bind fun isOpen _ => ?_)
  split
  · exact .unchanged
  · refine .bind (fun d _ => .bind fun _ _ => .bind fun status _ => ?_)
    split
    · exact .unchanged
    · dsimp only
      split
      · exact .map (f := fun _ => none) keeps_resolveExpectation
      · split
        · exact .unchanged
        · split
          · exact .bind fun _ _ => .unchanged
          · exact .map (f := some) (.save ⟨rfl, rfl⟩)

theorem keeps_recordDomainAssessment {v : ResponsibilityAssessment} {t : Time} :
    s.Keeps (s.recordDomainAssessment v t) := by
  refine .bind (fun d _ => .bind fun _ _ => .bind fun _ _ => .bind fun _ _ => ?_)
  split
  · split
    · exact .unchanged
    · exact .raise
  · next hfresh =>
    intro w s' h
    rw [journalSave_of_none hfresh, Except.ok.injEq, Prod.mk.injEq] at h
    exact .inr ⟨.assessment v, ⟨rfl, rfl⟩, hfresh, h.2.symm⟩

theorem keeps_releaseReservation {v : ResourceReservationRelease} :
    s.Keeps (s.releaseReservation v) := by
  refine .bind (fun reservation _ => .bind fun _ _ => ?_)
  split
  · exact .save ⟨rfl, rfl⟩
  · split
    · exact .unchanged
    · exact .raise
  · exact .raise

theorem keeps_commit {c : Commitment} {t : Time} : s.Keeps (s.commit c t) := by
  intro w s' h
  exact Keeps.save (v := .commitment c) ⟨rfl, rfl⟩ w s' (admissible_of_commit h).2

end Keeps

theorem currentStatus_record_of_other {s : ResponsibilityStore} {v : ResponsibilityObject}
    {ref : String} {status : ResponsibilityStatus} (h : s.currentStatus ref = .ok status)
    (hfresh : s.journalGet v.id = none) (hother : transitionOf ref v = none) :
    (s.record v).currentStatus ref = .ok status := by
  have hregistered := registered_of_status h
  rw [currentStatus_of_registered (hregistered.record hfresh),
    transitions_record_of_other hregistered hfresh hother,
    ← currentStatus_of_registered hregistered, h]

/-- What can be read of any responsibility is read again, and says the same. -/
structure Steady (s s' : ResponsibilityStore) : Prop where
  status : ∀ {ref status}, s.currentStatus ref = .ok status → s'.currentStatus ref = .ok status
  definition : ∀ {ref d}, s.currentDefinition ref = .ok d → s'.currentDefinition ref = .ok d

theorem Steady.refl (s : ResponsibilityStore) : s.Steady s := ⟨id, id⟩

theorem Steady.trans {s s' s'' : ResponsibilityStore} (h : s.Steady s') (h' : s'.Steady s'') :
    s.Steady s'' :=
  ⟨fun hs => h'.status (h.status hs), fun hd => h'.definition (h.definition hd)⟩

theorem Inert.steady {s : ResponsibilityStore} {v : ResponsibilityObject} (h : Inert v)
    (hfresh : s.journalGet v.id = none) : s.Steady (s.record v) := by
  constructor
  · intro ref status hstatus
    exact currentStatus_record_of_other hstatus hfresh (by rw [transitionOf, h.2]; rfl)
  · intro ref d hd
    exact currentDefinition_record_of_other hd hfresh (by rw [revisionOf, h.1]; rfl)

theorem Keeps.steady {α : Type} {s s' : ResponsibilityStore}
    {x : Result (α × ResponsibilityStore)} (h : s.Keeps x) (hx : Prod.snd <$> x = .ok s') :
    s.Steady s' := by
  obtain ⟨⟨a, s''⟩, ha, rfl⟩ := Result.map_eq_ok.mp hx
  rcases h a s'' ha with rfl | ⟨v, hinert, hfresh, rfl⟩
  · exact .refl s''
  · exact hinert.steady hfresh

/-- A call that asks for no transition and no revision keeps every reading. -/
theorem steady_of_perform {ids : StableId} {s s' : ResponsibilityStore} {call : KernelCall}
    (h : call.perform ids s = .ok s') (htransition : ∀ t, call ≠ .transition t)
    (hrevise : ∀ r, call ≠ .revise r) : s.Steady s' := by
  cases call with
  | register identity admission =>
    obtain ⟨⟨w, s''⟩, hw, rfl⟩ := Result.map_eq_ok.mp h
    obtain ⟨-, hw⟩ := Result.check_eq_ok.mp hw
    obtain ⟨-, hw⟩ := Result.check_eq_ok.mp hw
    obtain ⟨-, hw⟩ := Result.check_eq_ok.mp hw
    obtain ⟨hnone, hw⟩ := Result.check_eq_ok.mp hw
    have hfresh : s.journalGet identity.id = none :=
      Option.isNone_iff_eq_none.mp (guardValue_eq_ok.mp hnone)
    obtain ⟨⟨saved, s₁⟩, hsaved, hw⟩ := Result.bind_eq_ok.mp hw
    rw [journalSave_of_none (v := .responsibility identity) hfresh, Except.ok.injEq,
      Prod.mk.injEq] at hsaved
    obtain ⟨-, rfl⟩ := hsaved
    obtain ⟨⟨saved', s₂⟩, hsaved', hw⟩ := Result.bind_eq_ok.mp hw
    rw [Result.pure_eq_ok, Prod.mk.injEq] at hw
    obtain ⟨-, rfl⟩ := hw
    have hidentity : s.Steady (s.record (.responsibility identity)) :=
      Inert.steady ⟨rfl, rfl⟩ hfresh
    refine hidentity.trans ?_
    have hkeeps : (s.record (.responsibility identity)).Keeps
        ((s.record (.responsibility identity)).saveAppendOnly (.admission admission)) :=
      .save ⟨rfl, rfl⟩
    exact hkeeps.steady (Result.map_eq_ok.mpr ⟨_, hsaved', rfl⟩)
  | revise r => exact absurd rfl (hrevise r)
  | transition t => exact absurd rfl (htransition t)
  | createExpectation v =>
    exact Keeps.steady (.bind fun _ _ => .bind fun _ _ => .bind fun _ _ => .save ⟨rfl, rfl⟩) h
  | resolveExpectation v => exact keeps_resolveExpectation.steady h
  | assessDueExpectation id now clock observed => exact keeps_assessDueExpectation.steady h
  | recordDomainAssessment v now => exact keeps_recordDomainAssessment.steady h
  | propose v now =>
    refine Keeps.steady (.bind fun _ _ => .bind fun _ _ => .bind fun _ _ => .bind fun _ _ => ?_) h
    exact .bind fun _ _ => .bind fun _ _ => .bind fun _ _ => .bind fun _ _ => .save ⟨rfl, rfl⟩
  | recordPriorityJudgment v =>
    exact Keeps.steady (.bind fun _ _ => .bind fun _ _ => .save ⟨rfl, rfl⟩) h
  | createResourcePool v => exact Keeps.steady (.bind fun _ _ => .save ⟨rfl, rfl⟩) h
  | recordPortfolioAdmission v =>
    refine Keeps.steady (.bind fun _ _ => .bind fun _ _ => ?_) h
    exact .bind fun _ _ => .bind fun _ _ => .save ⟨rfl, rfl⟩
  | reserve v now =>
    refine Keeps.steady (.bind fun _ _ => .bind fun _ _ => ?_) h
    exact .bind fun _ _ => .bind fun _ _ => .bind fun _ _ => .save ⟨rfl, rfl⟩
  | releaseReservation v => exact keeps_releaseReservation.steady h
  | commit v now => exact keeps_commit.steady h
  | materializeWork commitmentId clock gate =>
    obtain ⟨⟨work, s''⟩, hwork, rfl⟩ := Result.map_eq_ok.mp h
    obtain ⟨c, proposal, -, -, ⟨rfl, -⟩ | ⟨-, -, rfl⟩⟩ := materializeWork_cases hwork
    · exact .refl s''
    · exact ⟨id, id⟩
  | bindReasoningSession v =>
    exact Keeps.steady (.bind fun _ _ => .bind fun _ _ => .save ⟨rfl, rfl⟩) h
  | createContextSnapshot id refs clock =>
    exact Keeps.steady (.bind fun _ _ => .bind fun _ _ => .save ⟨rfl, rfl⟩) h
  | handoff v =>
    refine Keeps.steady (.bind fun _ _ => .bind fun _ _ => .bind fun _ _ => ?_) h
    exact .bind fun _ _ => .bind fun _ _ => .bind fun _ _ => .save ⟨rfl, rfl⟩
  | validateHandoff id now clock =>
    refine Keeps.steady (.bind fun _ _ => .bind fun _ _ => .bind fun _ _ => .bind fun _ _ => ?_) h
    exact .bind fun _ _ => .bind fun _ _ => .bind fun _ _ => .bind fun _ _ => .save ⟨rfl, rfl⟩

/-! ## Runs -/

/-- What the log says last of a responsibility is what can be read of it. -/
def Current (log : List KernelCall) (s : ResponsibilityStore) : Prop :=
  ∀ ref, (∀ t ∈ lastTransition ref log, s.currentStatus ref = .ok t.toStatus) ∧
    ∀ r ∈ lastRevision ref log, s.currentDefinition ref = .ok r.definition

section Log

variable {log : List KernelCall} {call : KernelCall} {ref : String}

theorem lastTransition_append_of_none (h : call.transitionOf ref = none) :
    lastTransition ref (log ++ [call]) = lastTransition ref log := by
  simp [lastTransition, List.filterMap_append, h]

theorem lastTransition_append_of_some {t : ResponsibilityLifecycleTransition}
    (h : call.transitionOf ref = some t) : lastTransition ref (log ++ [call]) = some t := by
  simp [lastTransition, List.filterMap_append, h]

theorem lastRevision_append_of_none (h : call.revisionOf ref = none) :
    lastRevision ref (log ++ [call]) = lastRevision ref log := by
  simp [lastRevision, List.filterMap_append, h]

theorem lastRevision_append_of_some {r : ResponsibilityRevision}
    (h : call.revisionOf ref = some r) : lastRevision ref (log ++ [call]) = some r := by
  simp [lastRevision, List.filterMap_append, h]

end Log

section Accepted

variable {ids : StableId} {s : ResponsibilityStore}

theorem accepted?_eq_some {call : KernelCall} :
    (call.accepted? ids s).isSome = true ↔ ∃ s', call.perform ids s = .ok s' := by
  unfold KernelCall.accepted?
  cases hperform : call.perform ids s with
  | ok s' => simp [Except.isOk, Except.toBool]
  | error e => simp [Except.isOk, Except.toBool]

theorem accepted?_of_ok {call : KernelCall} {s' : ResponsibilityStore}
    (h : call.perform ids s = .ok s') :
    call.accepted? ids s = some call ∧ call.step ids s = s' := by
  constructor
  · simp [KernelCall.accepted?, h, Except.isOk, Except.toBool]
  · simp [KernelCall.step, h]

theorem accepted?_of_error {call : KernelCall} {e : PyError} (h : call.perform ids s = .error e) :
    call.accepted? ids s = none ∧ call.step ids s = s := by
  constructor
  · simp [KernelCall.accepted?, h, Except.isOk, Except.toBool]
  · simp [KernelCall.step, h]

/-- An accepted transition leads to its end exactly when it is the latest one. -/
theorem status_after_transition {t : ResponsibilityLifecycleTransition} (h : s.Passes t) :
    (KernelCall.step ids s (.transition t)).currentStatus t.responsibilityRef = .ok t.toStatus ↔
      s.Latest t := by
  have hperform {w : ResponsibilityObject} {s' : ResponsibilityStore}
      (hsave : s.saveAppendOnly (.transition t) = .ok (w, s')) :
      KernelCall.perform ids s (.transition t) = .ok s' :=
    Result.map_eq_ok.mpr ⟨_, transition_eq_ok.mpr ⟨⟨h.version, h.status⟩, hsave⟩, rfl⟩
  cases hget : s.journalGet t.id with
  | none =>
    have hsave := saveAppendOnly_of_none (v := .transition t) hget
    rw [(accepted?_of_ok (hperform hsave)).2, currentStatus_record_transition hget h.status]
    exact ⟨fun hlast => ⟨hget, hlast.1⟩, fun hlatest => ⟨hlatest.last, rfl⟩⟩
  | some v =>
    -- The transition is found, and the status stays where it starts.
    have hsave : s.saveAppendOnly (.transition t) = .ok (v, s) :=
      (saveAppendOnly_of_some (v := .transition t) hget).mpr ⟨h.free v hget, rfl, rfl⟩
    rw [(accepted?_of_ok (hperform hsave)).2, h.status]
    refine iff_of_false (fun hsame => t.changes (Except.ok.inj hsame)) (fun hlatest => ?_)
    rw [hlatest.fresh] at hget
    exact absurd hget (by simp)

/-- A transition that is accepted keeps every definition, and every other status. -/
theorem transition_keeps {t : ResponsibilityLifecycleTransition} {s' : ResponsibilityStore}
    (h : KernelCall.perform ids s (.transition t) = .ok s') :
    (∀ ref d, s.currentDefinition ref = .ok d → s'.currentDefinition ref = .ok d) ∧
    ∀ ref status, ref ≠ t.responsibilityRef → s.currentStatus ref = .ok status →
      s'.currentStatus ref = .ok status := by
  obtain ⟨⟨w, s''⟩, hw, rfl⟩ := Result.map_eq_ok.mp h
  rcases saveAppendOnly_cases (transition_eq_ok.mp hw).2 with rfl | ⟨hfresh, rfl⟩
  · exact ⟨fun _ _ hd => hd, fun _ _ _ hstatus => hstatus⟩
  · refine ⟨fun ref d hd => currentDefinition_record_of_other hd hfresh rfl, ?_⟩
    intro ref status hne hstatus
    refine currentStatus_record_of_other hstatus hfresh ?_
    simp [transitionOf, ResponsibilityObject.asTransition, Option.filter_some, hne.symm]

/-- A revision that is accepted keeps every status, and every other definition. -/
theorem revise_keeps {r : ResponsibilityRevision} {s' : ResponsibilityStore}
    (h : KernelCall.perform ids s (.revise r) = .ok s') :
    s'.currentDefinition r.responsibilityRef = .ok r.definition ∧
    (∀ ref status, s.currentStatus ref = .ok status → s'.currentStatus ref = .ok status) ∧
    ∀ ref d, ref ≠ r.responsibilityRef → s.currentDefinition ref = .ok d →
      s'.currentDefinition ref = .ok d := by
  obtain ⟨⟨w, s''⟩, hw, rfl⟩ := Result.map_eq_ok.mp h
  obtain ⟨hrevises, hfresh, rfl⟩ := revise_eq_ok hw
  refine ⟨currentDefinition_record_revision hrevises hfresh, ?_, ?_⟩
  · intro ref status hstatus
    exact currentStatus_record_of_other hstatus hfresh rfl
  · intro ref d hne hd
    refine currentDefinition_record_of_other hd hfresh ?_
    simp [revisionOf, ResponsibilityObject.asRevision, Option.filter_some, hne.symm]

/-- A step that records transitions in order keeps the readings at what was accepted last. -/
theorem Current.step {log : List KernelCall} {call : KernelCall} (h : Current log s)
    (horder : s.InOrder call) :
    Current (log ++ (call.accepted? ids s).toList) (call.step ids s) := by
  cases hperform : call.perform ids s with
  | error e =>
    obtain ⟨haccepted, hstep⟩ := accepted?_of_error hperform
    rw [haccepted, hstep, Option.toList_none, List.append_nil]
    exact h
  | ok s' =>
    obtain ⟨haccepted, hstep⟩ := accepted?_of_ok hperform
    rw [haccepted, Option.toList_some]
    intro ref
    obtain ⟨hstatus, hdefinition⟩ := h ref
    by_cases htransition : ∃ t, call = .transition t
    · obtain ⟨t, rfl⟩ := htransition
      obtain ⟨hdefinitions, hstatuses⟩ := transition_keeps hperform
      rw [lastRevision_append_of_none rfl]
      refine ⟨?_, fun r hr => hstep ▸ hdefinitions ref _ (hdefinition r hr)⟩
      by_cases href : t.responsibilityRef = ref
      · have hof : KernelCall.transitionOf ref (.transition t) = some t := if_pos href
        rw [lastTransition_append_of_some hof]
        rintro t' ⟨⟩
        obtain ⟨⟨w, s''⟩, hw, -⟩ := Result.map_eq_ok.mp hperform
        have hpasses : s.Passes t := exists_transition_iff.mp ⟨w, s'', hw⟩
        exact href ▸ (status_after_transition hpasses).mpr (horder hpasses)
      · have hof : KernelCall.transitionOf ref (.transition t) = none := if_neg href
        rw [lastTransition_append_of_none hof, hstep]
        exact fun t' ht' => hstatuses ref _ (Ne.symm href) (hstatus t' ht')
    by_cases hrevise : ∃ r, call = .revise r
    · obtain ⟨r, rfl⟩ := hrevise
      obtain ⟨hrevised, hstatuses, hdefinitions⟩ := revise_keeps hperform
      rw [lastTransition_append_of_none rfl, hstep]
      refine ⟨fun t ht => hstatuses ref _ (hstatus t ht), ?_⟩
      by_cases href : r.responsibilityRef = ref
      · have hof : KernelCall.revisionOf ref (.revise r) = some r := if_pos href
        rw [lastRevision_append_of_some hof]
        rintro r' ⟨⟩
        exact href ▸ hrevised
      · have hof : KernelCall.revisionOf ref (.revise r) = none := if_neg href
        rw [lastRevision_append_of_none hof]
        exact fun r' hr' => hdefinitions ref _ (Ne.symm href) (hdefinition r' hr')
    · have hsteady : s.Steady s' := steady_of_perform hperform
        (fun t ht => htransition ⟨t, ht⟩) (fun r hr => hrevise ⟨r, hr⟩)
      rw [hstep, lastTransition_append_of_none, lastRevision_append_of_none]
      · exact ⟨fun t ht => hsteady.status (hstatus t ht),
          fun r hr => hsteady.definition (hdefinition r hr)⟩
      · cases call with
        | revise r => exact absurd ⟨r, rfl⟩ hrevise
        | _ => rfl
      · cases call with
        | transition t => exact absurd ⟨t, rfl⟩ htransition
        | _ => rfl

end Accepted

theorem current_of_along {ids : StableId} {calls : List KernelCall}
    (h : Along (KernelCall.step ids) InOrder empty calls) :
    Current (KernelCall.accepted ids calls) (run (KernelCall.step ids) empty calls) := by
  have hstart : Current [] empty :=
    fun ref => ⟨fun t ht => absurd ht (by simp [lastTransition]),
      fun r hr => absurd hr (by simp [lastRevision])⟩
  have hrun : Current ([] ++ emitted (KernelCall.step ids) (KernelCall.accepted? ids) empty calls)
      (run (KernelCall.step ids) empty calls) :=
    emitted_invariant_along (fun log s call => Current.step) hstart h
  rwa [List.nil_append] at hrun

theorem accepted_append {ids : StableId} {pre : List KernelCall} {call : KernelCall}
    (h : (KernelCall.accepted? ids (run (KernelCall.step ids) empty pre) call).isSome = true) :
    KernelCall.accepted ids (pre ++ [call]) = KernelCall.accepted ids pre ++ [call] := by
  obtain ⟨s', hperform⟩ := accepted?_eq_some.mp h
  rw [KernelCall.accepted, emitted_append, emitted, (accepted?_of_ok hperform).1]
  rfl

/-- The journal reads back what was accepted last, after every accepted transition and
revision, in exactly the runs that record the transitions in order. -/
theorem lifecycle_contiguous_iff (ids : StableId) (calls : List KernelCall) :
    Contiguous ids calls ↔ Along (KernelCall.step ids) InOrder empty calls := by
  constructor
  · intro h
    rw [along_iff_forall_step]
    intro pre call hpre
    cases call with
    | transition t =>
      intro hpasses
      obtain ⟨w, s', hw⟩ := exists_transition_iff.mpr hpasses
      have hperform : KernelCall.perform ids (run (KernelCall.step ids) empty pre)
          (.transition t) = .ok s' := Result.map_eq_ok.mpr ⟨(w, s'), hw, rfl⟩
      have haccepted := accepted?_eq_some.mpr ⟨s', hperform⟩
      have hof : KernelCall.transitionOf t.responsibilityRef (.transition t) = some t := if_pos rfl
      obtain ⟨⟨status, hstatus, hlast⟩, -⟩ :=
        h pre _ hpre haccepted t.responsibilityRef (.inl (by rw [hof]; rfl))
      rw [accepted_append haccepted, lastTransition_append_of_some hof] at hlast
      rw [hlast t rfl, run_append, run_cons, run_nil] at hstatus
      exact (status_after_transition hpasses).mp hstatus
    | _ => exact trivial
  · intro h pre call hpre haccepted ref hof
    have halong : Along (KernelCall.step ids) InOrder empty (pre ++ [call]) := by
      obtain ⟨rest, rfl⟩ := hpre
      exact (along_append.mp h).1
    obtain ⟨hstatus, hdefinition⟩ := current_of_along halong ref
    obtain ⟨s', hperform⟩ := accepted?_eq_some.mp haccepted
    have hstep := (accepted?_of_ok hperform).2
    rw [accepted_append haccepted] at hstatus hdefinition ⊢
    rw [run_append, run_cons, run_nil] at hstatus hdefinition ⊢
    cases call with
    | transition t =>
      have href : t.responsibilityRef = ref := by
        by_contra hne
        rcases hof with hof | hof
        · exact absurd hof (by simp [KernelCall.transitionOf, hne])
        · exact absurd hof (by simp [KernelCall.revisionOf])
      have hlast : lastTransition ref (KernelCall.accepted ids pre ++ [.transition t]) = some t :=
        lastTransition_append_of_some (if_pos href)
      obtain ⟨⟨w, s''⟩, hw, -⟩ := Result.map_eq_ok.mp hperform
      obtain ⟨⟨⟨d, hd, -⟩, -⟩, -⟩ := transition_eq_ok.mp hw
      have hd' := (transition_keeps hperform).1 ref d (href ▸ hd)
      refine ⟨⟨t.toStatus, hstatus t hlast, ?_⟩, ⟨d, hstep ▸ hd', ?_⟩⟩
      · intro t' ht'
        rw [Option.some.inj (hlast.symm.trans ht')]
      · intro r hr
        have hread := hdefinition r hr
        rw [hstep, hd'] at hread
        exact Except.ok.inj hread
    | revise r =>
      have href : r.responsibilityRef = ref := by
        by_contra hne
        rcases hof with hof | hof
        · exact absurd hof (by simp [KernelCall.transitionOf])
        · exact absurd hof (by simp [KernelCall.revisionOf, hne])
      have hlast : lastRevision ref (KernelCall.accepted ids pre ++ [.revise r]) = some r :=
        lastRevision_append_of_some (if_pos href)
      obtain ⟨⟨w, s''⟩, hw, -⟩ := Result.map_eq_ok.mp hperform
      obtain ⟨⟨-, status, hs⟩, -, -⟩ := revise_eq_ok hw
      have hs' := (revise_keeps hperform).2.1 ref status (href ▸ hs)
      refine ⟨⟨status, hstep ▸ hs', ?_⟩, ⟨r.definition, hdefinition r hlast, ?_⟩⟩
      · intro t ht
        have hread := hstatus t ht
        rw [hstep, hs'] at hread
        exact Except.ok.inj hread
      · intro r' hr'
        rw [Option.some.inj (hlast.symm.trans hr')]
    | _ =>
      rcases hof with hof | hof
      · exact absurd hof (by simp [KernelCall.transitionOf])
      · exact absurd hof (by simp [KernelCall.revisionOf])

end ResponsibilityStore

namespace Listing

/-- A resumption that the caller dates before the suspension it ends. -/
def backdated : ResponsibilityLifecycleTransition :=
  { id := "resumption", createdAt := 8, responsibilityRef := "sr_listing",
    responsibilityVersion := 1, fromStatus := .suspended, toStatus := .active, appliedAt := 5 }

end Listing

namespace ResponsibilityStore

/-- The resumption is accepted, and leaves a history that cannot be read. -/
theorem lifecycle_broken_listing :
    ¬ Contiguous Listing.ids [.register Listing.identity Listing.admission,
      .transition Listing.suspension, .transition Listing.backdated] := by
  intro h
  obtain ⟨⟨status, hstatus, -⟩, -⟩ :=
    h [.register Listing.identity Listing.admission, .transition Listing.suspension]
      (.transition Listing.backdated) (List.prefix_refl _) (by decide) "sr_listing"
      (.inl (by decide))
  have hunreadable : ((run (KernelCall.step Listing.ids) empty
      [.register Listing.identity Listing.admission, .transition Listing.suspension,
        .transition Listing.backdated]).currentStatus "sr_listing").isOk = false := by
    decide
  rw [List.cons_append, List.cons_append, List.nil_append] at hstatus
  rw [hstatus] at hunreadable
  exact Bool.noConfusion hunreadable

end ResponsibilityStore
end PortableRuntime
