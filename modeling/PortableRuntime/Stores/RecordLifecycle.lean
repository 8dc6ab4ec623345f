import Mathlib.Logic.Relation
import PortableRuntime.Stores.RecordLineage

/-!
# Lifecycle of a record

A save checks its transition from the predecessor status that the record's own metadata
names, and not from the status that is stored.  When the two agree, the statuses of a
history follow the machine of the record's type.
-/

namespace PortableRuntime

/-- One transition the machine of a type allows, or none at all. -/
def LifecycleStep (recordType : RecordType) (a b : LifecycleStatus) : Prop :=
  isValidLifecycleTransition recordType a.text b.text = true

namespace MemoryStore
namespace RecordSave

variable {c c' : RecordSave}

/-- The stored status goes to the saved one along an edge of the type's machine. -/
def Conforms (c : RecordSave) : Prop :=
  ∀ old ∈ c.stored, old.recordType = c.value.recordType →
    LifecycleStep c.value.recordType old.lifecycleStatus c.value.lifecycleStatus

/-- A save that changes the status names the stored status as its predecessor. -/
def NamesPredecessor (c : RecordSave) : Prop :=
  ∀ old ∈ c.stored, old.recordType = c.value.recordType →
    old.lifecycleStatus = c.value.lifecycleStatus ∨
      previousLifecycle c.value = some old.lifecycleStatus.text

theorem claimedTransition_eq_none (c : RecordSave) : claimedTransition c.value = none := by
  have hwrite := c.validateRecordWrite_eq_nil
  simp only [validateRecordWrite, List.append_eq_nil_iff] at hwrite
  simpa using hwrite.1.2

/-- An accepted save has made the transition its metadata claims. -/
theorem step_of_previousLifecycle {previous : LifecycleStatus}
    (h : previousLifecycle c.value = some previous.text) :
    LifecycleStep c.value.recordType previous c.value.lifecycleStatus := by
  have hclaim := c.claimedTransition_eq_none
  rw [claimedTransition, h, Option.bind_some, validateLifecycleTransition_eq_none] at hclaim
  exact hclaim

theorem conforms_of_namesPredecessor (h : c.NamesPredecessor) : c.Conforms := by
  intro old hold htype
  rcases h old hold htype with heq | hprevious
  · rw [LifecycleStep, heq]
    exact isValidLifecycleTransition_self _ _
  · exact step_of_previousLifecycle hprevious

end RecordSave

open RecordSave

/-- Along a conforming history of one type the statuses follow the machine. -/
theorem History.lifecycle_path {saves : List RecordSave} (h : History saves)
    (hconf : ∀ c ∈ saves, c.Conforms) {recordType : RecordType}
    (htype : ∀ c ∈ saves, c.value.recordType = recordType) :
    saves.Pairwise (fun c c' => Relation.ReflTransGen (LifecycleStep recordType)
      c.value.lifecycleStatus c'.value.lifecycleStatus) := by
  let R (c c' : RecordSave) : Prop := Relation.ReflTransGen (LifecycleStep recordType)
    c.value.lifecycleStatus c'.value.lifecycleStatus
  have : Trans R R R := ⟨fun hab hbc => hab.trans hbc⟩
  have hchain : saves.IsChain R := by
    refine List.IsChain.imp_of_mem_imp (fun c c' hc hc' hfollows => ?_) h
    have hstep := hconf c' hc' c.value hfollows ((htype c hc).trans (htype c' hc').symm)
    rw [htype c' hc'] at hstep
    exact .single hstep
  exact List.isChain_iff_pairwise.mp hchain

/-- When every save that changes the status names the stored status, each save takes an
edge of the type's machine or keeps the status, and the statuses of the whole history
follow the machine. -/
theorem lifecycle_conforms (saves : List RecordSave) (h : History saves)
    (hnamed : ∀ c ∈ saves, c.NamesPredecessor) :
    (∀ c ∈ saves, c.Conforms) ∧
      ∀ recordType, (∀ c ∈ saves, c.value.recordType = recordType) →
        saves.Pairwise (fun c c' => Relation.ReflTransGen (LifecycleStep recordType)
          c.value.lifecycleStatus c'.value.lifecycleStatus) := by
  have hconf : ∀ c ∈ saves, c.Conforms := fun c hc => conforms_of_namesPredecessor (hnamed c hc)
  exact ⟨hconf, fun _ htype => h.lifecycle_path hconf htype⟩

/-! ## Leaving the archive -/

/-- An assertion of some status, which names a predecessor status when it has one. -/
def assertionRecord (status : LifecycleStatus) (previous : Option LifecycleStatus)
    (h : validateOrthogonal .assertion (some .unverified) status = true := by decide) :
    BaseRecord :=
  { cls := .assertion, id := "record_2", recordType := .assertion, createdAt := 0,
    lifecycleStatus := status, epistemicStatus := some .unverified, version := 2,
    metadata := previous.elim [] (fun p => [("previous_lifecycle_status", .str p.text)]),
    fields := [("kind", .str "claim"), ("statement", .str "")], orthogonal := h }

def makeCurrent : RecordSave :=
  { store := empty, now := 0, value := assertionRecord .current (some .current),
    accepted := by decide, addressed := rfl }

def supersede : RecordSave :=
  { store := empty.save .record makeCurrent.value, now := 0,
    value := assertionRecord .superseded (some .current),
    accepted := by decide, addressed := rfl }

def archiveSilently : RecordSave :=
  { store := empty, now := 0, value := assertionRecord .archived none,
    accepted := by decide, addressed := rfl }

def makeCurrentSilently : RecordSave :=
  { store := empty.save .record archiveSilently.value, now := 0,
    value := assertionRecord .current none, accepted := by decide, addressed := rfl }

theorem lifecycle_conforms_supersede :
    (∀ c ∈ [makeCurrent, supersede], c.Conforms) ∧
      ∀ recordType, (∀ c ∈ [makeCurrent, supersede], c.value.recordType = recordType) →
        [makeCurrent, supersede].Pairwise
          (fun c c' => Relation.ReflTransGen (LifecycleStep recordType)
            c.value.lifecycleStatus c'.value.lifecycleStatus) := by
  refine lifecycle_conforms [makeCurrent, supersede] (.cons_cons rfl (.singleton _)) ?_
  intro c hc old hold _
  rcases List.mem_cons.mp hc with rfl | hc
  · exact absurd hold (by simp [show makeCurrent.stored = none from rfl])
  · obtain rfl := List.mem_singleton.mp hc
    obtain rfl : makeCurrent.value = old := Option.some.inj hold
    exact .inr rfl

/-- A record in the archive becomes current again when its metadata is silent. -/
theorem makeCurrentSilently_leaves_archive :
    ¬ ∀ saves : List RecordSave, History saves → ∀ c ∈ saves, c.Conforms := by
  intro h
  have hconf := h [archiveSilently, makeCurrentSilently] (.cons_cons rfl (.singleton _))
    makeCurrentSilently (by simp) archiveSilently.value rfl rfl
  exact absurd hconf (by unfold LifecycleStep; decide)

end MemoryStore
end PortableRuntime
