import Mathlib.Data.List.Chain
import PortableRuntime.Stores.Calls

/-!
# Version lineage of a record

A history is a list of accepted saves of one record, each of which finds stored what the
one before it saved.  A save that changes the content advances the version, but a save
that keeps the content may lower it, and then a use that was consumed once can be
consumed again.  `versionLineage_iff` says that this is the only way.
-/

namespace PortableRuntime
namespace MemoryStore

/-- An accepted save of a record, over what is stored under its identity. -/
structure RecordSave where
  store : MemoryStore
  now : Time
  value : BaseRecord
  accepted : (store.saveRecord now value).isOk = true
  addressed : (store.getRecord value.id).all (fun old => old.id == value.id) = true

namespace RecordSave

variable {c c' : RecordSave}

def stored (c : RecordSave) : Option BaseRecord := c.store.getRecord c.value.id

/-- The content: every field but the creation time, the lifecycle status and the version. -/
def ChangesContent (c : RecordSave) (old : BaseRecord) : Prop :=
  old.content.pyEq c.value.content = false

def VersionKept (c : RecordSave) : Prop := ∀ old ∈ c.stored, old.version ≤ c.value.version

/-- The save changes the content from version `n`, naming `use` as its authority. -/
def Consumes (use : AuthorizationUse) (n : Int) (c : RecordSave) : Prop :=
  ∃ old ∈ c.stored, old.version = n ∧ c.ChangesContent old ∧
    c.value.metadata.get "authorization_use_ref" = .str use.id

/-- The save does not put the stored content back under a smaller version. -/
def NoVersionRollback (c : RecordSave) : Prop :=
  ∀ old ∈ c.stored, ¬ c.ChangesContent old → old.version ≤ c.value.version

/-- The later save finds stored what the earlier one saved. -/
def Follows (c c' : RecordSave) : Prop := c'.stored = some c.value

theorem validateRecordWrite_eq_nil (c : RecordSave) : validateRecordWrite c.value c.stored = [] := by
  have h := c.accepted
  cases hsave : c.store.saveRecord c.now c.value with
  | error e => simp [hsave, Except.isOk, Except.toBool] at h
  | ok st' => exact (validateRecordWriteSemantics_eq_ok.mp (saveRecord_eq_ok.mp hsave).1).1

/-- An accepted change of content advances the version. -/
theorem version_lt_of_changesContent {old : BaseRecord} (hold : old ∈ c.stored)
    (hchange : c.ChangesContent old) : old.version < c.value.version := by
  have hwrite := c.validateRecordWrite_eq_nil
  have hid : old.id = c.value.id := by
    have := c.addressed
    rw [show c.store.getRecord c.value.id = some old from hold] at this
    simpa using this
  rw [show c.stored = some old from hold] at hwrite
  simp only [validateRecordWrite, hid, List.append_eq_nil_iff, true_and] at hwrite
  by_contra hle
  have hchange' : old.content.pyEq c.value.content = false := hchange
  simp [hchange', Int.not_lt.mp hle] at hwrite

theorem versionKept_iff : c.VersionKept ↔ c.NoVersionRollback := by
  constructor
  · exact fun h old hold _ => h old hold
  · intro h old hold
    by_cases hchange : c.ChangesContent old
    · exact le_of_lt (version_lt_of_changesContent hold hchange)
    · exact h old hold hchange

end RecordSave

open RecordSave

def History (saves : List RecordSave) : Prop := saves.IsChain Follows

/-- What an earlier save of a history leaves bounds from below what a later one finds. -/
theorem History.version_le {saves : List RecordSave} (h : History saves)
    (hkept : ∀ c ∈ saves, c.VersionKept) :
    saves.Pairwise (fun c c' => ∃ old ∈ c'.stored, c.value.version ≤ old.version) := by
  -- A save that keeps its version passes the bound on to every later one.
  let R (c c' : RecordSave) : Prop :=
    c'.VersionKept ∧ ∃ old ∈ c'.stored, c.value.version ≤ old.version
  have : Trans R R R := ⟨by
    rintro a b c ⟨hb, oldb, holdb, hab⟩ ⟨hc, oldc, holdc, hbc⟩
    exact ⟨hc, oldc, holdc, hab.trans ((hb oldb holdb).trans hbc)⟩⟩
  have hchain : saves.IsChain R := List.IsChain.imp_of_mem_imp
    (fun c c' _ hc' hfollows => ⟨hkept c' hc', c.value, hfollows, le_refl _⟩) h
  exact (List.isChain_iff_pairwise.mp hchain).imp (fun hR => hR.2)

/-- In a history the versions never decrease and no use changes the content from one
version twice, if and only if no save puts the stored content back under a smaller
version. -/
theorem versionLineage_iff (saves : List RecordSave) (h : History saves) :
    ((∀ c ∈ saves, c.VersionKept) ∧ ∀ use n, saves.Pairwise
        (fun c c' => ¬ (c.Consumes use n ∧ c'.Consumes use n))) ↔
      ∀ c ∈ saves, c.NoVersionRollback := by
  constructor
  · exact fun hkept c hc => versionKept_iff.mp (hkept.1 c hc)
  · intro hno
    have hkept : ∀ c ∈ saves, c.VersionKept := fun c hc => versionKept_iff.mpr (hno c hc)
    refine ⟨hkept, fun use n => (h.version_le hkept).imp ?_⟩
    rintro c c' ⟨stored', hstored', hle⟩ ⟨⟨old, hold, rfl, hchange, -⟩, ⟨old', hold', hn, -, -⟩⟩
    obtain rfl : stored' = old' := Option.some.inj (hstored'.symm.trans hold')
    have := version_lt_of_changesContent hold hchange
    omega

/-! ## A use consumed twice -/

def writeGrant : AuthorizationGrant :=
  { id := "authz_1", createdAt := 0, principalRef := "owner", granteeRef := "worker",
    allowedCapabilities := ["record.write"], validFrom := 0, subjectVersionRefs := ["record_1:v1"] }

def writeUse : AuthorizationUse :=
  { id := "authuse_1", createdAt := 1, authorizationRef := "authz_1", capability := "record.write",
    actorRef := "worker", resourceRef := "record_1", effectClass := .writeLocal,
    subjectVersionRefs := ["record_1:v1"], authorizedAt := 1 }

/-- A goal of some version and direction, written under the use when it has one. -/
def goalRecord (version : Int) (direction : String) (useRef : Option String) : BaseRecord :=
  { cls := .goal, id := "record_1", recordType := .goal, createdAt := 0,
    lifecycleStatus := .proposed, version,
    metadata := useRef.elim [] (fun ref => [("authorization_use_ref", .str ref)]),
    fields := [("direction", .str direction), ("completion_criteria", .arr []),
      ("claimed_by", .null), ("source", .null)] }

/-- The store that holds the grant, the use and a version of the goal. -/
def goalStore (stored : Option BaseRecord) : MemoryStore :=
  let st := (empty.save .authorization writeGrant).save .authorizationUse writeUse
  stored.elim st (st.save .record)

def createGoal : RecordSave :=
  { store := goalStore none, now := 2, value := goalRecord 1 "north" none,
    accepted := rfl, addressed := rfl }

def turnGoal : RecordSave :=
  { store := goalStore createGoal.value, now := 2, value := goalRecord 2 "east" "authuse_1",
    accepted := rfl, addressed := rfl }

def lowerGoal : RecordSave :=
  { store := goalStore turnGoal.value, now := 2, value := goalRecord 1 "east" "authuse_1",
    accepted := rfl, addressed := rfl }

def turnGoalAgain : RecordSave :=
  { store := goalStore lowerGoal.value, now := 2, value := goalRecord 2 "south" "authuse_1",
    accepted := rfl, addressed := rfl }

/-- Created and changed once: the lineage is kept. -/
theorem versionLineage_createGoal :
    (∀ c ∈ [createGoal, turnGoal], c.VersionKept) ∧ ∀ use n,
      [createGoal, turnGoal].Pairwise (fun c c' => ¬ (c.Consumes use n ∧ c'.Consumes use n)) := by
  refine (versionLineage_iff [createGoal, turnGoal] (.cons_cons rfl (.singleton _))).mpr ?_
  intro c hc old hold _
  rcases List.mem_cons.mp hc with rfl | hc
  · exact absurd hold (by simp [show createGoal.stored = none from rfl])
  · obtain rfl := List.mem_singleton.mp hc
    obtain rfl : createGoal.value = old := Option.some.inj hold
    decide

/-- A version-only save lowers the version, and the use that consumed version 1 consumes
it again. -/
theorem lowerGoal_reuses_authority :
    ¬ ∀ saves : List RecordSave, History saves →
      (∀ c ∈ saves, c.VersionKept) ∧ ∀ use n, saves.Pairwise
        (fun c c' => ¬ (c.Consumes use n ∧ c'.Consumes use n)) := by
  intro h
  have hsaves := (h [createGoal, turnGoal, lowerGoal, turnGoalAgain]
    (.cons_cons rfl (.cons_cons rfl (.cons_cons rfl (.singleton _))))).2 writeUse 1
  have hfirst : turnGoal.Consumes writeUse 1 := ⟨createGoal.value, rfl, rfl, rfl, rfl⟩
  have hagain : turnGoalAgain.Consumes writeUse 1 := ⟨lowerGoal.value, rfl, rfl, rfl, rfl⟩
  simp only [List.pairwise_cons, List.mem_cons] at hsaves
  exact hsaves.2.1 turnGoalAgain (by simp) ⟨hfirst, hagain⟩

end MemoryStore
end PortableRuntime
