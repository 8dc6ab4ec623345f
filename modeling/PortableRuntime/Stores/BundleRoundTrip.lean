import PortableRuntime.Stores.BundleImport

/-!
# Exporting a bundle and importing it into an empty target

What the round trip needs of a store is stated once and shown of both.  Each rewritten
artifact is the one that was exported with another URI, whenever the rewriting stops.
-/

namespace PortableRuntime

/-! ## What is asked of a store -/

/-- The artifact under the identity of `v` is `v` now. -/
def replaceArtifact (v a : Artifact) : Artifact := if a.id = v.id then v else a

theorem values_set_artifact {d : Dict String Artifact} {a v : Artifact}
    (hkeyed : ∀ id b, d.get? id = some b → b.id = id) (h : d.get? v.id = some a) :
    (d.set v.id v).values = d.values.map (replaceArtifact v) := by
  rw [Dict.values, Dict.values, Dict.entries_set_of_get? h, List.map_map, List.map_map]
  refine List.map_congr_left (fun e he => ?_)
  have hkey := hkeyed e.1 e.2 (Dict.get?_eq_some.mpr he)
  show (if e.1 = v.id then (v.id, v) else e).2 = if e.2.id = v.id then v else e.2
  rw [hkey]
  split_ifs <;> rfl

/-- An empty store takes what is importable and then holds it; a saved artifact stands where
the one under its identity stood. -/
structure StateStore.Lawful {σ : Type} (T : StateStore σ) (empty : σ) (digest : Json → String)
    (now : Time) (Holds : σ → Prop) : Prop where
  importable : ∀ s : State, s.documents = s →
    ((∃ t, T.importState empty s = .ok t) ↔ Importable digest now s)
  imported : ∀ (s : State) t, s.documents = s → T.importState empty s = .ok t →
    Holds t ∧ ∀ k, (T.exportState t k).Perm (s k)
  stored : ∀ t id a, Holds t → T.getArtifact t id = some a →
    a ∈ T.exportState t .artifact ∧ a.id = id
  saved : ∀ t t' (a v : Artifact), Holds t → T.getArtifact t v.id = some a →
    T.saveArtifact t v = .ok t' →
    Holds t' ∧ (∀ k ≠ .artifact, T.exportState t' k = T.exportState t k) ∧
      (T.exportState t' .artifact).Perm ((T.exportState t .artifact).map (replaceArtifact v))

namespace MemoryStore

variable {digest : Json → String} {now : Time}

theorem exportState_saveAll_empty {s : State} (h : s.WellIdentified) (k : Kind) :
    (empty.saveAll s).exportState k = s k := by
  show (Dict.empty.setAll k.identifier (s k)).values = s k
  have hdistinct := h.bucket_nodup k
  rw [Dict.setAll_empty, Dict.values,
    Dict.entries_ofPairs (by simpa [List.map_map, Function.comp_def] using hdistinct), List.map_map]
  exact List.map_id _

theorem lawful_stateStore : (stateStore digest now).Lawful empty digest now Keyed where
  importable s hs := by
    have himport (t : MemoryStore) := @importState_empty digest now t s
    rw [hs] at himport
    exact ⟨fun ⟨t, ht⟩ => ((himport t).mp ht).1, fun h => ⟨_, (himport _).mpr ⟨h, rfl⟩⟩⟩
  imported s t hs ht := by
    have himport := @importState_empty digest now t s
    rw [hs] at himport
    obtain ⟨h, rfl⟩ := himport.mp ht
    exact ⟨keyed_empty.saveAll s, fun k => .of_eq
      (exportState_saveAll_empty (valid_iff.mp h.valid).identified k)⟩
  stored t id a ht ha := ⟨Dict.mem_values.mpr ⟨id, ha⟩, ht .artifact id a ha⟩
  saved t t' a v ht ha hsave := by
    obtain ⟨-, -, rfl⟩ := saveChecked_eq_ok.mp hsave
    refine ⟨ht.save .artifact v, fun k hk => exportState_put_of_ne t hk _ _, .of_eq ?_⟩
    show ((t.save .artifact v).records .artifact).values = _
    rw [save, records_put_self]
    exact values_set_artifact (ht .artifact) ha

end MemoryStore

namespace SqliteDatabase

variable {digest : Json → String} {now : Time}

/-- Each row is under the identity of its object. -/
def Keyed (db : SqliteDatabase) : Prop :=
  ∀ k id v, (db.store.records k).get? id = some v → k.identifier v = id

theorem exportState_perm (db : SqliteDatabase) (k : Kind) :
    (db.exportState k).Perm ((db.store.records k).values.map k.document) :=
  ((List.perm_insertionSort _ _).map Prod.snd).map k.document

theorem lawful_stateStore : (stateStore digest now).Lawful empty digest now Keyed where
  importable s hs := by
    have himport (db : SqliteDatabase) := @importState_empty digest now db s
    rw [hs] at himport
    exact ⟨fun ⟨t, ht⟩ => ((himport t).mp ht).1, fun h => ⟨_, (himport _).mpr ⟨h, rfl⟩⟩⟩
  imported s t hs ht := by
    have himport := @importState_empty digest now t s
    rw [hs] at himport
    obtain ⟨h, rfl⟩ := himport.mp ht
    have hid := (valid_iff.mp h.valid).identified
    refine ⟨fun k id v hv => ((get?_holding hid).mp hv).2, fun k => ?_⟩
    have hvalues : ((holding s).store.records k).values = s k := by
      exact MemoryStore.exportState_saveAll_empty hid k
    refine (exportState_perm _ k).trans ?_
    rw [hvalues]
    exact .of_eq (congrFun hs k)
  stored t id a ht ha :=
    ⟨(exportState_perm t .artifact).mem_iff.mpr
      (List.mem_map.mpr ⟨a, Dict.mem_values.mpr ⟨id, ha⟩, rfl⟩), ht .artifact id a ha⟩
  saved t t' a v ht ha hsave := by
    obtain ⟨-, -, rfl⟩ := atomicGraphSave_eq_ok.mp hsave
    refine ⟨fun k id w hw => ?_, fun k hk => ?_, ?_⟩
    · by_cases hk : k = .artifact
      · subst hk
        have hrow : ((t.store.records .artifact).set (Kind.identifier .artifact v) v).get? id =
            some w := by
          simpa [SqliteStore.save, SqliteStore.put] using hw
        rw [Dict.get?_set] at hrow
        split_ifs at hrow with hid
        · rw [Option.some.injEq] at hrow
          rw [hid, hrow]
        · exact ht .artifact id w hrow
      · have hrow : (t.store.records k).get? id = some w := by
          simpa [SqliteStore.save, SqliteStore.put, hk] using hw
        exact ht k id w hrow
    · simp [stateStore, exportState, State.documents, SqliteStore.exportState, SqliteStore.save,
        SqliteStore.put, hk]
    · have hvalues : ((t.store.save .artifact v).records .artifact).values =
          (t.store.records .artifact).values.map (replaceArtifact v) := by
        have hrow : (t.store.save .artifact v).records .artifact =
            (t.store.records .artifact).set (Kind.identifier .artifact v) v := by
          simp [SqliteStore.save, SqliteStore.put]
        rw [hrow]
        exact values_set_artifact (ht .artifact) ha
      have hnew := exportState_perm { t with store := t.store.save .artifact v } .artifact
      rw [hvalues] at hnew
      have hdocument (l : List Artifact) : l.map (Kind.document .artifact) = l := List.map_id l
      have hold := (exportState_perm t .artifact).map (replaceArtifact v)
      rw [hdocument] at hold
      exact (hnew.trans (.of_eq (hdocument _))).trans hold.symm

end SqliteDatabase

/-! ## The round trip -/

/-- An artifact as it was exported, or with the URI of its file under the root. -/
def Rewritten (lib : Libraries) (artifacts : ArtifactStore) (a a' : Artifact) : Prop :=
  a' = a ∨ ∃ root oldUri basename newUri, artifacts = .rooted root ∧ a.uri = some oldUri ∧
    lib.uriName oldUri = .ok basename ∧ root.asUri basename = .ok newUri ∧
    a' = { a with uri := some newUri }

/-- The objects of two states agree in each kind, apart from rewritten URIs. -/
def SameObjects (lib : Libraries) (artifacts : ArtifactStore) (s s' : State) : Prop :=
  (∀ k ≠ .artifact, ((s' k).map k.dump).Perm ((s k).map k.dump)) ∧
    ∃ f : Artifact → Artifact, (∀ a ∈ s .artifact, Rewritten lib artifacts a (f a)) ∧
      (s' .artifact).Perm ((s .artifact).map f)

/-- The bundle of a state is accepted into the empty target, which then has its objects. -/
def RoundTripsInto {σ : Type} (T : StateStore σ) (empty : σ) (lib : Libraries)
    (runtimeId : String) (exportedAt now : Time) (source : Option (String → Option ByteArray))
    (artifacts : ArtifactStore) (s : State) : Prop :=
  ∃ result t', importBundle lib T now { store := empty, artifacts }
      (exportBundle lib runtimeId exportedAt source s) = (.ok result, t') ∧
    SameObjects lib artifacts s (T.exportState t'.store)

/-- What a bundle needs of a state: no uses, no text that cuts a line, the checks of the
import, and names of blobs that the import and the root take. -/
structure Portable (lib : Libraries) (digest : Json → String) (now : Time)
    (source : Option (String → Option ByteArray)) (artifacts : ArtifactStore) (s : State) :
    Prop where
  unused : s.uses = []
  uncut : ∀ k, Uncut k (s k)
  invariants : validateStateInvariants now s.documents = .ok ()
  importable : Importable digest now s.documents
  named : ∀ e ∈ artifactBlobs lib source s, acceptedBlob e.1 = true ∧
    ∀ root, artifacts = .rooted root → root.accepts e.1 = true

theorem State.documents_documents (s : State) : s.documents.documents = s.documents := by
  funext k
  rw [State.documents, State.documents, List.map_map]
  refine List.map_congr_left (fun v _ => ?_)
  cases k <;> rfl

theorem State.bundled_documents (s : State) : s.bundled.documents = s.bundled := by
  funext k
  rw [State.documents, State.bundled]
  by_cases hk : k = .authorizationUse
  · rw [if_pos hk]
    rfl
  · rw [if_neg hk]
    exact congrFun s.documents_documents k

theorem State.bundled_of_unused {s : State} (h : s.uses = []) : s.bundled = s.documents := by
  funext k
  by_cases hk : k = .authorizationUse
  · subst hk
    have hempty : s .authorizationUse = [] := h
    rw [State.bundled, if_pos rfl, State.documents, hempty]
    rfl
  · exact if_neg hk

section RoundTrip

variable {σ : Type} {T : StateStore σ} {empty : σ} {digest : Json → String} {now : Time}
  {Holds : σ → Prop} {lib : Libraries} {artifacts : ArtifactStore} {s : State}

/-- The store holds the objects of a state, apart from rewritten URIs. -/
structure Restored (T : StateStore σ) (Holds : σ → Prop) (lib : Libraries)
    (artifacts : ArtifactStore) (s : State) (t : σ) : Prop where
  holds : Holds t
  others : ∀ k ≠ .artifact, (T.exportState t k).Perm (s k)
  rewritten : ∃ f : Artifact → Artifact, (∀ a ∈ s .artifact, Rewritten lib artifacts a (f a)) ∧
    (T.exportState t .artifact).Perm ((s .artifact).map f)

theorem Rewritten.id_eq {a a' : Artifact} (h : Rewritten lib artifacts a a') : a'.id = a.id := by
  rcases h with rfl | ⟨_, _, _, _, -, -, -, -, rfl⟩ <;> rfl

/-- The artifact that is saved in the rewriting, if one is. -/
theorem rewriteUri_eq_ok {asUri : String → Result String} {blobs : Dict String ByteArray} {t t' : σ}
    {a : Artifact} (h : rewriteUri lib T asUri blobs t a = .ok t') :
    t' = t ∨ ∃ oldUri basename newUri existing, a.uri = some oldUri ∧
      lib.uriName oldUri = .ok basename ∧ asUri basename = .ok newUri ∧
      T.getArtifact t a.id = some existing ∧
      T.saveArtifact t { existing with uri := some newUri } = .ok t' := by
  rw [rewriteUri] at h
  cases huri : a.uri with
  | none =>
    simp only [huri, Result.pure_eq_ok] at h
    exact .inl h.symm
  | some oldUri =>
    simp only [huri] at h
    split_ifs at h with hfile
    · exact .inl (Result.pure_eq_ok.mp h).symm
    · obtain ⟨basename, hname, h⟩ := Result.bind_eq_ok.mp h
      split_ifs at h with hblob
      · exact .inl (Result.pure_eq_ok.mp h).symm
      · obtain ⟨newUri, hnew, h⟩ := Result.bind_eq_ok.mp h
        cases hexisting : T.getArtifact t a.id with
        | none =>
          simp only [hexisting, Result.pure_eq_ok] at h
          exact .inl h.symm
        | some existing =>
          simp only [hexisting] at h
          split_ifs at h with hsame
          · exact .inl (Result.pure_eq_ok.mp h).symm
          · exact .inr ⟨oldUri, basename, newUri, existing, rfl, hname, hnew, rfl, h⟩

/-- Rewriting one artifact of the state keeps what the store holds. -/
theorem Restored.rewriteUri {root : ArtifactRoot} {blobs : Dict String ByteArray} {t t' : σ}
    {a : Artifact} (hT : T.Lawful empty digest now Holds)
    (hdistinct : ((s .artifact).map (Kind.identifier .artifact)).Nodup)
    (h : Restored T Holds lib (.rooted root) s t) (ha : a ∈ s .artifact)
    (hrewrite : rewriteUri lib T root.asUri blobs t a = .ok t') :
    Restored T Holds lib (.rooted root) s t' := by
  rcases rewriteUri_eq_ok hrewrite with rfl |
      ⟨oldUri, basename, newUri, existing, huri, hname, hnew, hexisting, hsave⟩
  · exact h
  · obtain ⟨f, hf, hperm⟩ := h.rewritten
    obtain ⟨hmem, hid⟩ := hT.stored t a.id existing h.holds hexisting
    -- the artifact found under the identity of `a` is the one that `a` became
    obtain ⟨b, hb, rfl⟩ := List.mem_map.mp (hperm.mem_iff.mp hmem)
    have hba : b = a := List.inj_on_of_nodup_map hdistinct hb ha (((hf b hb).id_eq).symm.trans hid)
    subst hba
    have hvalue : ({ f b with uri := some newUri } : Artifact) = { b with uri := some newUri } := by
      rcases hf b hb with heq | ⟨_, _, _, _, -, -, -, -, heq⟩ <;> rw [heq]
    rw [hvalue] at hsave
    obtain ⟨hholds, hothers, hartifacts⟩ := hT.saved t t' (f b) { b with uri := some newUri }
      h.holds hexisting hsave
    refine ⟨hholds, fun k hk => hothers k hk ▸ h.others k hk,
      fun x => replaceArtifact { b with uri := some newUri } (f x), fun x hx => ?_, ?_⟩
    · show Rewritten lib (.rooted root) x (replaceArtifact { b with uri := some newUri } (f x))
      by_cases hxb : x = b
      · subst hxb
        have hreplaced : replaceArtifact { x with uri := some newUri } (f x) =
            { x with uri := some newUri } := if_pos (hf x hx).id_eq
        rw [hreplaced]
        exact .inr ⟨root, oldUri, basename, newUri, rfl, huri, hname, hnew, rfl⟩
      · have hne : (f x).id ≠ b.id := fun heq =>
          hxb (List.inj_on_of_nodup_map hdistinct hx hb (((hf x hx).id_eq).symm.trans heq))
        have hkept : replaceArtifact { b with uri := some newUri } (f x) = f x := if_neg hne
        rw [hkept]
        exact hf x hx
    · refine (hartifacts.trans (hperm.map _)).trans (.of_eq ?_)
      rw [List.map_map]
      rfl

theorem Restored.rewriteUris {root : ArtifactRoot} {blobs : Dict String ByteArray} {t : σ}
    {rest : List Artifact} (hT : T.Lawful empty digest now Holds)
    (hdistinct : ((s .artifact).map (Kind.identifier .artifact)).Nodup)
    (h : Restored T Holds lib (.rooted root) s t) (hrest : ∀ a ∈ rest, a ∈ s .artifact) :
    Restored T Holds lib (.rooted root) s (rewriteUris lib T root.asUri blobs t rest) := by
  induction rest generalizing t with
  | nil => exact h
  | cons a rest ih =>
    rw [PortableRuntime.rewriteUris]
    cases hrewrite : PortableRuntime.rewriteUri lib T root.asUri blobs t a with
    | error e => exact h
    | ok t' =>
      exact ih (h.rewriteUri hT hdistinct (hrest a List.mem_cons_self) hrewrite)
        (fun a' ha' => hrest a' (List.mem_cons_of_mem _ ha'))

/-- What was imported stays restored while the artifacts are. -/
theorem Restored.restoreArtifacts {contents : Contents} {t : σ}
    (hT : T.Lawful empty digest now Holds)
    (hdistinct : ((contents.state .artifact).map (Kind.identifier .artifact)).Nodup)
    (h : Restored T Holds lib artifacts contents.state t) :
    Restored T Holds lib artifacts contents.state
      (restoreArtifacts lib T contents { store := t, artifacts }).2.store := by
  rw [PortableRuntime.restoreArtifacts]
  cases artifacts with
  | absent => exact h
  | rootless => exact h
  | rooted root =>
    cases hblobs : writeBlobs root contents.blobs.entries with
    | mk result root' =>
      cases result with
      | error e => simpa only [hblobs] using h
      | ok u =>
        simp only [hblobs]
        refine h.rewriteUris hT hdistinct (fun a ha => ?_)
        split at ha
        · exact absurd ha List.not_mem_nil
        · exact ha

theorem restored_of_import {t : σ} (hT : T.Lawful empty digest now Holds) (hs : s.documents = s)
    (h : T.importState empty s = .ok t) : Restored T Holds lib artifacts s t := by
  obtain ⟨hholds, hperm⟩ := hT.imported s t hs h
  refine ⟨hholds, fun k _ => hperm k, id, fun a _ => .inl rfl, ?_⟩
  rw [List.map_id]
  exact hperm .artifact

/-- Restored documents are the objects of the state. -/
theorem Restored.sameObjects {t : σ} (h : Restored T Holds lib artifacts s.documents t) :
    SameObjects lib artifacts s (T.exportState t) := by
  have hdocument : s.documents .artifact = s .artifact := List.map_id _
  refine ⟨fun k hk => ((h.others k hk).map k.dump).trans (.of_eq ?_), hdocument ▸ h.rewritten⟩
  rw [State.documents, List.map_map]
  exact List.map_congr_left (fun v _ => k.dump_document v)

variable {runtimeId : String} {exportedAt : Time} {source : Option (String → Option ByteArray)}

/-- In a bundle there are no uses, and the others need what `Portable` says. -/
theorem roundTripsInto_iff (hT : T.Lawful empty digest now Holds)
    (hlib : lib.Faithful (bundleManifest lib runtimeId exportedAt s (artifactBlobs lib source s)) s) :
    RoundTripsInto T empty lib runtimeId exportedAt now source artifacts s ↔
      Portable lib digest now source artifacts s := by
  have hsafe : ∀ e ∈ artifactBlobs lib source s, isSafeMemberName e.1 = true :=
    isSafeMemberName_of_artifactBlobs
  have hnodup := @nodup_artifactBlobs lib s source
  have hdistinct {state : State} (h : Importable digest now state) :
      ((state .artifact).map (Kind.identifier .artifact)).Nodup :=
    (valid_iff.mp h.valid).identified.bucket_nodup .artifact
  rw [RoundTripsInto, exportBundle_eq_ok]
  constructor
  · rintro ⟨result, t', himport, hsame⟩
    obtain ⟨c, t, hread, ht, hrestore⟩ := exists_of_accepted himport
    obtain ⟨huncut, haccepted, hvalid, hstate, hblobs⟩ :=
      readArchive_exported hsafe hnodup hlib hread
    have hdocuments : c.state.documents = c.state := hstate ▸ s.bundled_documents
    have himportable := (hT.importable c.state hdocuments).mp ⟨t, ht⟩
    have hrestored := @Restored.restoreArtifacts σ T empty digest now Holds lib artifacts c t hT
      (hdistinct himportable) (restored_of_import hT hdocuments ht)
    rw [hrestore, hstate] at hrestored
    have hunused : s.uses = [] := by
      have hnone := hrestored.others .authorizationUse (by decide)
      have huses := hsame.1 .authorizationUse (by decide)
      rw [State.bundled, if_pos rfl] at hnone
      rw [hnone.eq_nil] at huses
      exact List.map_eq_nil_iff.mp huses.symm.eq_nil
    have hbundled := State.bundled_of_unused hunused
    rw [hstate, hbundled] at himportable
    refine ⟨hunused, fun k => ?_, hbundled ▸ hvalid, himportable, fun e he =>
      ⟨haccepted e he, fun root hroot => ?_⟩⟩
    · by_cases hk : k = .authorizationUse
      · subst hk
        have hempty : s .authorizationUse = [] := hunused
        exact fun v hv => absurd hv (hempty ▸ List.not_mem_nil)
      · exact huncut k hk
    · by_contra hrefused
      have hraises : ∃ e, (restoreArtifacts lib T c { store := t, artifacts }).1 = .error e :=
        restoreArtifacts_raises.mpr ⟨root, hroot, fun haccepts =>
          hrefused (haccepts e (Dict.get?_eq_some.mp ((hblobs e.1 e.2).mpr he)))⟩
      obtain ⟨error, herror⟩ := hraises
      rw [hrestore] at herror
      cases herror
  · intro h
    have hbundled := State.bundled_of_unused h.unused
    obtain ⟨c, hread⟩ := exists_readArchive_exported hsafe hnodup hlib (fun k _ => h.uncut k)
      (fun e he => (h.named e he).1) (hbundled ▸ h.invariants)
    obtain ⟨-, -, -, hstate, hblobs⟩ := readArchive_exported hsafe hnodup hlib hread
    rw [hbundled] at hstate
    obtain ⟨t, ht⟩ := (hT.importable _ s.documents_documents).mpr h.importable
    rw [← hstate] at ht
    rw [importBundle_eq hread ht]
    have hdocuments : c.state.documents = c.state := hstate ▸ s.documents_documents
    have hrestored := @Restored.restoreArtifacts σ T empty digest now Holds lib artifacts c t hT
      (hdistinct (hstate ▸ h.importable)) (restored_of_import hT hdocuments ht)
    rw [hstate] at hrestored
    have hok : ¬ ∃ e, (restoreArtifacts lib T c { store := t, artifacts }).1 = .error e := by
      rw [restoreArtifacts_raises]
      rintro ⟨root, hroot, hrefused⟩
      refine hrefused (fun e he => (h.named e ?_).2 root hroot)
      exact (hblobs e.1 e.2).mp (Dict.get?_eq_some.mpr he)
    cases hresult : (restoreArtifacts lib T c { store := t, artifacts }).1 with
    | error e => exact absurd ⟨e, hresult⟩ hok
    | ok result => exact ⟨result, _, Prod.ext hresult rfl, hrestored.sameObjects⟩

end RoundTrip

/-- A bundle brings the objects of a state into an empty target, of either store, exactly when
the state is portable. -/
theorem bundle_roundTrip (digest : Json → String) (lib : Libraries) (runtimeId : String)
    (exportedAt now : Time) (source : Option (String → Option ByteArray))
    (artifacts : ArtifactStore) (s : State)
    (hlib : lib.Faithful
      (bundleManifest lib runtimeId exportedAt s (artifactBlobs lib source s)) s) :
    (RoundTripsInto (MemoryStore.stateStore digest now) .empty lib runtimeId exportedAt now source
        artifacts s ↔ Portable lib digest now source artifacts s) ∧
      (RoundTripsInto (SqliteDatabase.stateStore digest now) .empty lib runtimeId exportedAt now
        source artifacts s ↔ Portable lib digest now source artifacts s) :=
  ⟨roundTripsInto_iff MemoryStore.lawful_stateStore hlib,
    roundTripsInto_iff SqliteDatabase.lawful_stateStore hlib⟩

theorem bundle_roundTrip_work : RoundTripsInto (SqliteDatabase.stateStore (fun _ => "") 0) .empty
    workLibraries "runtime" 0 0 none (.rooted freshRoot)
    (State.single .work MemoryStore.plainWork) := by
  refine (bundle_roundTrip (fun _ => "") workLibraries "runtime" 0 0 none (.rooted freshRoot)
    (State.single .work MemoryStore.plainWork) faithful_workLibraries).2.mpr ⟨rfl, ?_, ?_, ?_, ?_⟩
  · exact uncut_single (by decide)
  · decide
  · exact ⟨by decide, by decide, by decide⟩
  · exact fun e he => absurd he List.not_mem_nil

/-! ## A line separator in a title -/

def separatedWork : Work := { MemoryStore.plainWork with title := String.ofList [Char.ofNat 0x2028] }

/-- A saved work whose title holds U+2028 is exported, and its line is cut in two. -/
theorem line_separator_is_cut :
    ¬ ∀ (digest : Json → String) (lib : Libraries) (runtimeId : String) (exportedAt now : Time)
      (source : Option (String → Option ByteArray)) (artifacts : ArtifactStore)
      (ops : List MemoryStore.Op) (s : State),
      s = (run (MemoryStore.stepAt digest now) .empty ops).exportState →
      MemoryStore.assertImportableEvents s.events = .ok () →
      lib.Faithful (bundleManifest lib runtimeId exportedAt s (artifactBlobs lib source s)) s →
      RoundTripsInto (MemoryStore.stateStore digest now) .empty lib runtimeId exportedAt now source
        artifacts s := by
  intro h
  have hlib := @faithful_sampleLibraries .work separatedWork []
  have hreached : State.single .work separatedWork = (run (MemoryStore.stepAt (fun _ => "") 0)
      .empty [.save .work separatedWork]).exportState := by
    have hcall : MemoryStore.empty.call (fun _ => "") 0 (.save .work separatedWork) =
        .ok (MemoryStore.empty.save .work separatedWork) :=
      MemoryStore.saveChecked_eq_ok.mpr ⟨rfl, by decide, rfl⟩
    have hstep : MemoryStore.stepAt (fun _ => "") 0 .empty (.save .work separatedWork) =
        MemoryStore.empty.save .work separatedWork := by
      rw [MemoryStore.stepAt, MemoryStore.step, hcall]
    show _ = (MemoryStore.stepAt (fun _ => "") 0 .empty (.save .work separatedWork)).exportState
    rw [hstep]
    funext k
    cases k <;> rfl
  have htrip := h (fun _ => "") (sampleLibraries .work separatedWork []) "runtime" 0 0 none .absent
    _ _ hreached (by decide) hlib
  have hportable := (roundTripsInto_iff MemoryStore.lawful_stateStore hlib).mp htrip
  exact absurd (hportable.uncut .work separatedWork (List.mem_singleton_self _)) (by decide)

end PortableRuntime
