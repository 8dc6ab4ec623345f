import Mathlib.Data.List.TakeWhile
import PortableRuntime.Stores.BundleArchive

/-!
# What an import leaves behind

Every check on the archive comes before the first effect, and the import of the state is one
effect.  The names of the blobs are checked after it, one at a time, while the files are
written; and nothing compares the blobs with the list in the manifest.
-/

namespace PortableRuntime

/-! ## Files under a root -/

namespace ArtifactRoot

/-- A name that the root takes a file under. -/
def accepts (root : ArtifactRoot) (basename : String) : Bool :=
  isPlainName basename && (!holdsSeparator basename && !Text.hasInfix basename "..") &&
    (root.refuses basename).isNone

end ArtifactRoot

theorem writeBlob_eq_ok {root root' : ArtifactRoot} {basename : String} {blob : ByteArray} :
    writeBlob root basename blob = .ok root' ↔ root.accepts basename = true ∧
      { root with files := root.files.set basename blob } = root' := by
  rw [writeBlob, Result.check_eq_ok, Result.check_eq_ok, guardValue_eq_ok, guardValue_eq_ok,
    ArtifactRoot.accepts]
  cases hrefuses : root.refuses basename with
  | some e => simp
  | none =>
    simp only [Option.isNone_none, Bool.and_true, Bool.and_eq_true, ← and_assoc]
    refine and_congr_right (fun _ => ?_)
    split_ifs with hsame
    · rw [Result.pure_eq_ok, Dict.set_of_get? hsame]
    · rw [Result.pure_eq_ok]

/-- The files before the first refused name are written, and all are when none is refused. -/
theorem writeBlobs_eq (root : ArtifactRoot) (blobs : List (String × ByteArray)) :
    ((writeBlobs root blobs).1 = .ok () ↔ ∀ e ∈ blobs, root.accepts e.1 = true) ∧
      (writeBlobs root blobs).2 = { root with
        files := (blobs.takeWhile (fun e => root.accepts e.1)).foldl
          (fun d e => d.set e.1 e.2) root.files } := by
  induction blobs generalizing root with
  | nil => exact ⟨⟨fun _ _ h => absurd h List.not_mem_nil, fun _ => rfl⟩, rfl⟩
  | cons e rest ih =>
    obtain ⟨basename, blob⟩ := e
    rw [List.forall_mem_cons, List.takeWhile_cons, writeBlobs]
    cases hwrite : writeBlob root basename blob with
    | ok root' =>
      obtain ⟨haccepts, rfl⟩ := writeBlob_eq_ok.mp hwrite
      obtain ⟨hok, hfiles⟩ := ih { root with files := root.files.set basename blob }
      rw [haccepts, if_pos rfl]
      exact ⟨hok.trans (by rw [eq_self, true_and]; rfl), hfiles⟩
    | error e =>
      have hrefused : ¬ root.accepts basename = true := by
        intro haccepts
        rw [writeBlob_eq_ok.mpr ⟨haccepts, rfl⟩] at hwrite
        cases hwrite
      rw [if_neg hrefused]
      exact ⟨iff_of_false (by simp) (fun h => hrefused h.1), rfl⟩

/-! ## All or nothing -/

def ArtifactStore.file : ArtifactStore → String → Option ByteArray
  | .rooted root, basename => root.files.get? basename
  | _, _ => none

/-- The store exports what it did, and the root holds the files that it held. -/
def Unchanged {σ : Type} (T : StateStore σ) (t t' : Target σ) : Prop :=
  T.exportState t'.store = T.exportState t.store ∧
    ∀ basename, t'.artifacts.file basename = t.artifacts.file basename

variable {σ : Type} {lib : Libraries} {T : StateStore σ} {now : Time}

/-- After the import of a state the names of its blobs are all that can still fail. -/
theorem restoreArtifacts_raises {contents : Contents} {target : Target σ} :
    (∃ e, (restoreArtifacts lib T contents target).1 = .error e) ↔
      ∃ root, target.artifacts = .rooted root ∧
        ¬ ∀ e ∈ contents.blobs.entries, root.accepts e.1 = true := by
  rw [restoreArtifacts]
  cases hroot : target.artifacts with
  | rooted root =>
    have hwritten := (writeBlobs_eq root contents.blobs.entries).1
    simp only [ArtifactStore.rooted.injEq, exists_eq_left', ← hwritten]
    cases hblobs : writeBlobs root contents.blobs.entries with
    | mk result root' =>
      cases result with
      | ok u => simp
      | error e => simp
  | absent => simp
  | rootless => simp

/-- What a refused name leaves: the imported state, and the files before it. -/
theorem restoreArtifacts_refused {contents : Contents} {target : Target σ} {root : ArtifactRoot}
    (hroot : target.artifacts = .rooted root)
    (h : ¬ ∀ e ∈ contents.blobs.entries, root.accepts e.1 = true) :
    (restoreArtifacts lib T contents target).2 = { target with
      artifacts := .rooted { root with
        files := (contents.blobs.entries.takeWhile (fun e => root.accepts e.1)).foldl
          (fun d e => d.set e.1 e.2) root.files } } := by
  obtain ⟨hok, hfiles⟩ := writeBlobs_eq root contents.blobs.entries
  rw [restoreArtifacts, hroot, ← hfiles]
  cases hblobs : writeBlobs root contents.blobs.entries with
  | mk result root' =>
    rw [hblobs] at hok
    cases result with
    | ok u => exact absurd (hok.mp rfl) h
    | error e => simp only [hblobs]

/-- What was read of the archive and imported is what an import goes on with. -/
theorem importBundle_eq {target : Target σ} {archive : Result (List Member)} {contents : Contents}
    {store : σ} (hread : readArchive lib now archive = .ok contents)
    (himport : T.importState target.store contents.state = .ok store) :
    importBundle lib T now target archive =
      restoreArtifacts lib T contents { target with store } := by
  simp only [importBundle, hread, himport]

theorem exists_of_accepted {target t' : Target σ} {archive : Result (List Member)} {result : Json}
    (h : importBundle lib T now target archive = (.ok result, t')) :
    ∃ contents store, readArchive lib now archive = .ok contents ∧
      T.importState target.store contents.state = .ok store ∧
      restoreArtifacts lib T contents { target with store } = (.ok result, t') := by
  cases hread : readArchive lib now archive with
  | error e => simp [importBundle, hread] at h
  | ok contents =>
    cases himport : T.importState target.store contents.state with
    | error e => simp [importBundle, hread, himport] at h
    | ok store => exact ⟨contents, store, rfl, himport, importBundle_eq hread himport ▸ h⟩

/-- Before the first effect nothing has changed. -/
theorem importBundle_early {target : Target σ} {archive : Result (List Member)}
    (h : ∀ contents store, readArchive lib now archive = .ok contents →
      T.importState target.store contents.state ≠ .ok store) :
    (importBundle lib T now target archive).2 = target := by
  rw [importBundle]
  cases hread : readArchive lib now archive with
  | error e => rfl
  | ok contents =>
    cases himport : T.importState target.store contents.state with
    | error e => simp only [himport]
    | ok store => exact absurd himport (h contents store hread)

/-- Of an archive that passed every check and a state that was taken: when a name is refused,
the state changed nothing and the files before it are there already. -/
theorem unchanged_iff {contents : Contents} {target : Target σ} {store : σ} :
    ((∃ e, (restoreArtifacts lib T contents { target with store }).1 = .error e) →
      Unchanged T target (restoreArtifacts lib T contents { target with store }).2) ↔
    ∀ root, target.artifacts = .rooted root →
      (∀ e ∈ contents.blobs.entries, root.accepts e.1 = true) ∨
        (T.exportState store = T.exportState target.store ∧
          ∀ e ∈ contents.blobs.entries.takeWhile (fun e => root.accepts e.1),
            root.files.get? e.1 = some e.2) := by
  rw [restoreArtifacts_raises]
  have hnodup (p : String × ByteArray → Bool) :
      ((contents.blobs.entries.takeWhile p).map Prod.fst).Nodup :=
    contents.blobs.nodup.sublist ((List.takeWhile_sublist p).map Prod.fst)
  constructor
  · intro h root hroot
    by_cases haccepts : ∀ e ∈ contents.blobs.entries, root.accepts e.1 = true
    · exact .inl haccepts
    · obtain ⟨hexport, hfiles⟩ := h ⟨root, hroot, haccepts⟩
      rw [@restoreArtifacts_refused σ lib T contents { target with store } root hroot haccepts]
        at hexport hfiles
      refine .inr ⟨hexport, fun e he => ?_⟩
      have hfile := hfiles e.1
      rw [hroot] at hfile
      exact hfile.symm.trans (Dict.get?_foldl_set_of_mem (hnodup _) he)
  · rintro h ⟨root, hroot, hrefused⟩
    rcases h root hroot with haccepts | ⟨hexport, hfiles⟩
    · exact absurd haccepts hrefused
    · rw [@restoreArtifacts_refused σ lib T contents { target with store } root hroot hrefused]
      refine ⟨hexport, fun basename => ?_⟩
      rw [hroot, Dict.foldl_set_of_get? hfiles]

/-- An import that raises leaves the target as it was exactly when, of an archive that passed
every check and a state that was taken, the root takes every name, or the state changed
nothing and the files before the first refused name are there already. -/
theorem importBundle_all_or_nothing (lib : Libraries) (T : StateStore σ) (now : Time)
    (target : Target σ) (archive : Result (List Member)) :
    ((∃ e, (importBundle lib T now target archive).1 = .error e) →
      Unchanged T target (importBundle lib T now target archive).2) ↔
    ∀ contents store, readArchive lib now archive = .ok contents →
      T.importState target.store contents.state = .ok store →
      ∀ root, target.artifacts = .rooted root →
        (∀ e ∈ contents.blobs.entries, root.accepts e.1 = true) ∨
          (T.exportState store = T.exportState target.store ∧
            ∀ e ∈ contents.blobs.entries.takeWhile (fun e => root.accepts e.1),
              root.files.get? e.1 = some e.2) := by
  by_cases hearly : ∀ contents store, readArchive lib now archive = .ok contents →
      T.importState target.store contents.state ≠ .ok store
  · rw [importBundle_early hearly]
    exact iff_of_true (fun _ => ⟨rfl, fun _ => rfl⟩)
      (fun contents store hread himport => absurd himport (hearly contents store hread))
  · simp only [not_forall, not_not] at hearly
    obtain ⟨contents, store, hread, himport⟩ := hearly
    rw [importBundle_eq hread himport, unchanged_iff]
    constructor
    · intro h contents' store' hread' himport'
      obtain rfl := Except.ok.inj (hread.symm.trans hread')
      obtain rfl := Except.ok.inj (himport.symm.trans himport')
      exact h
    · exact fun h => h contents store hread himport

/-! ### A name that the root refuses -/

def bytesText (data : ByteArray) : String :=
  String.ofList (data.data.toList.map (fun b => Char.ofNat b.toNat))

theorem bytesText_injective : Function.Injective bytesText := by
  intro a b h
  have hchar : Function.Injective (fun b : UInt8 => Char.ofNat b.toNat) := by
    intro x y hxy
    have hvalid (b : UInt8) : (Char.ofNat b.toNat).toNat = b.toNat := by
      have hsmall : ∀ n < 256, (Char.ofNat n).toNat = n := by decide +kernel
      exact hsmall _ b.toNat_lt
    exact UInt8.toNat_inj.mp ((hvalid x).symm.trans ((congrArg Char.toNat hxy).trans (hvalid y)))
  rw [bytesText, bytesText, String.ofList_inj] at h
  have hlist := hchar.list_map h
  cases a
  cases b
  simpa using hlist

/-- Libraries that know one manifest and one object. -/
def librariesOf (m : Json) (k : Kind) (v : Model k) : Libraries where
  sha256 := bytesText
  uriName uri := .ok (String.ofList ((uri.toList.splitOn '/').getLastD []))
  loads text :=
    if text = m.dumpsIndented jsonLine 2 0 then .ok m
    else if text = jsonText k v then .ok (.obj (k.dump v))
    else raiseValue "Expecting value: line 1 column 1 (char 0)"
  modelValidate k' _ := if h : k' = k then .ok (h ▸ k.document v) else raiseValue "Field required"

/-- The state that holds one object. -/
def State.single (k : Kind) (v : Model k) : State := Function.update State.none k [v]

/-- Libraries that know the bundle of one object. -/
def sampleLibraries (k : Kind) (v : Model k) (blobs : List (String × ByteArray)) : Libraries :=
  librariesOf (bundleManifest (librariesOf .null k v) "runtime" 0 (State.single k v) blobs) k v

theorem second_dumpsIndented (f : String × Json) (rest : Fields) :
    (((Json.obj (f :: rest)).dumpsIndented jsonLine 2 0).toList.drop 1).head? =
      some (Char.ofNat 10) := by
  simp only [Json.dumpsIndented, Json.bracketed, Json.dumpsIndentedFields, List.isEmpty_cons,
    Bool.false_eq_true, if_false, String.toList_append, Json.newLine, String.toList_ofList]
  rfl

theorem second_dumps (f : String × Json) (rest : Fields) :
    ((Json.dumps jsonLine (.obj (f :: rest))).toList.drop 1).head? = some Text.doubleQuote := by
  rw [Json.dumps_obj, Json.dumpsFields, List.map_cons]
  cases (Json.dumpsFields jsonLine rest).map Json.memberText with
  | nil =>
    simp only [Text.join, Json.memberText, Text.jsonString, String.toList_append,
      String.toList_ofList]
    rfl
  | cons g parts =>
    simp only [Text.join, Json.memberText, Text.jsonString, String.toList_append,
      String.toList_ofList]
    rfl

/-- The text of an object goes on with its first field, that of a manifest with a new line. -/
theorem second_jsonText (k : Kind) (v : Model k) :
    ((jsonText k v).toList.drop 1).head? = some Text.doubleQuote := by
  cases k <;> exact second_dumps _ _

theorem faithful_librariesOf {m : Json} {k : Kind} {v : Model k}
    (hm : ((m.dumpsIndented jsonLine 2 0).toList.drop 1).head? = some (Char.ofNat 10)) :
    (librariesOf m k v).Faithful m (State.single k v) where
  manifest := if_pos rfl
  objects k' _ w hw := by
    by_cases hk : k' = k
    · subst hk
      rw [State.single, Function.update_self, List.mem_singleton] at hw
      subst hw
      refine ⟨.obj (k'.dump w), ?_, dif_pos rfl⟩
      have hne : jsonText k' w ≠ m.dumpsIndented jsonLine 2 0 := by
        intro heq
        have hsecond := second_jsonText k' w
        rw [heq, hm] at hsecond
        exact absurd hsecond (by decide)
      exact (if_neg hne).trans (if_pos rfl)
    · rw [State.single, Function.update_of_ne hk] at hw
      exact absurd hw List.not_mem_nil

theorem bundleManifest_sampleLibraries (k : Kind) (v : Model k) (blobs : List (String × ByteArray)) :
    bundleManifest (sampleLibraries k v blobs) "runtime" 0 (State.single k v) blobs =
      bundleManifest (librariesOf .null k v) "runtime" 0 (State.single k v) blobs := by
  simp only [bundleManifest, checksums, sampleLibraries, librariesOf]

theorem faithful_sampleLibraries {k : Kind} {v : Model k} (blobs : List (String × ByteArray)) :
    (sampleLibraries k v blobs).Faithful
      (bundleManifest (sampleLibraries k v blobs) "runtime" 0 (State.single k v) blobs)
      (State.single k v) := by
  rw [bundleManifest_sampleLibraries]
  exact faithful_librariesOf (second_dumpsIndented _ _)

theorem uncut_single {k : Kind} {v : Model k} (h : Json.isCut (.obj (k.dump v)) = false)
    (k' : Kind) : Uncut k' (State.single k v k') := by
  intro w hw
  by_cases hk : k' = k
  · subst hk
    rw [State.single, Function.update_self, List.mem_singleton] at hw
    rw [hw, h]
  · rw [State.single, Function.update_of_ne hk] at hw
    exact absurd hw List.not_mem_nil

def notes : Artifact :=
  { id := "artifact_1", createdAt := 0, kind := "file", uri := some "file:///srv/notes+1.txt" }

def notesBlobs : List (String × ByteArray) := [("notes+1.txt", "notes".toUTF8)]

/-- A file name with a plus sign is exported, and refused after the state was imported. -/
theorem name_refused_after_import :
    ¬ ∀ (lib : Libraries) (digest : Json → String) (now : Time) (target : Target MemoryStore)
      (archive : Result (List Member)),
      (∃ e, (importBundle lib (MemoryStore.stateStore digest now) now target archive).1 =
        .error e) →
      Unchanged (MemoryStore.stateStore digest now) target
        (importBundle lib (MemoryStore.stateStore digest now) now target archive).2 := by
  intro h
  have hlib := @faithful_sampleLibraries .artifact notes notesBlobs
  have hsafe : ∀ e ∈ notesBlobs, isSafeMemberName e.1 = true := by decide
  have haccepted : ∀ e ∈ notesBlobs, acceptedBlob e.1 = true := by decide
  have hnodup : (notesBlobs.map Prod.fst).Nodup := by decide
  obtain ⟨c, hread⟩ := @exists_readArchive_exported _ 0 _ _ _ _ hsafe hnodup hlib
    (fun k _ => uncut_single (by decide) k) haccepted (by decide)
  obtain ⟨-, -, -, hstate, hblobs⟩ := readArchive_exported hsafe hnodup hlib hread
  have himport : (MemoryStore.stateStore (fun _ => "") 0).importState .empty c.state =
      .ok (MemoryStore.empty.saveAll (State.single .artifact notes).bundled.documents) := by
    rw [hstate]
    exact MemoryStore.importState_empty.mpr
      ⟨⟨by decide, by decide, by decide⟩, rfl⟩
  have hcondition := (importBundle_all_or_nothing _ _ _ _ _).mp (h
    (sampleLibraries .artifact notes notesBlobs) (fun _ => "") 0
    { store := .empty, artifacts := .rooted ⟨.empty, fun _ => .ok "", fun _ => none⟩ }
    (.ok (exportedArchive _ "runtime" 0 (State.single .artifact notes) notesBlobs)))
    c _ hread himport _ rfl
  rcases hcondition with haccepts | ⟨hexport, -⟩
  · have hmem := Dict.get?_eq_some.mp ((hblobs _ _).mpr (List.mem_singleton_self
      (("notes+1.txt", "notes".toUTF8) : String × ByteArray)))
    exact absurd (haccepts _ hmem) (by decide)
  · have hartifacts := congrArg List.length (congrFun hexport .artifact)
    exact absurd hartifacts (by decide)

/-! ## Archives under the manifest of an export -/

section Integrity

variable {s : State} {runtimeId : String} {exportedAt : Time} {blobs : List (String × ByteArray)}
  {members : List Member} {u : Unpacked}
  (hsum : Function.Injective lib.sha256)
  (hsafe : ∀ e ∈ blobs, isSafeMemberName e.1 = true) (hnodup : (blobs.map Prod.fst).Nodup)
  (hmanifest : lib.loads ((bundleManifest lib runtimeId exportedAt s blobs).dumpsIndented
    jsonLine 2 0) = .ok (bundleManifest lib runtimeId exportedAt s blobs))
  (honly : ∀ data, (manifestName, data) ∈ contents members →
    data = manifestBytes (bundleManifest lib runtimeId exportedAt s blobs))
  (hunpack : members.foldlM (unpackMember lib) {} = .ok u)
  (hverify : verifyManifest lib u = .ok ())

theorem mem_contents_of_raw (hunpack : members.foldlM (unpackMember lib) {} = .ok u) {name : String}
    {data : ByteArray} (h : u.raw.get? name = some data) : (name, data) ∈ contents members := by
  rw [(unpack_eq_ok hunpack).1] at h
  rcases Dict.mem_of_get?_foldl_set h with h | h
  · exact h
  · cases h

include hmanifest honly hunpack hverify in
theorem manifest_unpacked : u.manifest = bundleManifest lib runtimeId exportedAt s blobs := by
  rcases ((unpack_eq_ok hunpack).2 coherent_empty).manifest with ⟨-, hnull⟩ | ⟨data, hraw, hparse⟩
  · rw [verifyManifest, hnull] at hverify
    cases hverify
  · rw [honly data (mem_contents_of_raw hunpack hraw), parseManifest_manifestBytes hmanifest,
      Except.ok.injEq] at hparse
    exact hparse.symm

include hsum hmanifest honly hunpack hverify in
/-- Under the name of each member of the export but the manifest there is its own content. -/
theorem raw_verified {m : String × ByteArray}
    (hm : m ∈ jsonlMembers s kindToFilename ++ blobMembers blobs) :
    u.raw.get? m.1 = some m.2 := by
  have h := manifest_unpacked hmanifest honly hunpack hverify
  obtain ⟨data, hraw, hsame⟩ := ((verifyManifest_bundleManifest h).mp hverify).1 m hm
  rw [hraw, hsum hsame]

include hsum hmanifest honly hunpack hverify in
/-- The documents of a kind are those that its own file reads as. -/
theorem documents_verified {e : Kind × String} (he : e ∈ kindToFilename) :
    parseJsonl lib (jsonlBytes e.1 (s e.1)) = .ok (u.documents e.1) := by
  have hraw := raw_verified hsum hmanifest honly hunpack hverify
    (List.mem_append_left _ (List.mem_map.mpr ⟨e, he, rfl⟩))
  rcases ((unpack_eq_ok hunpack).2 coherent_empty).documents e he with ⟨hnone, -⟩ | ⟨data, hdata, h⟩
  · rw [hraw] at hnone
    cases hnone
  · rw [hraw, Option.some.injEq] at hdata
    rw [← hdata] at h
    exact h

include hsum hmanifest honly hunpack hverify in
theorem blobs_verified {basename : String} {data : ByteArray} (h : (basename, data) ∈ blobs) :
    u.blobs.get? basename = some data := by
  rw [((unpack_eq_ok hunpack).2 coherent_empty).blobs]
  exact raw_verified hsum hmanifest honly hunpack hverify
    (List.mem_append_right _ (List.mem_map.mpr ⟨(basename, data), h, rfl⟩))

include hsum hmanifest honly hunpack hverify hsafe in
/-- Each member of the export itself can be read. -/
theorem memberOk_exported :
    ∀ m ∈ exportedArchive lib runtimeId exportedAt s blobs, MemberOk lib m := by
  intro member hmember
  obtain ⟨m, hm, rfl⟩ := List.mem_map.mp hmember
  rw [memberOk_fileMember (plainMember_bundleMembers hsafe m hm), ContentOk]
  rcases mem_bundleMembers.mp hm with rfl | ⟨e, he, rfl⟩ | ⟨e, he, rfl⟩
  · rw [if_pos rfl]
    exact ⟨_, parseManifest_manifestBytes hmanifest⟩
  · obtain ⟨-, hkind, hne, -⟩ := tableNames he
    rw [if_neg hne, hkind]
    exact ⟨_, documents_verified hsum hmanifest honly hunpack hverify he⟩
  · have hraw := raw_verified hsum hmanifest honly hunpack hverify
      (List.mem_append_right _ (List.mem_map.mpr ⟨e, he, rfl⟩))
    obtain ⟨member, hmember, hcontent⟩ := List.mem_filterMap.mp (mem_contents_of_raw hunpack hraw)
    have hok := (exists_unpack.mp ⟨u, hunpack⟩ member hmember).contentOk hcontent
    rw [ContentOk] at hok
    exact hok

include hsum hsafe hnodup hmanifest honly in
/-- The export itself reads as the same objects. -/
theorem readArchive_own {c : Contents} (h : readArchive lib now (.ok members) = .ok c) :
    ∃ own, readArchive lib now (.ok (exportedArchive lib runtimeId exportedAt s blobs)) = .ok own ∧
      own.state = c.state := by
  obtain ⟨u, hunpack, hverify, hread, hvalid, -⟩ := readArchive_eq_ok.mp h
  obtain ⟨u₀, hown⟩ := exists_unpack.mpr
    (memberOk_exported hsum hsafe hmanifest honly hunpack hverify)
  obtain ⟨hmanifest₀, hdocuments₀, hunbundled₀, -⟩ := unpacked_exported hsafe hnodup hmanifest hown
  have hsame (k : Kind) : u₀.documents k = u.documents k := by
    by_cases hk : k = .authorizationUse
    · rw [hk, hunbundled₀, ((unpack_eq_ok hunpack).2 coherent_empty).unbundled]
    · obtain ⟨e, he, rfl⟩ := List.mem_map.mp (mem_kindToFilename.mpr hk)
      exact Except.ok.inj ((hdocuments₀ e he).symm.trans
        (documents_verified hsum hmanifest honly hunpack hverify he))
  have hcounts := ((verifyManifest_bundleManifest
    (manifest_unpacked hmanifest honly hunpack hverify)).mp hverify).2
  refine ⟨{ manifest := u₀.manifest, state := c.state, blobs := u₀.blobs }, readArchive_eq_ok.mpr
    ⟨u₀, hown, (verifyManifest_bundleManifest hmanifest₀).mpr ⟨fun m hm => ?_, fun k hk => ?_⟩,
      fun k => ?_, hvalid, rfl, rfl⟩, rfl⟩
  · exact ⟨m.2, (raw_exported hsafe hnodup hown).mpr (List.mem_cons_of_mem _ hm), rfl⟩
  · rw [hsame]
    exact hcounts k hk
  · rw [hsame]
    exact hread k

/-- The files of an accepted import into an empty root are the blobs that were read. -/
theorem files_of_restored {contents : Contents} {store : σ} {root : ArtifactRoot} {result : Json}
    {t' : Target σ} (hroot : root.files = Dict.empty)
    (h : restoreArtifacts lib T contents { store, artifacts := .rooted root } = (.ok result, t')) :
    (∃ artifacts, t'.store = rewriteUris lib T root.asUri contents.blobs store artifacts) ∧
      ∀ basename, t'.artifacts.file basename = contents.blobs.get? basename := by
  obtain ⟨hok, hfiles⟩ := writeBlobs_eq root contents.blobs.entries
  rw [restoreArtifacts] at h
  cases hblobs : writeBlobs root contents.blobs.entries with
  | mk written root' =>
    rw [hblobs] at hok hfiles
    simp only [hblobs] at h
    cases written with
    | error e => cases h
    | ok u =>
      have haccepts := hok.mp rfl
      cases h
      refine ⟨⟨_, rfl⟩, fun basename => ?_⟩
      have htake : contents.blobs.entries.takeWhile (fun e => root.accepts e.1) =
          contents.blobs.entries := List.takeWhile_eq_self_iff.mpr haccepts
      rw [htake, hroot] at hfiles
      rw [ArtifactStore.file, show root' = _ from hfiles]
      exact Dict.get?_ofPairs_entries contents.blobs basename

end Integrity

/-- Of an archive with the manifest of an export, accepted into an empty root, the objects are
those that the export itself reads as; the files are the export's own exactly when no member
under the directory of the artifacts has a name that the manifest does not list. -/
theorem bundle_integrity (lib : Libraries) (T : StateStore σ) (now : Time)
    (hsum : Function.Injective lib.sha256) (runtimeId : String) (exportedAt : Time)
    (source : Option (String → Option ByteArray)) (s : State)
    (hmanifest : lib.loads ((bundleManifest lib runtimeId exportedAt s
      (artifactBlobs lib source s)).dumpsIndented jsonLine 2 0) =
        .ok (bundleManifest lib runtimeId exportedAt s (artifactBlobs lib source s)))
    (members : List Member)
    (honly : ∀ data, (manifestName, data) ∈ contents members → data =
      manifestBytes (bundleManifest lib runtimeId exportedAt s (artifactBlobs lib source s)))
    (store : σ) (root : ArtifactRoot) (hroot : root.files = Dict.empty) (result : Json)
    (t' : Target σ) (haccept : importBundle lib T now { store, artifacts := .rooted root }
      (.ok members) = (.ok result, t')) :
    (∃ own imported blobs artifacts,
      readArchive lib now (exportBundle lib runtimeId exportedAt source s) = .ok own ∧
      T.importState store own.state = .ok imported ∧
      t'.store = rewriteUris lib T root.asUri blobs imported artifacts) ∧
    ((∀ basename data, t'.artifacts.file basename = some data ↔
        (basename, data) ∈ artifactBlobs lib source s) ↔
      ∀ basename data, (artifactDir ++ basename, data) ∈ contents members →
        basename ∈ (artifactBlobs lib source s).map Prod.fst) := by
  have hsafe : ∀ e ∈ artifactBlobs lib source s, isSafeMemberName e.1 = true :=
    isSafeMemberName_of_artifactBlobs
  have hnodup := @nodup_artifactBlobs lib s source
  obtain ⟨c, imported, hread, himport, hrestore⟩ := exists_of_accepted haccept
  obtain ⟨⟨artifacts, hstore⟩, hfiles⟩ := files_of_restored hroot hrestore
  obtain ⟨own, hown, hstate⟩ := readArchive_own hsum hsafe hnodup hmanifest honly hread
  refine ⟨⟨own, imported, c.blobs, artifacts, by rw [exportBundle_eq_ok, hown],
    hstate ▸ himport, hstore⟩, ?_⟩
  obtain ⟨u, hunpack, hverify, -, -, -, hblobs⟩ := readArchive_eq_ok.mp hread
  have hraw := ((unpack_eq_ok hunpack).2 coherent_empty).blobs
  have hverified {basename : String} {data : ByteArray}
      (h : (basename, data) ∈ artifactBlobs lib source s) :
      u.blobs.get? basename = some data :=
    blobs_verified hsum hmanifest honly hunpack hverify h
  simp only [hfiles, hblobs]
  constructor
  · intro hexact basename data hmem
    have hname : artifactDir ++ basename ∈ (contents members).map Prod.fst :=
      List.mem_map_of_mem hmem
    obtain ⟨data', hdata'⟩ := Dict.exists_get?_foldl_set (d := Dict.empty) (.inl hname)
    rw [← (unpack_eq_ok hunpack).1, ← hraw] at hdata'
    exact List.mem_map_of_mem ((hexact basename data').mp hdata')
  · intro hlisted basename data
    refine ⟨fun hget => ?_, hverified⟩
    have hmem := mem_contents_of_raw hunpack ((hraw basename).symm.trans hget)
    obtain ⟨e, he, rfl⟩ := List.mem_map.mp (hlisted basename data hmem)
    have hsame := (hverified he).symm.trans hget
    rw [Option.some.injEq] at hsame
    exact hsame ▸ he

/-! ### A blob that the manifest does not list -/

/-- One more member does not make a manifest fail. -/
theorem verifyManifest_extended {u : Unpacked} {name : String} {data : ByteArray}
    {blobs : Dict String ByteArray} (hnew : u.raw.get? name = none)
    (h : verifyManifest lib u = .ok ()) :
    verifyManifest lib { u with raw := u.raw.set name data, blobs := blobs } = .ok () := by
  have hsum (e : String × Json) (he : verifyChecksum lib u.raw e = .ok ()) :
      verifyChecksum lib (u.raw.set name data) e = .ok () := by
    rw [verifyChecksum] at he ⊢
    cases hvalue : e.2 with
    | str expected =>
      simp only [hvalue] at he ⊢
      have hne : e.1 ≠ name := by
        rintro heq
        rw [heq, hnew] at he
        cases he
      rwa [Dict.get?_set_of_ne _ hne]
    | _ => rfl
  rw [verifyManifest] at h ⊢
  cases hmanifest : u.manifest with
  | obj m =>
    simp only [hmanifest, Result.check_eq_ok, checkEach_eq_ok] at h ⊢
    exact ⟨h.1, fun e he => hsum e (h.2.1 e he), h.2.2⟩
  | _ =>
    simp only [hmanifest] at h
    cases h

/-- One more blob, under a name that an import takes, is read with the rest. -/
theorem readArchive_extended {members : List Member} {c : Contents}
    (hread : readArchive lib now (.ok members) = .ok c) {basename : String} (data : ByteArray)
    (haccepted : acceptedBlob basename = true)
    (hnew : ∀ data', (artifactDir ++ basename, data') ∉ contents members) :
    ∃ c', readArchive lib now (.ok (members ++ [fileMember (artifactDir ++ basename, data)])) =
        .ok c' ∧ c'.state = c.state ∧ c'.blobs = c.blobs.set basename data := by
  obtain ⟨u, hunpack, hverify, hkinds, hvalid, hmanifest, hblobs⟩ := readArchive_eq_ok.mp hread
  have hplain : PlainMember (artifactDir ++ basename) := by
    rw [acceptedBlob, Bool.and_eq_true] at haccepted
    exact plainMember_blob haccepted.2
  have hfresh : u.raw.get? (artifactDir ++ basename) = none := by
    cases hraw : u.raw.get? (artifactDir ++ basename) with
    | none => rfl
    | some data' => exact absurd (mem_contents_of_raw hunpack hraw) (hnew data')
  have hcontent : ContentOk lib (artifactDir ++ basename) data := by
    rw [ContentOk, if_neg (artifactDir_append_ne_manifestName basename),
      filenameToKind_blob, blobName_blob]
    exact ⟨startsWith_artifactDir basename, haccepted⟩
  have hmember : unpackMember lib u (fileMember (artifactDir ++ basename, data)) = .ok { u with
      raw := u.raw.set (artifactDir ++ basename) data, blobs := u.blobs.set basename data } := by
    rw [unpackMember_eq_ok, contentOf_fileMember hplain]
    refine ⟨(memberOk_fileMember hplain).mpr hcontent, unpackData_eq_ok.mpr (.inr (.inr
      ⟨artifactDir_append_ne_manifestName basename, filenameToKind_blob basename,
        startsWith_artifactDir basename, ?_, ?_⟩))⟩
    · rwa [blobName_blob]
    · rw [blobName_blob]
  have hextended : (members ++ [fileMember (artifactDir ++ basename, data)]).foldlM
      (unpackMember lib) {} = .ok { u with
        raw := u.raw.set (artifactDir ++ basename) data, blobs := u.blobs.set basename data } := by
    rw [List.foldlM_append, hunpack]
    exact Result.bind_eq_ok.mpr ⟨u, rfl, Result.bind_eq_ok.mpr ⟨_, hmember, rfl⟩⟩
  exact ⟨{ c with blobs := c.blobs.set basename data }, readArchive_eq_ok.mpr ⟨_, hextended,
    verifyManifest_extended hfresh hverify, hkinds, hvalid, hmanifest, by rw [hblobs]⟩, rfl, rfl⟩

/-- A root that takes every plain name. -/
def freshRoot : ArtifactRoot :=
  { files := .empty, asUri := fun basename => .ok ("file:///target/" ++ basename)
    refuses := fun _ => none }

def workLibraries : Libraries := sampleLibraries .work MemoryStore.plainWork []

def workArchive : List Member :=
  exportedArchive workLibraries "runtime" 0 (State.single .work MemoryStore.plainWork) []

theorem faithful_workLibraries : workLibraries.Faithful (bundleManifest workLibraries "runtime" 0
    (State.single .work MemoryStore.plainWork) []) (State.single .work MemoryStore.plainWork) :=
  faithful_sampleLibraries []

theorem readArchive_workArchive : ∃ c, readArchive workLibraries 0 (.ok workArchive) = .ok c ∧
    c.state = (State.single .work MemoryStore.plainWork).bundled ∧
    ∀ basename, c.blobs.get? basename = none := by
  have hempty : ∀ e ∈ ([] : List (String × ByteArray)), isSafeMemberName e.1 = true :=
    fun _ h => absurd h List.not_mem_nil
  obtain ⟨c, hread⟩ := @exists_readArchive_exported _ 0 _ _ _ _ hempty List.nodup_nil
    faithful_workLibraries (fun k _ => uncut_single (by decide) k)
    (fun _ h => absurd h List.not_mem_nil) (by decide)
  obtain ⟨-, -, -, hstate, hblobs⟩ :=
    readArchive_exported hempty List.nodup_nil faithful_workLibraries hread
  refine ⟨c, hread, hstate, fun basename => ?_⟩
  cases hget : c.blobs.get? basename with
  | none => rfl
  | some data => exact absurd ((hblobs basename data).mp hget) List.not_mem_nil

theorem importState_workArchive : (MemoryStore.stateStore (fun _ => "") 0).importState .empty
    (State.single .work MemoryStore.plainWork).bundled =
      .ok (MemoryStore.empty.saveAll (State.single .work MemoryStore.plainWork).bundled.documents) :=
  MemoryStore.importState_empty.mpr ⟨⟨by decide, by decide, by decide⟩, rfl⟩

/-- An archive of a read state whose blobs the root takes is accepted. -/
theorem exists_accepted {target : Target σ} {root : ArtifactRoot} {members : List Member}
    {c : Contents} {store : σ} (hroot : target.artifacts = .rooted root)
    (hread : readArchive lib now (.ok members) = .ok c)
    (himport : T.importState target.store c.state = .ok store)
    (haccepts : ∀ basename data, c.blobs.get? basename = some data → root.accepts basename = true) :
    ∃ result t', importBundle lib T now target (.ok members) = (.ok result, t') := by
  rw [importBundle_eq hread himport]
  cases hresult : (restoreArtifacts lib T c { target with store }).1 with
  | ok result => exact ⟨result, _, Prod.ext hresult rfl⟩
  | error e =>
    obtain ⟨root', hroot', hrefused⟩ := restoreArtifacts_raises.mp ⟨e, hresult⟩
    obtain rfl := ArtifactStore.rooted.inj (hroot.symm.trans hroot')
    exact absurd (fun (e : String × ByteArray) he =>
      haccepts e.1 e.2 (Dict.get?_eq_some.mpr he)) hrefused

theorem mem_workArchive {name : String} {data : ByteArray}
    (h : (name, data) ∈ contents workArchive) :
    (name = manifestName → data = manifestBytes (bundleManifest workLibraries "runtime" 0
      (State.single .work MemoryStore.plainWork) [])) ∧
    ∀ basename, name ≠ artifactDir ++ basename := by
  have hcontents : contents workArchive =
      bundleMembers workLibraries "runtime" 0 (State.single .work MemoryStore.plainWork) [] :=
    contents_fileMembers (plainMember_bundleMembers (fun _ h => absurd h List.not_mem_nil))
  rw [hcontents] at h
  rcases mem_bundleMembers.mp h with h | ⟨e, he, h⟩ | ⟨e, he, -⟩
  · obtain ⟨rfl, rfl⟩ := Prod.mk.inj h
    exact ⟨fun _ => rfl, fun basename => (artifactDir_append_ne_manifestName basename).symm⟩
  · obtain ⟨rfl, -⟩ := Prod.mk.inj h
    exact ⟨fun heq => absurd heq (tableNames he).2.2.1,
      fun basename => (artifactDir_append_ne basename (tableNames he).2.2.2).symm⟩
  · exact absurd he List.not_mem_nil

theorem bundle_integrity_work : ∃ result t', importBundle workLibraries
    (MemoryStore.stateStore (fun _ => "") 0) 0 ⟨.empty, .rooted freshRoot⟩ (.ok workArchive) =
      (.ok result, t') ∧ ∀ basename data, t'.artifacts.file basename = some data ↔
        (basename, data) ∈ artifactBlobs workLibraries none
          (State.single .work MemoryStore.plainWork) := by
  obtain ⟨c, hread, hstate, hblobs⟩ := readArchive_workArchive
  obtain ⟨result, t', haccept⟩ := @exists_accepted _ workLibraries
    (MemoryStore.stateStore (fun _ => "") 0) 0 ⟨.empty, .rooted freshRoot⟩ freshRoot workArchive c _
    rfl hread (hstate ▸ importState_workArchive) (fun basename data h => by simp [hblobs] at h)
  exact ⟨result, t', haccept, (bundle_integrity workLibraries
    (MemoryStore.stateStore (fun _ => "") 0) 0 bytesText_injective "runtime" 0 none
    (State.single .work MemoryStore.plainWork) faithful_workLibraries.manifest workArchive
    (fun data h => (mem_workArchive h).1 rfl) .empty freshRoot rfl result t' haccept).2.mpr
    (fun basename data h => absurd rfl ((mem_workArchive h).2 basename))⟩

/-- An archive with one more blob than its manifest lists is accepted, and the blob written. -/
theorem unlisted_blob_accepted :
    ¬ ∀ (lib : Libraries) (digest : Json → String) (now : Time) (runtimeId : String)
      (exportedAt : Time) (source : Option (String → Option ByteArray)) (s : State)
      (members : List Member) (root : ArtifactRoot) (result : Json) (t' : Target MemoryStore),
      Function.Injective lib.sha256 →
      lib.loads ((bundleManifest lib runtimeId exportedAt s
        (artifactBlobs lib source s)).dumpsIndented jsonLine 2 0) =
          .ok (bundleManifest lib runtimeId exportedAt s (artifactBlobs lib source s)) →
      (∀ data, (manifestName, data) ∈ contents members → data =
        manifestBytes (bundleManifest lib runtimeId exportedAt s (artifactBlobs lib source s))) →
      root.files = Dict.empty →
      importBundle lib (MemoryStore.stateStore digest now) now ⟨.empty, .rooted root⟩
        (.ok members) = (.ok result, t') →
      ∀ basename data, t'.artifacts.file basename = some data ↔
        (basename, data) ∈ artifactBlobs lib source s := by
  intro h
  obtain ⟨c, hread, hstate, hblobs⟩ := readArchive_workArchive
  obtain ⟨c', hread', hstate', hblobs'⟩ := readArchive_extended hread "text".toUTF8
    (show acceptedBlob "extra" = true by decide)
    (fun _ hmem => (mem_workArchive hmem).2 "extra" rfl)
  have hget (basename : String) : c'.blobs.get? basename =
      if basename = "extra" then some "text".toUTF8 else none := by
    rw [hblobs', Dict.get?_set, hblobs]
  have haccepts (basename : String) (data : ByteArray) (hdata : c'.blobs.get? basename = some data) :
      freshRoot.accepts basename = true := by
    rw [hget] at hdata
    split_ifs at hdata with hname
    rw [hname]
    decide
  obtain ⟨result, t', haccept⟩ := @exists_accepted _ workLibraries
    (MemoryStore.stateStore (fun _ => "") 0) 0 ⟨.empty, .rooted freshRoot⟩ freshRoot _ c' _
    rfl hread' ((hstate'.trans hstate) ▸ importState_workArchive) haccepts
  obtain ⟨c₁, store, hread₁, himport₁, hrestore⟩ := exists_of_accepted haccept
  obtain rfl := Except.ok.inj (hread'.symm.trans hread₁)
  have hfile := ((files_of_restored rfl hrestore).2 "extra").trans (hget "extra")
  have hlisted := h workLibraries (fun _ => "") 0 "runtime" 0 none
    (State.single .work MemoryStore.plainWork) _ freshRoot result t' bytesText_injective
    faithful_workLibraries.manifest (fun data hmem => ?_) rfl haccept "extra" "text".toUTF8
  · exact absurd (hlisted.mp (hfile.trans (if_pos rfl))) List.not_mem_nil
  · rw [contents, List.filterMap_append, List.mem_append] at hmem
    rcases hmem with hmem | hmem
    · exact (mem_workArchive hmem).1 rfl
    · obtain ⟨member, hmember, hcontent⟩ := List.mem_filterMap.mp hmem
      rw [List.mem_singleton.mp hmember, contentOf_fileMember (plainMember_blob (by decide)),
        Option.some.injEq, Prod.mk.injEq] at hcontent
      exact absurd hcontent.1 (by decide)

end PortableRuntime
