import PortableRuntime.Python.JsonLines
import PortableRuntime.Stores.RoundTrip

/-!
# Bundles

A bundle is an archive of a manifest, a member of JSON lines for each kind that the table of
file names has, and the blobs of the artifacts.  An import reads the archive, fills a store
and then writes the blobs under a root; what it uses of the store is an interface.
-/

namespace PortableRuntime

/-! ## Names -/

def kindToFilename : List (Kind × String) :=
  [(.work, "works.jsonl"), (.run, "runs.jsonl"), (.artifact, "artifacts.jsonl"),
   (.evidence, "evidence.jsonl"), (.decision, "decisions.jsonl"), (.action, "actions.jsonl"),
   (.outcome, "outcomes.jsonl"), (.knowledge, "knowledge.jsonl"),
   (.knowledgeProjection, "knowledge_projections.jsonl"), (.event, "events.jsonl"),
   (.step, "steps.jsonl"), (.attempt, "attempts.jsonl"), (.checkpoint, "checkpoints.jsonl"),
   (.compensation, "compensations.jsonl"), (.record, "records.jsonl"),
   (.relation, "relations.jsonl"), (.authorization, "authorizations.jsonl")]

/-- `_FILENAME_TO_KIND`. -/
def filenameToKind (name : String) : Option Kind :=
  (kindToFilename.find? (fun e => e.2 = name)).map Prod.fst

/-- `ARTIFACT_DIR` with its slash. -/
def artifactDir : String := "artifacts/"

def manifestName : String := "manifest.json"

/-- A relative name without traversal. -/
def isSafeMemberName (name : String) : Bool :=
  let cs := name.toList
  !(name == "" || name == "." || name == "./") &&
    !(Text.startsWith name "/" || cs.head? == some Text.backslash) &&
    !(cs.drop 1).head? == some ':' &&
    !(cs.splitOn '/').contains ['.', '.'] &&
    !(cs.contains Text.backslash && cs.contains ':')

/-- `fullmatch` of `[A-Za-z0-9][A-Za-z0-9_.-]*`. -/
def isPlainName (name : String) : Bool :=
  match name.toList with
  | [] => false
  | c :: rest => Text.isAlnum c &&
      rest.all (fun c => Text.isAlnum c || c == '_' || c == '.' || c == '-')

def holdsSeparator (name : String) : Bool :=
  name.toList.contains '/' || name.toList.contains Text.backslash

/-! ## Export -/

/-- A member of an archive.  `data` is what `extractfile` and `read` give: nothing for a
member without content, or an exception. -/
structure Member where
  name : String
  isDir : Bool := false
  data : Result (Option ByteArray)

def fileMember (m : String × ByteArray) : Member := { name := m.1, data := .ok (some m.2) }

/-- What comes from outside the runtime: `sha256`, the last part of the path of a URI,
`json.loads`, and `model_validate` of a kind's model. -/
structure Libraries where
  sha256 : ByteArray → String
  uriName : String → Result String
  loads : String → Result Json
  modelValidate : (k : Kind) → Json → Result (Model k)

def bundleSchemaVersion : String := "1"

def bundleFormat : String := "portable-runtime-bundle-v1"

def manifest (runtimeId : String) (exportedAt : Time) (counts : List (String × Json))
    (artifactFiles : List String) (checksums : List (String × Json)) : Json :=
  .obj [("schema_version", .str bundleSchemaVersion), ("format", .str bundleFormat),
    ("runtime_id", .str runtimeId), ("exported_at", .str (Text.isoformat exportedAt)),
    ("counts", .obj counts), ("artifact_files", .ofStrings (Text.sorted artifactFiles)),
    ("checksums", .obj checksums)]

def jsonText (k : Kind) (value : Model k) : String := Json.dumps jsonLine (.obj (k.dump value))

def jsonlText (k : Kind) (values : List (Model k)) : String :=
  if values.isEmpty then "" else Text.join "\n" (values.map (jsonText k)) ++ "\n"

def jsonlBytes (k : Kind) (values : List (Model k)) : ByteArray := (jsonlText k values).toUTF8

/-- The file of an artifact that can be read, under a name the archive may take. -/
def artifactBlob (lib : Libraries) (read : String → Option ByteArray) (artifact : Artifact) :
    Option (String × ByteArray) := do
  let uri ← artifact.uri
  guard (uri ≠ "" ∧ Text.startsWith uri "file:")
  let data ← read uri
  let basename ← (lib.uriName uri).toOption
  guard (basename ≠ "" ∧ basename ≠ "." ∧ basename ≠ ".." ∧ isSafeMemberName basename)
  return (basename, data)

/-- The first file under each name. -/
def collectBlobs (lib : Libraries) (read : String → Option ByteArray) :
    Dict String ByteArray → List Artifact → Dict String ByteArray
  | blobs, [] => blobs
  | blobs, artifact :: rest =>
    match artifactBlob lib read artifact with
    | some (basename, data) =>
      if (blobs.get? basename).isSome then collectBlobs lib read blobs rest
      else collectBlobs lib read (blobs.set basename data) rest
    | none => collectBlobs lib read blobs rest

/-- The blobs of a bundle; without an artifact store there are none. -/
def artifactBlobs (lib : Libraries) (source : Option (String → Option ByteArray)) (state : State) :
    List (String × ByteArray) :=
  (source.elim Dict.empty (fun read =>
    collectBlobs lib read Dict.empty (state .artifact))).entries.insertionSort (·.1 ≤ ·.1)

/-- The members of JSON lines, for some entries of the table. -/
def jsonlMembers (state : State) (table : List (Kind × String)) : List (String × ByteArray) :=
  table.map (fun e => (e.2, jsonlBytes e.1 (state e.1)))

def blobMembers (blobs : List (String × ByteArray)) : List (String × ByteArray) :=
  blobs.map (fun e => (artifactDir ++ e.1, e.2))

def checksums (lib : Libraries) (members : List (String × ByteArray)) : List (String × Json) :=
  members.map (fun m => (m.1, .str (lib.sha256 m.2)))

/-- The manifest of a state whose artifacts have these blobs. -/
def bundleManifest (lib : Libraries) (runtimeId : String) (exportedAt : Time) (state : State)
    (blobs : List (String × ByteArray)) : Json :=
  manifest runtimeId exportedAt (Kind.all.map (fun k => (k.text, .int (state k).length)))
    (blobs.map Prod.fst)
    (checksums lib (jsonlMembers state kindToFilename ++ blobMembers blobs))

def manifestBytes (m : Json) : ByteArray := (m.dumpsIndented jsonLine 2 0).toUTF8

/-- The members of an export, each with its content. -/
def bundleMembers (lib : Libraries) (runtimeId : String) (exportedAt : Time) (state : State)
    (blobs : List (String × ByteArray)) : List (String × ByteArray) :=
  (manifestName, manifestBytes (bundleManifest lib runtimeId exportedAt state blobs)) ::
    (jsonlMembers state kindToFilename ++ blobMembers blobs)

def exportBundle (lib : Libraries) (runtimeId : String) (exportedAt : Time)
    (source : Option (String → Option ByteArray)) (state : State) : Result (List Member) := do
  let blobs := artifactBlobs lib source state
  checkEach (fun (m : String × ByteArray) =>
    guardValue (isSafeMemberName m.1) s!"unsafe member {Text.pyRepr m.1}") (blobMembers blobs)
  return (bundleMembers lib runtimeId exportedAt state blobs).map fileMember

/-! ## Reading an archive -/

def decodeUtf8 (data : ByteArray) : Result String :=
  orRaise (String.fromUTF8? data) "'utf-8' codec can't decode bytes"

def parseManifest (lib : Libraries) (data : ByteArray) : Result Json := do
  lib.loads (← decodeUtf8 data)

def parseJsonl (lib : Libraries) (data : ByteArray) : Result (List Json) := do
  (Text.nonBlankLines (← decodeUtf8 data)).mapM lib.loads

/-- What has been read of an archive: the manifest, each member by name, the documents of
each kind and the blobs. -/
structure Unpacked where
  manifest : Json := .null
  raw : Dict String ByteArray := Dict.empty
  documents : Kind → List Json := fun _ => []
  blobs : Dict String ByteArray := Dict.empty

/-- A name without a leading `./`. -/
def memberName (name : String) : String :=
  if Text.startsWith name "./" then String.ofList (name.toList.drop 2) else name

/-- The part of a name after the directory of the artifacts. -/
def blobName (name : String) : String := String.ofList (name.toList.drop artifactDir.toList.length)

def unpackData (lib : Libraries) (u : Unpacked) (name : String) (data : ByteArray) :
    Result Unpacked :=
  if name = manifestName then do
    return { u with raw := u.raw.set name data, manifest := ← parseManifest lib data }
  else match filenameToKind name with
    | some kind => do
      return { u with
        raw := u.raw.set name data
        documents := Function.update u.documents kind (← parseJsonl lib data) }
    | none => do
      guardValue (Text.startsWith name artifactDir)
        s!"unexpected bundle member: {Text.pyRepr name} (not in allowed manifest)"
      guardValue (blobName name ≠ "" && !holdsSeparator (blobName name))
        s!"invalid artifact member: {Text.pyRepr name}"
      guardValue (isSafeMemberName (blobName name))
        s!"unsafe artifact name: {Text.pyRepr (blobName name)}"
      return { u with raw := u.raw.set name data, blobs := u.blobs.set (blobName name) data }

def unpackMember (lib : Libraries) (u : Unpacked) (member : Member) : Result Unpacked :=
  let name := memberName member.name
  if name = "" ∨ name = "." then .ok u
  else do
    guardValue (isSafeMemberName name)
      s!"unsafe bundle member path: {Text.pyRepr name} (absolute or traversal not allowed)"
    if member.isDir then return u
    else match ← member.data with
      | none => return u
      | some data => unpackData lib u name data

/-- A checksum that is no text is not looked at. -/
def verifyChecksum (lib : Libraries) (raw : Dict String ByteArray) (e : String × Json) :
    Result Unit :=
  match e.2 with
  | .str expected => match raw.get? e.1 with
    | none => raiseValue s!"checksum entry {Text.pyRepr e.1} missing from bundle"
    | some data => guardValue (lib.sha256 data == expected)
        s!"checksum mismatch for {Text.pyRepr e.1}: expected {expected}, got {lib.sha256 data}"
  | _ => .ok ()

/-- A count of a kind that is not in the table is not looked at. -/
def verifyCount (documents : Kind → List Json) (e : String × Json) : Result Unit :=
  match kindToFilename.find? (fun t => t.1.text = e.1) with
  | some t => guardValue (Json.pyEq (.int (documents t.1).length) e.2)
      (s!"count mismatch for {Text.pyRepr e.1}: manifest {e.2.pyStr} vs actual " ++
        s!"{(documents t.1).length}")
  | none => .ok ()

/-- The entries of an object, and none of anything else. -/
def entriesOf (j : Json) : Fields :=
  match j with
  | .obj entries => entries
  | _ => []

def verifyManifest (lib : Libraries) (u : Unpacked) : Result Unit :=
  match u.manifest with
  | .null => raiseValue "bundle missing manifest.json"
  | .obj m => do
    guardValue ((Fields.get m "schema_version").eqStr bundleSchemaVersion)
      ("unsupported bundle schema_version: " ++ (Fields.get m "schema_version").pyStr)
    checkEach (verifyChecksum lib u.raw) (entriesOf (Fields.get m "checksums"))
    checkEach (verifyCount u.documents) (entriesOf (Fields.get m "counts"))
  | _ => .error (.runtimeError "object has no attribute 'get'")

/-- The documents of some kinds as their models. -/
def readKinds (lib : Libraries) (documents : Kind → List Json) : List Kind → State → Result State
  | [], state => .ok state
  | k :: rest, state => do
    readKinds lib documents rest
      (Function.update state k (← (documents k).mapM (lib.modelValidate k)))

/-- Validate lifecycle/relation invariants and refs before import. -/
def validateStateInvariants (now : Time) (state : State) : Result Unit := do
  checkEach (fun (r : BaseRecord) => guardValue (validateRecord r).isEmpty
    (s!"record lifecycle invariant failed for {r.id}: " ++ Text.join "; " (validateRecord r)))
    state.records
  checkEach (fun (r : RecordRelation) => do
    guardValue (validateRelation r).isEmpty
      (s!"relation invariant failed for {r.id}: " ++ Text.join "; " (validateRelation r))
    guardValue (r.subjectRef ≠ "" && r.objectRef ≠ "")
      s!"relation {r.id} missing subject_ref/object_ref") state.relations
  checkEach (fun (g : AuthorizationGrant) => do
    guardValue (g.principalRef ≠ "" && g.granteeRef ≠ "")
      s!"authorization {g.id} missing principal/grantee"
    guardValue (!g.allowedCapabilities.isEmpty)
      s!"authorization {g.id} allowed_capabilities must not be empty") state.authorizations
  assertValidStateGraph now state

/-- What an archive holds, once every check on it has passed. -/
structure Contents where
  manifest : Json
  state : State
  blobs : Dict String ByteArray

/-- Everything up to the first effect of an import.  The archive itself may be unreadable. -/
def readArchive (lib : Libraries) (now : Time) (archive : Result (List Member)) :
    Result Contents := do
  let u ← (← archive).foldlM (unpackMember lib) {}
  verifyManifest lib u
  let state ← readKinds lib u.documents Kind.all State.none
  validateStateInvariants now state
  return { manifest := u.manifest, state, blobs := u.blobs }

/-! ## Import -/

/-- What `import_bundle` uses of the store it fills. -/
structure StateStore (σ : Type) where
  importState : σ → State → Result σ
  exportState : σ → State
  getArtifact : σ → String → Option Artifact
  saveArtifact : σ → Artifact → Result σ

def MemoryStore.stateStore (digest : Json → String) (now : Time) : StateStore MemoryStore where
  importState := importState digest now
  exportState := exportState
  getArtifact st id := st.get .artifact id
  saveArtifact st a := st.saveChecked now .artifact a

def SqliteDatabase.stateStore (digest : Json → String) (now : Time) :
    StateStore SqliteDatabase where
  importState := importState digest now
  exportState := exportState
  getArtifact db id := (db.store.records .artifact).get? id
  saveArtifact db a := db.atomicGraphSave now .artifact a

/-- The root of an artifact store: its files, the URIs of names under it, and the exception
that the file system raises when a name cannot be written. -/
structure ArtifactRoot where
  files : Dict String ByteArray
  asUri : String → Result String
  refuses : String → Option PyError

/-- An artifact store without a root takes the blobs under names of its own. -/
inductive ArtifactStore where
  | absent
  | rootless
  | rooted (root : ArtifactRoot)

structure Target (σ : Type) where
  store : σ
  artifacts : ArtifactStore

-- bytes are compared as the core library compares them, whatever else is imported
instance (priority := high) instDecidableEqBytes : DecidableEq ByteArray :=
  ByteArray.instDecidableEq

/-- A file under the root; one that is there already with this content is left alone. -/
def writeBlob (root : ArtifactRoot) (basename : String) (blob : ByteArray) :
    Result ArtifactRoot := do
  guardValue (isPlainName basename) s!"invalid artifact basename: {Text.pyRepr basename}"
  guardValue (!holdsSeparator basename && !Text.hasInfix basename "..")
    s!"unsafe artifact basename: {Text.pyRepr basename}"
  match root.refuses basename with
  | some e => .error e
  | none =>
    if root.files.get? basename = some blob then return root
    else return { root with files := root.files.set basename blob }

/-- The files of the blobs; those before the first refused one stay written. -/
def writeBlobs : ArtifactRoot → List (String × ByteArray) → Result Unit × ArtifactRoot
  | root, [] => (.ok (), root)
  | root, (basename, blob) :: rest =>
    match writeBlob root basename blob with
    | .ok root' => writeBlobs root' rest
    | .error e => (.error e, root)

/-- Point an artifact whose file was unpacked to that file. -/
def rewriteUri {σ : Type} (lib : Libraries) (T : StateStore σ) (asUri : String → Result String)
    (blobs : Dict String ByteArray) (store : σ) (artifact : Artifact) : Result σ :=
  match artifact.uri with
  | none => return store
  | some oldUri =>
    if !Text.startsWith oldUri "file:" then return store
    else do
      let basename ← lib.uriName oldUri
      if (blobs.get? basename).isNone then return store
      else do
        let newUri ← asUri basename
        match T.getArtifact store artifact.id with
        | none => return store
        | some existing =>
          if oldUri = newUri ∨ existing.uri = some newUri then return store
          else T.saveArtifact store { existing with uri := some newUri }

/-- The first exception ends the rewriting, and is swallowed. -/
def rewriteUris {σ : Type} (lib : Libraries) (T : StateStore σ) (asUri : String → Result String)
    (blobs : Dict String ByteArray) : σ → List Artifact → σ
  | store, [] => store
  | store, artifact :: rest =>
    match rewriteUri lib T asUri blobs store artifact with
    | .ok store' => rewriteUris lib T asUri blobs store' rest
    | .error _ => store

/-- Write the blobs, after the state has been imported. -/
def restoreArtifacts {σ : Type} (lib : Libraries) (T : StateStore σ) (contents : Contents)
    (target : Target σ) : Result Json × Target σ :=
  match target.artifacts with
  | .rooted root =>
    match writeBlobs root contents.blobs.entries with
    | (.error e, root') => (.error e, { target with artifacts := .rooted root' })
    | (.ok (), root') =>
      (.ok contents.manifest,
        { store := rewriteUris lib T root.asUri contents.blobs target.store
            (if contents.blobs.entries.isEmpty then [] else contents.state .artifact)
          artifacts := .rooted root' })
  | _ => (.ok contents.manifest, target)

/-- The result of an import and the target it leaves. -/
def importBundle {σ : Type} (lib : Libraries) (T : StateStore σ) (now : Time)
    (target : Target σ) (archive : Result (List Member)) : Result Json × Target σ :=
  match readArchive lib now archive with
  | .error e => (.error e, target)
  | .ok contents =>
    match T.importState target.store contents.state with
    | .error e => (.error e, target)
    | .ok store => restoreArtifacts lib T contents { target with store }

end PortableRuntime
