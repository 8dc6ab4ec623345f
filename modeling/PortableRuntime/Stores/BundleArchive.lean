import PortableRuntime.Stores.Bundle

/-!
# What an archive reads as

What has been read of an archive is a function of the last content under each name; which
members can be read does not depend on what came before them.  An exported archive reads as
the documents of its state when no text of the state cuts its line.
-/

namespace PortableRuntime

variable {lib : Libraries} {now : Time} {s : State} {k : Kind}

/-! ## The lines of a member -/

/-- The text of an object reads as its document. -/
def Libraries.Reads (lib : Libraries) (k : Kind) (v : Model k) : Prop :=
  ∃ document, lib.loads (jsonText k v) = .ok document ∧
    lib.modelValidate k document = .ok (k.document v)

theorem decodeUtf8_toUTF8 (text : String) : decodeUtf8 text.toUTF8 = .ok text := by
  rw [decodeUtf8, orRaise_eq_ok]
  exact dif_pos text.isValidUTF8

theorem toList_join_lineFeed {lines : List String} (h : lines ≠ []) :
    (Text.join "\n" lines ++ "\n").toList =
      (lines.map String.toList).flatMap (· ++ [Text.lineFeed]) := by
  induction lines with
  | nil => exact absurd rfl h
  | cons l rest ih =>
    cases rest with
    | nil => simp [Text.join, Text.lineFeed]
    | cons l' rest =>
      have hrest := ih (by simp)
      have hjoin : Text.join "\n" (l :: l' :: rest) = l ++ "\n" ++ Text.join "\n" (l' :: rest) := rfl
      rw [String.toList_append] at hrest
      rw [hjoin, String.toList_append, String.toList_append, String.toList_append,
        List.append_assoc, hrest]
      simp [Text.lineFeed]

theorem toList_jsonlText (values : List (Model k)) : (jsonlText k values).toList =
    ((values.map (jsonText k)).map String.toList).flatMap (· ++ [Text.lineFeed]) := by
  cases values with
  | nil => rfl
  | cons v rest => exact toList_join_lineFeed (by simp)

theorem parseJsonl_jsonlBytes (values : List (Model k)) :
    parseJsonl lib (jsonlBytes k values) =
      (Text.nonBlankLines (jsonlText k values)).mapM lib.loads := by
  rw [parseJsonl, jsonlBytes, decodeUtf8_toUTF8]
  rfl

/-- No object holds a text that cuts its line. -/
def Uncut (k : Kind) (values : List (Model k)) : Prop :=
  ∀ v ∈ values, Json.isCut (.obj (k.dump v)) = false

theorem uncut_jsonText {values : List (Model k)} : Uncut k values ↔
    ∀ l ∈ (values.map (jsonText k)).map String.toList, Text.uncut l = true := by
  simp only [Uncut, List.forall_mem_map, jsonText, Json.uncut_dumps, Bool.not_eq_true']

theorem nonBlankLines_jsonlText {values : List (Model k)} (h : Uncut k values) :
    Text.nonBlankLines (jsonlText k values) = values.map (jsonText k) := by
  refine Text.nonBlankLines_of_uncut (fun l hl => ?_) (fun l hl => ?_) (toList_jsonlText values)
  · exact uncut_jsonText.mp h _ (List.mem_map_of_mem hl)
  · obtain ⟨v, -, rfl⟩ := List.mem_map.mp hl
    exact Json.nonBlank_dumps (k.dump v)

/-- As many lines as objects: none is cut. -/
theorem uncut_of_length {values : List (Model k)}
    (h : (Text.nonBlankLines (jsonlText k values)).length = values.length) : Uncut k values := by
  have henclosed : ∀ l ∈ (values.map (jsonText k)).map String.toList, Text.Enclosed l := by
    simp only [List.forall_mem_map]
    exact fun v _ => Json.enclosed_dumps (k.dump v)
  rw [uncut_jsonText, ← (Text.pieces_flatMap henclosed).2, ← toList_jsonlText,
    ← Text.length_nonBlankLines, h]
  simp

/-- The lines of some objects read as their documents. -/
theorem exists_documents {values : List (Model k)} (h : ∀ v ∈ values, lib.Reads k v) :
    ∃ documents, (values.map (jsonText k)).mapM lib.loads = .ok documents ∧
      documents.length = values.length ∧
      documents.mapM (lib.modelValidate k) = .ok (values.map k.document) := by
  induction values with
  | nil => exact ⟨[], rfl, rfl, rfl⟩
  | cons v rest ih =>
    obtain ⟨document, hloads, hvalidate⟩ := h v List.mem_cons_self
    obtain ⟨documents, hrest, hlength, hread⟩ := ih (fun w hw => h w (List.mem_cons_of_mem _ hw))
    refine ⟨document :: documents, ?_, by simp [hlength], ?_⟩
    · rw [List.map_cons, List.mapM_cons, hloads]
      simp only [bind, Except.bind, hrest]
      rfl
    · rw [List.map_cons, List.mapM_cons, hvalidate]
      simp only [bind, Except.bind, hread]
      rfl

/-! ## Names -/

theorem toList_artifactDir_append (basename : String) :
    (artifactDir ++ basename).toList = artifactDir.toList ++ basename.toList :=
  String.toList_append

theorem blobName_blob (basename : String) : blobName (artifactDir ++ basename) = basename := by
  rw [blobName, toList_artifactDir_append, List.drop_left, String.ofList_toList]

/-- A name under the directory is the directory and the rest. -/
theorem artifactDir_append_blobName {name : String} (h : Text.startsWith name artifactDir = true) :
    artifactDir ++ blobName name = name := by
  rw [Text.startsWith, List.isPrefixOf_iff_prefix] at h
  obtain ⟨rest, hrest⟩ := h
  rw [← String.toList_inj, toList_artifactDir_append, blobName, String.toList_ofList, ← hrest,
    List.drop_left]

theorem startsWith_artifactDir (basename : String) :
    Text.startsWith (artifactDir ++ basename) artifactDir = true := by
  rw [Text.startsWith, toList_artifactDir_append, List.isPrefixOf_iff_prefix]
  exact List.prefix_append _ _

theorem artifactDir_append_ne (basename : String) {name : String}
    (h : Text.startsWith name artifactDir = false) : artifactDir ++ basename ≠ name := by
  rintro rfl
  rw [startsWith_artifactDir] at h
  exact absurd h (by decide)

/-- The manifest and the tables stand outside the directory of the artifacts. -/
theorem startsWith_fixedName : Text.startsWith manifestName artifactDir = false ∧
    ∀ e ∈ kindToFilename, Text.startsWith e.2 artifactDir = false := by decide

theorem artifactDir_append_ne_manifestName (basename : String) :
    artifactDir ++ basename ≠ manifestName :=
  artifactDir_append_ne basename startsWith_fixedName.1

theorem filenameToKind_blob (basename : String) : filenameToKind (artifactDir ++ basename) = none := by
  rw [filenameToKind, Option.map_eq_none_iff, List.find?_eq_none]
  intro e he heq
  exact artifactDir_append_ne basename (startsWith_fixedName.2 e he) (of_decide_eq_true heq).symm

/-- Under the directory a safe name stays safe. -/
theorem isSafeMemberName_blob {basename : String} (h : isSafeMemberName basename = true) :
    isSafeMemberName (artifactDir ++ basename) = true := by
  have hcontains (c : Char) (hdir : artifactDir.toList.contains c = false) :
      (artifactDir.toList ++ basename.toList).contains c = basename.toList.contains c := by
    rw [List.contains_append, hdir, Bool.false_or]
  have hparts : ((artifactDir.toList ++ basename.toList).splitOn '/').contains ['.', '.'] =
      (basename.toList.splitOn '/').contains ['.', '.'] := by
    have hsplit : (artifactDir.toList ++ basename.toList).splitOn '/' =
        "artifacts".toList :: basename.toList.splitOn '/' :=
      List.splitOn_append_cons_self "artifacts".toList basename.toList
    rw [hsplit, List.contains_cons, show (['.', '.'] == "artifacts".toList) = false by decide,
      Bool.false_or]
  have hname (name : String) (hdir : name.toList.head? ≠ some 'a') :
      (artifactDir ++ basename == name) = false := by
    rw [beq_eq_false_iff_ne]
    rintro rfl
    exact hdir (by rw [toList_artifactDir_append]; rfl)
  have hstart : Text.startsWith (artifactDir ++ basename) "/" = false := by
    rw [Text.startsWith, toList_artifactDir_append]
    rfl
  simp only [isSafeMemberName, Bool.and_eq_true, Bool.not_eq_true'] at h
  obtain ⟨⟨-, hdots⟩, hdrive⟩ := h
  simp only [isSafeMemberName, hname "" (by decide), hname "." (by decide),
    hname "./" (by decide), hstart, toList_artifactDir_append, hparts, hdots,
    hcontains Text.backslash (by decide), hcontains ':' (by decide), hdrive]
  rfl

/-- A name that an import reads as it stands. -/
structure PlainMember (name : String) : Prop where
  same : memberName name = name
  nonempty : ¬ (name = "" ∨ name = ".")
  safe : isSafeMemberName name = true

theorem plainMember_manifest : PlainMember manifestName :=
  ⟨by decide, by decide, by decide⟩

theorem plainMember_blob {basename : String} (h : isSafeMemberName basename = true) :
    PlainMember (artifactDir ++ basename) := by
  refine ⟨?_, ?_, isSafeMemberName_blob h⟩
  · rw [memberName, Text.startsWith, toList_artifactDir_append]
    rfl
  · rw [not_or]
    exact ⟨artifactDir_append_ne basename (by decide), artifactDir_append_ne basename (by decide)⟩

/-- What sets the names of the table apart from the others. -/
theorem tableNames {e : Kind × String} (he : e ∈ kindToFilename) :
    PlainMember e.2 ∧ filenameToKind e.2 = some e.1 ∧ e.2 ≠ manifestName ∧
      Text.startsWith e.2 artifactDir = false := by
  have h : ∀ e ∈ kindToFilename, (memberName e.2 = e.2 ∧ ¬ (e.2 = "" ∨ e.2 = ".") ∧
      isSafeMemberName e.2 = true) ∧ filenameToKind e.2 = some e.1 ∧ e.2 ≠ manifestName := by
    decide
  obtain ⟨⟨hsame, hnonempty, hsafe⟩, hkind, hne⟩ := h e he
  exact ⟨⟨hsame, hnonempty, hsafe⟩, hkind, hne, startsWith_fixedName.2 e he⟩

theorem nodup_kindToFilename : (kindToFilename.map Prod.fst).Nodup ∧
    (kindToFilename.map Prod.snd).Nodup := by decide

/-- Every kind but one has a file. -/
theorem mem_kindToFilename : k ∈ kindToFilename.map Prod.fst ↔ k ≠ .authorizationUse := by
  cases k <;> decide

theorem filenameToKind_eq_some {name : String} :
    filenameToKind name = some k ↔ (k, name) ∈ kindToFilename := by
  constructor
  · intro h
    obtain ⟨e, he, rfl⟩ := Option.map_eq_some_iff.mp h
    have hname : e.2 = name := by simpa using List.find?_some he
    exact hname ▸ List.mem_of_find?_eq_some he
  · exact fun h => (tableNames h).2.1

/-! ## Members in turn -/

/-- A basename that an import takes. -/
def acceptedBlob (basename : String) : Bool :=
  basename ≠ "" && !holdsSeparator basename && isSafeMemberName basename

/-- The content of a member can be read, whatever came before it. -/
def ContentOk (lib : Libraries) (name : String) (data : ByteArray) : Prop :=
  if name = manifestName then ∃ m, parseManifest lib data = .ok m
  else match filenameToKind name with
    | some _ => ∃ documents, parseJsonl lib data = .ok documents
    | none => Text.startsWith name artifactDir = true ∧ acceptedBlob (blobName name) = true

theorem unpackData_eq_ok {u u' : Unpacked} {name : String} {data : ByteArray} :
    unpackData lib u name data = .ok u' ↔
      (name = manifestName ∧ ∃ m, parseManifest lib data = .ok m ∧
        { u with raw := u.raw.set name data, manifest := m } = u') ∨
      (name ≠ manifestName ∧ ∃ kind, (kind, name) ∈ kindToFilename ∧
        ∃ documents, parseJsonl lib data = .ok documents ∧
          { u with raw := u.raw.set name data,
                   documents := Function.update u.documents kind documents } = u') ∨
      (name ≠ manifestName ∧ filenameToKind name = none ∧
        Text.startsWith name artifactDir = true ∧ acceptedBlob (blobName name) = true ∧
          { u with raw := u.raw.set name data, blobs := u.blobs.set (blobName name) data } = u') := by
  rw [unpackData]
  by_cases hname : name = manifestName
  · simp only [hname, if_true, Result.bind_eq_ok, Result.pure_eq_ok, true_and, ne_eq,
      not_true_eq_false, false_and, or_false]
  · simp only [hname, if_false, false_and, false_or, ne_eq, not_false_eq_true, true_and]
    cases hkind : filenameToKind name with
    | some kind =>
      have hmem (kind' : Kind) : (kind', name) ∈ kindToFilename ↔ kind = kind' := by
        rw [← filenameToKind_eq_some, hkind, Option.some.injEq]
      simp only [Result.bind_eq_ok, Result.pure_eq_ok, hmem, exists_eq_left', reduceCtorEq,
        false_and, or_false]
    | none =>
      have hmem (kind : Kind) : (kind, name) ∉ kindToFilename := by
        rw [← filenameToKind_eq_some, hkind]
        simp
      simp only [hmem, false_and, exists_false, false_or, Result.check_eq_ok, guardValue_eq_ok,
        Result.pure_eq_ok, true_and, acceptedBlob, Bool.and_eq_true, and_assoc]

theorem exists_unpackData {u : Unpacked} {name : String} {data : ByteArray} :
    (∃ u', unpackData lib u name data = .ok u') ↔ ContentOk lib name data := by
  simp only [unpackData_eq_ok, ContentOk]
  by_cases hname : name = manifestName
  · simp [hname]
  · cases hkind : filenameToKind name with
    | some kind =>
      simp only [hname, false_and, false_or, ne_eq, not_false_eq_true, true_and, reduceCtorEq,
        or_false, if_false, ← filenameToKind_eq_some, hkind, Option.some.injEq, exists_eq_left']
      exact ⟨fun ⟨_, documents, h, _⟩ => ⟨documents, h⟩, fun ⟨documents, h⟩ => ⟨_, documents, h, rfl⟩⟩
    | none =>
      simp only [hname, false_and, false_or, ne_eq, not_false_eq_true, true_and, if_false,
        ← filenameToKind_eq_some, hkind, reduceCtorEq, exists_false]
      exact ⟨fun ⟨_, hdir, h, _⟩ => ⟨hdir, h⟩, fun ⟨hdir, h⟩ => ⟨_, hdir, h, rfl⟩⟩

/-- The name and the content of a member that an import looks at. -/
def contentOf (member : Member) : Option (String × ByteArray) :=
  let name := memberName member.name
  if name = "" ∨ name = "." ∨ member.isDir = true then none
  else match member.data with
    | .ok (some data) => some (name, data)
    | _ => none

/-- A member that is passed over or can be read, whatever came before it. -/
def MemberOk (lib : Libraries) (member : Member) : Prop :=
  let name := memberName member.name
  (name = "" ∨ name = ".") ∨ isSafeMemberName name = true ∧
    (member.isDir = true ∨ member.data = .ok none ∨
      ∃ data, member.data = .ok (some data) ∧ ContentOk lib name data)

/-- Reading a member is reading its content, if it has one that is looked at. -/
theorem unpackMember_eq_ok {u u' : Unpacked} {member : Member} :
    unpackMember lib u member = .ok u' ↔ MemberOk lib member ∧
      match contentOf member with
      | none => u = u'
      | some (name, data) => unpackData lib u name data = .ok u' := by
  rw [unpackMember, MemberOk, contentOf]
  by_cases hempty : memberName member.name = "" ∨ memberName member.name = "."
  · have hempty' : memberName member.name = "" ∨ memberName member.name = "." ∨
        member.isDir = true := hempty.elim .inl (fun h => .inr (.inl h))
    simp only [hempty, if_true, true_or, true_and, hempty', Except.ok.injEq]
  · simp only [hempty, if_false, false_or, Result.check_eq_ok, guardValue_eq_ok, and_assoc]
    refine and_congr_right (fun _ => ?_)
    by_cases hdir : member.isDir = true
    · simp [hdir, pure, Except.pure]
    · have hlooked : ¬ (memberName member.name = "" ∨ memberName member.name = "." ∨
          member.isDir = true) := by
        rintro (h | h | h)
        · exact hempty (.inl h)
        · exact hempty (.inr h)
        · exact hdir h
      rw [if_neg hlooked, if_neg hdir]
      cases hdata : member.data with
      | error e => simp [hdir, bind, Except.bind]
      | ok content =>
        cases content with
        | none => simp [bind, Except.bind, pure, Except.pure]
        | some data =>
          simp only [hdir, bind, Except.bind, reduceCtorEq, Except.ok.injEq, Option.some.injEq,
            exists_eq_left', false_or, Bool.false_eq_true, ← exists_unpackData (u := u)]
          exact ⟨fun h => ⟨⟨u', h⟩, h⟩, fun h => h.2⟩

theorem MemberOk.contentOk {member : Member} (h : MemberOk lib member) {name : String}
    {data : ByteArray} (hcontent : contentOf member = some (name, data)) :
    ContentOk lib name data := by
  rw [contentOf] at hcontent
  split at hcontent
  · cases hcontent
  · rename_i hlooked
    obtain ⟨hempty, hdot, hdir⟩ := (by simpa only [not_or] using hlooked :
      memberName member.name ≠ "" ∧ memberName member.name ≠ "." ∧ ¬ member.isDir = true)
    rcases h with (h | h) | ⟨-, h | h | ⟨content, hdata, h⟩⟩
    · exact absurd h hempty
    · exact absurd h hdot
    · exact absurd h hdir
    · rw [h] at hcontent
      cases hcontent
    · rw [hdata] at hcontent
      cases hcontent
      exact h

theorem exists_unpackMember {u : Unpacked} {member : Member} :
    (∃ u', unpackMember lib u member = .ok u') ↔ MemberOk lib member := by
  simp only [unpackMember_eq_ok]
  constructor
  · exact fun ⟨_, h, _⟩ => h
  · intro h
    cases hcontent : contentOf member with
    | none => exact ⟨u, h, rfl⟩
    | some e =>
      obtain ⟨u', hu'⟩ := exists_unpackData.mpr (h.contentOk hcontent)
      exact ⟨u', h, hu'⟩

/-- An archive unpacks exactly when each of its members does. -/
theorem exists_unpack {members : List Member} {u : Unpacked} :
    (∃ u', members.foldlM (unpackMember lib) u = .ok u') ↔ ∀ m ∈ members, MemberOk lib m := by
  induction members generalizing u with
  | nil => exact ⟨fun _ _ hm => absurd hm List.not_mem_nil, fun _ => ⟨u, rfl⟩⟩
  | cons m rest ih =>
    simp only [List.foldlM_cons, Result.bind_eq_ok, List.forall_mem_cons]
    constructor
    · rintro ⟨u', u₁, hm, hrest⟩
      exact ⟨exists_unpackMember.mp ⟨u₁, hm⟩, ih.mp ⟨u', hrest⟩⟩
    · rintro ⟨hm, hrest⟩
      obtain ⟨u₁, hu₁⟩ := exists_unpackMember.mpr hm
      obtain ⟨u', hu'⟩ := ih.mpr hrest
      exact ⟨u', u₁, hu₁, hu'⟩

/-- What has been read is what the last content under each name says. -/
structure Coherent (lib : Libraries) (u : Unpacked) : Prop where
  manifest : (u.raw.get? manifestName = none ∧ u.manifest = .null) ∨
    ∃ data, u.raw.get? manifestName = some data ∧ parseManifest lib data = .ok u.manifest
  documents : ∀ e ∈ kindToFilename, (u.raw.get? e.2 = none ∧ u.documents e.1 = []) ∨
    ∃ data, u.raw.get? e.2 = some data ∧ parseJsonl lib data = .ok (u.documents e.1)
  unbundled : u.documents .authorizationUse = []
  blobs : ∀ basename, u.blobs.get? basename = u.raw.get? (artifactDir ++ basename)

theorem coherent_empty : Coherent lib {} :=
  ⟨.inl ⟨rfl, rfl⟩, fun _ _ => .inl ⟨rfl, rfl⟩, rfl, fun _ => rfl⟩

theorem Coherent.unpackData {u u' : Unpacked} {name : String} {data : ByteArray}
    (h : Coherent lib u) (hdata : unpackData lib u name data = .ok u') : Coherent lib u' := by
  rcases unpackData_eq_ok.mp hdata with ⟨rfl, m, hparse, rfl⟩ |
      ⟨hname, kind, hkind, documents, hparse, rfl⟩ | ⟨hname, hkind, hstart, -, rfl⟩
  · refine ⟨.inr ⟨data, Dict.get?_set_self _ _ _, hparse⟩, fun e he => ?_, h.unbundled,
      fun basename => ?_⟩
    · rw [Dict.get?_set_of_ne _ (tableNames he).2.2.1]
      exact h.documents e he
    · rw [Dict.get?_set_of_ne _ (artifactDir_append_ne_manifestName basename)]
      exact h.blobs basename
  · obtain ⟨-, -, -, hstart⟩ := tableNames hkind
    refine ⟨?_, fun e he => ?_, ?_, fun basename => ?_⟩
    · rw [Dict.get?_set_of_ne _ (Ne.symm hname)]
      exact h.manifest
    · by_cases heq : e.2 = name
      · have hsame := filenameToKind_eq_some.mpr he
        rw [heq, filenameToKind_eq_some.mpr hkind, Option.some.injEq] at hsame
        subst hsame
        refine .inr ⟨data, ?_, ?_⟩
        · rw [heq]
          exact Dict.get?_set_self _ _ _
        · show parseJsonl lib data = .ok (Function.update u.documents e.1 documents e.1)
          rw [Function.update_self, hparse]
      · have hne : e.1 ≠ kind := by
          rintro rfl
          exact heq (congrArg Prod.snd (List.inj_on_of_nodup_map nodup_kindToFilename.1 he hkind rfl))
        have hold := h.documents e he
        rw [← Dict.get?_set_of_ne u.raw heq data] at hold
        rw [← Function.update_of_ne hne documents u.documents] at hold
        exact hold
    · exact (Function.update_of_ne (mem_kindToFilename.mp (List.mem_map_of_mem hkind)).symm _ _).trans
        h.unbundled
    · rw [Dict.get?_set_of_ne _ (artifactDir_append_ne basename hstart)]
      exact h.blobs basename
  · refine ⟨?_, fun e he => ?_, h.unbundled, fun basename => ?_⟩
    · rw [Dict.get?_set_of_ne _ (Ne.symm hname)]
      exact h.manifest
    · have hne : e.2 ≠ name := by
        rintro rfl
        rw [(tableNames he).2.2.2] at hstart
        exact absurd hstart (by decide)
      rw [Dict.get?_set_of_ne _ hne]
      exact h.documents e he
    · have hname := artifactDir_append_blobName hstart
      rw [Dict.get?_set, Dict.get?_set]
      by_cases heq : basename = blobName name
      · rw [if_pos heq, if_pos (by rw [heq, hname])]
      · have hne : artifactDir ++ basename ≠ name := by
          intro h'
          exact heq (by rw [← h', blobName_blob])
        rw [if_neg heq, if_neg hne]
        exact h.blobs basename

/-- The contents that an import looks at, in order. -/
def contents (members : List Member) : List (String × ByteArray) := members.filterMap contentOf

theorem unpack_eq_ok {members : List Member} {u u' : Unpacked}
    (h : members.foldlM (unpackMember lib) u = .ok u') :
    u'.raw = (contents members).foldl (fun d m => d.set m.1 m.2) u.raw ∧
      (Coherent lib u → Coherent lib u') := by
  induction members generalizing u with
  | nil => exact Except.ok.inj h ▸ ⟨rfl, id⟩
  | cons m rest ih =>
    rw [List.foldlM_cons, Result.bind_eq_ok] at h
    obtain ⟨u₁, hm, hrest⟩ := h
    obtain ⟨hraw, hcoherent⟩ := ih hrest
    obtain ⟨-, hcontent⟩ := unpackMember_eq_ok.mp hm
    rw [hraw]
    cases hof : contentOf m with
    | none =>
      rw [hof] at hcontent
      subst hcontent
      exact ⟨by rw [contents, contents, List.filterMap_cons, hof], hcoherent⟩
    | some e =>
      rw [hof] at hcontent
      refine ⟨?_, fun h => hcoherent (h.unpackData hcontent)⟩
      have hset : u₁.raw = u.raw.set e.1 e.2 := by
        rcases unpackData_eq_ok.mp hcontent with ⟨-, _, -, rfl⟩ | ⟨-, _, -, _, -, rfl⟩ |
            ⟨-, -, -, -, rfl⟩ <;> rfl
      rw [hset, contents, contents, List.filterMap_cons, hof, List.foldl_cons]

/-! ## The manifest of an export -/

theorem verifyCount_kind {documents : Kind → List Json} {n : Nat} :
    verifyCount documents (k.text, .int n) = .ok () ↔
      (k ≠ .authorizationUse → (documents k).length = n) := by
  have hfind : kindToFilename.find? (fun t => t.1.text = k.text) =
      kindToFilename.find? (fun t => t.1 = k) := by
    cases k <;> decide
  have hcount (t : Kind × String) : guardValue (Json.pyEq (.int (documents t.1).length) (.int n))
      (s!"count mismatch for {Text.pyRepr k.text}: manifest {Json.pyStr (.int n)} vs actual " ++
        s!"{(documents t.1).length}") = .ok () ↔ (documents t.1).length = n := by
    rw [guardValue_eq_ok, Json.pyEq, beq_iff_eq, Int.ofNat_inj]
  rw [verifyCount, hfind]
  cases hentry : kindToFilename.find? (fun t => t.1 = k) with
  | some t =>
    have hkind : t.1 = k := by simpa using List.find?_some hentry
    have hk := mem_kindToFilename.mp (List.mem_map_of_mem (List.mem_of_find?_eq_some hentry))
    subst hkind
    simp only [hcount, hk, ne_eq, not_false_eq_true, true_implies]
  | none =>
    have hk : k ∉ kindToFilename.map Prod.fst := by
      intro hmem
      obtain ⟨t, ht, rfl⟩ := List.mem_map.mp hmem
      exact absurd (List.find?_eq_none.mp hentry t ht) (by simp)
    rw [mem_kindToFilename] at hk
    exact iff_of_true rfl (fun h => absurd h hk)

/-- What the manifest of an export asks of an archive: each member with the right digest,
and the counts of the kinds that have a file. -/
theorem verifyManifest_bundleManifest {u : Unpacked} {runtimeId : String} {exportedAt : Time}
    {blobs : List (String × ByteArray)}
    (h : u.manifest = bundleManifest lib runtimeId exportedAt s blobs) :
    verifyManifest lib u = .ok () ↔
      (∀ m ∈ jsonlMembers s kindToFilename ++ blobMembers blobs,
        ∃ data, u.raw.get? m.1 = some data ∧ lib.sha256 data = lib.sha256 m.2) ∧
      ∀ k ≠ .authorizationUse, (u.documents k).length = (s k).length := by
  have hsum (m : String × ByteArray) :
      verifyChecksum lib u.raw (m.1, .str (lib.sha256 m.2)) = .ok () ↔
        ∃ data, u.raw.get? m.1 = some data ∧ lib.sha256 data = lib.sha256 m.2 := by
    rw [verifyChecksum]
    cases u.raw.get? m.1 with
    | none => simp [raiseValue]
    | some data => simp only [guardValue_eq_ok, beq_iff_eq, Option.some.injEq, exists_eq_left']
  have hversion : (Json.str bundleSchemaVersion).eqStr bundleSchemaVersion = true := by
    decide
  rw [verifyManifest, h, bundleManifest, manifest]
  simp only [Fields.get, Fields.get?, ↓reduceIte, Option.getD_some,
    String.reduceEq, hversion, guardValue, entriesOf, checksums]
  simp only [Result.check_eq_ok, checkEach_eq_ok, List.forall_mem_map, hsum, verifyCount_kind,
    true_and]
  exact and_congr_right (fun _ => ⟨fun h k => h k (Kind.mem_all k), fun h k _ => h k⟩)

/-! ## What an exported archive reads as -/

theorem readKinds_eq_ok {documents : Kind → List Json} {kinds : List Kind} (h : kinds.Nodup)
    {state state' : State} : readKinds lib documents kinds state = .ok state' ↔
      (∀ k ∈ kinds, (documents k).mapM (lib.modelValidate k) = .ok (state' k)) ∧
        ∀ k ∉ kinds, state' k = state k := by
  induction kinds generalizing state with
  | nil => simp [readKinds, funext_iff, eq_comm]
  | cons k rest ih =>
    rw [List.nodup_cons] at h
    rw [readKinds, Result.bind_eq_ok]
    simp only [ih h.2, List.forall_mem_cons]
    constructor
    · rintro ⟨values, hvalues, hrest, hothers⟩
      have hk := hothers k h.1
      rw [Function.update_self] at hk
      refine ⟨⟨hk ▸ hvalues, hrest⟩, fun k' hk' => ?_⟩
      obtain ⟨hne, hmem⟩ := not_or.mp (List.mem_cons.not.mp hk')
      rw [hothers k' hmem, Function.update_of_ne hne]
    · rintro ⟨⟨hvalues, hrest⟩, hothers⟩
      refine ⟨_, hvalues, hrest, fun k' hk' => ?_⟩
      by_cases heq : k' = k
      · subst heq
        rw [Function.update_self]
      · rw [Function.update_of_ne heq]
        exact hothers k' (List.mem_cons.not.mpr (not_or.mpr ⟨heq, hk'⟩))

theorem readArchive_eq_ok {members : List Member} {c : Contents} :
    readArchive lib now (.ok members) = .ok c ↔
      ∃ u, members.foldlM (unpackMember lib) {} = .ok u ∧ verifyManifest lib u = .ok () ∧
        (∀ k, (u.documents k).mapM (lib.modelValidate k) = .ok (c.state k)) ∧
        validateStateInvariants now c.state = .ok () ∧
        c.manifest = u.manifest ∧ c.blobs = u.blobs := by
  simp only [readArchive, bind, Except.bind]
  change ((members.foldlM (unpackMember lib) {}) >>= _) = _ ↔ _
  rw [Result.bind_eq_ok]
  refine exists_congr (fun u => and_congr_right (fun _ => ?_))
  change (verifyManifest lib u >>= fun _ => readKinds lib u.documents Kind.all State.none >>= _) =
    _ ↔ _
  rw [Result.check_eq_ok, Result.bind_eq_ok]
  refine and_congr_right (fun _ => ?_)
  simp only [readKinds_eq_ok Kind.nodup_all]
  constructor
  · rintro ⟨state, ⟨hread, -⟩, hrest⟩
    obtain ⟨hvalid, hc⟩ := Result.check_eq_ok.mp hrest
    rw [Result.pure_eq_ok] at hc
    subst hc
    exact ⟨fun k => hread k (Kind.mem_all k), hvalid, rfl, rfl⟩
  · rintro ⟨hread, hvalid, hmanifest, hblobs⟩
    refine ⟨c.state, ⟨fun k _ => hread k, fun k hk => absurd (Kind.mem_all k) hk⟩,
      Result.check_eq_ok.mpr ⟨hvalid, ?_⟩⟩
    rw [Result.pure_eq_ok, ← hmanifest, ← hblobs]

theorem contentOf_fileMember {m : String × ByteArray} (h : PlainMember m.1) :
    contentOf (fileMember m) = some m := by
  obtain ⟨hempty, hdot⟩ := not_or.mp h.nonempty
  simp only [contentOf, fileMember, h.same, hempty, hdot, false_or, Bool.false_eq_true, if_false]

theorem memberOk_fileMember {m : String × ByteArray} (h : PlainMember m.1) :
    MemberOk lib (fileMember m) ↔ ContentOk lib m.1 m.2 := by
  simp only [MemberOk, fileMember, h.same, h.nonempty, h.safe, false_or, true_and,
    Bool.false_eq_true, Except.ok.injEq, reduceCtorEq, Option.some.injEq, exists_eq_left']

theorem contents_fileMembers {ms : List (String × ByteArray)} (h : ∀ m ∈ ms, PlainMember m.1) :
    contents (ms.map fileMember) = ms := by
  rw [contents, List.filterMap_map]
  refine (List.filterMap_congr (fun m hm => contentOf_fileMember (h m hm))).trans ?_
  exact List.filterMap_some

/-- The objects of a state as a bundle carries them: their documents, but no uses. -/
def State.bundled (s : State) : State :=
  fun k => if k = .authorizationUse then [] else s.documents k

/-- The outside reads back what an export of the state writes. -/
structure Libraries.Faithful (lib : Libraries) (m : Json) (s : State) : Prop where
  manifest : lib.loads (m.dumpsIndented jsonLine 2 0) = .ok m
  objects : ∀ k ≠ .authorizationUse, ∀ v ∈ s k, lib.Reads k v

section Exported

variable {runtimeId : String} {exportedAt : Time} {blobs : List (String × ByteArray)}
  (hsafe : ∀ e ∈ blobs, isSafeMemberName e.1 = true)

theorem mem_bundleMembers {m : String × ByteArray} :
    m ∈ bundleMembers lib runtimeId exportedAt s blobs ↔
      m = (manifestName, manifestBytes (bundleManifest lib runtimeId exportedAt s blobs)) ∨
      (∃ e ∈ kindToFilename, m = (e.2, jsonlBytes e.1 (s e.1))) ∨
      ∃ e ∈ blobs, m = (artifactDir ++ e.1, e.2) := by
  simp only [bundleMembers, jsonlMembers, blobMembers, List.mem_cons, List.mem_append,
    List.mem_map, eq_comm]

include hsafe in
theorem plainMember_bundleMembers :
    ∀ m ∈ bundleMembers lib runtimeId exportedAt s blobs, PlainMember m.1 := by
  intro m hm
  rcases mem_bundleMembers.mp hm with rfl | ⟨e, he, rfl⟩ | ⟨e, he, rfl⟩
  · exact plainMember_manifest
  · exact (tableNames he).1
  · exact plainMember_blob (hsafe e he)

theorem nodup_bundleMembers (hnodup : (blobs.map Prod.fst).Nodup) :
    ((bundleMembers lib runtimeId exportedAt s blobs).map Prod.fst).Nodup := by
  have hfiles : (jsonlMembers s kindToFilename).map Prod.fst = kindToFilename.map Prod.snd := by
    rw [jsonlMembers, List.map_map]
    rfl
  have hblobs : (blobMembers blobs).map Prod.fst = (blobs.map Prod.fst).map (artifactDir ++ ·) := by
    rw [blobMembers, List.map_map, List.map_map]
    rfl
  rw [bundleMembers, List.map_cons, List.map_append, hfiles, hblobs, List.nodup_cons,
    List.mem_append, not_or, List.nodup_append]
  refine ⟨⟨?_, ?_⟩, nodup_kindToFilename.2, ?_, ?_⟩
  · intro hmem
    obtain ⟨e, he, heq⟩ := List.mem_map.mp hmem
    exact (tableNames he).2.2.1 heq
  · intro hmem
    obtain ⟨basename, -, heq⟩ := List.mem_map.mp hmem
    exact artifactDir_append_ne_manifestName basename heq
  · refine hnodup.map (fun a b hab => ?_)
    rw [← blobName_blob a, hab, blobName_blob]
  · intro name hfile name' hblob heq
    obtain ⟨e, he, rfl⟩ := List.mem_map.mp hfile
    obtain ⟨basename, -, rfl⟩ := List.mem_map.mp hblob
    exact artifactDir_append_ne basename (tableNames he).2.2.2 heq.symm

/-- The archive of an export. -/
def exportedArchive (lib : Libraries) (runtimeId : String) (exportedAt : Time) (s : State)
    (blobs : List (String × ByteArray)) : List Member :=
  (bundleMembers lib runtimeId exportedAt s blobs).map fileMember

theorem parseManifest_manifestBytes {m : Json}
    (h : lib.loads (m.dumpsIndented jsonLine 2 0) = .ok m) :
    parseManifest lib (manifestBytes m) = .ok m := by
  rw [parseManifest, manifestBytes, decodeUtf8_toUTF8]
  exact h

section Read

variable (hnodup : (blobs.map Prod.fst).Nodup)
  (hmanifest : lib.loads ((bundleManifest lib runtimeId exportedAt s blobs).dumpsIndented
    jsonLine 2 0) = .ok (bundleManifest lib runtimeId exportedAt s blobs))
  (hlib : lib.Faithful (bundleManifest lib runtimeId exportedAt s blobs) s)

include hsafe hnodup in
/-- Under each name there is what the export put there. -/
theorem raw_exported {u : Unpacked}
    (h : (exportedArchive lib runtimeId exportedAt s blobs).foldlM (unpackMember lib) {} = .ok u)
    {name : String} {data : ByteArray} : u.raw.get? name = some data ↔
      (name, data) ∈ bundleMembers lib runtimeId exportedAt s blobs := by
  rw [(unpack_eq_ok h).1, exportedArchive, contents_fileMembers (plainMember_bundleMembers hsafe)]
  exact Dict.get?_ofPairs (nodup_bundleMembers hnodup)

include hsafe hnodup hmanifest in
/-- What is unpacked of an export. -/
theorem unpacked_exported {u : Unpacked}
    (h : (exportedArchive lib runtimeId exportedAt s blobs).foldlM (unpackMember lib) {} = .ok u) :
    u.manifest = bundleManifest lib runtimeId exportedAt s blobs ∧
      (∀ e ∈ kindToFilename,
        parseJsonl lib (jsonlBytes e.1 (s e.1)) = .ok (u.documents e.1)) ∧
      u.documents .authorizationUse = [] ∧
      ∀ basename data, u.blobs.get? basename = some data ↔ (basename, data) ∈ blobs := by
  have hraw {name : String} {data : ByteArray} := @raw_exported lib s runtimeId exportedAt blobs
    hsafe hnodup u h name data
  have hcoherent := (unpack_eq_ok h).2 coherent_empty
  refine ⟨?_, fun e he => ?_, hcoherent.unbundled, fun basename data => ?_⟩
  · have hget := hraw.mpr (mem_bundleMembers.mpr (.inl rfl))
    rcases hcoherent.manifest with ⟨hnone, -⟩ | ⟨data, hdata, hparse⟩
    · rw [hget] at hnone
      cases hnone
    · rw [hget, Option.some.injEq] at hdata
      rw [← hdata, parseManifest_manifestBytes hmanifest, Except.ok.injEq] at hparse
      exact hparse.symm
  · have hget := hraw.mpr (mem_bundleMembers.mpr (.inr (.inl ⟨e, he, rfl⟩)))
    rcases hcoherent.documents e he with ⟨hnone, -⟩ | ⟨data, hdata, hparse⟩
    · rw [hget] at hnone
      cases hnone
    · rw [hget, Option.some.injEq] at hdata
      rw [hdata, hparse]
  · rw [hcoherent.blobs, hraw, mem_bundleMembers]
    simp only [Prod.mk.injEq]
    constructor
    · rintro (⟨hname, -⟩ | ⟨e, he, hname, -⟩ | ⟨e, he, hname, rfl⟩)
      · exact absurd hname (artifactDir_append_ne_manifestName basename)
      · exact absurd hname (artifactDir_append_ne basename (tableNames he).2.2.2)
      · rw [← blobName_blob basename, hname, blobName_blob]
        exact he
    · exact fun he => .inr (.inr ⟨_, he, rfl, rfl⟩)

include hsafe hnodup hlib in
/-- An export is read exactly when no text of its objects cuts a line, the names of its
blobs are ones that an import takes, and its objects satisfy the invariants. -/
theorem readArchive_exported {c : Contents} :
    readArchive lib now (.ok (exportedArchive lib runtimeId exportedAt s blobs)) = .ok c →
      (∀ k ≠ .authorizationUse, Uncut k (s k)) ∧ (∀ e ∈ blobs, acceptedBlob e.1 = true) ∧
      validateStateInvariants now s.bundled = .ok () ∧ c.state = s.bundled ∧
      ∀ basename data, c.blobs.get? basename = some data ↔ (basename, data) ∈ blobs := by
  intro h
  obtain ⟨u, hunpack, hverify, hread, hvalid, -, hblobs⟩ := readArchive_eq_ok.mp h
  obtain ⟨hmanifest, hdocuments, hunbundled, hcontents⟩ :=
    unpacked_exported hsafe hnodup hlib.manifest hunpack
  obtain ⟨-, hcounts⟩ := (verifyManifest_bundleManifest hmanifest).mp hverify
  have huncut (k : Kind) (hk : k ≠ .authorizationUse) : Uncut k (s k) := by
    obtain ⟨e, he, rfl⟩ := List.mem_map.mp (mem_kindToFilename.mpr hk)
    have hparse := hdocuments e he
    rw [parseJsonl_jsonlBytes] at hparse
    exact uncut_of_length ((Result.length_of_mapM hparse).symm.trans (hcounts e.1 hk))
  have hstate : c.state = s.bundled := by
    funext k
    rw [State.bundled]
    by_cases hk : k = .authorizationUse
    · subst hk
      have hempty := hread .authorizationUse
      rw [hunbundled] at hempty
      rw [if_pos rfl]
      exact (Except.ok.inj hempty).symm
    · rw [if_neg hk]
      obtain ⟨e, he, rfl⟩ := List.mem_map.mp (mem_kindToFilename.mpr hk)
      obtain ⟨documents, hloads, -, hmodels⟩ := exists_documents (hlib.objects e.1 hk)
      have hparse := hdocuments e he
      rw [parseJsonl_jsonlBytes, nonBlankLines_jsonlText (huncut e.1 hk), hloads,
        Except.ok.injEq] at hparse
      have hkind := hread e.1
      rw [← hparse, hmodels, Except.ok.injEq] at hkind
      exact hkind.symm
  refine ⟨huncut, fun e he => ?_, hstate ▸ hvalid, hstate, hblobs ▸ hcontents⟩
  have hok := exists_unpack.mp ⟨u, hunpack⟩ (fileMember (artifactDir ++ e.1, e.2))
    (List.mem_map_of_mem (mem_bundleMembers.mpr (.inr (.inr ⟨e, he, rfl⟩))))
  have hcontent := (memberOk_fileMember (plainMember_blob (hsafe e he))).mp hok
  rw [ContentOk, if_neg (artifactDir_append_ne_manifestName e.1), filenameToKind_blob,
    blobName_blob] at hcontent
  exact hcontent.2

include hsafe hnodup hlib in
theorem exists_readArchive_exported (huncut : ∀ k ≠ .authorizationUse, Uncut k (s k))
    (haccepted : ∀ e ∈ blobs, acceptedBlob e.1 = true)
    (hvalid : validateStateInvariants now s.bundled = .ok ()) :
    ∃ c, readArchive lib now (.ok (exportedArchive lib runtimeId exportedAt s blobs)) = .ok c := by
  have hparse (e : Kind × String) (he : e ∈ kindToFilename) : ∃ documents,
      parseJsonl lib (jsonlBytes e.1 (s e.1)) = .ok documents ∧
        documents.length = (s e.1).length ∧
        documents.mapM (lib.modelValidate e.1) = .ok ((s e.1).map e.1.document) := by
    have hk := mem_kindToFilename.mp (List.mem_map_of_mem he)
    rw [parseJsonl_jsonlBytes, nonBlankLines_jsonlText (huncut e.1 hk)]
    exact exists_documents (hlib.objects e.1 hk)
  have hok : ∀ m ∈ exportedArchive lib runtimeId exportedAt s blobs, MemberOk lib m := by
    intro member hmember
    obtain ⟨m, hm, rfl⟩ := List.mem_map.mp hmember
    rw [memberOk_fileMember (plainMember_bundleMembers hsafe m hm), ContentOk]
    rcases mem_bundleMembers.mp hm with rfl | ⟨e, he, rfl⟩ | ⟨e, he, rfl⟩
    · rw [if_pos rfl]
      exact ⟨_, parseManifest_manifestBytes hlib.manifest⟩
    · obtain ⟨-, hkind, hne, -⟩ := tableNames he
      obtain ⟨documents, hdocuments, -⟩ := hparse e he
      rw [if_neg hne, hkind]
      exact ⟨documents, hdocuments⟩
    · rw [if_neg (artifactDir_append_ne_manifestName e.1), filenameToKind_blob,
        blobName_blob]
      exact ⟨startsWith_artifactDir e.1, haccepted e he⟩
  obtain ⟨u, hunpack⟩ := exists_unpack.mpr hok
  obtain ⟨hmanifest, hdocuments, hunbundled, -⟩ := unpacked_exported hsafe hnodup hlib.manifest hunpack
  have hread (e : Kind × String) (he : e ∈ kindToFilename) :
      (u.documents e.1).length = (s e.1).length ∧
        (u.documents e.1).mapM (lib.modelValidate e.1) = .ok ((s e.1).map e.1.document) := by
    obtain ⟨documents, hparsed, hrest⟩ := hparse e he
    rw [hdocuments e he, Except.ok.injEq] at hparsed
    exact hparsed ▸ hrest
  refine ⟨{ manifest := u.manifest, state := s.bundled, blobs := u.blobs }, readArchive_eq_ok.mpr
    ⟨u, hunpack, (verifyManifest_bundleManifest hmanifest).mpr ⟨fun m hm => ?_, fun k hk => ?_⟩,
      fun k => ?_, hvalid, rfl, rfl⟩⟩
  · exact ⟨m.2, (raw_exported hsafe hnodup hunpack).mpr (List.mem_cons_of_mem _ hm), rfl⟩
  · obtain ⟨e, he, rfl⟩ := List.mem_map.mp (mem_kindToFilename.mpr hk)
    exact (hread e he).1
  · show _ = Except.ok (State.bundled s k)
    rw [State.bundled]
    by_cases hk : k = .authorizationUse
    · subst hk
      rw [hunbundled, if_pos rfl]
      rfl
    · obtain ⟨e, he, rfl⟩ := List.mem_map.mp (mem_kindToFilename.mpr hk)
      rw [if_neg hk]
      exact (hread e he).2

end Read

/-! ### The blobs of an export -/

theorem isSafeMemberName_of_artifactBlob {read : String → Option ByteArray} {artifact : Artifact}
    {e : String × ByteArray} (h : artifactBlob lib read artifact = some e) :
    isSafeMemberName e.1 = true := by
  simp only [artifactBlob, Option.bind_eq_bind, Option.bind_eq_some_iff, Option.guard_eq_some',
    Option.pure_def, Option.some.injEq] at h
  obtain ⟨-, -, -, -, -, -, basename, -, -, hguard, rfl⟩ := h
  exact hguard.2.2.2

theorem isSafeMemberName_of_collectBlobs {read : String → Option ByteArray}
    {artifacts : List Artifact} {found : Dict String ByteArray}
    (h : ∀ e ∈ found.entries, isSafeMemberName e.1 = true) :
    ∀ e ∈ (collectBlobs lib read found artifacts).entries, isSafeMemberName e.1 = true := by
  induction artifacts generalizing found with
  | nil => exact h
  | cons artifact rest ih =>
    rw [collectBlobs]
    cases hblob : artifactBlob lib read artifact with
    | none => exact ih h
    | some e =>
      simp only
      split
      · exact ih h
      · refine ih (fun e' he' => ?_)
        rcases Dict.mem_entries_set.mp he' with rfl | ⟨hold, -⟩
        · exact isSafeMemberName_of_artifactBlob hblob
        · exact h e' hold

theorem isSafeMemberName_of_artifactBlobs {source : Option (String → Option ByteArray)} :
    ∀ e ∈ artifactBlobs lib source s, isSafeMemberName e.1 = true := by
  intro e he
  rw [artifactBlobs, List.mem_insertionSort] at he
  cases source with
  | none => exact absurd he List.not_mem_nil
  | some read =>
    exact isSafeMemberName_of_collectBlobs (fun _ h => absurd h List.not_mem_nil) e he

theorem nodup_artifactBlobs (source : Option (String → Option ByteArray)) :
    ((artifactBlobs lib source s).map Prod.fst).Nodup :=
  (((List.perm_insertionSort _ _).map Prod.fst).nodup_iff).mpr (Dict.nodup _)

/-- An export is the archive of its blobs. -/
theorem exportBundle_eq_ok (source : Option (String → Option ByteArray)) :
    exportBundle lib runtimeId exportedAt source s =
      .ok (exportedArchive lib runtimeId exportedAt s (artifactBlobs lib source s)) := by
  rw [exportBundle, Result.check_eq_ok, checkEach_eq_ok]
  refine ⟨fun m hm => ?_, rfl⟩
  obtain ⟨e, he, rfl⟩ := List.mem_map.mp hm
  exact guardValue_eq_ok.mpr (isSafeMemberName_blob (isSafeMemberName_of_artifactBlobs e he))

end Exported

end PortableRuntime
