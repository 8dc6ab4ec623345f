import PortableRuntime.Core.QualificationContext

/-!
# Qualification and the order of its buckets

A reference is taken from the first bucket that lists its key.  What a context holds is the same
in every order of the buckets if and only if any two buckets that have references list them alike,
as far as they list the same, and file them alike.
-/

namespace PortableRuntime
namespace AssessmentContext

open ProofBucket QualificationRef

variable {fromisoformat : String → Option Time} {store : QualificationStore}
  {request : InvocationRequest} {now : Time}

/-! ## References of one key -/

theorem check_eq_ok {holds : Bool} {message : String} {u : Unit} :
    check holds message = .ok u ↔ holds = true := by
  cases holds with
  | true => exact iff_of_true rfl rfl
  | false => exact iff_of_false (fun h => nomatch h) Bool.false_ne_true

theorem assertRefVersion_eq_ok {ref : QualificationRef} {o : StoredObject} :
    assertRefVersion ref o = .ok () ↔ ∀ requested, ref.version.map RefVersion.pyStr =
      some requested → o.version.isNone = false ∧ o.version.pyStr = requested := by
  unfold assertRefVersion
  cases ref.version with
  | none => exact iff_of_true rfl (fun _ h => nomatch h)
  | some version =>
    simp only [Result.bind_eq_ok, check_eq_ok, Bool.not_eq_true', decide_eq_true_eq,
      Option.map_some, Option.some.injEq, forall_eq', exists_const]

/-- A reference resolves as any other of its key: only the text of a version counts. -/
theorem resolveRef_of_dedupeKey {ref ref' : QualificationRef}
    (h : ref.dedupeKey = ref'.dedupeKey) {o : StoredObject}
    (ho : resolveRef fromisoformat store request now ref = .ok o) :
    resolveRef fromisoformat store request now ref' = .ok o := by
  obtain ⟨hid, hrest⟩ := Prod.mk.inj h
  obtain ⟨hkind, hversion⟩ := Prod.mk.inj hrest
  have hlookup : lookup store ref = lookup store ref' := by
    rw [lookup, lookup, hid, hkind]
  obtain ⟨found, hfound, ho⟩ := Result.bind_eq_ok.mp ho
  refine Result.bind_eq_ok.mpr ⟨found, hlookup ▸ hfound, ?_⟩
  cases found with
  | none => cases ho
  | some o' =>
    obtain ⟨_, hvalid, ho⟩ := Result.bind_eq_ok.mp ho
    obtain ⟨_, hversionOk, hvalid⟩ := Result.bind_eq_ok.mp hvalid
    have hversionOk' : assertRefVersion ref' o' = .ok () := by
      rw [assertRefVersion_eq_ok] at hversionOk ⊢
      rwa [← hversion]
    have hkindSame : assertKind ref o' = assertKind ref' o' := by
      rw [assertKind, assertKind, hkind, hid]
    rw [hid] at hvalid
    rw [hkindSame, assertTarget, assertVersions, hid] at ho
    exact Result.bind_eq_ok.mpr ⟨(), Result.bind_eq_ok.mpr ⟨(), hversionOk', hvalid⟩, ho⟩

theorem place_of_dedupeKey {ref ref' : QualificationRef} (h : ref.dedupeKey = ref'.dedupeKey)
    {bucket : ProofBucket} {placed : ProofBucket × ProofItem}
    (hplaced : place fromisoformat store request now bucket ref = .ok placed) :
    place fromisoformat store request now bucket ref' = .ok placed := by
  obtain ⟨o, ho, hfile⟩ := Result.bind_eq_ok.mp hplaced
  refine Result.bind_eq_ok.mpr ⟨o, resolveRef_of_dedupeKey h ho, ?_⟩
  have hkind : ref.kind = ref'.kind := (Prod.mk.inj (Prod.mk.inj h).2).1
  rwa [file, ← hkind]

/-- Only the references of procedure proofs are filed under another bucket. -/
theorem place_bucket {bucket : ProofBucket} (hbucket : bucket ≠ .procedureProofs)
    {ref : QualificationRef} {placed : ProofBucket × ProofItem}
    (h : place fromisoformat store request now bucket ref = .ok placed) : placed.1 = bucket := by
  obtain ⟨o, -, h⟩ := Result.bind_eq_ok.mp h
  simp only [file, if_neg hbucket] at h
  obtain ⟨item, -, h⟩ := Result.bind_eq_ok.mp h
  rw [← Result.pure_eq_ok.mp h]

/-! ## The loop -/

theorem foldlM_gather_eq_ok {l : List (ProofBucket × QualificationRef)} {g out : Gathered} :
    l.foldlM (gather fromisoformat store request now) g = .ok out ↔
      ∃ placed, (keepFirst (fun e => e.2.dedupeKey) g.seen l).mapM
          (fun e => place fromisoformat store request now e.1 e.2) = .ok placed ∧
        out.refs = g.refs ++ (keepFirst (fun e => e.2.dedupeKey) g.seen l).map Prod.snd ∧
        out.placed = g.placed ++ placed ∧
        out.seen = ((keepFirst (fun e => e.2.dedupeKey) g.seen l).map
          (fun e => e.2.dedupeKey)).reverse ++ g.seen := by
  induction l generalizing g with
  | nil =>
    rw [List.foldlM_nil, Result.pure_eq_ok]
    constructor
    · rintro rfl
      exact ⟨[], rfl, (List.append_nil _).symm, (List.append_nil _).symm, rfl⟩
    · rintro ⟨placed, hplaced, hrefs, hout, hseen⟩
      obtain rfl := Result.pure_eq_ok.mp hplaced
      cases g
      cases out
      simp_all [keepFirst]
  | cons e rest ih =>
    rw [List.foldlM_cons, gather, keepFirst]
    by_cases hseen : e.2.dedupeKey ∈ g.seen
    · rw [if_pos hseen, if_pos hseen]
      exact ih
    · rw [if_neg hseen, if_neg hseen]
      simp only [Result.bind_eq_ok, Result.pure_eq_ok, List.mapM_cons, List.map_cons,
        List.reverse_cons, List.append_assoc, List.singleton_append]
      constructor
      · rintro ⟨g', ⟨placed, hplaced, rfl⟩, hrest⟩
        obtain ⟨placedRest, hmap, hrefs, hout, hseen'⟩ := ih.mp hrest
        refine ⟨placed :: placedRest, ⟨placed, hplaced, placedRest, hmap, rfl⟩, ?_, ?_, hseen'⟩
        · rw [hrefs, List.append_assoc]
          rfl
        · rw [hout, List.append_assoc]
          rfl
      · rintro ⟨_, ⟨placed, hplaced, placedRest, hmap, rfl⟩, hrefs, hout, hseen'⟩
        refine ⟨_, ⟨placed, hplaced, rfl⟩, ih.mpr ⟨placedRest, hmap, ?_, ?_, hseen'⟩⟩
        · rw [hrefs, List.append_assoc]
          rfl
        · rw [hout, List.append_assoc]
          rfl

variable {listed : ProofBucket → List QualificationRef} {order order' : List ProofBucket}

/-- Each key is placed once, from the first bucket that lists it. -/
theorem gatherAll_eq_ok {g : Gathered} :
    gatherAll fromisoformat store request now listed order = .ok g ↔
      ∃ placed, (pooled dedupeKey listed order).mapM
          (fun e => place fromisoformat store request now e.1 e.2) = .ok placed ∧
        g.refs = (pooled dedupeKey listed order).map Prod.snd ∧ g.placed = placed ∧
        g.seen = ((pooled dedupeKey listed order).map (fun e => e.2.dedupeKey)).reverse := by
  rw [gatherAll, foldlM_gather_eq_ok]
  simp only [List.nil_append, List.append_nil]
  rfl

/-! ## Buckets that are read alike -/

section Order

variable (sha256 : String → String) (fromisoformat : String → Option Time)
  (store : QualificationStore) (request : InvocationRequest) (work : Option Work)
  (run : Option Run) (now : Time)

/-- No order of the buckets meets references only that resolve. -/
def Unresolvable (listed : ProofBucket → List QualificationRef) : Prop :=
  ∀ order, order.Perm refBuckets → ∃ e ∈ pooled dedupeKey listed order, ∀ placed,
    place fromisoformat store request now e.1 e.2 ≠ .ok placed

/-- Every reference resolves, and of two buckets one lists what the other does and then more, and
what both list is filed alike. -/
structure ReadAlike (listed : ProofBucket → List QualificationRef) : Prop where
  resolved : ∀ bucket ∈ refBuckets, ∀ ref ∈ listed bucket, ∃ placed,
    place fromisoformat store request now bucket ref = .ok placed
  agree : ∀ bucket ∈ refBuckets, ∀ bucket' ∈ refBuckets, SourcesAgree dedupeKey listed
    (place fromisoformat store request now) bucket bucket'

/-- In every order of the buckets the context has the same proofs and the same digest, and what
is listed for a bucket is proved for it. -/
structure HashOrderIndependent : Prop where
  same : ∀ order order', order.Perm refBuckets → order'.Perm refBuckets → ∀ a,
    resolve sha256 fromisoformat store request work run now order = .ok a →
    ∃ a', resolve sha256 fromisoformat store request work run now order' = .ok a' ∧
      (∀ bucket, a'.proofs bucket = a.proofs bucket) ∧ a'.digest = a.digest
  contributes : ∀ order, order.Perm refBuckets → ∀ a,
    resolve sha256 fromisoformat store request work run now order = .ok a →
    ∀ work' run' listed, sources store request work run = .ok (work', run', listed) →
    ∀ bucket ∈ refBuckets, ∀ ref ∈ listed bucket, ∃ placed,
      place fromisoformat store request now bucket ref = .ok placed ∧
        placed.2 ∈ a.proofs placed.1

/-- The hash tells apart what the orders of the buckets gather. -/
def DigestTells (listed : ProofBucket → List QualificationRef) : Prop :=
  ∀ order order' g g', order.Perm refBuckets → order'.Perm refBuckets →
    gatherAll fromisoformat store request now listed order = .ok g →
    gatherAll fromisoformat store request now listed order' = .ok g' →
    sha256 g.text = sha256 g'.text → g.payload = g'.payload

end Order

theorem mapM_place_eq_ok {l : List (ProofBucket × QualificationRef)}
    {placed : List (ProofBucket × ProofItem)} :
    l.mapM (fun e => place fromisoformat store request now e.1 e.2) = .ok placed ↔
      List.Forall₂ (fun r p => r = .ok p)
        (l.map (fun e => place fromisoformat store request now e.1 e.2)) placed := by
  rw [Result.mapM_eq_ok, List.forall₂_map_left_iff]

/-- The references and their placements determine what is gathered. -/
theorem gatherAll_congr (h : (pooled dedupeKey listed order).map
      (fun e => (e.2, place fromisoformat store request now e.1 e.2)) =
    (pooled dedupeKey listed order').map
      (fun e => (e.2, place fromisoformat store request now e.1 e.2)))
    {g : Gathered} (hg : gatherAll fromisoformat store request now listed order = .ok g) :
    gatherAll fromisoformat store request now listed order' = .ok g := by
  obtain ⟨placed, hplaced, hrefs, hout, hseen⟩ := gatherAll_eq_ok.mp hg
  have hplacements := congrArg (List.map Prod.snd) h
  have hrefsSame := congrArg (List.map Prod.fst) h
  have hkeys := congrArg (List.map (fun e => e.1.dedupeKey)) h
  simp only [List.map_map] at hplacements hrefsSame hkeys
  refine gatherAll_eq_ok.mpr ⟨placed, ?_, hrefs.trans hrefsSame, hout, ?_⟩
  · rw [mapM_place_eq_ok] at hplaced ⊢
    exact hplacements ▸ hplaced
  · rw [hseen]
    exact congrArg List.reverse hkeys

theorem ReadAlike.gatherAll_perm (h : ReadAlike fromisoformat store request now listed)
    (horder : order.Perm refBuckets) (horder' : order'.Perm refBuckets) {g : Gathered}
    (hg : gatherAll fromisoformat store request now listed order = .ok g) :
    gatherAll fromisoformat store request now listed order' = .ok g :=
  gatherAll_congr (pooled_perm (horder.trans horder'.symm) (fun bucket hbucket bucket' hbucket' =>
    h.agree bucket (horder.mem_iff.mp hbucket) bucket' (horder.mem_iff.mp hbucket'))) hg

/-- What one bucket lists is there, although it may have been taken from another. -/
theorem ReadAlike.contributes (h : ReadAlike fromisoformat store request now listed)
    (horder : order.Perm refBuckets) {g : Gathered}
    (hg : gatherAll fromisoformat store request now listed order = .ok g)
    {bucket : ProofBucket} (hbucket : bucket ∈ refBuckets) {ref : QualificationRef}
    (href : ref ∈ listed bucket) : ∃ placed,
      place fromisoformat store request now bucket ref = .ok placed ∧
        placed.2 ∈ g.proofs placed.1 := by
  obtain ⟨placements, hplacements, -, hout, -⟩ := gatherAll_eq_ok.mp hg
  obtain ⟨e, he, hkey⟩ := exists_mem_pooled dedupeKey (horder.mem_iff.mpr hbucket) href
  obtain ⟨hfrom, hdistinct⟩ := mem_distinct_of_mem_pooled he
  obtain ⟨first, hfirst, hfirstKey⟩ : ∃ first ∈ distinct dedupeKey listed bucket,
      first.dedupeKey = ref.dedupeKey := exists_mem_keepFirst href List.not_mem_nil
  have hagree := h.agree _ (horder.mem_iff.mp hfrom) _ hbucket
  obtain rfl := hagree.eq_of_key hdistinct hfirst (hkey.trans hfirstKey.symm)
  obtain ⟨placed, hplaced⟩ := h.resolved bucket hbucket ref href
  have hsame : place fromisoformat store request now e.1 e.2 = .ok placed := by
    rw [hagree.alike e.2 hdistinct hfirst]
    exact place_of_dedupeKey hkey.symm hplaced
  refine ⟨placed, hplaced, ?_⟩
  rw [Gathered.proofs, hout]
  refine List.mem_map_of_mem (List.mem_filter.mpr ⟨?_, by simp⟩)
  exact (Result.mem_of_mapM hplacements placed).mpr ⟨e, he, hsame⟩

/-! ## Two buckets that come first in either order -/

/-- Placements that fill every bucket alike are the same ones, if all of one list are under one
bucket. -/
theorem eq_of_proofs_eq {bucket : ProofBucket} {l l' : List (ProofBucket × ProofItem)}
    (hlength : l.length = l'.length) (hall : ∀ e ∈ l, e.1 = bucket)
    (hsame : ∀ target, (l.filter (fun e => e.1 = target)).map Prod.snd =
      (l'.filter (fun e => e.1 = target)).map Prod.snd) : l = l' := by
  have hl : l.filter (fun e => e.1 = bucket) = l :=
    List.filter_eq_self.mpr (fun e he => decide_eq_true (hall e he))
  have hl' : l'.filter (fun e => e.1 = bucket) = l' := by
    refine List.filter_sublist.eq_of_length ?_
    have := congrArg List.length (hsame bucket)
    rw [List.length_map, List.length_map, hl] at this
    rw [← this, hlength]
  have hitems := hsame bucket
  rw [hl, hl'] at hitems
  have hall' : ∀ e ∈ l', e.1 = bucket :=
    fun e he => of_decide_eq_true (List.filter_eq_self.mp hl' e he)
  have hfst (k : List (ProofBucket × ProofItem)) (hk : ∀ e ∈ k, e.1 = bucket) :
      k = (k.map Prod.snd).map (fun item => (bucket, item)) := by
    rw [List.map_map]
    refine (List.map_id k).symm.trans (List.map_congr_left (fun e he => ?_))
    rw [Function.comp_apply, ← hk e he]
    rfl
  rw [hfst l hall, hfst l' hall', hitems]

theorem mapM_pairs_eq_ok {bucket : ProofBucket} {refs : List QualificationRef}
    {placed : List (ProofBucket × ProofItem)} :
    (refs.map (fun ref => (bucket, ref))).mapM
        (fun e => place fromisoformat store request now e.1 e.2) = .ok placed ↔
      List.Forall₂ (fun ref p => place fromisoformat store request now bucket ref = .ok p)
        refs placed := by
  rw [Result.mapM_eq_ok, List.forall₂_map_left_iff]

theorem forall_bucket {bucket : ProofBucket} (hbucket : bucket ≠ .procedureProofs)
    {refs : List QualificationRef} {placed : List (ProofBucket × ProofItem)}
    (h : List.Forall₂ (fun ref p => place fromisoformat store request now bucket ref = .ok p)
      refs placed) : ∀ e ∈ placed, e.1 = bucket := by
  induction h with
  | nil => exact fun e he => absurd he List.not_mem_nil
  | cons hp _ ih => exact List.forall_mem_cons.mpr ⟨place_bucket hbucket hp, ih⟩

theorem placed_alike {bucket bucket' : ProofBucket} {refs : List QualificationRef}
    {placed : List (ProofBucket × ProofItem)}
    (h : List.Forall₂ (fun ref p => place fromisoformat store request now bucket ref = .ok p)
      refs placed)
    (h' : List.Forall₂ (fun ref p => place fromisoformat store request now bucket' ref = .ok p)
      refs placed) : ∀ ref ∈ refs, place fromisoformat store request now bucket ref =
        place fromisoformat store request now bucket' ref := by
  induction h with
  | nil => exact fun ref href => absurd href List.not_mem_nil
  | cons hp _ ih =>
    cases h' with
    | cons hp' hrest' => exact List.forall_mem_cons.mpr ⟨hp.trans hp'.symm, ih hrest'⟩

/-- Two buckets of which the second lists more file alike what both list, if the context does not
change with their order. -/
theorem alike_of_extends {bucket bucket' : ProofBucket} (hne : bucket ≠ bucket')
    {more : List QualificationRef}
    (hmore : distinct dedupeKey listed bucket ++ more = distinct dedupeKey listed bucket')
    {rest : List ProofBucket} {g g' : Gathered}
    (hg : gatherAll fromisoformat store request now listed (bucket :: bucket' :: rest) = .ok g)
    (hg' : gatherAll fromisoformat store request now listed (bucket' :: bucket :: rest) = .ok g')
    (hsame : ∀ target, g'.proofs target = g.proofs target) :
    ∀ ref ∈ distinct dedupeKey listed bucket,
      place fromisoformat store request now bucket ref =
        place fromisoformat store request now bucket' ref := by
  obtain ⟨placed, hplaced, -, hout, -⟩ := gatherAll_eq_ok.mp hg
  obtain ⟨placed', hplaced', -, hout', -⟩ := gatherAll_eq_ok.mp hg'
  obtain ⟨tail, hpooled, hpooled'⟩ := exists_pooled_pair dedupeKey listed bucket bucket' rest
  rw [hpooled, filter_new_of_extends hmore, List.append_assoc, List.mapM_append] at hplaced
  rw [hpooled', filter_seen_of_extends ⟨more, hmore⟩, List.map_nil, List.append_nil, ← hmore,
    List.map_append, List.append_assoc, List.mapM_append] at hplaced'
  obtain ⟨front, hfront, hplaced⟩ := Result.bind_eq_ok.mp hplaced
  obtain ⟨back, hback, hplaced⟩ := Result.bind_eq_ok.mp hplaced
  obtain ⟨front', hfront', hplaced'⟩ := Result.bind_eq_ok.mp hplaced'
  obtain ⟨back', hback', hplaced'⟩ := Result.bind_eq_ok.mp hplaced'
  obtain rfl := Result.pure_eq_ok.mp hplaced
  obtain rfl := Result.pure_eq_ok.mp hplaced'
  obtain rfl : back' = back := Except.ok.inj (hback'.symm.trans hback)
  have hfronts (target : ProofBucket) : (front'.filter (fun e => e.1 = target)).map Prod.snd =
      (front.filter (fun e => e.1 = target)).map Prod.snd := by
    have := hsame target
    rw [Gathered.proofs, Gathered.proofs, hout, hout', List.filter_append, List.filter_append,
      List.map_append, List.map_append] at this
    exact List.append_cancel_right this
  rw [mapM_pairs_eq_ok] at hfront hfront'
  have hlength : front'.length = front.length :=
    hfront'.length_eq.symm.trans hfront.length_eq
  have heq : front' = front := by
    by_cases hbucket : bucket = .procedureProofs
    · exact eq_of_proofs_eq hlength
        (forall_bucket (fun h => hne (hbucket.trans h.symm)) hfront') hfronts
    · exact (eq_of_proofs_eq hlength.symm (forall_bucket hbucket hfront)
        (fun target => (hfronts target).symm)).symm
  exact placed_alike hfront (heq ▸ hfront')

theorem QualificationRef.dump_injective : Function.Injective QualificationRef.dump := by
  intro ref ref' h
  obtain ⟨refId, kind, version, hid, hkind⟩ := ref
  obtain ⟨refId', kind', version', hid', hkind'⟩ := ref'
  simp only [QualificationRef.dump, Json.obj.injEq, List.cons.injEq, Prod.mk.injEq, true_and,
    and_true, Json.str.injEq] at h
  obtain ⟨rfl, hkinds, hversions⟩ := h
  have hk : kind = kind' := by
    cases kind <;> cases kind' <;> simp_all [Json.ofOption]
  have hv : version = version' := by
    rcases version with _ | _ | _ <;> rcases version' with _ | _ | _ <;>
      simp_all [RefVersion.json]
  subst hk
  subst hv
  rfl

/-! ## The context -/

variable {sha256 : String → String} {work : Option Work} {run : Option Run}

theorem resolve_eq_ok {a : Resolved} :
    resolve sha256 fromisoformat store request work run now order = .ok a ↔
      ∃ work' run' listed g, sources store request work run = .ok (work', run', listed) ∧
        gatherAll fromisoformat store request now listed order = .ok g ∧
        a = { work := work', run := run', proofs := g.proofs, refs := g.refs,
              digest := sha256 g.text } := by
  constructor
  · intro h
    obtain ⟨⟨work', run', listed⟩, hsources, h⟩ := Result.bind_eq_ok.mp h
    obtain ⟨g, hg, h⟩ := Result.bind_eq_ok.mp h
    exact ⟨work', run', listed, g, hsources, hg, Result.pure_eq_ok.mp h |>.symm⟩
  · rintro ⟨work', run', listed, g, hsources, hg, rfl⟩
    exact Result.bind_eq_ok.mpr ⟨_, hsources, Result.bind_eq_ok.mpr ⟨g, hg, rfl⟩⟩

/-- If the context does not depend on the order, the buckets are read alike. -/
theorem HashOrderIndependent.readAlike {work' : Option Work} {run' : Option Run}
    (hsources : sources store request work run = .ok (work', run', listed))
    (htells : DigestTells sha256 fromisoformat store request now listed)
    (h : HashOrderIndependent sha256 fromisoformat store request work run now)
    (hresolves : ¬ Unresolvable fromisoformat store request now listed) :
    ReadAlike fromisoformat store request now listed := by
  obtain ⟨order, horder, hall⟩ : ∃ order, order.Perm refBuckets ∧
      ∀ e ∈ pooled dedupeKey listed order, ∃ placed,
        place fromisoformat store request now e.1 e.2 = .ok placed := by
    simpa only [Unresolvable, not_forall, not_exists, not_and, exists_prop, not_not] using hresolves
  obtain ⟨placements, hplacements⟩ := Result.exists_mapM hall
  obtain ⟨g₀, hg₀⟩ : ∃ g, gatherAll fromisoformat store request now listed order = .ok g :=
    ⟨⟨_, _, _⟩, gatherAll_eq_ok.mpr ⟨placements, hplacements, rfl, rfl, rfl⟩⟩
  have hfirst : resolve sha256 fromisoformat store request work run now order = .ok _ :=
    resolve_eq_ok.mpr ⟨work', run', listed, g₀, hsources, hg₀, rfl⟩
  have hgathered : ∀ order', order'.Perm refBuckets → ∃ g,
      gatherAll fromisoformat store request now listed order' = .ok g ∧
        (∀ bucket, g.proofs bucket = g₀.proofs bucket) ∧ g.payload = g₀.payload := by
    intro order' horder'
    obtain ⟨a, ha, hproofs, hdigest⟩ := h.same order order' horder horder' _ hfirst
    obtain ⟨_, _, listed', g, hsources', hg, rfl⟩ := resolve_eq_ok.mp ha
    obtain ⟨rfl, hrest⟩ := Prod.mk.inj (Except.ok.inj (hsources.symm.trans hsources'))
    obtain ⟨rfl, rfl⟩ := Prod.mk.inj hrest
    exact ⟨g, hg, hproofs, htells order' order g g₀ horder' horder hg hg₀ hdigest⟩
  have hresolved : ∀ bucket ∈ refBuckets, ∀ ref ∈ listed bucket, ∃ placed,
      place fromisoformat store request now bucket ref = .ok placed := by
    intro bucket hbucket ref href
    obtain ⟨placed, hplaced, -⟩ :=
      h.contributes order horder _ hfirst work' run' listed hsources bucket hbucket ref href
    exact ⟨placed, hplaced⟩
  refine ⟨hresolved, fun bucket hbucket bucket' hbucket' => ?_⟩
  by_cases hne : bucket = bucket'
  · exact hne ▸ .refl bucket
  · have hperm : (bucket :: bucket' :: (refBuckets.erase bucket).erase bucket').Perm
        refBuckets :=
      ((List.perm_cons_erase ((List.mem_erase_of_ne (Ne.symm hne)).mpr hbucket')).symm.cons
        bucket).trans (List.perm_cons_erase hbucket).symm
    obtain ⟨g, hg, hproofs, hpayload⟩ := hgathered _ hperm
    obtain ⟨g', hg', hproofs', hpayload'⟩ := hgathered _ ((List.Perm.swap _ _ _).trans hperm)
    have hsame (target : ProofBucket) : g'.proofs target = g.proofs target :=
      (hproofs' target).trans (hproofs target).symm
    have hrefs : g.refs = g'.refs := by
      have := hpayload.trans hpayload'.symm
      simp only [Gathered.payload, Json.obj.injEq, List.cons.injEq, Prod.mk.injEq, true_and,
        Json.arr.injEq] at this
      exact List.map_injective_iff.mpr QualificationRef.dump_injective this.1
    obtain ⟨_, -, hg_refs, -, -⟩ := gatherAll_eq_ok.mp hg
    obtain ⟨_, -, hg'_refs, -, -⟩ := gatherAll_eq_ok.mp hg'
    obtain ⟨tail, hpooled, hpooled'⟩ := exists_pooled_pair dedupeKey listed bucket bucket'
      ((refBuckets.erase bucket).erase bucket')
    have hsnd (b : ProofBucket) (refs : List QualificationRef) :
        (refs.map (fun ref => (b, ref))).map Prod.snd = refs := by
      rw [List.map_map]
      exact List.map_id refs
    have hprefix : distinct dedupeKey listed bucket <+: g.refs := by
      rw [hg_refs, hpooled, List.append_assoc, List.map_append, hsnd]
      exact List.prefix_append _ _
    have hprefix' : distinct dedupeKey listed bucket' <+: g.refs := by
      rw [hrefs, hg'_refs, hpooled', List.append_assoc, List.map_append, hsnd]
      exact List.prefix_append _ _
    rcases List.prefix_or_prefix_of_prefix hprefix hprefix' with hle | hle
    · obtain ⟨more, hmore⟩ := hle
      exact ⟨.inl ⟨more, hmore⟩, fun ref href _ => alike_of_extends hne hmore hg hg' hsame ref href⟩
    · obtain ⟨more, hmore⟩ := hle
      exact ⟨.inr ⟨more, hmore⟩, fun ref _ href =>
        (alike_of_extends (Ne.symm hne) hmore hg' hg (fun target => (hsame target).symm) ref
          href).symm⟩

theorem HashOrderIndependent.of_readAlike
    (h : ∀ work' run' listed, sources store request work run = .ok (work', run', listed) →
      Unresolvable fromisoformat store request now listed ∨
        ReadAlike fromisoformat store request now listed) :
    HashOrderIndependent sha256 fromisoformat store request work run now := by
  have hread {order : List ProofBucket} {g : Gathered} {work' : Option Work} {run' : Option Run}
      {listed : ProofBucket → List QualificationRef} (horder : order.Perm refBuckets)
      (hsources : sources store request work run = .ok (work', run', listed))
      (hg : gatherAll fromisoformat store request now listed order = .ok g) :
      ReadAlike fromisoformat store request now listed := by
    refine (h work' run' listed hsources).resolve_left (fun hunresolvable => ?_)
    obtain ⟨e, he, hfails⟩ := hunresolvable order horder
    obtain ⟨placements, hplacements, -⟩ := gatherAll_eq_ok.mp hg
    obtain ⟨placed, hplaced⟩ := Result.exists_of_mapM hplacements e he
    exact hfails placed hplaced
  constructor
  · intro order order' horder horder' a ha
    obtain ⟨work', run', listed, g, hsources, hg, rfl⟩ := resolve_eq_ok.mp ha
    have hg' := (hread horder hsources hg).gatherAll_perm horder horder' hg
    exact ⟨_, resolve_eq_ok.mpr ⟨work', run', listed, g, hsources, hg', rfl⟩, fun _ => rfl, rfl⟩
  · intro order horder a ha work' run' listed hsources bucket hbucket ref href
    obtain ⟨_, _, _, g, hsources', hg, rfl⟩ := resolve_eq_ok.mp ha
    obtain ⟨rfl, hrest⟩ := Prod.mk.inj (Except.ok.inj (hsources.symm.trans hsources'))
    obtain ⟨rfl, rfl⟩ := Prod.mk.inj hrest
    exact (hread horder hsources hg).contributes horder hg hbucket href

/-- The context does not depend on the order of the buckets, and every bucket gets what is listed
for it, exactly where the references resolve in no order or the buckets are read alike. -/
theorem hashOrderIndependent_iff
    (htells : ∀ work' run' listed, sources store request work run = .ok (work', run', listed) →
      DigestTells sha256 fromisoformat store request now listed) :
    HashOrderIndependent sha256 fromisoformat store request work run now ↔
      ∀ work' run' listed, sources store request work run = .ok (work', run', listed) →
        Unresolvable fromisoformat store request now listed ∨
          ReadAlike fromisoformat store request now listed := by
  constructor
  · intro h work' run' listed hsources
    exact (Classical.em _).imp_right
      (h.readAlike hsources (htells work' run' listed hsources))
  · exact .of_readAlike

/-! ## One record -/

/-- References of one bucket are read alike. -/
theorem ReadAlike.of_one_bucket {bucket : ProofBucket}
    (hother : ∀ other, other ≠ bucket → listed other = [])
    (hresolved : ∀ ref ∈ listed bucket, ∃ placed,
      place fromisoformat store request now bucket ref = .ok placed) :
    ReadAlike fromisoformat store request now listed := by
  have hempty (other : ProofBucket) (hne : other ≠ bucket) :
      distinct dedupeKey listed other = [] := by
    rw [distinct, hother other hne]
    rfl
  have hagree (first second : ProofBucket) (hne : first ≠ bucket) :
      SourcesAgree dedupeKey listed (place fromisoformat store request now) first second := by
    refine ⟨.inl ?_, fun ref href => ?_⟩
    · rw [hempty first hne]
      exact List.nil_prefix
    · rw [hempty first hne] at href
      exact absurd href List.not_mem_nil
  constructor
  · intro other _ ref href
    by_cases hne : other = bucket
    · exact hne ▸ hresolved ref (hne ▸ href)
    · rw [hother other hne] at href
      exact absurd href List.not_mem_nil
  · intro first _ second _
    by_cases hne : first = bucket
    · by_cases hne' : second = bucket
      · rw [hne, hne']
        exact .refl bucket
      · exact (hagree second first hne').symm
    · exact hagree first second hne

def measuredArtifact : BaseRecord :=
  { id := "rec_1", recordType := .evidenceArtifact, createdAt := 0, lifecycleStatus := .current }

/-- A store that has one record. -/
def oneRecord : QualificationStore where
  getter
    | .record => some (fun refId => .ok (if refId = "rec_1" then some measuredArtifact else none))
    | _ => none

def requestWith (metadata : Fields) : InvocationRequest :=
  { id := "req_1", capability := "files.read", metadata := metadata }

def artifactRef : QualificationRef :=
  { refId := "rec_1", id_nonBlank := by decide, kind_nonBlank := rfl }

theorem sources_one_bucket : sources oneRecord
    (requestWith [("evidence_refs", .arr [.str "rec_1"])]) none none =
      .ok (none, none, fun bucket =>
        if bucket = .evidenceArtifacts then [artifactRef] else []) := by
  refine congrArg Except.ok (congrArg (fun listed => (none, none, listed)) ?_)
  funext bucket
  cases bucket <;> rfl

/-- A record that is referred to as evidence. -/
theorem hashOrderIndependent_one_bucket :
    HashOrderIndependent id (fun _ => none) oneRecord
        (requestWith [("evidence_refs", .arr [.str "rec_1"])]) none none 0 ↔
      ∀ work' run' listed, sources oneRecord
          (requestWith [("evidence_refs", .arr [.str "rec_1"])]) none none =
          .ok (work', run', listed) →
        Unresolvable (fun _ => none) oneRecord
            (requestWith [("evidence_refs", .arr [.str "rec_1"])]) 0 listed ∨
          ReadAlike (fun _ => none) oneRecord
            (requestWith [("evidence_refs", .arr [.str "rec_1"])]) 0 listed := by
  refine hashOrderIndependent_iff (fun work' run' listed hsources => ?_)
  rw [sources_one_bucket] at hsources
  obtain ⟨-, hrest⟩ := Prod.mk.inj (Except.ok.inj hsources)
  obtain ⟨-, rfl⟩ := Prod.mk.inj hrest
  intro order order' g g' horder horder' hg hg' _
  have halike : ReadAlike (fun _ => none) oneRecord
      (requestWith [("evidence_refs", .arr [.str "rec_1"])]) 0
      (fun bucket => if bucket = .evidenceArtifacts then [artifactRef] else []) := by
    refine .of_one_bucket (fun other (hne : other ≠ .evidenceArtifacts) => if_neg hne) ?_
    intro ref href
    rw [if_pos rfl, List.mem_singleton] at href
    subst href
    exact ⟨_, rfl⟩
  rw [Except.ok.inj ((halike.gatherAll_perm horder horder' hg).symm.trans hg')]

/-- A record that is referred to both as evidence and as a verification is filed under the bucket
that comes first. -/
theorem resolve_depends_on_hash_order :
    ¬ HashOrderIndependent id (fun _ => none) oneRecord
      (requestWith [("evidence_refs", .arr [.str "rec_1"]),
        ("verification_refs", .arr [.str "rec_1"])]) none none 0 := by
  intro h
  let resolved := resolve id (fun _ => none) oneRecord
    (requestWith [("evidence_refs", .arr [.str "rec_1"]),
      ("verification_refs", .arr [.str "rec_1"])]) none none 0
  let filed (r : Result Resolved) : Option Nat :=
    r.toOption.map (fun a => (a.proofs .evidenceArtifacts).length)
  have hfiled : filed (resolved refBuckets) = some 1 := by decide +kernel
  have hfiled' : filed (resolved refBuckets.reverse) = some 0 := by decide +kernel
  cases hfirst : resolved refBuckets with
  | error e =>
    rw [hfirst] at hfiled
    cases hfiled
  | ok a =>
    obtain ⟨a', ha', hproofs, -⟩ := h.same refBuckets refBuckets.reverse (.refl _)
      (List.reverse_perm refBuckets) a hfirst
    rw [hfirst] at hfiled
    rw [show resolved refBuckets.reverse = .ok a' from ha'] at hfiled'
    have hsame : filed (.ok a') = filed (.ok a) :=
      congrArg (fun items => some (List.length items)) (hproofs .evidenceArtifacts)
    exact absurd (hfiled'.symm.trans (hsame.trans hfiled)) (by decide)

end AssessmentContext
end PortableRuntime
