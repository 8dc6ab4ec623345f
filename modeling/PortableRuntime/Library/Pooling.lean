import Mathlib.Data.List.Infix
import Mathlib.Data.List.Perm.Basic
import PortableRuntime.Library.FirstWins

/-!
# Lists that are pooled

Several sources list items, and an item is taken from the first source that lists its key.  The
sources come in some order.  What is pooled does not depend on that order if and only if of any
two sources one lists what the other does and then more, and both lead to the same for what they
share.
-/

namespace PortableRuntime

variable {β α κ γ : Type} [DecidableEq κ]

/-- What the sources list, in their order, each key once. -/
def pooled (key : α → κ) (listed : β → List α) (sources : List β) : List (β × α) :=
  keepFirst (fun e => key e.2) [] (sources.flatMap (fun b => (listed b).map (fun a => (b, a))))

/-- What a source lists, each key once. -/
def distinct (key : α → κ) (listed : β → List α) (b : β) : List α := keepFirst key [] (listed b)

variable {key : α → κ} {listed : β → List α} {sources sources' rest : List β} {b b' : β}

theorem keepFirst_pairs (seen : List κ) (b : β) (l : List α) :
    keepFirst (fun e : β × α => key e.2) seen (l.map (fun a => (b, a))) =
      (keepFirst key seen l).map (fun a => (b, a)) :=
  keepFirst_map

theorem keepFirst_listed (key : α → κ) (listed : β → List α) (seen : List κ) (b : β) :
    keepFirst key seen (listed b) =
      (distinct key listed b).filter (fun a => key a ∉ seen) :=
  keepFirst_eq_filter

/-- One more source adds what it lists and the others do not. -/
theorem pooled_concat : pooled key listed (sources ++ [b]) = pooled key listed sources ++
    ((distinct key listed b).filter (fun a =>
      key a ∉ (pooled key listed sources).map (fun e => key e.2))).map (fun a => (b, a)) := by
  rw [pooled, List.flatMap_append, keepFirst_append, List.append_nil, List.flatMap_singleton,
    keepFirst_pairs, keepFirst_listed key listed]
  rfl

theorem pooled_singleton : pooled key listed [b] =
    (distinct key listed b).map (fun a => (b, a)) := by
  rw [pooled, List.flatMap_singleton, keepFirst_pairs]
  rfl

/-- Two sources and what the rest adds, which does not depend on their order. -/
theorem exists_pooled_pair (key : α → κ) (listed : β → List α) (b b' : β) (rest : List β) :
    ∃ tail, pooled key listed (b :: b' :: rest) = (distinct key listed b).map (fun a => (b, a)) ++
      ((distinct key listed b').filter (fun a => key a ∉ (distinct key listed b).map key)).map
        (fun a => (b', a)) ++ tail ∧
    pooled key listed (b' :: b :: rest) = (distinct key listed b').map (fun a => (b', a)) ++
      ((distinct key listed b).filter (fun a => key a ∉ (distinct key listed b').map key)).map
        (fun a => (b, a)) ++ tail := by
  have hsplit (c c' : β) : pooled key listed (c :: c' :: rest) =
      (distinct key listed c).map (fun a => (c, a)) ++
        ((distinct key listed c').filter (fun a => key a ∉ (distinct key listed c).map key)).map
          (fun a => (c', a)) ++
        keepFirst (fun e => key e.2) ((distinct key listed c).map key ++
          (distinct key listed c').map key)
          (rest.flatMap (fun b => (listed b).map (fun a => (b, a)))) := by
    have hpair : keepFirst (fun e : β × α => key e.2) []
        ((listed c).map (fun a => (c, a)) ++ (listed c').map (fun a => (c', a))) =
        (distinct key listed c).map (fun a => (c, a)) ++
          ((distinct key listed c').filter (fun a =>
            key a ∉ (distinct key listed c).map key)).map (fun a => (c', a)) := by
      rw [keepFirst_append, keepFirst_pairs, keepFirst_pairs, List.map_map, List.append_nil]
      exact congrArg (fun kept => _ ++ kept.map (fun a => (c', a)))
        (keepFirst_listed key listed _ c')
    rw [pooled, List.flatMap_cons, List.flatMap_cons, ← List.append_assoc, keepFirst_append, hpair]
    refine congrArg (_ ++ ·) (keepFirst_congr (fun k => ?_))
    simp only [List.append_nil, List.map_append, List.map_map, List.mem_append, List.mem_map,
      List.mem_filter, Function.comp_apply, decide_eq_true_eq]
    constructor
    · rintro (h | ⟨a, ⟨ha, -⟩, rfl⟩)
      · exact .inl h
      · exact .inr ⟨a, ha, rfl⟩
    · rintro (h | ⟨a, ha, rfl⟩)
      · exact .inl h
      · by_cases hfirst : ∃ a', a' ∈ distinct key listed c ∧ key a' = key a
        · exact .inl hfirst
        · exact .inr ⟨a, ⟨ha, hfirst⟩, rfl⟩
  refine ⟨_, hsplit b b', ?_⟩
  rw [hsplit b' b]
  exact congrArg (_ ++ ·) (keepFirst_congr (fun k => List.perm_append_comm.mem_iff))

/-! ## Sources that agree -/

/-- One of two sources lists what the other does and then more, and they lead to the same for
what they share. -/
structure SourcesAgree (key : α → κ) (listed : β → List α) (f : β → α → γ) (b b' : β) : Prop where
  comparable : distinct key listed b <+: distinct key listed b' ∨
    distinct key listed b' <+: distinct key listed b
  alike : ∀ a ∈ distinct key listed b, a ∈ distinct key listed b' → f b a = f b' a

variable {f : β → α → γ}

theorem SourcesAgree.refl (b : β) : SourcesAgree key listed f b b :=
  ⟨.inl (List.prefix_refl _), fun _ _ _ => rfl⟩

theorem SourcesAgree.symm (h : SourcesAgree key listed f b b') : SourcesAgree key listed f b' b :=
  ⟨h.comparable.symm, fun a ha ha' => (h.alike a ha' ha).symm⟩

/-- Under one key, sources that agree list the same item. -/
theorem SourcesAgree.eq_of_key (h : SourcesAgree key listed f b b') {a a' : α}
    (ha : a ∈ distinct key listed b) (ha' : a' ∈ distinct key listed b') (hkey : key a = key a') :
    a = a' := by
  rcases h.comparable with hstarts | hstarts
  · exact eq_of_mem_keepFirst (hstarts.subset ha) ha' hkey
  · exact eq_of_mem_keepFirst ha (hstarts.subset ha') hkey

theorem filter_seen_of_extends (h : distinct key listed b <+: distinct key listed b') :
    (distinct key listed b).filter (fun a => key a ∉ (distinct key listed b').map key) = [] := by
  refine List.filter_eq_nil_iff.mpr (fun a ha => ?_)
  simp only [decide_eq_true_eq, not_not]
  exact List.mem_map_of_mem (h.subset ha)

theorem filter_new_of_extends {more : List α}
    (h : distinct key listed b ++ more = distinct key listed b') :
    (distinct key listed b').filter (fun a => key a ∉ (distinct key listed b).map key) = more := by
  have hnodup : ((distinct key listed b).map key ++ more.map key).Nodup := by
    rw [← List.map_append, h]
    exact nodup_map_keepFirst
  rw [← h, List.filter_append, filter_seen_of_extends (List.prefix_refl _), List.nil_append,
    List.filter_eq_self]
  intro a ha
  rw [decide_eq_true_eq]
  exact fun hmem => (List.nodup_append.mp hnodup).2.2 _ hmem _ (List.mem_map_of_mem ha) rfl

/-- Sources that agree pool what the one with the longest list lists. -/
theorem exists_pooled_of_agree (hne : sources ≠ [])
    (h : ∀ b ∈ sources, ∀ b' ∈ sources, SourcesAgree key listed f b b') :
    ∃ b ∈ sources, (∀ b' ∈ sources, distinct key listed b' <+: distinct key listed b) ∧
      (pooled key listed sources).map (fun e => (e.2, f e.1 e.2)) =
        (distinct key listed b).map (fun a => (a, f b a)) := by
  induction sources using List.reverseRecOn with
  | nil => exact absurd rfl hne
  | append_singleton before b ih =>
    by_cases hbefore : before = []
    · subst hbefore
      refine ⟨b, List.mem_singleton_self b, fun b' hb' => ?_, ?_⟩
      · rw [List.mem_singleton.mp hb']
      · rw [List.nil_append, pooled_singleton, List.map_map]
        rfl
    · obtain ⟨longest, hlongest, hall, hpooled⟩ := ih hbefore (fun c hc c' hc' =>
        h c (List.mem_append_left [b] hc) c' (List.mem_append_left [b] hc'))
      have hagree := h longest (List.mem_append_left [b] hlongest) b
        (List.mem_append_right before (List.mem_singleton_self b))
      have hkeys : (pooled key listed before).map (fun e => key e.2) =
          (distinct key listed longest).map key := by
        have := congrArg (List.map (fun e => key e.1)) hpooled
        rw [List.map_map, List.map_map] at this
        exact this
      rw [pooled_concat, hkeys, List.map_append, hpooled, List.map_map]
      rcases hagree.comparable with hprefix | hprefix
      · obtain ⟨more, hmore⟩ := hprefix
        refine ⟨b, List.mem_append_right before (List.mem_singleton_self b), ?_, ?_⟩
        · intro b' hb'
          rcases List.mem_append.mp hb' with hb' | hb'
          · exact (hall b' hb').trans ⟨more, hmore⟩
          · rw [List.mem_singleton.mp hb']
        · rw [filter_new_of_extends hmore, ← hmore, List.map_append]
          refine congrArg (· ++ _) (List.map_congr_left (fun a ha => ?_))
          rw [hagree.alike a ha (hmore ▸ List.mem_append_left more ha)]
      · refine ⟨longest, List.mem_append_left [b] hlongest, ?_, ?_⟩
        · intro b' hb'
          rcases List.mem_append.mp hb' with hb' | hb'
          · exact hall b' hb'
          · rwa [List.mem_singleton.mp hb']
        · rw [filter_seen_of_extends hprefix]
          exact List.append_nil _

/-- What agreeing sources pool does not depend on their order. -/
theorem pooled_perm (hperm : sources.Perm sources')
    (h : ∀ b ∈ sources, ∀ b' ∈ sources, SourcesAgree key listed f b b') :
    (pooled key listed sources).map (fun e => (e.2, f e.1 e.2)) =
      (pooled key listed sources').map (fun e => (e.2, f e.1 e.2)) := by
  by_cases hne : sources = []
  · subst hne
    rw [hperm.nil_eq]
  have hne' : sources' ≠ [] := fun h' => hne (List.perm_nil.mp (h' ▸ hperm))
  obtain ⟨b, hb, hall, hpooled⟩ := exists_pooled_of_agree hne h
  obtain ⟨b', hb', hall', hpooled'⟩ := exists_pooled_of_agree hne' (fun c hc c' hc' =>
    h c (hperm.mem_iff.mpr hc) c' (hperm.mem_iff.mpr hc'))
  have hsame : distinct key listed b = distinct key listed b' :=
    (hall' b (hperm.mem_iff.mp hb)).eq_of_length_le
      (hall b' (hperm.mem_iff.mpr hb')).length_le
  rw [hpooled, hpooled', ← hsame]
  refine List.map_congr_left (fun a ha => ?_)
  rw [(h b hb b' (hperm.mem_iff.mpr hb')).alike a ha (hsame ▸ ha)]

/-- What is pooled from a source is one of its own items. -/
theorem mem_distinct_of_mem_pooled {e : β × α} (he : e ∈ pooled key listed sources) :
    e.1 ∈ sources ∧ e.2 ∈ distinct key listed e.1 := by
  obtain ⟨b, hb, hkept⟩ := exists_of_mem_keepFirst_flatMap he
  rw [keepFirst_pairs] at hkept
  obtain ⟨a, ha, rfl⟩ := List.mem_map.mp hkept
  exact ⟨hb, ha⟩

/-- An item that is listed is pooled from the first source that lists its key. -/
theorem exists_mem_pooled (key : α → κ) {a : α} (hb : b ∈ sources) (ha : a ∈ listed b) :
    ∃ e ∈ pooled key listed sources, key e.2 = key a :=
  exists_mem_keepFirst (a := (b, a)) (List.mem_flatMap.mpr ⟨b, hb, List.mem_map_of_mem ha⟩)
    List.not_mem_nil

end PortableRuntime
