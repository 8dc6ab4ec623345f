import PortableRuntime.Protocol.Lookup
import PortableRuntime.Stores.Calls

/-!
# Stores that keep each object under its own identity

In such a store a write leaves the objects of the candidate that its gate validated, in
another order: the store replaces a value where it stands, and the candidate appends it.
Only a swap can store a value under an identity that is not its own.
-/

namespace PortableRuntime
namespace MemoryStore

variable {digest : Json → String} {now : Time} {st st' : MemoryStore}

def Keyed (st : MemoryStore) : Prop :=
  ∀ k id (v : Model k), st.get k id = some v → k.identifier v = id

/-- A swap stores its value under the value's own identity. -/
def WellAddressed (_ : MemoryStore) (o : Time × Op) : Prop :=
  match o.2 with
  | .compareAndSwap k id _ v => k.identifier v = id
  | _ => True

theorem keyed_empty : Keyed empty := by
  intro k id v h
  simp [get, empty] at h

theorem Keyed.put (h : Keyed st) {k : Kind} {id : String} {v : Model k}
    (hv : k.identifier v = id) : Keyed (st.put k id v) := by
  intro k' id' v' hget
  by_cases hk : k' = k
  · subst hk
    rw [get_put_self] at hget
    by_cases hid : id' = id
    · rw [if_pos hid, Option.some.injEq] at hget
      rw [← hget, hv, hid]
    · rw [if_neg hid] at hget
      exact h k' id' v' hget
  · rw [get_put_of_ne st hk] at hget
    exact h k' id' v' hget

theorem Keyed.save (h : Keyed st) (k : Kind) (v : Model k) : Keyed (st.save k v) := h.put rfl

theorem Keyed.saveAll (h : Keyed st) (incoming : State) : Keyed (st.saveAll incoming) := by
  intro k id v hget
  rcases Dict.get?_setAll (d := st.records k) hget with ⟨-, hid⟩ | ⟨-, hold⟩
  · exact hid
  · exact h k id v hold

theorem Keyed.appendEventAs {e : Event} {authority : Option CommitAuthority} (h : Keyed st)
    (happend : st.appendEventAs authority e = .ok st') : Keyed st' := by
  rcases appendEventAs_eq_ok happend with ⟨-, -, -, rfl⟩ | ⟨-, rfl⟩
  · exact h
  · exact h.save .event e

theorem Keyed.appendEvents {authority : Option CommitAuthority} {events : List Event}
    (h : Keyed st) (happend : st.appendEvents authority events = .ok st') : Keyed st' :=
  appendEvents_induction (P := Keyed) (fun _ _ _ _ hk h => hk.appendEventAs h) h happend

theorem Keyed.call {o : Op} (h : Keyed st) (hC : WellAddressed st (now, o))
    (hcall : st.call digest now o = .ok st') : Keyed st' := by
  cases o with
  | save k v =>
    by_cases hk : k = .event
    · subst hk
      exact @Keyed.appendEventAs _ _ v none h hcall
    · obtain ⟨-, -, rfl⟩ := saveModel_eq_ok hk hcall
      exact h.save k v
  | compareAndSwap k id expected v =>
    obtain ⟨b, hcas⟩ := call_compareAndSwap_eq_ok hcall
    rcases compareAndSwap_eq_ok hcas with ⟨-, rfl⟩ | ⟨-, -, -, -, -, -, rfl⟩
    · exact h
    · exact h.put hC
  | commitTerminal work run refs =>
    obtain ⟨-, -, -, -, rfl⟩ := commitTerminal_eq_ok.mp hcall
    exact (h.save .work work).save .run run
  | commitVerifiedOutcome request =>
    obtain ⟨prepared, -, rfl | ⟨-, happend⟩⟩ := commitVerifiedOutcome_eq_ok hcall
    · exact h
    · exact (h.save .record _).appendEvents happend
  | commitHistoricalExperienceUse use =>
    rcases commitHistoricalExperienceUse_eq_ok hcall with rfl | ⟨-, -, -, -, event, -, happend⟩
    · exact h
    · exact (h.save .record _).appendEventAs happend
  | commitEvents authority prepare =>
    rcases commitEvents_eq_ok hcall with rfl | ⟨events, -, happend⟩
    · exact h
    · exact h.appendEvents happend
  | importState state =>
    obtain ⟨-, -, -, -, rfl⟩ := importState_eq_ok.mp hcall
    exact h.saveAll _

theorem Keyed.step {o : Time × Op} (h : Keyed st) (hC : WellAddressed st o) :
    Keyed (step digest st o) := by
  unfold MemoryStore.step
  split
  · rename_i st' hcall
    exact h.call hC hcall
  · exact h

/-! ## A write leaves its candidate -/

theorem map_snd_filter_eq {k : Kind} (h : Keyed st) {ids : List String} :
    ((st.records k).entries.filter (fun e => decide (e.1 ∉ ids))).map Prod.snd =
      (st.exportState k).filter (fun m => !ids.contains (k.identifier m)) := by
  have hkey : ∀ e ∈ (st.records k).entries, k.identifier e.2 = e.1 := by
    rintro ⟨id, v⟩ he
    exact h k id v (Dict.get?_eq_some.mpr he)
  rw [exportState, Dict.values, List.filter_map]
  congr 1
  refine List.filter_congr (fun e he => ?_)
  simp [hkey e he]

/-- The bucket after several assignments is the merged bucket, up to order. -/
theorem exportState_setAll (h : Keyed st) (k : Kind) {values : List (Model k)}
    (hnodup : (values.map k.identifier).Nodup) :
    (mergeBucket k (st.exportState k) values).Perm
      ((st.records k).setAll k.identifier values).values := by
  have hperm := ((st.records k).entries_setAll_perm hnodup).map Prod.snd
  rw [List.map_append, map_snd_filter_eq h, List.map_map] at hperm
  simpa [mergeBucket, Dict.values, Function.comp_def] using hperm.symm

theorem rearranged_save (h : Keyed st) (k : Kind) (v : Model k) :
    State.Rearranged (st.exportState.merge k [v]) (st.save k v).exportState := by
  intro k'
  by_cases hk : k' = k
  · subst hk
    have hone : ([v].map k'.identifier).Nodup := List.nodup_singleton _
    have := exportState_setAll h k' hone
    simpa [State.merge, save, exportState, Dict.setAll] using this
  · rw [save, exportState_put_of_ne st hk, State.merge, Function.update_of_ne hk]

theorem rearranged_saveAll (h : Keyed st) {incoming : State}
    (hnodup : ∀ k, ((incoming k).map k.identifier).Nodup) :
    State.Rearranged (importCandidate st.exportState incoming) (st.saveAll incoming).exportState :=
  fun k => exportState_setAll h k (hnodup k)

/-- The identities of a valid import are distinct within each bucket. -/
theorem nodup_of_importCandidate {s incoming : State}
    (h : (importCandidate s incoming).WellIdentified) (k : Kind) :
    ((incoming k).map k.identifier).Nodup := by
  have hbucket := h.bucket_nodup k
  rw [importCandidate, mergeBucket, List.map_append] at hbucket
  exact hbucket.of_append_right

end MemoryStore
end PortableRuntime
