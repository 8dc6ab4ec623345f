import PortableRuntime.Stores.Threads

/-!
# Who writes the authority events

A commit that has raised its counter holds the lock, so its own writes go to the store that it
prepared them from.  The gates look at the counter and not at who has raised it: an append of
another thread that passes them writes its event after the commit has let go of the lock.
-/

namespace PortableRuntime

open MemoryStore

/-- A commit of the event's authority has prepared the event from its basis, and wrote it into the
basis with nothing added but the writes of the same commit. -/
structure Minting.Valid (m : Minting) : Prop where
  prepared : m.commit.prepare m.basis = .ok (some m.writes)
  planned : ∃ later, m.writes.events = m.earlier ++ m.event :: later
  before : (m.basis.saveRecords m.writes.records).appendEvents (some m.commit.authority) m.earlier =
    .ok m.before

/-- Each authority event of the journal was written by a commit of its authority. -/
def AuthorityMinted (st : MemoryStore) (mintedBy : String → Option Minting) : Prop :=
  ∀ id event authority message, st.getEvent id = some event →
    requiredAuthority event = some (authority, message) →
    ∃ m, mintedBy id = some m ∧ m.event = event ∧ m.commit.authority = authority ∧ m.Valid

def Phase.inCommit : Phase → Bool
  | .idle | .checked _ => false
  | _ => true

/-- What a phase adds to a counter. -/
def Phase.raises : Phase → CommitAuthority → Nat
  | .raised commit _ _ _ _, a => if a = commit.authority then 1 else 0
  | .failing commit, a => if a = commit.authority then 1 else 0
  | _, _ => 0

/-- A commit under way has written into its basis what it had prepared, so far. -/
def Phase.Working (st : MemoryStore) : Phase → Prop
  | .prepared commit basis writes =>
    commit.prepare basis = .ok (some writes) ∧ st = basis.saveRecords writes.records
  | .raised commit basis writes earlier later =>
    commit.prepare basis = .ok (some writes) ∧ writes.events = earlier ++ later ∧
      (basis.saveRecords writes.records).appendEvents (some commit.authority) earlier = .ok st
  | _ => True

theorem Phase.raises_of_not_inCommit {p : Phase} (h : p.inCommit = false) (a : CommitAuthority) :
    p.raises a = 0 := by
  cases p with
  | raised | failing => exact absurd h (by simp [Phase.inCommit])
  | _ => rfl

theorem Phase.working_of_not_inCommit {p : Phase} (h : p.inCommit = false) (st : MemoryStore) :
    p.Working st := by
  cases p with
  | prepared | raised => exact absurd h (by simp [Phase.inCommit])
  | _ => trivial

namespace MemoryStore

theorem getEvent_saveRecords (st : MemoryStore) (records : List BaseRecord) (id : String) :
    (st.saveRecords records).getEvent id = st.getEvent id := by
  induction records generalizing st with
  | nil => rfl
  | cons r rest ih =>
    exact (ih (st.save .record r)).trans (get_put_of_ne st (by decide) _ _ _)

theorem journalWrite_eq_ok {st st' : MemoryStore} {event : Event}
    (h : st.journalWrite event = .ok st') :
    st' = st ∨ (st.getEvent event.id = none ∧ st' = st.save .event event) := by
  unfold journalWrite at h
  split at h
  · split at h
    · exact .inl (Except.ok.inj h).symm
    · exact absurd h (by simp [raiseValue])
  · rename_i hnone
    exact .inr ⟨hnone, (Except.ok.inj h).symm⟩

theorem appendEvents_append {authority : Option CommitAuthority} {st st' : MemoryStore}
    {earlier : List Event} {event : Event}
    (hearlier : st.appendEvents authority earlier = .ok st') :
    st.appendEvents authority (earlier ++ [event]) = st'.appendEventAs authority event := by
  induction earlier generalizing st with
  | nil =>
    obtain rfl := Except.ok.inj hearlier
    show (st.appendEventAs authority event >>= fun st₁ => .ok st₁) = _
    cases st.appendEventAs authority event <;> rfl
  | cons e rest ih =>
    obtain ⟨st₁, he, hrest⟩ := Result.bind_eq_ok.mp hearlier
    rw [List.cons_append, appendEvents, he]
    exact ih hrest

end MemoryStore

namespace ThreadedStore

variable {digest : Json → String} {s : ThreadedStore} {t : ThreadId}

theorem phase_setPhase (s : ThreadedStore) (t u : ThreadId) (p : Phase) :
    (s.setPhase t p).phase u = if u = t then p else s.phase u := by
  simp [setPhase, Function.update_apply]

theorem depth_setDepth (s : ThreadedStore) (a b : CommitAuthority) (n : Nat) :
    (s.setDepth a n).depth b = if b = a then n else s.depth b := by
  simp [setDepth, Function.update_apply]

/-- What the holder of the lock adds to a counter. -/
def holderDepth (s : ThreadedStore) (a : CommitAuthority) : Nat :=
  match s.lock with
  | none => 0
  | some (t, _) => (s.phase t).raises a

/-- The discipline of the lock: a commit holds it, and nobody but its holder has raised a
counter. -/
structure Disciplined (s : ThreadedStore) : Prop where
  held : ∀ t, (s.phase t).inCommit = true → ∃ snapshot rest, s.lock = some (t, snapshot :: rest)
  depth : ∀ a, s.depth a = s.holderDepth a

/-- A thread that may take the lock finds no other thread in a commit. -/
theorem Disciplined.alone (h : s.Disciplined) (havailable : s.available t = true) {u : ThreadId}
    (hu : u ≠ t) : (s.phase u).inCommit = false := by
  by_contra hcommit
  obtain ⟨snapshot, rest, hlock⟩ := h.held u (by simpa using hcommit)
  simp only [available, hlock, beq_iff_eq] at havailable
  exact hu havailable

theorem Disciplined.available_of_inCommit (h : s.Disciplined) (ht : (s.phase t).inCommit = true) :
    s.available t = true := by
  obtain ⟨snapshot, rest, hlock⟩ := h.held t ht
  simp [available, hlock]

/-- The counters are those of the thread that may take the lock. -/
theorem Disciplined.depth_of_available (h : s.Disciplined) (havailable : s.available t = true)
    (a : CommitAuthority) : s.depth a = if s.lock.isSome then (s.phase t).raises a else 0 := by
  rw [h.depth a, holderDepth]
  unfold available at havailable
  cases hlock : s.lock with
  | none => simp
  | some l =>
    obtain ⟨holder, snapshots⟩ := l
    simp only [hlock, beq_iff_eq] at havailable
    simp [havailable]

structure Inv (s : ThreadedStore) : Prop extends Disciplined s where
  minted : AuthorityMinted s.store s.mintedBy
  restorable : ∀ snapshot ∈ s.snapshots, AuthorityMinted snapshot.store snapshot.mintedBy
  checked : ∀ t event, s.phase t = .checked event → requiredAuthority event = none
  working : ∀ t, (s.phase t).Working s.store

theorem inv_initial : Inv {} where
  held t ht := absurd ht (by simp [Phase.inCommit])
  depth a := rfl
  minted id event authority message h := absurd h (by simp [getEvent, MemoryStore.get, empty])
  restorable snapshot h := absurd h (by simp [snapshots])
  checked t event h := absurd h (by simp)
  working t := trivial

/-! ### Writes to the journal -/

theorem wrote_minted {m : Option Minting} {st : MemoryStore} (h : AuthorityMinted s.store s.mintedBy)
    (hnew : ∀ id event authority message, st.getEvent id = some event →
      s.store.getEvent id ≠ some event → requiredAuthority event = some (authority, message) →
      ∃ m', m = some m' ∧ m'.event = event ∧ m'.commit.authority = authority ∧ m'.Valid) :
    AuthorityMinted st (s.wrote m st).mintedBy := by
  intro id event authority message hget hrequired
  by_cases hsame : st.getEvent id = s.store.getEvent id
  · obtain ⟨m', hm', hrest⟩ := h id event authority message (hsame ▸ hget) hrequired
    exact ⟨m', by simp [wrote, hsame, hm'], hrest⟩
  · obtain ⟨m', hm', hrest⟩ := hnew id event authority message hget
      (fun hold => hsame (hget.trans hold.symm)) hrequired
    exact ⟨m', by simp [wrote, hsame, hm'], hrest⟩

/-- A journal write changes the entry of its event only. -/
theorem getEvent_journalWrite {st st' : MemoryStore} {event : Event}
    (h : st.journalWrite event = .ok st') {id : String} {e : Event} (hget : st'.getEvent id = some e)
    (hnew : st.getEvent id ≠ some e) : e = event := by
  rcases journalWrite_eq_ok h with rfl | ⟨-, rfl⟩
  · exact absurd hget hnew
  · rw [getEvent, save, get_put_self] at hget
    split at hget
    · exact (Option.some.inj hget).symm
    · exact absurd hget hnew

/-! ### Steps of a thread -/

theorem holderDepth_setPhase {p : Phase} (hp : ∀ a, p.raises a = (s.phase t).raises a)
    (a : CommitAuthority) : (s.setPhase t p).holderDepth a = s.holderDepth a := by
  unfold holderDepth
  show (match s.lock with
    | none => 0
    | some (u, _) => ((s.setPhase t p).phase u).raises a) = _
  cases s.lock with
  | none => rfl
  | some l =>
    simp only [phase_setPhase]
    split
    · rename_i hu
      rw [hp a, hu]
    · rfl

/-- Outside commits a thread may change its phase. -/
theorem Inv.setPhase (h : s.Inv) (ht : (s.phase t).inCommit = false) {p : Phase}
    (hp : p.inCommit = false)
    (hchecked : ∀ event, p = .checked event → requiredAuthority event = none) :
    (s.setPhase t p).Inv where
  held u hu := by
    rw [phase_setPhase] at hu
    split at hu
    · exact absurd hu (by simp [hp])
    · exact h.held u hu
  depth a := by
    rw [holderDepth_setPhase (fun b => by
      rw [Phase.raises_of_not_inCommit hp, Phase.raises_of_not_inCommit ht]) a]
    exact h.depth a
  minted := h.minted
  restorable := h.restorable
  checked u event hu := by
    rw [phase_setPhase] at hu
    split at hu
    · exact hchecked event hu
    · exact h.checked u event hu
  working u := by
    rw [phase_setPhase]
    split
    · exact Phase.working_of_not_inCommit hp _
    · exact h.working u

theorem Inv.toIdle (h : s.Inv) (ht : (s.phase t).inCommit = false) : (s.setPhase t .idle).Inv := by
  refine h.setPhase ht rfl (fun event he => ?_)
  cases he

/-- The lock is free for a thread that is in no commit: nobody is. -/
theorem Inv.none_inCommit (h : s.Inv) (havailable : s.available t = true)
    (ht : (s.phase t).inCommit = false) (u : ThreadId) : (s.phase u).inCommit = false := by
  by_cases hu : u = t
  · exact hu ▸ ht
  · exact h.alone havailable hu

theorem Inv.depth_eq_zero (h : s.Inv) (havailable : s.available t = true)
    (ht : ∀ a, (s.phase t).raises a = 0) (a : CommitAuthority) : s.depth a = 0 := by
  rw [h.depth_of_available havailable a, ht a, ite_self]

theorem Inv.wrote (h : s.Inv) (hfree : ∀ u, (s.phase u).inCommit = false) {m : Option Minting}
    {st : MemoryStore} (hminted : AuthorityMinted st (s.wrote m st).mintedBy) :
    (s.wrote m st).Inv where
  held := h.held
  depth := h.depth
  minted := hminted
  restorable := h.restorable
  checked := h.checked
  working u := Phase.working_of_not_inCommit (hfree u) st

theorem Inv.prepare (h : s.Inv) (havailable : s.available t = true)
    (ht : (s.phase t).inCommit = false) {commit : GuardedCommit} {writes : GuardedWrites}
    (hprepare : commit.prepare s.store = .ok (some writes)) :
    ({ s.enter t with store := s.store.saveRecords writes.records }.setPhase t
      (.prepared commit s.store writes)).Inv where
  held u hu := by
    rw [phase_setPhase] at hu
    split at hu
    · rename_i hut
      exact ⟨_, _, by rw [hut]; rfl⟩
    · rename_i hut
      exact absurd (show (s.phase u).inCommit = true from hu) (by simp [h.alone havailable hut])
  depth a := by
    show s.depth a = _
    rw [h.depth_eq_zero havailable (fun b => Phase.raises_of_not_inCommit ht b) a]
    simp [holderDepth, ThreadedStore.setPhase, enter, Phase.raises]
  minted := by
    intro id event authority message hget hrequired
    exact h.minted id event authority message
      ((getEvent_saveRecords s.store writes.records id).symm.trans hget) hrequired
  restorable snapshot hsnapshot := by
    rcases List.mem_cons.mp hsnapshot with rfl | hold
    · exact h.minted
    · exact h.restorable snapshot hold
  checked u event hu := by
    rw [phase_setPhase] at hu
    split at hu
    · exact absurd hu (by simp)
    · exact h.checked u event hu
  working u := by
    rw [phase_setPhase]
    split
    · exact ⟨hprepare, rfl⟩
    · rename_i hut
      exact Phase.working_of_not_inCommit (h.alone havailable hut) _

/-- A step inside a commit that leaves the store, the lock and the other threads alone. -/
theorem Inv.within (h : s.Inv) (ht : (s.phase t).inCommit = true) {a : CommitAuthority} {n : Nat}
    {p : Phase} (hp : p.inCommit = true)
    (hdepth : ∀ b, (if b = a then n else s.depth b) = p.raises b) (hworking : p.Working s.store) :
    ((s.setDepth a n).setPhase t p).Inv where
  held u hu := by
    rw [phase_setPhase] at hu
    split at hu
    · rename_i hut
      exact hut ▸ h.held t ht
    · exact h.held u hu
  depth b := by
    obtain ⟨snapshot, rest, hlock⟩ := h.held t ht
    have hholder : ((s.setDepth a n).setPhase t p).holderDepth b = p.raises b := by
      have hlock' : ((s.setDepth a n).setPhase t p).lock = some (t, snapshot :: rest) := hlock
      simp only [holderDepth, hlock', phase_setPhase, if_true]
    rw [hholder, ← hdepth b]
    exact depth_setDepth s a b n
  minted := h.minted
  restorable := h.restorable
  checked u event hu := by
    rw [phase_setPhase] at hu
    split at hu
    · exact absurd hp (by simp [hu, Phase.inCommit])
    · exact h.checked u event hu
  working u := by
    rw [phase_setPhase]
    split
    · exact hworking
    · exact h.working u

/-- The append of a commit: its gates are open for its own authority alone. -/
theorem Inv.mint (h : s.Inv) {commit : GuardedCommit} {basis st : MemoryStore}
    {writes : GuardedWrites} {earlier later : List Event} {event : Event}
    (hphase : s.phase t = .raised commit basis writes earlier (event :: later))
    (hgates : passGates s.depth event = .ok ()) (hwrite : s.store.journalWrite event = .ok st) :
    ((s.wrote (some { commit, basis, writes, earlier, before := s.store, event }) st).setPhase t
      (.raised commit basis writes (earlier ++ [event]) later)).Inv := by
  have hcommit : (s.phase t).inCommit = true := by rw [hphase]; rfl
  have havailable := h.available_of_inCommit hcommit
  obtain ⟨snapshot, rest, hlock⟩ := h.held t hcommit
  obtain ⟨hprepare, hplanned, hbefore⟩ : Phase.Working s.store
      (.raised commit basis writes earlier (event :: later)) := hphase ▸ h.working t
  have hdepth (a : CommitAuthority) : s.depth a = if a = commit.authority then 1 else 0 := by
    rw [h.depth_of_available havailable a, hphase, hlock]
    rfl
  have happend : s.store.appendEventAs (some commit.authority) event = .ok st := by
    rw [appendEventAs_eq, show (fun a => if some a = some commit.authority then 1 else 0) = s.depth
      from funext fun a => by simp [hdepth a], hgates]
    exact hwrite
  refine ⟨⟨?_, ?_⟩, ?_, h.restorable, ?_, ?_⟩
  · intro u hu
    rw [phase_setPhase] at hu
    split at hu
    · rename_i hut
      exact hut ▸ h.held t hcommit
    · exact h.held u hu
  · intro a
    rw [holderDepth_setPhase (fun b => by
      show _ = (s.phase t).raises b
      rw [hphase]
      rfl) a]
    exact h.depth a
  · refine wrote_minted h.minted (fun id e authority message hget hnew hrequired => ?_)
    obtain rfl := getEvent_journalWrite hwrite hget hnew
    refine ⟨_, rfl, rfl, ?_, hprepare, ⟨later, hplanned⟩, hbefore⟩
    -- the gate of the event's authority was open, and only the commit's counter is raised
    have hopen : 0 < s.depth authority := by
      simpa [passGates, hrequired, guardValue_eq_ok] using hgates
    rw [hdepth authority] at hopen
    by_contra hother
    rw [if_neg (Ne.symm hother)] at hopen
    exact absurd hopen (by omega)
  · intro u e hu
    rw [phase_setPhase] at hu
    split at hu
    · exact absurd hu (by simp)
    · exact h.checked u e hu
  · intro u
    rw [phase_setPhase]
    split
    · refine ⟨hprepare, by simp [hplanned], ?_⟩
      rw [appendEvents_append hbefore]
      exact happend
    · rename_i hut
      exact Phase.working_of_not_inCommit (h.alone havailable hut) _

/-- The end of a transaction whose holder has no counter raised. -/
theorem Inv.leave (h : s.Inv) {snapshot : Snapshot} {rest : List Snapshot}
    (hlock : s.lock = some (t, snapshot :: rest)) (ht : ∀ a, (s.phase t).raises a = 0)
    (raises : Bool) : ((s.leave raises).setPhase t .idle).Inv := by
  have havailable : s.available t = true := by simp [available, hlock]
  have hphase (u : ThreadId) : (((s.leave raises).setPhase t .idle).phase u).inCommit = false := by
    rw [phase_setPhase]
    split
    · rfl
    · rename_i hut
      have hsame : (s.leave raises).phase u = s.phase u := by simp [ThreadedStore.leave, hlock]
      exact hsame ▸ h.alone havailable hut
  have hrestorable (x : Snapshot) (hx : x = snapshot ∨ x ∈ rest) :
      AuthorityMinted x.store x.mintedBy :=
    h.restorable x (by simpa [snapshots, hlock] using hx)
  refine ⟨⟨?_, ?_⟩, ?_, ?_, ?_, ?_⟩
  · intro u hu
    exact absurd hu (by simp [hphase u])
  · intro a
    have hdepth : ((s.leave raises).setPhase t .idle).depth a = s.depth a := by
      simp [ThreadedStore.leave, ThreadedStore.setPhase, hlock]
    rw [hdepth, h.depth_eq_zero havailable ht a, holderDepth]
    split
    · rfl
    · exact (Phase.raises_of_not_inCommit (hphase _) a).symm
  · cases raises with
    | true => simpa [ThreadedStore.leave, ThreadedStore.setPhase, hlock] using
        hrestorable snapshot (.inl rfl)
    | false => simpa [ThreadedStore.leave, ThreadedStore.setPhase, hlock] using h.minted
  · intro x hx
    refine hrestorable x (.inr ?_)
    cases rest with
    | nil => exact absurd hx (by simp [snapshots, ThreadedStore.setPhase, ThreadedStore.leave, hlock])
    | cons y ys => simpa [snapshots, ThreadedStore.setPhase, ThreadedStore.leave, hlock] using hx
  · intro u event hu
    rw [phase_setPhase] at hu
    split at hu
    · exact absurd hu (by simp)
    · refine h.checked u event ?_
      simpa [ThreadedStore.leave, hlock] using hu
  · intro u
    exact Phase.working_of_not_inCommit (hphase u) _

theorem Inv.enter (h : s.Inv) (havailable : s.available t = true)
    (ht : (s.phase t).inCommit = false) : (s.enter t).Inv where
  held u hu := absurd hu (by
    show ¬ (s.phase u).inCommit = true
    simp [h.none_inCommit havailable ht u])
  depth a := by
    show s.depth a = (s.phase t).raises a
    rw [Phase.raises_of_not_inCommit ht a]
    exact h.depth_eq_zero havailable (fun b => Phase.raises_of_not_inCommit ht b) a
  minted := h.minted
  restorable snapshot hsnapshot := by
    rcases List.mem_cons.mp hsnapshot with rfl | hold
    · exact h.minted
    · exact h.restorable snapshot hold
  checked := h.checked
  working := h.working

/-! ### Methods in one piece -/

/-- The two methods that may put an event into the journal without looking at its type put no
authority event there that is not there already. -/
def LockedMints (digest : Json → String) (now : Time) (st : MemoryStore) : Op → Prop
  | .compareAndSwap .event id expected v => ∀ existing, st.getEvent id = some existing →
      (versionOf .event existing).pyEq (.int expected) = true →
      st.validateCandidateWrite now .event v = .ok () → requiredAuthority v = none ∨ existing = v
  | .importState state => (st.importState digest now state).isOk = true →
      ∀ event ∈ state.events, requiredAuthority event = none ∨ st.getEvent event.id = some event
  | _ => True

/-- `append_event` is called with an authority event only while no commit of its authority has
its counter raised. -/
def MintsByCommit (digest : Json → String) (s : ThreadedStore) : Move → Prop
  | .call t (.appendEvent event) => s.isIdle t = true → ∀ authority message,
      requiredAuthority event = some (authority, message) → s.depth authority = 0
  | .call t (.locked now op) => s.isIdle t = true → s.available t = true →
      LockedMints digest now s.store op.1
  | _ => True

theorem getEvent_put_of_ne {st : MemoryStore} {k : Kind} (hk : k ≠ .event) (id' : String)
    (v : Model k) (id : String) : (st.put k id' v).getEvent id = st.getEvent id :=
  get_put_of_ne st (Ne.symm hk) id' id v

/-- An append outside the guarded commits writes no authority event. -/
theorem unguarded_of_append {st st' : MemoryStore} {event : Event}
    (h : st.appendEventAs none event = .ok st') {id : String} {e : Event}
    (hget : st'.getEvent id = some e) (hnew : st.getEvent id ≠ some e) :
    requiredAuthority e = none := by
  rw [appendEventAs_eq] at h
  obtain ⟨u, hgates, hwrite⟩ := Result.bind_eq_ok.mp h
  obtain rfl := getEvent_journalWrite hwrite hget hnew
  cases hrequired : requiredAuthority e with
  | none => rfl
  | some r => exact absurd hgates (by simp [passGates, hrequired, guardValue, raiseValue])

theorem unguarded_of_appendEvents {st st' : MemoryStore} {events : List Event}
    (h : st.appendEvents none events = .ok st') {id : String} {e : Event}
    (hget : st'.getEvent id = some e) (hnew : st.getEvent id ≠ some e) :
    requiredAuthority e = none := by
  have hkept := appendEvents_induction
    (P := fun x => x.getEvent id = some e → requiredAuthority e = none)
    (fun st₁ st₂ event _ hst₁ happend hget₂ => by
      by_cases hold : st₁.getEvent id = some e
      · exact hst₁ hold
      · exact unguarded_of_append happend hget₂ hold)
    (fun hold => absurd hold hnew) h
  exact hkept hget

theorem unguarded_of_locked {st st' : MemoryStore} {now : Time} {op : Op}
    (hpiece : op.inOnePiece = true) (hC : LockedMints digest now st op)
    (h : st.call digest now op = .ok st') {id : String} {e : Event}
    (hget : st'.getEvent id = some e) (hnew : st.getEvent id ≠ some e) :
    requiredAuthority e = none := by
  cases op with
  | save k v =>
    by_cases hk : k = .event
    · subst hk
      exact absurd hpiece Bool.false_ne_true
    · obtain ⟨-, -, rfl⟩ := saveModel_eq_ok hk h
      exact absurd ((getEvent_put_of_ne hk _ v id).symm.trans hget) hnew
  | compareAndSwap k id' expected v =>
    obtain ⟨b, hcas⟩ := call_compareAndSwap_eq_ok h
    rcases compareAndSwap_eq_ok hcas with ⟨-, rfl⟩ | ⟨-, existing, hstored, hver, -, hvalid, rfl⟩
    · exact absurd hget hnew
    · by_cases hk : k = .event
      · subst hk
        rw [getEvent, get_put_self] at hget
        split at hget
        · rename_i hid
          subst hid
          obtain rfl := Option.some.inj hget
          rcases hC existing hstored hver (validateCandidateWrite_eq_ok.mpr hvalid) with hnone | rfl
          · exact hnone
          · exact absurd hstored hnew
        · exact absurd hget hnew
      · exact absurd ((getEvent_put_of_ne hk _ v id).symm.trans hget) hnew
  | commitTerminal work run refs =>
    obtain ⟨-, -, -, -, rfl⟩ := commitTerminal_eq_ok.mp h
    rw [save, save, getEvent_put_of_ne (by decide), getEvent_put_of_ne (by decide)] at hget
    exact absurd hget hnew
  | commitVerifiedOutcome request =>
    obtain ⟨prepared, -, rfl | ⟨-, happend⟩⟩ := commitVerifiedOutcome_eq_ok h
    · exact absurd hget hnew
    · refine unguarded_of_appendEvents happend hget ?_
      rw [save, getEvent_put_of_ne (by decide)]
      exact hnew
  | commitHistoricalExperienceUse use => exact absurd hpiece Bool.false_ne_true
  | commitEvents authority prepare => exact absurd hpiece Bool.false_ne_true
  | importState state =>
    have hok : (st.importState digest now state).isOk = true := by
      rw [show st.importState digest now state = .ok st' from h]
      rfl
    obtain ⟨-, -, -, -, rfl⟩ := importState_eq_ok.mp h
    rcases Dict.get?_setAll (d := st.records .event) hget with ⟨hmem, rfl⟩ | ⟨-, hold⟩
    · have hevent : e ∈ state.events := by
        simpa [asImported, State.events] using hmem
      rcases hC hok e hevent with hnone | hstored
      · exact hnone
      · exact absurd hstored hnew
    · exact absurd hold hnew

/-! ### Every step -/

theorem isIdle_iff : s.isIdle t = true ↔ s.phase t = .idle := by
  unfold isIdle
  cases s.phase t <;> simp

theorem start_inv (h : s.Inv) (hidle : s.phase t = .idle) (call : Call)
    (hC : s.MintsByCommit digest (.call t call)) : (s.start digest t call).Inv := by
  have hfree : (s.phase t).inCommit = false := by rw [hidle]; rfl
  cases call with
  | appendEvent event =>
    cases hgates : passGates s.depth event with
    | error e => simpa only [start, hgates] using h
    | ok u =>
      simp only [start, hgates]
      refine h.setPhase hfree rfl (fun event' he => ?_)
      obtain rfl := Phase.checked.inj he
      cases hrequired : requiredAuthority event with
      | none => rfl
      | some r =>
        have hzero := hC (isIdle_iff.mpr hidle) r.1 r.2 hrequired
        exact absurd hgates (by simp [passGates, hrequired, hzero, guardValue, raiseValue])
  | commit commit =>
    cases havailable : s.available t with
    | false => simpa [start, havailable] using h
    | true =>
      cases hprepare : commit.prepare s.store with
      | error e => simpa [start, havailable, hprepare] using h
      | ok planned =>
        cases planned with
        | none => simpa [start, havailable, hprepare] using h
        | some writes =>
          simpa [start, havailable, hprepare] using h.prepare havailable hfree hprepare
  | locked now op =>
    cases havailable : s.available t with
    | false => simpa [start, havailable] using h
    | true =>
      cases hcall : s.store.call digest now op.1 with
      | error e => simpa [start, havailable, hcall] using h
      | ok st =>
        simp only [start, havailable, hcall, Bool.not_true, Bool.false_eq_true, if_false]
        refine h.wrote (h.none_inCommit havailable hfree) (wrote_minted h.minted ?_)
        intro id event authority message hget hnew hrequired
        have hnone := unguarded_of_locked op.2 (hC (isIdle_iff.mpr hidle) havailable) hcall hget hnew
        exact absurd (hrequired.symm.trans hnone) (by simp)

theorem resume_inv (h : s.Inv) (t : ThreadId) : (s.resume t).Inv := by
  unfold resume
  cases hphase : s.phase t with
  | idle => exact h
  | checked event =>
    have hfree : (s.phase t).inCommit = false := by rw [hphase]; rfl
    cases havailable : s.available t with
    | false => exact h
    | true =>
      cases hwrite : s.store.journalWrite event with
      | error e => simpa [hwrite] using h.toIdle hfree
      | ok st =>
        simp only [Bool.not_true, Bool.false_eq_true, if_false, hwrite]
        have hwrote : (s.wrote none st).Inv := by
          refine h.wrote (h.none_inCommit havailable hfree) (wrote_minted h.minted ?_)
          intro id e authority message hget hnew hrequired
          obtain rfl := getEvent_journalWrite hwrite hget hnew
          exact absurd (hrequired.symm.trans (h.checked t e hphase)) (by simp)
        exact hwrote.toIdle hfree
  | prepared commit basis writes =>
    have hcommit : (s.phase t).inCommit = true := by rw [hphase]; rfl
    obtain ⟨hprepare, hstore⟩ : Phase.Working s.store (.prepared commit basis writes) :=
      hphase ▸ h.working t
    have hzero := h.depth_eq_zero (h.available_of_inCommit hcommit) (fun a => by rw [hphase]; rfl)
    refine h.within hcommit rfl (fun b => ?_) ⟨hprepare, rfl, hstore ▸ rfl⟩
    simp [hzero, Phase.raises]
  | raised commit basis writes earlier later =>
    have hcommit : (s.phase t).inCommit = true := by rw [hphase]; rfl
    obtain ⟨snapshot, rest, hlock⟩ := h.held t hcommit
    have hdepth (b : CommitAuthority) : s.depth b = if b = commit.authority then 1 else 0 := by
      rw [h.depth_of_available (h.available_of_inCommit hcommit) b, hphase, hlock]
      rfl
    cases later with
    | nil =>
      refine h.within hcommit rfl (fun b => ?_) trivial
      simp only [hdepth, Phase.raises, if_true]
      split <;> rfl
    | cons event later =>
      have hsame : s.setDepth commit.authority 1 = s := by
        unfold setDepth
        rw [show (1 : Nat) = s.depth commit.authority by simp [hdepth], Function.update_eq_self]
      have hfailing : (s.setPhase t (.failing commit)).Inv := by
        rw [← hsame]
        refine h.within hcommit rfl (fun b => ?_) trivial
        simp only [hdepth, Phase.raises]
        split <;> rfl
      simp only
      cases hgates : passGates s.depth event with
      | error e =>
        exact hfailing
      | ok u =>
        cases hwrite : s.store.journalWrite event with
        | error e =>
          exact hfailing
        | ok st => exact h.mint hphase hgates hwrite
  | failing commit =>
    have hcommit : (s.phase t).inCommit = true := by rw [hphase]; rfl
    obtain ⟨snapshot, rest, hlock⟩ := h.held t hcommit
    refine h.within hcommit rfl (fun b => ?_) trivial
    rw [h.depth_of_available (h.available_of_inCommit hcommit) b,
      h.depth_of_available (h.available_of_inCommit hcommit) commit.authority, hphase, hlock]
    simp only [Phase.raises, if_true, Option.isSome_some]
    split <;> rfl
  | closing commit =>
    have hcommit : (s.phase t).inCommit = true := by rw [hphase]; rfl
    obtain ⟨snapshot, rest, hlock⟩ := h.held t hcommit
    exact h.leave hlock (fun a => by rw [hphase]; rfl) _
  | failed commit =>
    have hcommit : (s.phase t).inCommit = true := by rw [hphase]; rfl
    obtain ⟨snapshot, rest, hlock⟩ := h.held t hcommit
    exact h.leave hlock (fun a => by rw [hphase]; rfl) _

theorem setPhase_of_idle (hidle : s.phase t = .idle) : s.setPhase t .idle = s := by
  unfold ThreadedStore.setPhase
  rw [← hidle, Function.update_eq_self]

theorem inv_step (move : Move) (h : s.Inv) (hC : s.MintsByCommit digest move) :
    (s.step digest move).Inv := by
  cases move with
  | call t call =>
    show (if s.isIdle t then s.start digest t call else s).Inv
    split
    · rename_i hidle
      exact start_inv h (isIdle_iff.mp hidle) call hC
    · exact h
  | resume t => exact resume_inv h t
  | enter t =>
    show (if s.isIdle t && s.available t then s.enter t else s).Inv
    split
    · rename_i henter
      obtain ⟨hidle, havailable⟩ := Bool.and_eq_true_iff.mp henter
      exact h.enter havailable (by rw [isIdle_iff.mp hidle]; rfl)
    · exact h
  | leave t raises =>
    show (if s.isIdle t && s.holds t then s.leave raises else s).Inv
    split
    · rename_i hleave
      obtain ⟨hidle, hholds⟩ := Bool.and_eq_true_iff.mp hleave
      have hphase := isIdle_iff.mp hidle
      cases hlock : s.lock with
      | none => simp [holds, hlock] at hholds
      | some l =>
        obtain ⟨holder, snapshots⟩ := l
        obtain rfl : holder = t := by simpa [holds, hlock] using hholds
        cases snapshots with
        | nil =>
          have hsame : s.leave raises = s := by simp [ThreadedStore.leave, hlock]
          exact hsame.symm ▸ h
        | cons snapshot rest =>
          have hleft := h.leave hlock (fun a => by rw [hphase]; rfl) raises
          have hidle' : (s.leave raises).phase holder = .idle := by
            simpa [ThreadedStore.leave, hlock] using hphase
          rwa [setPhase_of_idle hidle'] at hleft
    · exact h

/-- In every interleaving in which no other append of an authority event passes the gates beside
a commit, and no swap or import brings one, the authority events are those that their commits
wrote. -/
theorem authorityEvents_minted (digest : Json → String) (moves : List Move)
    (hC : Along (step digest) (MintsByCommit digest) {} moves) :
    AuthorityMinted (run (step digest) {} moves).store (run (step digest) {} moves).mintedBy :=
  (run_invariant (fun _ move h hmove => inv_step move h hmove) inv_initial hC).minted

/-! ### A commit that nobody interrupts -/

/-- The gates as the only commit under way finds them. -/
theorem appendEventAs_of_depth {st : MemoryStore} {authority : CommitAuthority} {event : Event}
    (hdepth : ∀ b, s.depth b = if b = authority then 1 else 0) :
    (passGates s.depth event >>= fun _ => st.journalWrite event) =
      st.appendEventAs (some authority) event := by
  rw [appendEventAs_eq, show (fun a => if some a = some authority then 1 else 0) = s.depth from
    funext fun a => by simp [hdepth a]]

@[simp] theorem step_resume (s : ThreadedStore) (t : ThreadId) :
    step digest s (.resume t) = s.resume t := rfl

theorem resume_raised_nil {commit : GuardedCommit} {basis : MemoryStore} {writes : GuardedWrites}
    {earlier : List Event} (hphase : s.phase t = .raised commit basis writes earlier []) :
    s.resume t = (s.setDepth commit.authority (s.depth commit.authority - 1)).setPhase t
      (.closing commit) := by
  simp only [resume, hphase]

theorem resume_failing {commit : GuardedCommit} (hphase : s.phase t = .failing commit) :
    s.resume t = (s.setDepth commit.authority (s.depth commit.authority - 1)).setPhase t
      (.failed commit) := by
  simp only [resume, hphase]

theorem resume_closing {commit : GuardedCommit} (hphase : s.phase t = .closing commit) :
    s.resume t =
      (s.leave (!(commit.close s.store.exportState).isOk)).setPhase t .idle := by
  simp only [resume, hphase]

theorem resume_failed {commit : GuardedCommit} (hphase : s.phase t = .failed commit) :
    s.resume t = (s.leave true).setPhase t .idle := by
  simp only [resume, hphase]

theorem run_resume_idle (hphase : s.phase t = .idle) (n : Nat) :
    run (step digest) s (List.replicate n (.resume t)) = s := by
  induction n with
  | zero => rfl
  | succ n ih =>
    rw [List.replicate_succ, run_cons, step_resume, show s.resume t = s by simp only [resume, hphase]]
    exact ih

theorem store_leave {snapshot : Snapshot} {rest : List Snapshot}
    (hlock : s.lock = some (t, snapshot :: rest)) (raises : Bool) :
    ((s.leave raises).setPhase t .idle).store = if raises then snapshot.store else s.store := by
  simp [ThreadedStore.leave, ThreadedStore.setPhase, hlock]

/-- A failed commit restores its snapshot. -/
theorem store_of_failing {commit : GuardedCommit} {snapshot : Snapshot} {rest : List Snapshot}
    (hphase : s.phase t = .failing commit) (hlock : s.lock = some (t, snapshot :: rest)) (n : Nat) :
    (run (step digest) s (List.replicate (n + 2) (.resume t))).store = snapshot.store := by
  rw [List.replicate_succ, run_cons, List.replicate_succ, run_cons, step_resume, step_resume,
    resume_failing hphase, resume_failed (by rw [phase_setPhase, if_pos rfl]), run_resume_idle]
  · exact (store_leave (by exact hlock) true).trans (if_pos rfl)
  · rw [phase_setPhase, if_pos rfl]

/-- The appends of a commit, and its end, with nobody else at work. -/
theorem store_of_raised {commit : GuardedCommit} {basis : MemoryStore} {writes : GuardedWrites}
    {earlier later : List Event} {snapshot : Snapshot} {rest : List Snapshot}
    (hphase : s.phase t = .raised commit basis writes earlier later)
    (hlock : s.lock = some (t, snapshot :: rest))
    (hdepth : ∀ b, s.depth b = if b = commit.authority then 1 else 0) :
    (run (step digest) s (List.replicate (later.length + 2) (.resume t))).store =
      match s.store.appendEvents (some commit.authority) later >>= fun st =>
        commit.close st.exportState >>= fun _ => .ok st with
      | .ok st => st
      | .error _ => snapshot.store := by
  induction later generalizing s earlier with
  | nil =>
    rw [show List.replicate (([] : List Event).length + 2) (Move.resume t) =
        [.resume t, .resume t] from rfl, run_cons, run_cons, run_nil, step_resume, step_resume,
      resume_raised_nil hphase, resume_closing (by rw [phase_setPhase, if_pos rfl])]
    refine (store_leave (by exact hlock) _).trans ?_
    show (if !(commit.close s.store.exportState).isOk then snapshot.store else s.store) =
      match commit.close s.store.exportState >>= fun _ => .ok s.store with
      | .ok st => st
      | .error _ => snapshot.store
    cases commit.close s.store.exportState <;> rfl
  | cons event later ih =>
    rw [show (event :: later).length + 2 = (later.length + 2) + 1 from rfl, List.replicate_succ,
      run_cons, step_resume, MemoryStore.appendEvents]
    have happend := @appendEventAs_of_depth s s.store commit.authority event hdepth
    cases hwrite : s.store.appendEventAs (some commit.authority) event with
    | error e =>
      have hstep : s.resume t = s.setPhase t (.failing commit) := by
        simp only [resume, hphase, happend, hwrite]
      have hfailing : (s.setPhase t (.failing commit)).phase t = .failing commit := by
        rw [phase_setPhase, if_pos rfl]
      rw [hstep]
      exact store_of_failing hfailing hlock _
    | ok st =>
      have hstep : s.resume t = (s.wrote
          (some { commit, basis, writes, earlier, before := s.store, event }) st).setPhase t
            (.raised commit basis writes (earlier ++ [event]) later) := by
        simp only [resume, hphase, happend, hwrite]
      rw [hstep]
      exact ih (by rw [phase_setPhase, if_pos rfl]) hlock hdepth

theorem store_of_prepared {commit : GuardedCommit} {basis : MemoryStore} {writes : GuardedWrites}
    {snapshot : Snapshot} {rest : List Snapshot} (hphase : s.phase t = .prepared commit basis writes)
    (hlock : s.lock = some (t, snapshot :: rest)) (hzero : ∀ b, s.depth b = 0) :
    (run (step digest) s (List.replicate (writes.events.length + 2 + 1) (.resume t))).store =
      match s.store.appendEvents (some commit.authority) writes.events >>= fun st =>
        commit.close st.exportState >>= fun _ => .ok st with
      | .ok st => st
      | .error _ => snapshot.store := by
  have hresume : s.resume t =
      (s.setDepth commit.authority (s.depth commit.authority + 1)).setPhase t
        (.raised commit basis writes [] writes.events) := by
    simp only [resume, hphase]
  rw [List.replicate_succ, run_cons, step_resume, hresume]
  refine store_of_raised (by rw [phase_setPhase, if_pos rfl]) hlock (fun b => ?_)
  refine (depth_setDepth s commit.authority b (s.depth commit.authority + 1)).trans ?_
  rw [hzero, hzero]

/-- The steps of a commit, taken without a break, are the commit in one piece; one that raises
leaves the store as it was. -/
theorem store_of_uninterrupted (h : s.Inv) (hidle : s.phase t = .idle)
    (havailable : s.available t = true) (commit : GuardedCommit) :
    ∃ n, (run (step digest) s (.call t (.commit commit) :: List.replicate n (.resume t))).store =
      match commit.whole s.store with
      | .ok st => st
      | .error _ => s.store := by
  have hstart : step digest s (.call t (.commit commit)) = s.start digest t (.commit commit) :=
    if_pos (isIdle_iff.mpr hidle)
  unfold GuardedCommit.whole
  simp only [run_cons, hstart]
  cases hprepare : commit.prepare s.store with
  | error e =>
    refine ⟨0, ?_⟩
    simp [start, havailable, hprepare, bind, Except.bind]
  | ok planned =>
    cases planned with
    | none =>
      refine ⟨0, ?_⟩
      simp [start, havailable, hprepare, bind, Except.bind, pure, Except.pure]
    | some writes =>
      refine ⟨writes.events.length + 2 + 1, ?_⟩
      have hzero := h.depth_eq_zero havailable (fun a => by rw [hidle]; rfl)
      obtain ⟨s₁, hstarted, hphase, hlock, hdepth, hstore⟩ : ∃ s₁,
          s.start digest t (.commit commit) = s₁ ∧ s₁.phase t = .prepared commit s.store writes ∧
          s₁.lock = some (t, { store := s.store, mintedBy := s.mintedBy } :: s.snapshots) ∧
          s₁.depth = s.depth ∧ s₁.store = s.store.saveRecords writes.records := by
        refine ⟨_, rfl, ?_⟩
        simp [start, havailable, hprepare, ThreadedStore.setPhase, enter]
      rw [hstarted, store_of_prepared hphase hlock (fun b => by rw [hdepth, hzero b]), hstore]
      rfl

/-! ### Where the gates let others through -/

/-- An append that is called while a commit of its authority has its counter raised is written
when the commit is over. -/
theorem append_beside_commit (h : s.Inv) {u : ThreadId} (hu : u ≠ t) (hidle : s.phase u = .idle)
    {commit : GuardedCommit} {basis : MemoryStore} {writes : GuardedWrites} {earlier : List Event}
    (hphase : s.phase t = .raised commit basis writes earlier []) {snapshot : Snapshot}
    (hlock : s.lock = some (t, [snapshot]))
    (hclose : commit.close s.store.exportState = .ok ()) {event : Event} {message : String}
    (hrequired : requiredAuthority event = some (commit.authority, message))
    (hfresh : s.store.getEvent event.id = none) :
    let s' := run (step digest) s
      [.call u (.appendEvent event), .resume t, .resume t, .resume u]
    s'.store.getEvent event.id = some event ∧ s'.mintedBy event.id = none := by
  have hopen : s.depth commit.authority = 1 := by
    rw [h.depth, holderDepth, hlock]
    simp [hphase, Phase.raises]
  have hgates : passGates s.depth event = .ok () := by
    simp [passGates, hrequired, hopen, guardValue]
  have hwrite : s.store.journalWrite event = .ok (s.store.save .event event) := by
    simp [journalWrite, hfresh]
  intro s'
  obtain ⟨s₁, hs₁, hclosing, hchecked, hlock₁, hstore₁, hminted₁⟩ : ∃ s₁,
      run (step digest) s [.call u (.appendEvent event), .resume t] = s₁ ∧
      s₁.phase t = .closing commit ∧ s₁.phase u = .checked event ∧
      s₁.lock = some (t, [snapshot]) ∧ s₁.store = s.store ∧ s₁.mintedBy = s.mintedBy := by
    refine ⟨_, rfl, ?_⟩
    have hcalled : step digest s (.call u (.appendEvent event)) =
        s.setPhase u (.checked event) := by
      simp [step, isIdle_iff.mpr hidle, start, hgates]
    rw [run_cons, run_cons, run_nil, hcalled, step_resume,
      resume_raised_nil (by rw [phase_setPhase, if_neg hu.symm, hphase])]
    refine ⟨by rw [phase_setPhase, if_pos rfl], ?_, hlock, rfl, rfl⟩
    rw [phase_setPhase, if_neg hu]
    exact (phase_setPhase s u u _).trans (if_pos rfl)
  obtain ⟨s₂, hs₂, hchecked₂, hlock₂, hstore₂, hminted₂⟩ : ∃ s₂, s₁.resume t = s₂ ∧
      s₂.phase u = .checked event ∧ s₂.lock = none ∧ s₂.store = s.store ∧
      s₂.mintedBy = s.mintedBy := by
    refine ⟨_, rfl, ?_⟩
    rw [resume_closing hclosing, hstore₁, hclose]
    simp [ThreadedStore.leave, ThreadedStore.setPhase, hlock₁, hu, hchecked, hstore₁, hminted₁,
      Except.isOk, Except.toBool]
  have hs' : s' = (s₂.wrote none (s.store.save .event event)).setPhase u .idle := by
    have hlast : s' = s₂.resume u := by
      rw [← hs₂, ← hs₁]
      rfl
    rw [hlast]
    simp [resume, hchecked₂, available, hlock₂, hstore₂, hwrite]
  have hget : (s.store.save .event event).getEvent event.id = some event :=
    (get_put_self s.store .event event.id event.id event).trans (if_pos rfl)
  rw [hs']
  refine ⟨hget, ?_⟩
  show (if (s.store.save .event event).getEvent event.id = s₂.store.getEvent event.id then
    s₂.mintedBy event.id else none) = none
  rw [hget, hstore₂, hfresh, if_neg (by simp)]

/-! ### A forged event -/

def noted : Event := { id := "event_1", createdAt := 0, type := "Noted", subjectRef := "external:1" }

def forged : Event := { noted with type := "RecoveryDispositionRecorded" }

/-- A swap puts an authority event in the place of a note. -/
def forging : List Move :=
  [.call 0 (.appendEvent noted), .resume 0,
   .call 0 (.locked 0 ⟨.compareAndSwap .event "event_1" 0 forged, rfl⟩)]

theorem compareAndSwap_forges_disposition :
    ¬ ∀ (digest : Json → String) (moves : List Move),
      AuthorityMinted (run (step digest) {} moves).store (run (step digest) {} moves).mintedBy := by
  intro h
  have hget : (run (step (fun _ => "")) {} forging).store.getEvent "event_1" = some forged := by
    decide
  obtain ⟨m, hm, -⟩ := h (fun _ => "") forging "event_1" forged .recoveryDisposition
    "RecoveryDisposition events require commit_recovery_disposition" hget (by decide)
  have hnone : ((run (step (fun _ => "")) {} forging).mintedBy "event_1").isNone = true := by
    decide
  rw [hm] at hnone
  exact absurd hnone (by simp)

/-! ### A commit beside an append -/

def observed : Event := { noted with id := "event_2", type := "RecoveryObservationRecorded" }

def observing : GuardedCommit :=
  .ofEvents .recoveryObservation (fun _ => .ok (.append [observed]))

/-- While one thread commits, another appends a note. -/
def beside : List Move :=
  [.call 0 (.commit observing), .resume 0, .call 1 (.appendEvent noted), .resume 0, .resume 1,
   .resume 0, .resume 0, .resume 1]

theorem authorityEvents_minted_beside :
    AuthorityMinted (run (step (fun _ => "")) {} beside).store
        (run (step (fun _ => "")) {} beside).mintedBy ∧
      (run (step (fun _ => "")) {} beside).store.getEvent "event_2" = some observed := by
  refine ⟨authorityEvents_minted (fun _ => "") beside
    ⟨trivial, trivial, ?_, trivial, trivial, trivial, trivial, trivial, trivial⟩, by decide⟩
  intro _ authority message hrequired
  exact absurd hrequired (by simp [show requiredAuthority noted = none by decide])

end ThreadedStore

end PortableRuntime
