import Tobira.Pool.Hops
import Tobira.Pool.Later

namespace Tobira.Pool

open Tobira.Framework

variable {K : Type}

/-- The slot caches a connection that at time `now` has not been used for `maxIdle`. -/
def Idle (st : State K) (s : SlotId K) (now maxIdle : Nat) : Prop :=
  ∃ conn, (st.slots s).value=some conn ∧ maxIdle≤now-conn.lastUsed

def Rest.scans : Rest K → Option (Nat×Nat×List (SlotId K))
  | .scan now maxIdle slots => some (now,maxIdle,slots)
  | _ => none

/-- The start, the limit and the slots still to scan of a `prune_idle` call in progress. -/
def Task.scans : Task K → Option (Nat×Nat×List (SlotId K))
  | .loop rest | .counting _ rest | .snapshot rest => rest.scans
  | .enter _ (.count _ rest) | .locking _ (.count _ rest) => rest.scans
  | .enter s (.scan now maxIdle slots) | .locking s (.scan now maxIdle slots) =>
    some (now,maxIdle,s::slots)
  | _ => none

/-- No slot caches what it did not cache. -/
def Keeps (st st' : State K) : Prop :=
  ∀ s conn, (st'.slots s).value=some conn → (st.slots s).value=some conn

variable [DecidableEq K]

theorem keeps_setSlot {st : State K} {s : SlotId K} {m : Slot}
    (hm : ∀ conn, m.value=some conn → (st.slots s).value=some conn) : Keeps st (st.setSlot s m) := by
  intro x conn hx
  rw [State.setSlot_slots] at hx
  by_cases he : x=s
  · subst he
    rw [Function.update_self] at hx
    exact hm conn hx
  · rwa [Function.update_of_ne he] at hx

theorem keeps_lockSlot (st : State K) (s : SlotId K) (o : Owner) : Keeps st (st.lockSlot s o) :=
  keeps_setSlot (fun conn h => by rwa [Mutex.lock_value] at h)

theorem keeps_unlockSlot (st : State K) (s : SlotId K) : Keeps st (st.unlockSlot s) :=
  keeps_setSlot (fun conn h => by rwa [Mutex.unlock_value] at h)

theorem keeps_clearSlot (st : State K) (s : SlotId K) : Keeps st (st.clearSlot s) := by
  simp only [State.clearSlot]
  split
  · exact fun _ _ h => h
  · have hnone : ∀ conn, ((st.slots s).set none).value=some conn →
        (st.slots s).value=some conn := fun conn h => by cases h
    exact keeps_setSlot hnone

theorem keeps_evict (st : State K) (key : K) (c : Nat) : Keeps st (evict st key c) := by
  simp only [evict]
  split
  · exact fun _ _ h => h
  · split_ifs
    · exact keeps_clearSlot (st.note _) _
    · exact fun _ _ h => h

theorem keeps_scanSlot (st : State K) (now maxIdle : Nat) (s : SlotId K) :
    Keeps st (scanSlot st now maxIdle s) := by
  simp only [scanSlot]
  split
  · split_ifs
    · exact keeps_clearSlot st s
    · exact fun _ _ h => h
  · exact fun _ _ h => h

omit [DecidableEq K] in
theorem Keeps.trans {a b c : State K} (h : Keeps a b) (h' : Keeps b c) : Keeps a c :=
  fun s conn hs => h s conn (h' s conn hs)

/-- A guard that is dropped after the connection was marked as used. -/
theorem value_finish {st : State K} {s : SlotId K} {t c : Nat} {caller : Caller}
    {conn : PooledConn} {x : SlotId K} {seen : PooledConn}
    (h : ((finish (st.putConn s conn) t caller s c).slots x).value=some seen) :
    (st.slots x).value=some seen ∨ (x=s ∧ seen=conn) := by
  have hk := keeps_unlockSlot (st.putConn s conn) s x seen h
  rw [State.putConn_slots] at hk
  by_cases he : x=s
  · rw [he,Function.update_self] at hk
    cases hk
    exact Or.inr ⟨he,rfl⟩
  · rw [Function.update_of_ne he] at hk
    exact Or.inl hk

theorem value_locked {st : State K} {t : Nat} {s x : SlotId K} {job : Job K} {conn : PooledConn}
    (h : ((locked st t s job).slots x).value=some conn) :
    (st.slots x).value=some conn ∨ conn.lastUsed=st.now := by
  cases job with
  | get caller =>
    simp only [locked,lockedGet] at h
    split at h
    · rcases value_finish h with h|⟨-,rfl⟩
      · exact Or.inl h
      · exact Or.inr rfl
    · exact Or.inl h
  | clear stale => exact Or.inl (((keeps_clearSlot st s).trans (keeps_unlockSlot _ s)) x conn h)
  | scan now maxIdle slots =>
    exact Or.inl (((keeps_scanSlot st now maxIdle s).trans (keeps_unlockSlot _ s)) x conn h)
  | count slots rest => exact Or.inl (keeps_unlockSlot st s x conn h)

/-- A connection that a slot shows after a step was there before, as it is, or has just been used. -/
theorem step_value {st st' : State K} {a : Action K} (h : step st a=some st') {s : SlotId K}
    {conn : PooledConn} (hv : (st'.slots s).value=some conn) :
    (st.slots s).value=some conn ∨ conn.lastUsed=st.now := by
  cases step_steps h with
  | connect key ht =>
    simp only [getOrCreate,slotFor] at hv
    split at hv <;> exact Or.inl hv
  | reconnect ht =>
    simp only [getOrCreate,slotFor] at hv
    split at hv <;> exact Or.inl hv
  | lock ht => exact Or.inl (keeps_lockSlot st _ _ s conn hv)
  | work ht hh => exact value_locked hv
  | connected ht => exact Or.inl hv
  | refused ht => exact Or.inl (keeps_unlockSlot st _ s conn hv)
  | store ht =>
    rcases value_finish hv with hv|⟨-,rfl⟩
    · exact Or.inl hv
    · exact Or.inr rfl
  | move hm => exact Or.inl hv
  | evictDead ht => exact Or.inl (keeps_evict st _ _ s conn hv)
  | evictTunnel ht hf => exact Or.inl (keeps_evict st _ _ s conn hv)
  | prune debug ht =>
    simp only [pruneNext] at hv
    split at hv <;> exact Or.inl hv
  | environment failed timeout now => exact Or.inl hv
  | close failed hd => exact Or.inl hv
  | driverLock hd => exact Or.inl (keeps_lockSlot st _ _ s conn hv)
  | driverWork hd hh =>
    have hk := keeps_unlockSlot _ _ s conn hv
    split_ifs at hk
    · exact Or.inl (keeps_clearSlot st _ s conn hk)
    · exact Or.inl hk

/-! The clock only runs in `tick`. -/

@[simp] theorem clearSlot_now (st : State K) (s : SlotId K) : (st.clearSlot s).now=st.now := by
  simp only [State.clearSlot]
  split <;> rfl

@[simp] theorem scanSlot_now (st : State K) (now maxIdle : Nat) (s : SlotId K) :
    (scanSlot st now maxIdle s).now=st.now := by
  simp only [scanSlot]
  split
  · split_ifs
    · exact clearSlot_now st s
    · rfl
  · rfl

@[simp] theorem evict_now (st : State K) (key : K) (c : Nat) : (evict st key c).now=st.now := by
  simp only [evict]
  split
  · rfl
  · split_ifs
    · exact clearSlot_now _ _
    · rfl

@[simp] theorem getOrCreate_now (st : State K) (t : Nat) (caller : Caller) (key : K) :
    (getOrCreate st t caller key).now=st.now := by
  simp only [getOrCreate,slotFor]
  split <;> rfl

@[simp] theorem locked_now (st : State K) (t : Nat) (s : SlotId K) (job : Job K) :
    (locked st t s job).now=st.now := by
  cases job with
  | get caller =>
    simp only [locked,lockedGet]
    split <;> rfl
  | clear stale => exact clearSlot_now st s
  | scan now maxIdle slots => exact scanSlot_now st now maxIdle s
  | count slots rest => rfl

theorem step_now {st st' : State K} {a : Action K} (h : step st a=some st') : st.now ≤ st'.now := by
  cases step_does h with
  | connect key hx => exact Nat.le_of_eq (getOrCreate_now st _ _ key).symm
  | reconnect hx => exact Nat.le_of_eq (getOrCreate_now st _ _ _).symm
  | work hx hh => exact Nat.le_of_eq (locked_now st _ _ _).symm
  | evictDead hx => exact Nat.le_of_eq (evict_now st _ _).symm
  | evictTunnel hx hf => exact Nat.le_of_eq (evict_now st _ _).symm
  | prune debug hx =>
    simp only [pruneNext]
    split <;> exact Nat.le_refl _
  | driverWork hd hh =>
    simp only [closeHandler]
    split_ifs
    · exact Nat.le_of_eq (clearSlot_now st _).symm
    · exact Nat.le_refl _
  | tick => exact Nat.le_succ _
  | _ => exact Nat.le_refl _

theorem locked_scan {st : State K} {t : Nat} {s : SlotId K} {now maxIdle : Nat}
    {slots : List (SlotId K)} : ¬Idle (locked st t s (.scan now maxIdle slots)) s now maxIdle := by
  rintro ⟨conn,hv,hle⟩
  have hs := keeps_unlockSlot (scanSlot st now maxIdle s) s s conn hv
  have hk := keeps_scanSlot st now maxIdle s s conn hs
  have hheld : (scanSlot st now maxIdle s).held s=none := by
    simp only [scanSlot,hk]
    rw [if_pos hle,held_clearSlot,if_pos rfl]
  rw [State.held,hs] at hheld
  cases hheld

omit [DecidableEq K] in
theorem Hop.scans {now : Nat} {x y : Task K} {p : Nat×Nat×List (SlotId K)} (h : Hop now x y)
    (hx : x.scans=some p) : y.scans=some p ∨ (p.2.2=[] ∧ y=.idle) := by
  cases h with
  | scanned start maxIdle =>
    cases hx
    exact Or.inr ⟨rfl,rfl⟩
  | _ => first | exact Or.inl hx | cases hx

omit [DecidableEq K] in
/-- A task without a scan under way moves no scan. -/
theorem scans_other {f : Nat → Task K} {t u : Nat} {y : Task K} {p : Nat×Nat×List (SlotId K)}
    (ht : (f t).scans=some p) (hu : (f u).scans=none) : (Function.update f u y t).scans=some p := by
  have hne : t≠u := by
    rintro rfl
    rw [ht] at hu
    cases hu
  rwa [Function.update_of_ne hne]

/-- A step leaves a scan where it is, takes one slot off it that is then not idle, or ends it. -/
theorem step_scans {st st' : State K} {a : Action K} (h : step st a=some st') {t now maxIdle : Nat}
    {slots : List (SlotId K)} (ht : (st.tasks t).scans=some (now,maxIdle,slots)) :
    (st'.tasks t).scans=some (now,maxIdle,slots) ∨ (slots=[] ∧ st'.tasks t=.idle) ∨
      ∃ s rest, slots=s::rest ∧ (st'.tasks t).scans=some (now,maxIdle,rest) ∧
        ¬Idle st' s now maxIdle := by
  cases step_does h with
  | connect key hx =>
    left
    rw [getOrCreate,State.setTask_tasks,slotFor_tasks]
    exact scans_other ht (by rw [hx]; rfl)
  | reconnect hx =>
    left
    rw [getOrCreate,State.setTask_tasks,slotFor_tasks]
    exact scans_other ht (by rw [hx]; rfl)
  | @lock u s job hx =>
    left
    change (Function.update st.tasks u _ t).scans=_
    by_cases hu : t=u
    · subst hu
      rw [Function.update_self]
      rw [hx] at ht
      cases job <;> exact ht
    · rwa [Function.update_of_ne hu]
  | @work u s job hx hh =>
    by_cases hu : t=u
    · subst hu
      rw [hx] at ht
      cases job with
      | scan start limit rest =>
        cases ht
        right
        right
        refine ⟨s,rest,rfl,?_,locked_scan⟩
        simp [locked,Task.scans,Rest.scans]
      | count counted rest =>
        left
        simpa [locked,Task.scans] using ht
      | _ => cases ht
    · left
      rwa [locked_other hu]
  | connected hx => exact Or.inl (scans_other (f := st.tasks) ht (by rw [hx]; rfl))
  | refused hx => exact Or.inl (scans_other (f := st.tasks) ht (by rw [hx]; rfl))
  | store hx => exact Or.inl (scans_other (f := st.tasks) ht (by rw [hx]; rfl))
  | @hop _ u y hx ha =>
    by_cases hu : t=u
    · subst hu
      rw [State.setTask_tasks,Function.update_self]
      rcases hx.scans ht with hy|⟨hp,hy⟩
      · exact Or.inl hy
      · exact Or.inr (Or.inl ⟨hp,hy⟩)
    · left
      rwa [State.setTask_tasks,Function.update_of_ne hu]
  | evictDead hx =>
    left
    rw [State.setTask_tasks,(shrinks_evict st _ _).tasks]
    exact scans_other ht (by rw [hx]; rfl)
  | evictTunnel hx hf =>
    left
    rwa [(shrinks_evict st _ _).tasks]
  | @prune u s stale debug hx =>
    left
    have hu : t≠u := by
      rintro rfl
      rw [hx] at ht
      cases ht
    rwa [pruneNext_other hu]
  | driverWork hd hh =>
    left
    rwa [closeHandler_tasks]
  | _ => exact Or.inl ht

/-- A `prune_idle` call under way has every idle slot of the map before it. -/
def Sweeping (t now maxIdle : Nat) (st : State K) : Prop :=
  ∃ slots, (st.tasks t).scans=some (now,maxIdle,slots) ∧
    ∀ s, st.Registered s → Idle st s now maxIdle → s∈slots

def Swept (now maxIdle : Nat) (st : State K) : Prop :=
  ∀ s, st.Registered s → ¬Idle st s now maxIdle

/-- What a slot of the map shows as idle after a step was idle and in the map before. -/
theorem idle_step {st st' : State K} {a : Action K} (hf : Fresh st) (h : step st a=some st')
    {now maxIdle : Nat} (hm : 0 < maxIdle) (hn : now ≤ st.now) {s : SlotId K}
    (hr : st'.Registered s) (hi : Idle st' s now maxIdle) :
    st.Registered s ∧ Idle st s now maxIdle := by
  obtain ⟨conn,hv,hle⟩ := hi
  refine ⟨?_,?_⟩
  · rcases hf.registered (step_later h) hr with hr|hh
    · exact hr
    · rw [State.held,hv] at hh
      cases hh
  · rcases step_value h hv with hv|hu
    · exact ⟨conn,hv,hle⟩
    · omega

theorem Sweeping.step {st st' : State K} {a : Action K} {t now maxIdle : Nat}
    (hs : Sweeping t now maxIdle st) (hf : Fresh st) (hm : 0 < maxIdle) (hn : now ≤ st.now)
    (h : step st a=some st') :
    Sweeping t now maxIdle st' ∨ (st'.tasks t=.idle ∧ Swept now maxIdle st') := by
  obtain ⟨slots,ht,hleft⟩ := hs
  have before {s : SlotId K} (hr : st'.Registered s) (hi : Idle st' s now maxIdle) : s∈slots := by
    obtain ⟨hr,hi⟩ := idle_step hf h hm hn hr hi
    exact hleft s hr hi
  rcases step_scans h ht with ht'|⟨rfl,hidle⟩|⟨s,rest,rfl,ht',hs⟩
  · exact Or.inl ⟨slots,ht',fun s hr hi => before hr hi⟩
  · right
    refine ⟨hidle,fun s hr hi => ?_⟩
    cases before hr hi
  · left
    refine ⟨rest,ht',fun x hr hi => ?_⟩
    rcases List.mem_cons.mp (before hr hi) with rfl|hx
    · exact absurd hi hs
    · exact hx

theorem Swept.step {st st' : State K} {a : Action K} {now maxIdle : Nat}
    (hs : Swept now maxIdle st) (hf : Fresh st) (hm : 0 < maxIdle) (hn : now ≤ st.now)
    (h : step st a=some st') : Swept now maxIdle st' := by
  intro s hr hi
  obtain ⟨hr,hi⟩ := idle_step hf h hm hn hr hi
  exact hs s hr hi

theorem Reachable.fresh {st : State K} (h : Reachable st) : Fresh st := by
  obtain ⟨timeout,as,hr⟩ := h
  exact run_invariant (fun _ _ _ hf hs => hf.later (step_later hs)) (fresh_new timeout) hr

theorem mem_entries {st : State K} {s : SlotId K} (h : st.Registered s) : s∈st.entries := by
  have hm := AList.mem_lookup_iff.mp (Option.mem_def.mpr h)
  exact List.mem_map.mpr ⟨_,hm,rfl⟩

theorem sweeping_start {st st' : State K} {t maxIdle : Nat} {slots : List (SlotId K)}
    {debug : Bool} (hm : st.idleTimeout=some maxIdle)
    (h : step st (.pruneIdle t slots debug)=some st') :
    Sweeping t st.now maxIdle st' ∧ st'.now=st.now := by
  by_cases hc : st.tasks t=.idle
  · rw [step,if_pos hc,hm] at h
    by_cases hp : slots.Perm st.entries
    · simp only [if_pos hp,Option.some.injEq] at h
      subst h
      refine ⟨⟨slots,?_,fun s hr _ => hp.mem_iff.mpr (mem_entries hr)⟩,rfl⟩
      rw [State.setTask_tasks,Function.update_self]
      cases debug <;> rfl
    · simp only [if_neg hp] at h
      cases h
  · rw [step,if_neg hc] at h
    cases h

/-- A `prune_idle` call clears what it is for: from its end on, every connection that the map
leads to was used less than `max_idle` before the call began, or since. -/
theorem prune_idle_sweeps {st st1 st2 : State K} (h : Reachable st) {t maxIdle : Nat}
    {slots : List (SlotId K)} {debug : Bool} (hm : st.idleTimeout=some maxIdle) (hpos : 0 < maxIdle)
    (hs : step st (.pruneIdle t slots debug)=some st1) {as : List (Action K)}
    (hw : Within step (fun x _ => x.tasks t≠.idle) st1 as) (hr : run step st1 as=some st2)
    (hidle : st2.tasks t=.idle) {bs : List (Action K)} {st3 : State K}
    (hb : run step st2 bs=some st3) :
    ∀ s conn, st3.Registered s → (st3.slots s).value=some conn →
      st.now<conn.lastUsed+maxIdle := by
  obtain ⟨hstart,hnow⟩ := sweeping_start hm hs
  obtain ⟨hf2,hn2,hd2⟩ := run_within
    (I := fun x => Fresh x ∧ st.now ≤ x.now ∧
      (Sweeping t st.now maxIdle x ∨ (x.tasks t=.idle ∧ Swept st.now maxIdle x)))
    (fun x a x' hx (hg : x.tasks t≠.idle) hstep => by
      obtain ⟨hf,hn,hd⟩ := hx
      have hw := hd.resolve_right (fun hi => hg hi.1)
      exact ⟨hf.later (step_later hstep),Nat.le_trans hn (step_now hstep),hw.step hf hpos hn hstep⟩)
    hw ⟨h.fresh.later (step_later hs),Nat.le_of_eq hnow.symm,Or.inl hstart⟩ hr
  have hswept : Swept st.now maxIdle st2 := by
    rcases hd2 with ⟨p,hp,-⟩|hd2
    · rw [hidle] at hp
      cases hp
    · exact hd2.2
  have h3 := run_invariant (I := fun x => Fresh x ∧ st.now ≤ x.now ∧ Swept st.now maxIdle x)
    (fun x a x' hx hstep =>
      ⟨hx.1.later (step_later hstep),Nat.le_trans hx.2.1 (step_now hstep),
        hx.2.2.step hx.1 hpos hx.2.1 hstep⟩) ⟨hf2,hn2,hswept⟩ hb
  intro s conn hreg hv
  have hni := h3.2.2 s hreg
  by_contra hle
  exact hni ⟨conn,hv,by omega⟩

/-- Of two connections, the one that was used in time stays. -/
theorem prune_idle_sweeps_short : ∃ st : State Nat, run step (State.new (some 3)) [.connect 0 0,
      .lock 0,.work 0,.handshake 0 true,.store 0,.tick,.tick,.connect 2 1,.lock 2,.work 2,
      .handshake 2 true,.store 2,.tick,.tick]=some st ∧
    ∃ st1, step st (.pruneIdle 1 [⟨0,0⟩,⟨1,1⟩] false)=some st1 ∧
    ∃ st2, run step st1 [.next 1 false,.lock 1,.work 1,.next 1 false,.lock 1,.work 1,
      .next 1 false]=some st2 ∧ st2.held ⟨0,0⟩=none ∧ st2.held ⟨1,1⟩=some 2 ∧
    ∀ s conn, st2.Registered s → (st2.slots s).value=some conn → st.now<conn.lastUsed+3 := by
  have h : ∃ st : State Nat, run step (State.new (some 3)) [.connect 0 0,.lock 0,.work 0,
      .handshake 0 true,.store 0,.tick,.tick,.connect 2 1,.lock 2,.work 2,.handshake 2 true,
      .store 2,.tick,.tick]=some st ∧ st.idleTimeout=some 3 ∧
    ∃ st1, step st (.pruneIdle 1 [⟨0,0⟩,⟨1,1⟩] false)=some st1 ∧
    Within step (fun x _ => x.tasks 1≠.idle) st1 [.next 1 false,.lock 1,.work 1,.next 1 false,
      .lock 1,.work 1,.next 1 false] ∧
    ∃ st2, run step st1 [.next 1 false,.lock 1,.work 1,.next 1 false,.lock 1,.work 1,
      .next 1 false]=some st2 ∧ st2.held ⟨0,0⟩=none ∧ st2.held ⟨1,1⟩=some 2 ∧
      st2.tasks 1=.idle :=
    ⟨_,rfl,rfl,_,rfl,by decide,_,rfl,by decide,by decide,by decide⟩
  obtain ⟨st,hr,hm,st1,hs,hw,st2,hr2,h0,h1,hidle⟩ := h
  exact ⟨st,hr,st1,hs,st2,hr2,h0,h1,
    prune_idle_sweeps ⟨some 3,_,hr⟩ hm (by decide) hs hw hr2 hidle (show run step st2 []=some st2 from rfl)⟩

/-- How often `get_or_create` has handed out a connection. -/
def handouts (st : State K) : Nat :=
  st.log.countP (fun e => match e with | .returned _ _ _ => true | _ => false)

@[simp] theorem handouts_clearSlot (st : State K) (s : SlotId K) :
    handouts (st.clearSlot s)=handouts st := by
  simp only [State.clearSlot]
  split
  · rfl
  · simp [handouts]

@[simp] theorem handouts_scanSlot (st : State K) (now maxIdle : Nat) (s : SlotId K) :
    handouts (scanSlot st now maxIdle s)=handouts st := by
  simp only [scanSlot]
  split
  · split_ifs
    · exact handouts_clearSlot st s
    · rfl
  · rfl

@[simp] theorem handouts_evict (st : State K) (key : K) (c : Nat) :
    handouts (evict st key c)=handouts st := by
  simp only [evict]
  split
  · rfl
  · split_ifs
    · rw [handouts_clearSlot]
      simp [handouts]
    · rfl

/-- The slot of a connection that is handed out shows it as used now. -/
theorem used_finish {st : State K} {s x : SlotId K} {t u c d : Nat} {caller : Caller}
    (h : (finish (st.putConn s ⟨c,st.now⟩) t caller s c).log=st.log++[.returned u x d])
    {conn : PooledConn} (hv : ((finish (st.putConn s ⟨c,st.now⟩) t caller s c).slots x).value=some conn) :
    conn.lastUsed=st.now := by
  have he : st.log++[Event.returned t s c]=st.log++[.returned u x d] := h
  cases List.append_cancel_left he
  have hk := keeps_unlockSlot (st.putConn s ⟨c,st.now⟩) s s conn hv
  rw [State.putConn_slots,Function.update_self] at hk
  cases hk
  rfl

theorem step_handout {st st' : State K} {a : Action K} (h : step st a=some st') {t c : Nat}
    {s : SlotId K} (hlog : st'.log=st.log++[.returned t s c]) {conn : PooledConn}
    (hv : (st'.slots s).value=some conn) : conn.lastUsed=st.now := by
  have hcount : handouts st'=handouts st+1 := by
    rw [handouts,hlog,List.countP_append]
    rfl
  have quiet (he : handouts st'=handouts st) : conn.lastUsed=st.now := by omega
  cases step_does h with
  | connect key hx =>
    apply quiet
    simp only [getOrCreate,slotFor]
    split <;> rfl
  | reconnect hx =>
    apply quiet
    simp only [getOrCreate,slotFor]
    split <;> rfl
  | @work u x job hx hh =>
    cases job with
    | get caller =>
      simp only [locked,lockedGet] at hlog hv hcount quiet
      split at hlog
      · rename_i seen hseen
        simp only [hseen] at hv
        exact used_finish hlog hv
      · rename_i hseen
        simp only [hseen] at quiet
        exact quiet rfl
    | clear stale => exact quiet (handouts_clearSlot st x)
    | scan now maxIdle slots => exact quiet (handouts_scanSlot st now maxIdle x)
    | count slots rest => exact quiet rfl
  | connected hx => exact quiet (by simp [connected,handouts])
  | store hx => exact used_finish hlog hv
  | evictDead hx => exact quiet (handouts_evict st _ _)
  | evictTunnel hx hf => exact quiet (handouts_evict st _ _)
  | prune debug hx =>
    apply quiet
    simp only [pruneNext]
    split <;> rfl
  | driverWork hd hh =>
    apply quiet
    simp only [closeHandler]
    split_ifs
    · exact handouts_clearSlot st _
    · rfl
  | _ => exact quiet rfl

/-- A `prune_idle` call spares what is in use: it clears no slot from which `get_or_create` has
handed out a connection since less than `max_idle` before the call began. -/
theorem prune_idle_spares_used {st st1 st2 st3 : State K} {a : Action K} {t c : Nat}
    {s : SlotId K} (h : step st a=some st1) (hlog : st1.log=st.log++[.returned t s c])
    {as : List (Action K)} (hr : run step st1 as=some st2) {u start maxIdle : Nat}
    {slots : List (SlotId K)} (hu : st2.tasks u=.locking s (.scan start maxIdle slots))
    (hpos : 0 < maxIdle) (hlt : start < st.now+maxIdle) (hw : step st2 (.work u)=some st3) :
    (st3.slots s).value=(st2.slots s).value := by
  have hused := run_invariant
    (I := fun x => st.now ≤ x.now ∧ ∀ conn, (x.slots s).value=some conn → st.now ≤ conn.lastUsed)
    (fun x b x' hx hstep => by
      refine ⟨Nat.le_trans hx.1 (step_now hstep),fun conn hv => ?_⟩
      rcases step_value hstep hv with hv|hn
      · exact hx.2 conn hv
      · rw [hn]
        exact hx.1)
    ⟨step_now h,fun conn hv => Nat.le_of_eq (step_handout h hlog hv).symm⟩ hr
  simp only [step,hu] at hw
  split_ifs at hw
  cases hw
  have hscan : scanSlot st2 start maxIdle s=st2 := by
    simp only [scanSlot]
    split
    · rename_i conn hv
      have hle := hused.2 conn hv
      rw [if_neg (by omega)]
    · rfl
  simp [locked,hscan]

theorem prune_idle_spares_used_short : ∃ st : State Nat, run step (State.new (some 2))
      [.connect 0 0,.lock 0,.work 0,.handshake 0 true]=some st ∧
    ∃ st1, step st (.store 0)=some st1 ∧
    ∃ st2, run step st1 [.tick,.pruneIdle 1 [⟨0,0⟩] false,.tick,.tick,.next 1 false,.lock 1]=
      some st2 ∧ st2.held ⟨0,0⟩=some 1 ∧
    ∃ st3, step st2 (.work 1)=some st3 ∧ (st3.slots ⟨0,0⟩).value=(st2.slots ⟨0,0⟩).value := by
  have h : ∃ st : State Nat, run step (State.new (some 2))
      [.connect 0 0,.lock 0,.work 0,.handshake 0 true]=some st ∧ st.now=0 ∧
    ∃ st1, step st (.store 0)=some st1 ∧ st1.log=st.log++[.returned 0 ⟨0,0⟩ 1] ∧
    ∃ st2, run step st1 [.tick,.pruneIdle 1 [⟨0,0⟩] false,.tick,.tick,.next 1 false,.lock 1]=
      some st2 ∧ st2.held ⟨0,0⟩=some 1 ∧ st2.tasks 1=.locking ⟨0,0⟩ (.scan 1 2 []) ∧
    ∃ st3, step st2 (.work 1)=some st3 :=
    ⟨_,rfl,rfl,_,rfl,rfl,_,rfl,by decide,by decide,_,rfl⟩
  obtain ⟨st,hr,hn,st1,hs,hlog,st2,hr2,hh,hu,st3,hw⟩ := h
  exact ⟨st,hr,st1,hs,st2,hr2,hh,st3,hw,
    prune_idle_spares_used hs hlog hr2 hu (by decide) (by rw [hn]; decide) hw⟩

end Tobira.Pool
