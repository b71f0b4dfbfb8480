import Tobira.Pool.Later

namespace Tobira.Pool

open Tobira.Framework

variable {K : Type}

/-- The id was given out and nobody is dialling under it any more. -/
def Settled (st : State K) (c : Nat) : Prop :=
  c<st.nextConnId ∧ ∀ t s, (st.tasks t).dial≠some (s,c)

/-- A connection that is cached is past its handshake. -/
theorem Inv.settled {st : State K} (hi : Inv st) {s : SlotId K} {c : Nat}
    (hc : st.held s=some c) : Settled st c := by
  have ha := hi.held hc
  obtain ⟨p,hp,hq⟩ := ha
  refine ⟨hi.old hp,?_⟩
  intro t x hd
  cases hx : st.tasks t with
  | dialing caller y i =>
    rw [hx] at hd
    cases hd
    rw [hi.dialing hx] at hp
    cases hp
  | dialed caller y i =>
    have hv := (hi.dial hd).2.1
    rw [hx] at hd
    cases hd
    rw [Alive.unique ⟨p,hp,hq⟩ (hi.dialed hx),hv] at hc
    cases hc
  | _ =>
    rw [hx] at hd
    cases hd

variable [DecidableEq K]

theorem Later.settled {st st' : State K} (h : Later st st') {c : Nat} (hc : Settled st c) :
    Settled st' c := by
  refine ⟨lt_of_lt_of_le hc.1 h.next,?_⟩
  intro t s hd
  rcases h.dial hd with hd|rfl
  · exact hc.2 t s hd
  · exact lt_irrefl _ hc.1

/-- A connection past its handshake enters no slot it is not in. -/
theorem Later.stays_out {st st' : State K} (h : Later st st') {c : Nat} (hc : Settled st c)
    {s : SlotId K} (hs : st.held s≠some c) : st'.held s≠some c := by
  intro hh
  rcases h.held hh with hh|⟨t,hd⟩
  · exact hs hh
  · exact hc.2 t s hd

/-- Where a task stands between the failure of connection `c` and the end of the second
`get_or_create`, the slot it is going to lock does not hold `c`. -/
def Good (st : State K) : Task K → Prop
  | .ready _ c | .dead _ c => Settled st c
  | .evicted key c =>
    Settled st c ∧ ∀ s : SlotId K, s.key=key → st.Registered s → st.held s≠some c
  | .enter s (.get (.retry c)) | .locking s (.get (.retry c)) => Settled st c ∧ st.held s≠some c
  | .dialing (.retry c) s _ | .dialed (.retry c) s _ => Settled st c ∧ st.held s≠some c
  | .again _ old c => c≠old
  | _ => True

theorem Good.later {st st' : State K} (hf : Fresh st) (h : Later st st') {x : Task K}
    (hx : Good st x) : Good st' x := by
  simp only [Good] at hx ⊢
  split at hx
  · exact h.settled hx
  · exact h.settled hx
  · refine ⟨h.settled hx.1,?_⟩
    intro s hk hr
    rcases hf.registered h hr with hr|hn
    · exact h.stays_out hx.1 (hx.2 s hk hr)
    · rw [hn]
      simp
  all_goals first
    | exact ⟨h.settled hx.1,h.stays_out hx.1 hx.2⟩
    | exact hx

theorem good_plain (st : State K) {y : Task K} (h : y.plain=true) : Good st y := by
  simp only [Task.plain] at h
  split at h <;> trivial

theorem good_resume {st : State K} {s : SlotId K} {c : Nat} {caller : Caller}
    (hc : Settled st c) (hr : ∀ old, caller=.retry old → c≠old) :
    Good st (resume s.key c caller) := by
  cases caller with
  | first => exact hc
  | retry old => exact hr old rfl

/-- When `evict` follows a failed `poll_ready`, nobody holds the registered slot, or the slot
does not hold the failed connection. -/
def Uncontended (st : State K) : Action K → Prop
  | .evict t => ∀ key c, st.tasks t=.dead key c → ∀ s : SlotId K, s.key=key → st.Registered s →
      (st.slots s).holder=none ∨ st.held s≠some c
  | _ => True

structure Retrying (st : State K) : Prop where
  inv : Inv st
  fresh : Fresh st
  good : ∀ t, Good st (st.tasks t)

theorem retrying_new (timeout : Option Nat) : Retrying (State.new timeout : State K) :=
  ⟨inv_new timeout,fresh_new timeout,fun _ => trivial⟩

/-- Only the task that moves needs a look. -/
theorem Retrying.good_update {st st' : State K} (hr : Retrying st) (h : Later st st') (t : Nat)
    (ht : ∀ t', t'≠t → st'.tasks t'=st.tasks t') (hy : Good st' (st'.tasks t)) (t' : Nat) :
    Good st' (st'.tasks t') := by
  by_cases he : t'=t
  · subst he
    exact hy
  · rw [ht t' he]
    exact (hr.good t').later hr.fresh h

theorem Retrying.good_same {st st' : State K} (hr : Retrying st) (h : Later st st')
    (ht : st'.tasks=st.tasks) (t : Nat) : Good st' (st'.tasks t) := by
  rw [ht]
  exact (hr.good t).later hr.fresh h

/-- The connection that `get_or_create` returns, cached or new, is past its handshake after. -/
theorem Retrying.settled_finish {st : State K} (hr : Retrying st) {t c : Nat} {caller : Caller}
    {s : SlotId K} {conn : PooledConn} (hc : conn.id=c) (hh : (st.slots s).holder=some (.task t))
    (ha : Alive st conn.id s) :
    Settled (finish (st.putConn s conn) t caller s c) c := by
  subst hc
  apply (hr.inv.finish caller hh ha).settled (s := s)
  change ((st.putConn s conn).unlockSlot s).held s=_
  rw [held_unlockSlot,held_putConn,if_pos rfl]

theorem Retrying.getOrCreate {st : State K} (hr : Retrying st) {t : Nat} {caller : Caller}
    {key : K} (hc : ∀ c, caller=.retry c → Good st (.evicted key c)) (t' : Nat) :
    Good (getOrCreate st t caller key) ((getOrCreate st t caller key).tasks t') := by
  have hl : Later st (Pool.getOrCreate st t caller key) := later_getOrCreate caller key
  apply hr.good_update hl t
  · exact fun u hu => getOrCreate_other hu caller key
  · have hnew : (Pool.getOrCreate st t caller key).tasks t=
        .enter (slotFor st key).2 (.get caller) := by
      rw [Pool.getOrCreate,State.setTask_tasks,Function.update_self]
    rw [hnew]
    cases caller with
    | first => trivial
    | retry c =>
      have hg := (hc c rfl).later hr.fresh hl
      have hk : (slotFor st key).2.key=key := by
        simp only [slotFor]
        split <;> rfl
      exact ⟨hg.1,hg.2 _ hk (slotFor_registered st key)⟩

theorem Retrying.lockedGet {st : State K} (hr : Retrying st) {t : Nat} {caller : Caller}
    {s : SlotId K} (ht : st.tasks t=.locking s (.get caller))
    (hh : (st.slots s).holder=some (.task t)) (t' : Nat) :
    Good (lockedGet st t caller s) ((lockedGet st t caller s).tasks t') := by
  have hl := later_lockedGet ht
  apply hr.good_update hl t (fun u hu => locked_other hu s (.get caller))
  have hg := hr.good t
  rw [ht] at hg
  simp only [Pool.lockedGet] at hl ⊢
  split at hl
  · rename_i conn hv
    have hc : st.held s=some conn.id := by rw [State.held,hv]; rfl
    have hnew : (finish (st.putConn s ⟨conn.id,st.now⟩) t caller s conn.id).tasks t=
        resume s.key conn.id caller := by simp [finish]
    rw [hnew]
    apply good_resume
    · exact hr.settled_finish rfl hh (hr.inv.held hc)
    · intro old ho he
      subst ho
      exact hg.2 (by rw [hc,he])
  · have hm := hg.later hr.fresh hl
    rw [State.setTask_tasks,Function.update_self]
    cases caller <;> exact hm

theorem Retrying.locked {st : State K} (hr : Retrying st) {t : Nat} {s : SlotId K} {job : Job K}
    (ht : st.tasks t=.locking s job) (hh : (st.slots s).holder=some (.task t)) (t' : Nat) :
    Good (locked st t s job) ((locked st t s job).tasks t') := by
  cases job with
  | get caller => exact hr.lockedGet ht hh t'
  | clear stale =>
    exact hr.good_update (later_locked ht) t (fun u hu => locked_other hu s _)
      (by simp [Pool.locked,Good]) t'
  | scan now maxIdle slots =>
    exact hr.good_update (later_locked ht) t (fun u hu => locked_other hu s _)
      (by simp [Pool.locked,Good]) t'
  | count slots rest =>
    exact hr.good_update (later_locked ht) t (fun u hu => locked_other hu s _)
      (by simp [Pool.locked,Good]) t'

/-- After an uncontended `evict`, the registered slot does not hold the failed connection. -/
theorem Retrying.evictDead {st : State K} (hr : Retrying st) {t c : Nat} {key : K}
    (ht : st.tasks t=.dead key c) (hu : Uncontended st (.evict t)) (t' : Nat) :
    Good ((evict st key c).setTask t (.evicted key c))
      (((evict st key c).setTask t (.evicted key c)).tasks t') := by
  have hs := shrinks_evict st key c
  have hl : Later st ((evict st key c).setTask t (.evicted key c)) :=
    hs.later (Or.inl rfl) (Or.inl rfl)
  apply hr.good_update hl t
  · intro u hu
    rw [State.setTask_tasks,Function.update_of_ne hu,hs.tasks]
  · rw [State.setTask_tasks,Function.update_self]
    have hg := hr.good t
    rw [ht] at hg
    refine ⟨hl.settled hg,?_⟩
    intro s hk hreg hheld
    have hr' : st.Registered s := by
      have h : (evict st key c).conns.lookup s.key=some s.serial := hreg
      rwa [hs.conns] at h
    rw [held_setTask,held_evict] at hheld
    split_ifs at hheld with hp
    rcases hu key c ht s hk hr' with hf|hn
    · exact hp ⟨hk,hr',hf⟩
    · exact hn hheld

theorem Retrying.step (st : State K) (a : Action K) (st' : State K) (hr : Retrying st)
    (hu : Uncontended st a) (h : step st a=some st') : Retrying st' := by
  have hl := step_later h
  refine ⟨hr.inv.step h,hr.fresh.later hl,?_⟩
  cases step_steps h with
  | connect key ht => exact hr.getOrCreate (fun c hc => by cases hc)
  | reconnect ht =>
    rename_i t c key
    have hg := hr.good t
    rw [ht] at hg
    refine hr.getOrCreate ?_
    intro c' hc
    cases hc
    exact hg
  | lock ht =>
    rename_i t s job
    refine hr.good_update hl t (fun u hu => by simp [hu]) ?_
    have hg := (hr.good t).later hr.fresh hl
    rw [ht] at hg
    rw [State.setTask_tasks,Function.update_self]
    cases job with
    | get caller => cases caller <;> exact hg
    | _ => trivial
  | work ht hh => exact hr.locked ht hh
  | connected ht =>
    rename_i t i caller s
    refine hr.good_update hl t (fun u hu => connected_other hu caller s i) ?_
    have hg := (hr.good t).later hr.fresh hl
    rw [ht] at hg
    have hnew : (connected st t caller s i).tasks t=.dialed caller s i := by simp [connected]
    rw [hnew]
    cases caller <;> exact hg
  | refused ht =>
    rename_i t i caller s
    refine hr.good_update hl t (fun u hu => by simp [hu]) ?_
    simp [Good]
  | store ht =>
    rename_i t i caller s
    have hd : (st.tasks t).dial=some (s,i) := by rw [ht]; rfl
    have hg := hr.good t
    rw [ht] at hg
    refine hr.good_update hl t (fun u hu => finish_other hu caller s i) ?_
    have hnew : (finish (st.putConn s ⟨i,st.now⟩) t caller s i).tasks t=
        resume s.key i caller := by simp [finish]
    rw [hnew]
    apply good_resume
    · exact hr.settled_finish rfl (hr.inv.dial hd).1 (hr.inv.dialed ht)
    · intro old ho he
      subst ho
      exact hg.1.2 t s (by rw [hd,he])
  | move hm =>
    rename_i t y
    refine hr.good_update hl t (fun u hu => by simp [hu]) ?_
    rw [State.setTask_tasks,Function.update_self]
    generalize hx : st.tasks t=x at hm
    cases hm with
    | failed key c =>
      have hg := hr.good t
      rw [hx] at hg
      exact hl.settled hg
    | plain _ _ hy => exact good_plain _ hy
  | evictDead ht => exact hr.evictDead ht hu
  | evictTunnel ht hf => exact hr.good_same hl (shrinks_evict st _ _).tasks
  | prune debug ht =>
    rename_i t s stale
    refine hr.good_update hl t (fun u hu => pruneNext_other hu s stale) ?_
    simp only [pruneNext]
    split <;> simp [Good]
  | environment failed timeout now => exact hr.good_same hl rfl
  | close failed hd => exact hr.good_same hl rfl
  | driverLock hd => exact hr.good_same hl rfl
  | driverWork hd hh => exact hr.good_same hl (closeHandler_tasks st _ _)

/-- In every run in which `evict` finds the slot of a failed connection unlocked, the second
`get_or_create` of `open_grpc_tunnel` returns another connection. -/
theorem reconnect_returns_another {timeout : Option Nat} {as : List (Action K)} {st : State K}
    (hw : Within step Uncontended (State.new timeout) as)
    (h : run step (State.new timeout) as=some st) {t old c : Nat} {key : K}
    (ht : st.tasks t=.again key old c) : c≠old := by
  have hg := (run_within Retrying.step hw (retrying_new timeout) h).good t
  rw [ht] at hg
  exact hg

/-- Connection 1 fails, nobody holds its slot, and the second call dials connection 2. -/
def reconnectAlone : List (Action Nat) :=
  [.connect 1 0,.lock 1,.work 1,.handshake 1 true,.store 1,.fail 1,.pollReady 1 false,.evict 1,
    .reconnect 1,.lock 1,.work 1,.handshake 1 true,.store 1]

theorem reconnect_returns_another_alone : ∃ st : State Nat,
    run step (State.new none) reconnectAlone=some st ∧ st.tasks 1=.again 0 1 2 ∧ 2≠1 := by
  have hw : Within step Uncontended (State.new none) reconnectAlone := by
    iterate 7 refine within_cons trivial rfl ?_
    refine within_cons ?_ rfl ?_
    · intro key c hd s hk hs
      cases hd
      have he : s=⟨0,0⟩ := by
        obtain ⟨k,n⟩ := s
        cases hk
        cases hs
        rfl
      exact Or.inl (by rw [he]; decide)
    · iterate 5 refine within_cons trivial rfl ?_
      trivial
  have hr : ∃ st : State Nat, run step (State.new none) reconnectAlone=some st ∧
      st.tasks 1=.again 0 1 2 := ⟨_,rfl,by decide⟩
  obtain ⟨st,hr,ht⟩ := hr
  exact ⟨st,hr,ht,reconnect_returns_another hw hr ht⟩

/-- Another caller holds the slot while `evict` tries it, and the second call reuses the
connection that failed. -/
theorem reconnect_reuses_failed : ∃ st : State Nat, Reachable st ∧ st.tasks 1=.again 0 1 1 :=
  ⟨_,⟨none,[.connect 1 0,.lock 1,.work 1,.handshake 1 true,.store 1,.connect 2 0,.lock 2,.fail 1,
    .pollReady 1 false,.evict 1,.work 2,.reconnect 1,.lock 1,.work 1],rfl⟩,by decide⟩

end Tobira.Pool
