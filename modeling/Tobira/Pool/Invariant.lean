import Tobira.Pool.Effects

namespace Tobira.Pool

open Tobira.Framework

variable {K : Type}

/-- The slot and the id of the handshake a task has in progress. -/
def Task.dial : Task K → Option (SlotId K×Nat)
  | .dialing _ s id | .dialed _ s id => some (s,id)
  | _ => none

theorem Task.dial_getting {x : Task K} {s : SlotId K} {i : Nat} (h : x.dial=some (s,i)) :
    x.getting=some s := by
  simp only [dial] at h
  split at h <;> cases h <;> rfl

theorem Task.dial_none {x : Task K} (h : x.getting=none) : x.dial=none := by
  cases hd : x.dial with
  | none => rfl
  | some p =>
    rw [dial_getting hd] at h
    cases h

theorem Moves.dial {x y : Task K} (h : Moves x y) : y.dial=none := by
  cases h with
  | failed key c => rfl
  | plain hg hc hy => exact Task.dial_none (Task.getting_plain hy)

/-- The close handler of connection `c` belongs to slot `s` and has not run its locked section. -/
def Alive (st : State K) (c : Nat) (s : SlotId K) : Prop :=
  ∃ phase, st.drivers c=some ⟨s,phase⟩ ∧ phase≠.finished

theorem Alive.unique {st : State K} {c : Nat} {s s' : SlotId K} (h : Alive st c s)
    (h' : Alive st c s') : s=s' := by
  obtain ⟨p,hp,-⟩ := h
  obtain ⟨q,hq,-⟩ := h'
  rw [hp] at hq
  cases hq
  rfl

/-- The lock is held over the whole handshake, the slot is empty meanwhile, and a connection
that is cached or about to be has its close handler still to come. -/
structure Inv (st : State K) : Prop where
  dial : ∀ {t s i}, (st.tasks t).dial=some (s,i) →
    (st.slots s).holder=some (.task t) ∧ st.held s=none ∧ i<st.nextConnId
  one : ∀ {t t' s s' i}, (st.tasks t).dial=some (s,i) → (st.tasks t').dial=some (s',i) → t=t'
  dialing : ∀ {t caller s i}, st.tasks t=.dialing caller s i → st.drivers i=none
  dialed : ∀ {t caller s i}, st.tasks t=.dialed caller s i → Alive st i s
  held : ∀ {s c}, st.held s=some c → Alive st c s
  old : ∀ {c d}, st.drivers c=some d → c<st.nextConnId

theorem inv_new (timeout : Option Nat) : Inv (State.new timeout : State K) where
  dial := fun h => by cases h
  one := fun h => by cases h
  dialing := fun h => by cases h
  dialed := fun h => by cases h
  held := fun h => by cases h
  old := fun h => by cases h

/-- Only the task that holds a slot dials on it. -/
theorem Inv.holder_dials {st : State K} (hi : Inv st) {s : SlotId K} {o : Owner} {t i : Nat}
    (hh : (st.slots s).holder=some o) (hd : (st.tasks t).dial=some (s,i)) : o=.task t := by
  have h := (hi.dial hd).1
  rw [hh] at h
  exact Option.some.inj h

theorem Inv.setTask {st : State K} (hi : Inv st) (t : Nat) {y : Task K} (hy : y.dial=none) :
    Inv (st.setTask t y) := by
  have away {t' : Nat} {x : Task K} (hx : (st.setTask t y).tasks t'=x) (hn : x.dial≠none) :
      st.tasks t'=x := by
    by_cases ht : t'=t
    · subst ht
      rw [State.setTask_tasks,Function.update_self] at hx
      rw [← hx] at hn
      exact absurd hy hn
    · rwa [State.setTask_tasks,Function.update_of_ne ht] at hx
  have dials {t' : Nat} {p : SlotId K×Nat} (hx : ((st.setTask t y).tasks t').dial=some p) :
      (st.tasks t').dial=some p := by
    rw [away rfl (by rw [hx]; simp)]
    exact hx
  exact {
    dial := fun h => hi.dial (dials h)
    one := fun h h' => hi.one (dials h) (dials h')
    dialing := fun h => hi.dialing (away h (by simp [Task.dial]))
    dialed := fun h => hi.dialed (away h (by simp [Task.dial]))
    held := hi.held
    old := hi.old }

theorem Inv.shrink {st st' : State K} (hi : Inv st) (h : Shrinks st st')
    (hh : ∀ {t s i}, (st.tasks t).dial=some (s,i) → (st'.slots s).holder=some (.task t)) :
    Inv st' := by
  have empty {s : SlotId K} (hs : st.held s=none) : st'.held s=none := by
    rw [Option.eq_none_iff_forall_ne_some] at hs ⊢
    intro c hc
    exact hs c (h.held s c hc)
  have alive {c : Nat} {s : SlotId K} (ha : Alive st c s) : Alive st' c s := by
    rwa [Alive,h.drivers]
  exact {
    dial := by
      intro t s i hd
      rw [h.tasks] at hd
      obtain ⟨-,hv,hid⟩ := hi.dial hd
      exact ⟨hh hd,empty hv,by rwa [h.nextConnId]⟩
    one := by
      intro t t' s s' i hd hd'
      rw [h.tasks] at hd hd'
      exact hi.one hd hd'
    dialing := by
      intro t caller s i hd
      rw [h.tasks] at hd
      rw [h.drivers]
      exact hi.dialing hd
    dialed := by
      intro t caller s i hd
      rw [h.tasks] at hd
      exact alive (hi.dialed hd)
    held := fun hv => alive (hi.held (h.held _ _ hv))
    old := by
      intro c d hd
      rw [h.drivers] at hd
      rw [h.nextConnId]
      exact hi.old hd }

theorem Inv.note {st : State K} (hi : Inv st) (e : Event K) : Inv (st.note e) :=
  hi.shrink (shrinks_note st e) (fun hd => (hi.dial hd).1)

/-- `next_conn_id.fetch_add(1)` under the guard of an empty slot. -/
theorem Inv.startDial {st : State K} (hi : Inv st) {s : SlotId K} {t : Nat} (caller : Caller)
    (hh : (st.slots s).holder=some (.task t)) (hv : st.held s=none) :
    Inv ({ st with nextConnId := st.nextConnId+1 }.setTask t
      (.dialing caller s st.nextConnId)) := by
  have old {t' : Nat} (ht : t'≠t) : ({ st with nextConnId := st.nextConnId+1 }.setTask t
      (.dialing caller s st.nextConnId)).tasks t'=st.tasks t' := by
    rw [State.setTask_tasks,Function.update_of_ne ht]
  have new : ({ st with nextConnId := st.nextConnId+1 }.setTask t
      (.dialing caller s st.nextConnId)).tasks t=.dialing caller s st.nextConnId := by
    rw [State.setTask_tasks,Function.update_self]
  refine ⟨?_,?_,?_,?_,fun h => hi.held h,fun h => Nat.lt_succ_of_lt (hi.old h)⟩
  · intro t' x i hd
    by_cases ht : t'=t
    · subst ht
      rw [new] at hd
      cases hd
      exact ⟨hh,hv,Nat.lt_succ_self _⟩
    · rw [old ht] at hd
      obtain ⟨h1,h2,h3⟩ := hi.dial hd
      exact ⟨h1,h2,Nat.lt_succ_of_lt h3⟩
  · intro t' t'' x x' i hd hd'
    by_cases ht : t'=t <;> by_cases ht' : t''=t
    · rw [ht,ht']
    · rw [ht,new] at hd
      rw [old ht'] at hd'
      cases hd
      exact absurd (hi.dial hd').2.2 (lt_irrefl _)
    · rw [ht',new] at hd'
      rw [old ht] at hd
      cases hd'
      exact absurd (hi.dial hd).2.2 (lt_irrefl _)
    · rw [old ht] at hd
      rw [old ht'] at hd'
      exact hi.one hd hd'
  · intro t' caller' x i hd
    by_cases ht : t'=t
    · rw [ht,new] at hd
      cases hd
      apply Option.eq_none_iff_forall_ne_some.mpr
      intro d hd
      exact absurd (hi.old hd) (lt_irrefl _)
    · rw [old ht] at hd
      exact hi.dialing hd
  · intro t' caller' x i hd
    by_cases ht : t'=t
    · rw [ht,new] at hd
      cases hd
    · rw [old ht] at hd
      exact hi.dialed hd

theorem Inv.dialing_setDriver {st : State K} (hi : Inv st) {c t i : Nat} {d : Driver K}
    {caller : Caller} {s : SlotId K} (hd : st.drivers c=some d)
    (ht : st.tasks t=.dialing caller s i) (d' : Driver K) : (st.setDriver c d').drivers i=none := by
  have hn := hi.dialing ht
  have hne : i≠c := by
    intro he
    rw [he,hd] at hn
    cases hn
  rwa [State.setDriver_drivers,Function.update_of_ne hne]

theorem Inv.old_setDriver {st : State K} (hi : Inv st) {c i : Nat} {d d' e : Driver K}
    (hd : st.drivers c=some d) (he : (st.setDriver c d').drivers i=some e) : i<st.nextConnId := by
  by_cases hic : i=c
  · subst hic
    exact hi.old hd
  · rw [State.setDriver_drivers,Function.update_of_ne hic] at he
    exact hi.old he

/-- A driver may change its phase as long as its locked section is still to come. -/
theorem Inv.setPhase {st : State K} (hi : Inv st) {c : Nat} {s : SlotId K} {p q : Phase}
    (hd : st.drivers c=some ⟨s,p⟩) (hq : q≠.finished) : Inv (st.setDriver c ⟨s,q⟩) := by
  have alive {i : Nat} {x : SlotId K} (ha : Alive st i x) : Alive (st.setDriver c ⟨s,q⟩) i x := by
    by_cases hi : i=c
    · subst hi
      obtain ⟨r,hr,-⟩ := ha
      rw [hd] at hr
      cases hr
      exact ⟨q,by rw [State.setDriver_drivers,Function.update_self],hq⟩
    · rwa [Alive,State.setDriver_drivers,Function.update_of_ne hi]
  exact ⟨fun h => hi.dial h,fun h => hi.one h,fun h => hi.dialing_setDriver hd h _,
    fun h => alive (hi.dialed h),fun h => alive (hi.held h),fun h => hi.old_setDriver hd h⟩

/-- `connect_h2` spawns the driver of the connection that was being dialled. -/
theorem Inv.connected {st : State K} (hi : Inv st) {t i : Nat} {caller : Caller} {s : SlotId K}
    (ht : st.tasks t=.dialing caller s i) : Inv (connected st t caller s i) := by
  have hn := hi.dialing ht
  have hdial : (st.tasks t).dial=some (s,i) := by rw [ht]; rfl
  have old {t' : Nat} (h : t'≠t) : (Pool.connected st t caller s i).tasks t'=st.tasks t' := by
    simp [Pool.connected,h]
  have new : (Pool.connected st t caller s i).tasks t=.dialed caller s i := by
    simp [Pool.connected]
  have dials {t' : Nat} : ((Pool.connected st t caller s i).tasks t').dial=(st.tasks t').dial := by
    by_cases h : t'=t
    · subst h
      rw [new,hdial]
      rfl
    · rw [old h]
  have alive {c : Nat} {x : SlotId K} (ha : Alive st c x) :
      Alive (Pool.connected st t caller s i) c x := by
    obtain ⟨p,hp,hq⟩ := ha
    have hc : c≠i := by
      intro he
      rw [he,hn] at hp
      cases hp
    exact ⟨p,by simpa [Pool.connected,hc] using hp,hq⟩
  refine ⟨?_,?_,?_,?_,fun h => alive (hi.held h),?_⟩
  · intro t' x j hd
    rw [dials] at hd
    exact hi.dial hd
  · intro t' t'' x x' j hd hd'
    rw [dials] at hd hd'
    exact hi.one hd hd'
  · intro t' caller' x j hd
    by_cases h : t'=t
    · rw [h,new] at hd
      cases hd
    · rw [old h] at hd
      have hj : j≠i := by
        intro he
        subst he
        exact h (hi.one (s := x) (by rw [hd]; rfl) hdial)
      simpa [Pool.connected,hj] using hi.dialing hd
  · intro t' caller' x j hd
    by_cases h : t'=t
    · rw [h,new] at hd
      cases hd
      exact ⟨.running,by simp [Pool.connected],by decide⟩
    · rw [old h] at hd
      exact alive (hi.dialed hd)
  · intro c d hd
    by_cases hc : c=i
    · subst hc
      exact (hi.dial hdial).2.2
    · exact hi.old (by simpa [Pool.connected,hc] using hd)

/-- A driver may finish once its connection is neither cached nor about to be. -/
theorem Inv.finishDriver {st : State K} (hi : Inv st) {c : Nat} {s : SlotId K} {p : Phase}
    (hd : st.drivers c=some ⟨s,p⟩) (hv : st.held s≠some c)
    (hs : ∀ t i, (st.tasks t).dial≠some (s,i)) : Inv (st.setDriver c ⟨s,.finished⟩) := by
  have alive {i : Nat} {x : SlotId K} (hic : i≠c) (ha : Alive st i x) :
      Alive (st.setDriver c ⟨s,.finished⟩) i x := by
    rwa [Alive,State.setDriver_drivers,Function.update_of_ne hic]
  have slot {x : SlotId K} (ha : Alive st c x) : x=s := by
    obtain ⟨r,hr,-⟩ := ha
    rw [hd] at hr
    cases hr
    rfl
  refine ⟨fun h => hi.dial h,fun h => hi.one h,fun h => hi.dialing_setDriver hd h _,?_,?_,
    fun h => hi.old_setDriver hd h⟩
  · intro t caller x i ht
    have ha := hi.dialed ht
    have hic : i≠c := by
      intro he
      subst he
      have hx := slot ha
      subst hx
      exact hs t i (by rw [show st.tasks t=_ from ht]; rfl)
    exact alive hic ha
  · intro x i hx
    have ha := hi.held hx
    have hic : i≠c := by
      intro he
      subst he
      have hxs := slot ha
      subst hxs
      exact hv hx
    exact alive hic ha

variable [DecidableEq K]

theorem Inv.lockSlot {st : State K} (hi : Inv st) (s : SlotId K) (o : Owner) :
    Inv (st.lockSlot s o) :=
  hi.shrink (shrinks_lockSlot st s o) (fun hd => holder_lockSlot st (hi.dial hd).1)

theorem Inv.clearSlot {st : State K} (hi : Inv st) (s : SlotId K) : Inv (st.clearSlot s) :=
  hi.shrink (shrinks_clearSlot st s) (fun hd => by rw [holder_clearSlot]; exact (hi.dial hd).1)

theorem Inv.evict {st : State K} (hi : Inv st) (key : K) (c : Nat) : Inv (evict st key c) :=
  hi.shrink (shrinks_evict st key c) (fun hd => by rw [holder_evict]; exact (hi.dial hd).1)

theorem Inv.scanSlot {st : State K} (hi : Inv st) (now maxIdle : Nat) (s : SlotId K) :
    Inv (scanSlot st now maxIdle s) :=
  hi.shrink (shrinks_scanSlot st now maxIdle s)
    (fun hd => by rw [holder_scanSlot]; exact (hi.dial hd).1)

theorem Inv.unlockSlot {st : State K} (hi : Inv st) {s : SlotId K}
    (hs : ∀ t i, (st.tasks t).dial≠some (s,i)) : Inv (st.unlockSlot s) := by
  apply hi.shrink (shrinks_unlockSlot st s)
  intro t x i hd
  have hx : x≠s := by
    intro he
    subst he
    exact hs t i hd
  rw [State.unlockSlot_slots,Function.update_of_ne hx]
  exact (hi.dial hd).1

/-- The task that holds a slot lets go of it and goes on outside `connect_h2`. -/
theorem Inv.release {st : State K} (hi : Inv st) {s : SlotId K} {t : Nat} {y : Task K}
    (hh : (st.slots s).holder=some (.task t)) (hy : y.dial=none) :
    Inv ((st.unlockSlot s).setTask t y) := by
  have hj : Inv ((st.setTask t y).unlockSlot s) := by
    apply (hi.setTask t hy).unlockSlot
    intro t' i hd
    have ht := (hi.setTask t hy).holder_dials hh hd
    cases ht
    rw [State.setTask_tasks,Function.update_self,hy] at hd
    cases hd
  exact hj

/-- A slot on which nobody dials takes a connection whose close handler is still to come. -/
theorem Inv.putConn {st : State K} (hi : Inv st) {s : SlotId K} {conn : PooledConn}
    (hs : ∀ t i, (st.tasks t).dial≠some (s,i)) (ha : Alive st conn.id s) :
    Inv (st.putConn s conn) where
  dial := by
    intro t x i hd
    have hx : x≠s := by
      intro he
      subst he
      exact hs t i hd
    rw [held_putConn,if_neg hx,State.putConn_slots,Function.update_of_ne hx]
    exact hi.dial hd
  one := hi.one
  dialing := hi.dialing
  dialed := hi.dialed
  held := by
    intro x c hc
    rw [held_putConn] at hc
    split_ifs at hc with hx
    · cases hc
      subst hx
      exact ha
    · exact hi.held hc
  old := hi.old

/-- The end of `get_or_create`, with a connection that was in the slot or is put there. -/
theorem Inv.finish {st : State K} (hi : Inv st) {s : SlotId K} {t : Nat} (caller : Caller)
    {conn : PooledConn} (hh : (st.slots s).holder=some (.task t)) (ha : Alive st conn.id s) :
    Inv (finish (st.putConn s conn) t caller s conn.id) := by
  have hy : (resume s.key conn.id caller).dial=none :=
    Task.dial_none (Task.getting_resume s.key conn.id caller)
  have hj := hi.setTask t hy
  have hs : ∀ t' i, ((st.setTask t (resume s.key conn.id caller)).tasks t').dial≠some (s,i) := by
    intro t' i hd
    have ht := hj.holder_dials hh hd
    cases ht
    rw [State.setTask_tasks,Function.update_self,hy] at hd
    cases hd
  have hp : Inv ((st.setTask t (resume s.key conn.id caller)).putConn s conn) := hj.putConn hs ha
  have hu : Inv (((st.setTask t (resume s.key conn.id caller)).putConn s conn).unlockSlot s) :=
    hp.unlockSlot hs
  exact hu.note (.returned t s conn.id)

theorem Inv.closeHandler {st : State K} (hi : Inv st) {c : Nat} {s : SlotId K}
    (hd : st.drivers c=some ⟨s,.locking⟩) (hh : (st.slots s).holder=some (.driver c)) :
    Inv (closeHandler st c s) := by
  have hs : ∀ t i, (st.tasks t).dial≠some (s,i) := by
    intro t i ht
    cases hi.holder_dials hh ht
  simp only [Pool.closeHandler]
  split_ifs with hv
  · have hx := shrinks_clearSlot st s
    have hs' : ∀ t i, ((st.clearSlot s).tasks t).dial≠some (s,i) := by rwa [hx.tasks]
    apply ((hi.clearSlot s).unlockSlot hs').finishDriver (p := .locking)
    · change (st.clearSlot s).drivers c=_
      rw [hx.drivers,hd]
    · rw [held_unlockSlot,held_clearSlot,if_pos rfl]
      simp
    · exact hs'
  · exact (hi.unlockSlot hs).finishDriver (p := .locking) hd (by rwa [held_unlockSlot]) hs

theorem Inv.lockedGet {st : State K} (hi : Inv st) {t : Nat} {s : SlotId K} (caller : Caller)
    (hh : (st.slots s).holder=some (.task t)) : Inv (lockedGet st t caller s) := by
  simp only [Pool.lockedGet]
  split
  · rename_i conn hv
    have ha : Alive st conn.id s := hi.held (by rw [State.held,hv]; rfl)
    have hc : Alive st (PooledConn.mk conn.id st.now).id s := ha
    exact hi.finish caller hh hc
  · rename_i hv
    exact hi.startDial caller hh (by rw [State.held,hv]; rfl)

theorem Inv.locked {st : State K} (hi : Inv st) {t : Nat} {s : SlotId K} (job : Job K)
    (hh : (st.slots s).holder=some (.task t)) : Inv (locked st t s job) := by
  cases job with
  | get caller => exact hi.lockedGet caller hh
  | clear stale => exact (hi.clearSlot s).release (by rwa [holder_clearSlot]) rfl
  | scan now maxIdle slots =>
    exact (hi.scanSlot now maxIdle s).release (by rwa [holder_scanSlot]) rfl
  | count slots rest => exact hi.release hh rfl

theorem Inv.slotFor {st : State K} (hi : Inv st) (key : K) : Inv (slotFor st key).1 := by
  simp only [Pool.slotFor]
  split
  · exact hi
  · exact ⟨hi.dial,hi.one,hi.dialing,hi.dialed,hi.held,hi.old⟩

theorem Inv.pruneNext {st : State K} (hi : Inv st) (t : Nat) (s : SlotId K)
    (stale : List (SlotId K)) : Inv (pruneNext st t s stale) := by
  simp only [Pool.pruneNext]
  split
  · exact hi.setTask t rfl
  · have hj : Inv { st with conns := st.conns.erase s.key } :=
      ⟨hi.dial,hi.one,hi.dialing,hi.dialed,hi.held,hi.old⟩
    exact hj.setTask t rfl

theorem Inv.step {st st' : State K} {a : Action K} (hi : Inv st) (h : step st a=some st') :
    Inv st' := by
  cases step_steps h with
  | connect key ht => exact (hi.slotFor key).setTask _ rfl
  | reconnect ht => exact (hi.slotFor _).setTask _ rfl
  | lock ht => exact (hi.lockSlot _ _).setTask _ rfl
  | work ht hh => exact hi.locked _ hh
  | connected ht => exact hi.connected ht
  | refused ht => exact hi.release (hi.dial (by rw [ht]; rfl)).1 rfl
  | store ht => exact hi.finish _ (hi.dial (by rw [ht]; rfl)).1 (hi.dialed ht)
  | move hm => exact hi.setTask _ hm.dial
  | evictDead ht => exact (hi.evict _ _).setTask _ rfl
  | evictTunnel ht hf => exact hi.evict _ _
  | prune debug ht => exact hi.pruneNext _ _ _
  | environment failed timeout now => exact ⟨hi.dial,hi.one,hi.dialing,hi.dialed,hi.held,hi.old⟩
  | close failed hd =>
    have hj : Inv { st with failed := failed } :=
      ⟨hi.dial,hi.one,hi.dialing,hi.dialed,hi.held,hi.old⟩
    exact hj.setPhase hd (by decide)
  | driverLock hd => exact (hi.lockSlot _ _).setPhase hd (by decide)
  | driverWork hd hh => exact hi.closeHandler hd hh

end Tobira.Pool
