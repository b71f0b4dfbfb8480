import Tobira.Framework.Halt
import Tobira.Framework.Lines
import Tobira.Pool.Hops
import Tobira.Pool.Invariant

namespace Tobira.Pool

open Tobira.Framework

variable {K : Type}

/-- The slot a task has asked to lock and not let go of. -/
def Task.stands : Task K → Option (SlotId K)
  | .locking s _ | .dialing _ s _ | .dialed _ s _ => some s
  | _ => none

/-- The steps a task takes under the guard: its locked section, and for a dial the handshake
and the store. -/
def Task.stepsLeft : Task K → Nat
  | .locking _ _ => 3
  | .dialing _ _ _ => 2
  | .dialed _ _ _ => 1
  | _ => 0

def Driver.stands : Driver K → Option (SlotId K)
  | ⟨s,.locking⟩ => some s
  | _ => none

def Driver.stepsLeft : Driver K → Nat
  | ⟨_,.locking⟩ => 3
  | _ => 0

def Owner.stands (st : State K) : Owner → Option (SlotId K)
  | .task t => (st.tasks t).stands
  | .driver c => (st.drivers c).bind Driver.stands

def Owner.stepsLeft (st : State K) : Owner → Nat
  | .task t => (st.tasks t).stepsLeft
  | .driver c => ((st.drivers c).map Driver.stepsLeft).getD 0

/-- The lines at the locks of the slots. -/
def lines (st : State K) : Queues (SlotId K) Owner where
  line := fun s => (st.slots s).parties
  place := Owner.stands st
  left := Owner.stepsLeft st

/-- Nobody waits for a slot that is free. -/
def Tidy (st : State K) : Prop := ∀ s, (st.slots s).Proper

/-- No lock is asked for or held outside the guards. -/
theorem Hop.away {now : Nat} {x y : Task K} (h : Hop now x y) :
    (x.stands=none ∧ x.stepsLeft=0) ∧ y.stands=none ∧ y.stepsLeft=0 := by
  cases h <;> exact ⟨⟨rfl,rfl⟩,rfl,rfl⟩

theorem Task.stands_resume (key : K) (c : Nat) (caller : Caller) :
    (resume key c caller).stands=none ∧ (resume key c caller).stepsLeft=0 := by
  cases caller <;> exact ⟨rfl,rfl⟩

theorem lines_setTask (st : State K) (t : Nat) (y : Task K) :
    lines (st.setTask t y)=
      { lines st with
        place := Function.update (lines st).place (.task t) y.stands
        left := Function.update (lines st).left (.task t) y.stepsLeft } := by
  ext o
  · rfl
  · cases o with
    | task u =>
      by_cases hu : u=t
      · subst hu
        simp [lines,Owner.stands]
      · simp [lines,Owner.stands,hu]
    | driver c => simp [lines,Owner.stands]
  · cases o with
    | task u =>
      by_cases hu : u=t
      · subst hu
        simp [lines,Owner.stepsLeft]
      · simp [lines,Owner.stepsLeft,hu]
    | driver c => simp [lines,Owner.stepsLeft]

theorem lines_setDriver (st : State K) (c : Nat) (d : Driver K) :
    lines (st.setDriver c d)=
      { lines st with
        place := Function.update (lines st).place (.driver c) d.stands
        left := Function.update (lines st).left (.driver c) d.stepsLeft } := by
  ext o
  · rfl
  · cases o with
    | task u => simp [lines,Owner.stands]
    | driver e =>
      by_cases he : e=c
      · subst he
        simp [lines,Owner.stands]
      · simp [lines,Owner.stands,he]
  · cases o with
    | task u => simp [lines,Owner.stepsLeft]
    | driver e =>
      by_cases he : e=c
      · subst he
        simp [lines,Owner.stepsLeft]
      · simp [lines,Owner.stepsLeft,he]

/-- A task away from the locks that stays away. -/
theorem lines_setTask_away {st : State K} {t : Nat} {y : Task K}
    (hx : (st.tasks t).stands=none ∧ (st.tasks t).stepsLeft=0) (hy : y.stands=none ∧ y.stepsLeft=0) :
    lines (st.setTask t y)=lines st := by
  have hp : (lines st).place (.task t)=y.stands := hx.1.trans hy.1.symm
  have hl : (lines st).left (.task t)=y.stepsLeft := hx.2.trans hy.2.symm
  rw [lines_setTask,← hp,← hl,Function.update_eq_self,Function.update_eq_self]

variable [DecidableEq K]

/-- Nobody moves at the locks: only values and fields beside them may differ. -/
structure Still (st st' : State K) : Prop where
  holder : ∀ s, (st'.slots s).holder=(st.slots s).holder
  queue : ∀ s, (st'.slots s).queue=(st.slots s).queue
  tasks : st'.tasks=st.tasks
  drivers : st'.drivers=st.drivers

omit [DecidableEq K] in
theorem Still.refl (st : State K) : Still st st := ⟨fun _ => rfl,fun _ => rfl,rfl,rfl⟩

omit [DecidableEq K] in
theorem Still.lines {st st' : State K} (h : Still st st') : lines st'=lines st := by
  refine Queues.ext (funext ?_) (funext ?_) (funext ?_)
  · intro s
    simp only [Pool.lines,Mutex.parties,h.holder,h.queue]
  · intro o
    cases o <;> simp only [Pool.lines,Owner.stands,h.tasks,h.drivers]
  · intro o
    cases o <;> simp only [Pool.lines,Owner.stepsLeft,h.tasks,h.drivers]

omit [DecidableEq K] in
theorem Still.tidy {st st' : State K} (h : Still st st') (ht : Tidy st) : Tidy st' := by
  intro s hs
  rw [h.queue]
  rw [h.holder] at hs
  exact ht s hs

theorem still_setSlot (st : State K) (s : SlotId K) {m : Slot}
    (hh : m.holder=(st.slots s).holder) (hq : m.queue=(st.slots s).queue) :
    Still st (st.setSlot s m) := by
  refine ⟨fun x => holder_setSlot_same st s x hh,?_,rfl,rfl⟩
  intro x
  by_cases hx : x=s
  · subst hx
    simp [hq]
  · simp [hx]

theorem still_clearSlot (st : State K) (s : SlotId K) : Still st (st.clearSlot s) := by
  simp only [State.clearSlot]
  split
  · exact Still.refl st
  · have h := still_setSlot st s (m := (st.slots s).set none) rfl rfl
    exact ⟨h.holder,h.queue,rfl,rfl⟩

theorem still_evict (st : State K) (key : K) (c : Nat) : Still st (evict st key c) := by
  simp only [evict]
  split
  · exact Still.refl st
  · split_ifs
    · have h := still_clearSlot (st.note (.evict c ⟨key,‹_›⟩ (st.held ⟨key,‹_›⟩))) ⟨key,‹_›⟩
      exact ⟨h.holder,h.queue,h.tasks,h.drivers⟩
    · exact Still.refl st

theorem still_scanSlot (st : State K) (now maxIdle : Nat) (s : SlotId K) :
    Still st (scanSlot st now maxIdle s) := by
  simp only [scanSlot]
  split
  · split_ifs
    · exact still_clearSlot st s
    · exact Still.refl st
  · exact Still.refl st

theorem still_slotFor (st : State K) (key : K) : Still st (slotFor st key).1 := by
  simp only [slotFor]
  split <;> exact ⟨fun _ => rfl,fun _ => rfl,rfl,rfl⟩

/-- A step after which everyone stands where it stood. -/
theorem step_away {st base : State K} {t : Nat} {y : Task K} (ht : Tidy st) (hb : Still st base)
    (hx : (st.tasks t).stands=none ∧ (st.tasks t).stepsLeft=0)
    (hy : y.stands=none ∧ y.stepsLeft=0) :
    Queues.Step 3 (lines st) none (lines (base.setTask t y)) ∧ Tidy (base.setTask t y) := by
  refine ⟨?_,hb.tidy ht⟩
  rw [lines_setTask_away (by rwa [hb.tasks]) hy,hb.lines]
  exact .quiet

theorem tidy_lockSlot {st : State K} (h : Tidy st) (s : SlotId K) (o : Owner) :
    Tidy (st.lockSlot s o) := by
  intro x
  rw [State.lockSlot_slots]
  by_cases hx : x=s
  · subst hx
    rw [Function.update_self]
    exact ((h x).lock o).1
  · rw [Function.update_of_ne hx]
    exact h x

theorem lines_lockSlot {st : State K} (h : Tidy st) (s : SlotId K) (o : Owner) :
    lines (st.lockSlot s o)=
      { lines st with line := Function.update (lines st).line s ((lines st).line s++[o]) } := by
  refine Queues.ext (funext ?_) rfl rfl
  intro x
  simp only [lines,State.lockSlot_slots]
  by_cases hx : x=s
  · subst hx
    rw [Function.update_self,Function.update_self]
    exact ((h x).lock o).2
  · rw [Function.update_of_ne hx,Function.update_of_ne hx]

theorem tidy_unlockSlot {st : State K} (h : Tidy st) (s : SlotId K) : Tidy (st.unlockSlot s) := by
  intro x
  rw [State.unlockSlot_slots]
  by_cases hx : x=s
  · subst hx
    rw [Function.update_self]
    exact Mutex.unlock_proper _
  · rw [Function.update_of_ne hx]
    exact h x

theorem lines_unlockSlot {st : State K} {s : SlotId K} {o : Owner}
    (h : (st.slots s).holder=some o) :
    lines (st.unlockSlot s)=
      { lines st with line := Function.update (lines st).line s ((lines st).line s).tail } := by
  refine Queues.ext (funext ?_) rfl rfl
  intro x
  simp only [lines,State.unlockSlot_slots]
  by_cases hx : x=s
  · subst hx
    rw [Function.update_self,Function.update_self]
    exact Mutex.unlock_parties h
  · rw [Function.update_of_ne hx,Function.update_of_ne hx]

/-- The holder of a slot lets go of it. -/
theorem step_release {st base : State K} {s : SlotId K} {t : Nat} {y : Task K} (ht : Tidy st)
    (hb : Still st base) (hh : (st.slots s).holder=some (.task t))
    (hy : y.stands=none ∧ y.stepsLeft=0) :
    Queues.Step 3 (lines st) (some (.task t)) (lines ((base.unlockSlot s).setTask t y)) ∧
      Tidy ((base.unlockSlot s).setTask t y) := by
  refine ⟨?_,tidy_unlockSlot (hb.tidy ht) s⟩
  rw [lines_setTask,lines_unlockSlot (by rwa [hb.holder]),hb.lines,hy.1]
  exact .release (Mutex.parties_head hh)

theorem step_lockedGet {st : State K} {t : Nat} {s : SlotId K} (caller : Caller) {job : Job K}
    (ht : Tidy st) (hx : st.tasks t=.locking s job) (hh : (st.slots s).holder=some (.task t)) :
    Queues.Step 3 (lines st) (some (.task t)) (lines (lockedGet st t caller s)) ∧
      Tidy (lockedGet st t caller s) := by
  simp only [lockedGet]
  split
  · rename_i conn hv
    have hb := still_setSlot st s (m := (st.slots s).set (some { conn with lastUsed := st.now })) rfl rfl
    exact step_release ht hb hh (Task.stands_resume _ _ _)
  · refine ⟨?_,ht⟩
    have hplace : (lines st).place (.task t)=some s := by
      simp only [lines,Owner.stands,hx,Task.stands]
    have hleft : (lines st).left (.task t)=3 := by
      simp only [lines,Owner.stepsLeft,hx,Task.stepsLeft]
    have he : lines ({ st with nextConnId := st.nextConnId+1 }.setTask t
        (.dialing caller s st.nextConnId))=(lines st).advance (.task t) 2 := by
      rw [lines_setTask]
      refine Queues.ext rfl ?_ rfl
      exact Function.update_eq_self_iff.mpr hplace.symm
    rw [he]
    exact .advance (Mutex.parties_head hh) (by rw [hleft]; omega) (by omega)

theorem step_locked {st : State K} {t : Nat} {s : SlotId K} (job : Job K)
    (ht : Tidy st) (hx : st.tasks t=.locking s job) (hh : (st.slots s).holder=some (.task t)) :
    Queues.Step 3 (lines st) (some (.task t)) (lines (locked st t s job)) ∧
      Tidy (locked st t s job) := by
  cases job with
  | get caller => exact step_lockedGet caller ht hx hh
  | clear stale => exact step_release ht (still_clearSlot st s) hh ⟨rfl,rfl⟩
  | scan now maxIdle slots => exact step_release ht (still_scanSlot st now maxIdle s) hh ⟨rfl,rfl⟩
  | count slots rest => exact step_release ht (Still.refl st) hh ⟨rfl,rfl⟩

theorem step_connected {st : State K} {t id : Nat} {caller : Caller} {s : SlotId K} (hi : Inv st)
    (ht : Tidy st) (hx : st.tasks t=.dialing caller s id) :
    Queues.Step 3 (lines st) (some (.task t)) (lines (connected st t caller s id)) ∧
      Tidy (connected st t caller s id) := by
  have hh := (hi.dial (by rw [hx]; rfl)).1
  refine ⟨?_,ht⟩
  have hplace : (lines st).place (.task t)=some s := by
    simp only [lines,Owner.stands,hx,Task.stands]
  have hleft : (lines st).left (.task t)=2 := by
    simp only [lines,Owner.stepsLeft,hx,Task.stepsLeft]
  have hd : lines (st.setDriver id ⟨s,.running⟩)=lines st := by
    have hn := hi.dialing hx
    have hp : (lines st).place (.driver id)=none := by simp only [lines,Owner.stands,hn]; rfl
    have hl : (lines st).left (.driver id)=0 := by simp only [lines,Owner.stepsLeft,hn]; rfl
    rw [lines_setDriver]
    refine Queues.ext rfl ?_ ?_
    · exact Function.update_eq_self_iff.mpr hp.symm
    · exact Function.update_eq_self_iff.mpr hl.symm
  have he : lines (connected st t caller s id)=(lines st).advance (.task t) 1 := by
    rw [connected,lines_setTask,show lines ((st.setDriver id ⟨s,.running⟩).note _)=_ from hd]
    refine Queues.ext rfl ?_ rfl
    exact Function.update_eq_self_iff.mpr hplace.symm
  rw [he]
  exact .advance (Mutex.parties_head hh) (by rw [hleft]; omega) (by omega)

theorem step_ask {st : State K} {t : Nat} {s : SlotId K} {job : Job K} (ht : Tidy st)
    (hx : st.tasks t=.enter s job) :
    Queues.Step 3 (lines st) none (lines ((st.lockSlot s (.task t)).setTask t (.locking s job))) ∧
      Tidy ((st.lockSlot s (.task t)).setTask t (.locking s job)) := by
  refine ⟨?_,tidy_lockSlot ht s _⟩
  rw [lines_setTask,lines_lockSlot ht]
  exact .ask (by simp only [lines,Owner.stands,hx,Task.stands]) ⟨Nat.succ_pos 2,Nat.le_refl 3⟩

/-- The drivers meet a lock as the tasks do. -/
theorem step_driverAsk {st : State K} {c : Nat} {s : SlotId K} (ht : Tidy st)
    (hd : st.drivers c=some ⟨s,.closing⟩) :
    Queues.Step 3 (lines st) none (lines ((st.lockSlot s (.driver c)).setDriver c ⟨s,.locking⟩)) ∧
      Tidy ((st.lockSlot s (.driver c)).setDriver c ⟨s,.locking⟩) := by
  refine ⟨?_,tidy_lockSlot ht s _⟩
  rw [lines_setDriver,lines_lockSlot ht]
  refine .ask ?_ ⟨Nat.succ_pos 2,Nat.le_refl 3⟩
  simp only [lines,Owner.stands,hd]
  rfl

theorem step_closeHandler {st : State K} {c : Nat} {s : SlotId K} (ht : Tidy st)
    (hh : (st.slots s).holder=some (.driver c)) :
    Queues.Step 3 (lines st) (some (.driver c)) (lines (closeHandler st c s)) ∧
      Tidy (closeHandler st c s) := by
  have hb : Still st (if st.held s=some c then st.clearSlot s else st) := by
    split_ifs
    · exact still_clearSlot st s
    · exact Still.refl st
  refine ⟨?_,tidy_unlockSlot (hb.tidy ht) s⟩
  rw [closeHandler,lines_setDriver,lines_unlockSlot (by rwa [hb.holder]),hb.lines]
  exact .release (Mutex.parties_head hh)

/-- A running driver goes on to its close handler. -/
theorem step_close {st : State K} {c : Nat} {s : SlotId K} (failed : Nat → Bool) (ht : Tidy st)
    (hd : st.drivers c=some ⟨s,.running⟩) :
    Queues.Step 3 (lines st) none (lines ({ st with failed := failed }.setDriver c ⟨s,.closing⟩)) ∧
      Tidy ({ st with failed := failed }.setDriver c ⟨s,.closing⟩) := by
  have hp : (lines st).place (.driver c)=none := by
    simp only [lines,Owner.stands,hd]
    rfl
  have hl : (lines st).left (.driver c)=0 := by
    simp only [lines,Owner.stepsLeft,hd]
    rfl
  have he : lines ({ st with failed := failed }.setDriver c ⟨s,.closing⟩)=lines st := by
    rw [lines_setDriver]
    refine Queues.ext rfl ?_ ?_
    · exact Function.update_eq_self_iff.mpr hp.symm
    · exact Function.update_eq_self_iff.mpr hl.symm
  rw [he]
  exact ⟨.quiet,ht⟩

theorem step_pruneNext {st : State K} {t : Nat} {s : SlotId K} {stale : List (SlotId K)}
    (ht : Tidy st) (hx : st.tasks t=.loop (.prune (s::stale))) :
    Queues.Step 3 (lines st) none (lines (pruneNext st t s stale)) ∧
      Tidy (pruneNext st t s stale) := by
  have away : (st.tasks t).stands=none ∧ (st.tasks t).stepsLeft=0 := by
    rw [hx]
    exact ⟨rfl,rfl⟩
  simp only [pruneNext]
  split
  · exact step_away ht (Still.refl st) away ⟨rfl,rfl⟩
  · exact step_away ht ⟨fun _ => rfl,fun _ => rfl,rfl,rfl⟩ away ⟨rfl,rfl⟩

/-- What an action does to the lines. -/
theorem step_lines {st st' : State K} {a : Action K} (hi : Inv st) (ht : Tidy st)
    (h : step st a=some st') : Queues.Step 3 (lines st) a.mover (lines st') ∧ Tidy st' := by
  cases step_does h with
  | connect key hx =>
    exact step_away ht (still_slotFor st key) (by rw [hx]; exact ⟨rfl,rfl⟩) ⟨rfl,rfl⟩
  | reconnect hx =>
    exact step_away ht (still_slotFor st _) (by rw [hx]; exact ⟨rfl,rfl⟩) ⟨rfl,rfl⟩
  | lock hx => exact step_ask ht hx
  | work hx hh => exact step_locked _ ht hx hh
  | connected hx => exact step_connected hi ht hx
  | refused hx =>
    exact step_release ht (Still.refl st) (hi.dial (by rw [hx]; rfl)).1 ⟨rfl,rfl⟩
  | @store t id caller s hx =>
    have hb := still_setSlot st s (m := (st.slots s).set (some ⟨id,st.now⟩)) rfl rfl
    exact step_release ht hb (hi.dial (by rw [hx]; rfl)).1 (Task.stands_resume _ _ _)
  | hop hx ha =>
    rw [ha]
    exact step_away ht (Still.refl st) hx.away.1 hx.away.2
  | evictDead hx =>
    exact step_away ht (still_evict st _ _) (by rw [hx]; exact ⟨rfl,rfl⟩) ⟨rfl,rfl⟩
  | evictTunnel hx hf =>
    refine ⟨?_,(still_evict st _ _).tidy ht⟩
    rw [(still_evict st _ _).lines]
    exact .quiet
  | prune debug hx => exact step_pruneNext ht hx
  | noTimeout _ => exact ⟨.quiet,ht⟩
  | fail => exact ⟨.quiet,ht⟩
  | close hd => exact step_close _ ht hd
  | driverLock hd => exact step_driverAsk ht hd
  | driverWork hd hh => exact step_closeHandler ht hh
  | setIdleTimeout timeout => exact ⟨.quiet,ht⟩
  | tick => exact ⟨.quiet,ht⟩

/-- The locks of the pool and those at them agree. -/
structure Queued (st : State K) : Prop where
  inv : Inv st
  tidy : Tidy st
  lined : Queues.Lined 3 (lines st)

omit [DecidableEq K] in
theorem queued_new (timeout : Option Nat) : Queued (State.new timeout : State K) where
  inv := inv_new timeout
  tidy := fun _ => Mutex.proper_new none
  lined := by
    refine ⟨fun _ => List.nodup_nil,?_,?_⟩
    · intro s o
      cases o <;> simp [lines,Owner.stands,State.new,Mutex.new,Mutex.parties,Task.stands]
    · intro o ho
      cases o <;> exact absurd rfl ho

theorem Queued.step {st st' : State K} {a : Action K} (hq : Queued st) (h : step st a=some st') :
    Queued st' := by
  obtain ⟨hs,ht⟩ := step_lines hq.inv hq.tidy h
  exact ⟨hq.inv.step h,ht,hq.lined.step hs⟩

theorem Reachable.queued {st : State K} (h : Reachable st) : Queued st := by
  obtain ⟨timeout,as,hr⟩ := h
  exact run_invariant (fun _ _ _ hq hs => hq.step hs) (queued_new timeout) hr

/-- Whoever holds a slot can go on: no party waits for a lock while it holds one. -/
theorem Queued.enabled {st : State K} (hq : Queued st) {s : SlotId K} {o : Owner}
    (hh : (st.slots s).holder=some o) : ∃ a st', a.mover=some o ∧ Pool.step st a=some st' := by
  have hplace : Owner.stands st o=some s := hq.lined.head (Mutex.parties_head hh)
  cases o with
  | task t =>
    cases hx : st.tasks t with
    | locking x job =>
      simp only [Owner.stands,hx,Task.stands] at hplace
      cases hplace
      exact ⟨.work t,_,rfl,by rw [Pool.step,hx]; exact if_pos hh⟩
    | dialing caller x id => exact ⟨.handshake t true,_,rfl,by rw [Pool.step,hx]⟩
    | dialed caller x id => exact ⟨.store t,_,rfl,by rw [Pool.step,hx]⟩
    | _ =>
      simp only [Owner.stands,hx,Task.stands] at hplace
      cases hplace
  | driver c =>
    obtain ⟨⟨x,phase⟩,hd,hs⟩ := Option.bind_eq_some_iff.mp hplace
    cases phase with
    | locking =>
      cases hs
      exact ⟨.driverWork c,_,rfl,by rw [Pool.step,hd]; exact if_pos hh⟩
    | _ => cases hs

theorem Queued.turn {st st' : State K} {a : Action K} (hq : Queued st) {s : SlotId K} {o : Owner}
    (ho : o∈(st.slots s).queue) (h : Pool.step st a=some st') :
    Queues.rank (lines st') o s+(decide (a.mover=(st.slots s).holder)).toNat ≤
      Queues.rank (lines st) o s := by
  have htail : o∈(st.slots s).parties.tail := by rwa [Mutex.parties_tail (hq.tidy s)]
  obtain ⟨hle,hlt⟩ := hq.lined.rank_step (step_lines hq.inv hq.tidy h).1 htail
  by_cases hm : a.mover=(st.slots s).holder
  · have hhead : a.mover=(st.slots s).parties.head? := by
      cases hh : (st.slots s).holder with
      | none =>
        rw [hq.tidy s hh] at ho
        cases ho
      | some x => rw [hm,hh,Mutex.parties_head hh]
    rw [decide_eq_true hm,Bool.toNat_true]
    exact hlt hhead
  · rw [decide_eq_false hm,Bool.toNat_false]
    exact hle

/-- The locks of the pool are fair and free of deadlock: whoever holds one can go on, everyone
who asked for one and has not let go is in its line, once, and each party in front of a waiting
one lets go within three steps of its own, whatever the others do. -/
theorem pool_locks_are_fair {st : State K} (h : Reachable st) (s : SlotId K) :
    (st.slots s).parties.Nodup ∧
    (∀ o, o∈(st.slots s).parties ↔ Owner.stands st o=some s) ∧
    (∀ o, (st.slots s).holder=some o → ∃ a st', a.mover=some o ∧ step st a=some st') ∧
    (∀ o∈(st.slots s).queue, (st.slots s).holder≠none ∧
      ∀ as st', Within step (fun x _ => o∈(x.slots s).queue) st as → run step st as=some st' →
        turns step (fun x a => decide (a.mover=(x.slots s).holder)) st as ≤
          3*((st.slots s).queue.idxOf o+1)) := by
  have hq := h.queued
  refine ⟨hq.lined.nodup s,hq.lined.mem s,fun o hh => hq.enabled hh,?_⟩
  intro o ho
  cases hh : (st.slots s).holder with
  | none =>
    rw [hq.tidy s hh] at ho
    cases ho
  | some x =>
    refine ⟨by simp,?_⟩
    intro as st' hw hr
    have hturns := turns_le (I := Queued) (w := fun y => Queues.rank (lines y) o s)
      (fun _ _ _ hi hs => hi.step hs) (fun _ _ _ hi hg hs => hi.turn hg hs) hq hw hr
    have hline : (lines st).line s=x::(st.slots s).queue := by
      simp [lines,Mutex.parties,hh]
    have hox : x≠o := by
      rintro rfl
      have hnd := hq.lined.nodup s
      rw [hline,List.nodup_cons] at hnd
      exact hnd.1 ho
    have hrank := hq.lined.rank_le o s
    rw [hline,List.idxOf_cons_ne _ hox] at hrank
    exact hturns.trans hrank

/-- A call that waits behind a dial and one that waits behind it. -/
theorem pool_locks_are_fair_short : ∃ st : State Nat, Reachable st ∧
    (st.slots ⟨0,0⟩).holder=some (.task 0) ∧ (st.slots ⟨0,0⟩).queue=[.task 1,.task 2] ∧
    ∀ as st', Within step (fun x _ => Owner.task 2∈(x.slots ⟨0,0⟩).queue) st as →
      run step st as=some st' →
      turns step (fun x a => decide (a.mover=(x.slots ⟨0,0⟩).holder)) st as ≤ 6 := by
  have hr : Reachable (K := Nat) _ := ⟨none,[.connect 0 0,.connect 1 0,.connect 2 0,.lock 0,
    .lock 1,.lock 2,.work 0],rfl⟩
  refine ⟨_,hr,by decide,by decide,?_⟩
  exact ((pool_locks_are_fair hr ⟨0,0⟩).2.2.2 (.task 2) (by decide)).2

end Tobira.Pool
