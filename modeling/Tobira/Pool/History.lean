import Tobira.Pool.Invariant

namespace Tobira.Pool

open Tobira.Framework

variable {K : Type}

/-- The slot and the id of a connection whose driver runs but that is not stored yet. -/
def Task.up : Task K → Option (SlotId K×Nat)
  | .dialed _ s id => some (s,id)
  | _ => none

theorem Task.up_dial {x : Task K} {p : SlotId K×Nat} (h : x.up=some p) : x.dial=some p := by
  simp only [up] at h
  split at h <;> cases h
  rfl

theorem Task.up_none {x : Task K} (h : x.getting=none) : x.up=none := by
  cases hu : x.up with
  | none => rfl
  | some p => rw [dial_getting (up_dial hu)] at h; cases h

theorem Moves.up {x y : Task K} (h : Moves x y) : x.up=none ∧ y.up=none := by
  cases h with
  | failed key c => exact ⟨rfl,rfl⟩
  | plain hg hc hy => exact ⟨Task.up_none hg,Task.up_none (Task.getting_plain hy)⟩

/-- The connection is cached in the slot or about to be. -/
def Established (st : State K) (s : SlotId K) (c : Nat) : Prop :=
  st.held s=some c ∨ ∃ t, (st.tasks t).up=some (s,c)

theorem Established.unique {st : State K} (hi : Inv st) {s : SlotId K} {c c' : Nat}
    (h : Established st s c) (h' : Established st s c') : c=c' := by
  rcases h with h|⟨t,h⟩
  · rcases h' with h'|⟨t',h'⟩
    · exact Option.some.inj (h.symm.trans h')
    · rw [(hi.dial (Task.up_dial h')).2.1] at h
      cases h
  · have hd := hi.dial (Task.up_dial h)
    rcases h' with h'|⟨t',h'⟩
    · rw [hd.2.1] at h'
      cases h'
    · cases hi.holder_dials hd.1 (Task.up_dial h')
      cases h.symm.trans h'
      rfl

theorem established_of_free {st : State K} {s : SlotId K} {c : Nat}
    (hs : ∀ t i, (st.tasks t).dial≠some (s,i)) : Established st s c ↔ st.held s=some c := by
  constructor
  · intro h
    rcases h with h|⟨t,h⟩
    · exact h
    · exact absurd (Task.up_dial h) (hs t c)
  · exact Or.inl

theorem established_setTask {st : State K} {t : Nat} {y : Task K} (hx : (st.tasks t).up=none)
    (hy : y.up=none) (s : SlotId K) (c : Nat) :
    Established (st.setTask t y) s c ↔ Established st s c := by
  have hu : ∀ t', ((st.setTask t y).tasks t').up=(st.tasks t').up := by
    intro t'
    by_cases h : t'=t
    · subst h
      rw [State.setTask_tasks,Function.update_self,hx,hy]
    · rw [State.setTask_tasks,Function.update_of_ne h]
  simp only [Established,hu,held_setTask]

variable [DecidableEq K]

def track (s : SlotId K) (cur : Option Nat) : Event K → Option Nat
  | .handshake x c => if x=s then some c else cur
  | .cleared x _ => if x=s then none else cur
  | _ => cur

/-- The last connection established on the slot, unless the slot has been cleared since. -/
def current (s : SlotId K) (log : List (Event K)) : Option Nat := log.foldl (track s) none

@[simp] theorem current_concat (s : SlotId K) (log : List (Event K)) (e : Event K) :
    current s (log++[e])=track s (current s log) e := by
  simp [current]

/-- What the slot's history must be at each event. -/
def Justified (past : List (Event K)) : Event K → Prop
  | .handshake s _ => current s past=none
  | .returned _ s c => current s past=some c
  | .cleared s c => current s past=some c
  | .evict _ s removed => current s past=removed

/-- Without a clear in between, the connection of a slot stays what it is. -/
theorem current_keeps {log past mid later : List (Event K)} (h : Along Justified log)
    (hl : log=past++(mid++later)) {s : SlotId K} {c : Nat} (hc : current s past=some c)
    (hm : ∀ d, .cleared s d∉mid) : current s (past++mid)=some c := by
  induction mid generalizing past with
  | nil => rwa [List.append_nil]
  | cons e mid ih =>
    have he : Justified past e := h past e (mid++later) hl
    have hk : current s (past++[e])=some c := by
      rw [current_concat]
      cases e with
      | handshake x d =>
        have hx : x≠s := by
          intro hx
          subst hx
          rw [Justified,hc] at he
          cases he
        rw [track,if_neg hx,hc]
      | returned t x d => exact hc
      | cleared x d =>
        have hx : x≠s := by
          intro hx
          subst hx
          exact hm d (by simp)
        rw [track,if_neg hx,hc]
      | evict d x r => exact hc
    have hr := ih (by rw [hl]; simp) hk (fun d hd => hm d (List.mem_cons_of_mem _ hd))
    rwa [List.append_assoc] at hr

/-- The log tells which connection each slot has. -/
structure Logged (st : State K) : Prop where
  current : ∀ s c, current s st.log=some c ↔ Established st s c
  justified : Along Justified st.log

theorem Logged.vacant {st : State K} (h : Logged st) {s : SlotId K}
    (hs : ∀ c, ¬Established st s c) : Pool.current s st.log=none := by
  apply Option.eq_none_iff_forall_ne_some.mpr
  intro c hc
  exact hs c ((h.current s c).mp hc)

theorem Logged.free {st : State K} (h : Logged st) {s : SlotId K}
    (hs : ∀ t i, (st.tasks t).dial≠some (s,i)) : Pool.current s st.log=st.held s := by
  apply Option.ext
  intro c
  rw [h.current,established_of_free hs]

theorem logged_new (timeout : Option Nat) : Logged (State.new timeout : State K) where
  current := by
    intro s c
    constructor
    · intro h
      cases h
    · intro h
      rcases h with h|⟨t,h⟩ <;> cases h
  justified := along_nil _

/-- A step that writes nothing to the log and keeps what each slot has. -/
theorem Logged.silent {st st' : State K} (h : Logged st) (hl : st'.log=st.log)
    (he : ∀ s c, Established st' s c ↔ Established st s c) : Logged st' where
  current := by
    intro s c
    rw [hl,he]
    exact h.current s c
  justified := by
    rw [hl]
    exact h.justified

theorem Logged.setTask {st : State K} (h : Logged st) {t : Nat} {y : Task K}
    (hx : (st.tasks t).up=none) (hy : y.up=none) : Logged (st.setTask t y) :=
  h.silent rfl (established_setTask hx hy)

theorem Logged.sameHeld {st st' : State K} (h : Logged st) (hl : st'.log=st.log)
    (ht : st'.tasks=st.tasks) (hv : ∀ s, st'.held s=st.held s) : Logged st' := by
  apply h.silent hl
  intro s c
  simp only [Established,ht,hv]

/-- An event that changes no slot, justified by the log so far. -/
theorem Logged.note {st : State K} (h : Logged st) {e : Event K} (hj : Justified st.log e)
    (ht : ∀ s, track s (Pool.current s st.log) e=Pool.current s st.log) : Logged (st.note e) where
  current := by
    intro s c
    rw [State.note_log,current_concat,ht]
    exact h.current s c
  justified := by
    rw [State.note_log]
    exact along_concat.mpr ⟨h.justified,hj⟩

theorem Logged.clearSlot {st : State K} (hi : Inv st) (h : Logged st) (s : SlotId K) :
    Logged (st.clearSlot s) := by
  simp only [State.clearSlot]
  split
  · exact h
  · rename_i c hc
    have hn : ∀ t i, (st.tasks t).up≠some (s,i) := by
      intro t i hu
      rw [(hi.dial (Task.up_dial hu)).2.1] at hc
      cases hc
    constructor
    · intro x d
      rw [State.note_log,current_concat]
      by_cases hx : x=s
      · subst hx
        rw [track,if_pos rfl]
        constructor
        · intro hd
          cases hd
        · intro hd
          rcases hd with hd|⟨t,hd⟩
          · rw [held_note,held_setSlot,if_pos rfl] at hd
            cases hd
          · exact absurd hd (hn t d)
      · rw [track,if_neg (Ne.symm hx)]
        simp only [Established,held_note,held_setSlot,if_neg hx]
        exact h.current x d
    · exact along_concat.mpr ⟨h.justified,(h.current s c).mpr (Or.inl hc)⟩

theorem Logged.evict {st : State K} (hi : Inv st) (h : Logged st) (key : K) (c : Nat) :
    Logged (evict st key c) := by
  rw [Pool.evict]
  split
  · exact h
  · rename_i n hn
    dsimp only
    split_ifs with hh
    · have hs : ∀ t i, (st.tasks t).dial≠some (⟨key,n⟩,i) := by
        intro t i hd
        rw [(hi.dial hd).1] at hh
        cases hh
      have hj : Justified st.log (.evict c ⟨key,n⟩ (st.held ⟨key,n⟩)) := h.free hs
      exact Logged.clearSlot (hi.note _) (h.note hj (fun _ => rfl)) _
    · exact h

theorem Logged.scanSlot {st : State K} (hi : Inv st) (h : Logged st) (now maxIdle : Nat)
    (s : SlotId K) : Logged (scanSlot st now maxIdle s) := by
  simp only [Pool.scanSlot]
  split
  · split_ifs
    · exact h.clearSlot hi s
    · exact h
  · exact h

theorem Logged.lockSlot {st : State K} (h : Logged st) (s : SlotId K) (o : Owner) :
    Logged (st.lockSlot s o) := h.sameHeld rfl rfl (fun x => held_lockSlot st s x o)

theorem Logged.unlockSlot {st : State K} (h : Logged st) (s : SlotId K) :
    Logged (st.unlockSlot s) := h.sameHeld rfl rfl (held_unlockSlot st s)

theorem Logged.connected {st : State K} (hi : Inv st) (h : Logged st) {t i : Nat}
    {caller : Caller} {s : SlotId K} (ht : st.tasks t=.dialing caller s i) :
    Logged (connected st t caller s i) := by
  have hd : (st.tasks t).dial=some (s,i) := by rw [ht]; rfl
  have hu : (st.tasks t).up=none := by rw [ht]; rfl
  have hv := hi.dial hd
  have hn : ∀ t' j, (st.tasks t').up≠some (s,j) := by
    intro t' j hj
    cases hi.holder_dials hv.1 (Task.up_dial hj)
    rw [hu] at hj
    cases hj
  have he : ∀ c, ¬Established st s c := by
    intro c hc
    rcases hc with hc|⟨t',hc⟩
    · rw [hv.2.1] at hc
      cases hc
    · exact hn t' c hc
  have other : ∀ t' p, ((Pool.connected st t caller s i).tasks t').up=some p ↔
      (st.tasks t').up=some p ∨ (t'=t ∧ p=(s,i)) := by
    intro t' p
    by_cases h' : t'=t
    · subst h'
      have hnew : ((Pool.connected st t' caller s i).tasks t').up=some (s,i) := by
        simp [Pool.connected,Task.up]
      rw [hnew,hu]
      simp [eq_comm]
    · simp [Pool.connected,h']
  constructor
  · intro x c
    change Pool.current x (st.log++[.handshake s i])=some c ↔
      st.held x=some c ∨ ∃ t', ((Pool.connected st t caller s i).tasks t').up=some (x,c)
    rw [current_concat,track]
    simp only [other]
    by_cases hx : s=x
    · subst hx
      rw [if_pos rfl]
      constructor
      · intro hc
        cases hc
        exact Or.inr ⟨t,Or.inr ⟨rfl,rfl⟩⟩
      · intro hc
        rcases hc with hc|⟨t',hc|⟨-,hc⟩⟩
        · exact absurd (Or.inl hc) (he c)
        · exact absurd (Or.inr ⟨t',hc⟩) (he c)
        · cases hc
          rfl
    · rw [if_neg hx,h.current x c]
      constructor
      · intro hc
        rcases hc with hc|⟨t',hc⟩
        · exact Or.inl hc
        · exact Or.inr ⟨t',Or.inl hc⟩
      · intro hc
        rcases hc with hc|⟨t',hc|⟨-,hc⟩⟩
        · exact Or.inl hc
        · exact Or.inr ⟨t',hc⟩
        · cases hc
          exact absurd rfl hx
  · exact along_concat.mpr ⟨h.justified,h.vacant he⟩

/-- The end of `get_or_create`, with the connection the slot has. -/
theorem Logged.finish {st : State K} (hi : Inv st) (h : Logged st) {s : SlotId K} {t : Nat}
    (caller : Caller) {conn : PooledConn} (hh : (st.slots s).holder=some (.task t))
    (he : Established st s conn.id) (hu : ∀ x i, (st.tasks t).up=some (x,i) → x=s) :
    Logged (finish (st.putConn s conn) t caller s conn.id) := by
  have hj : Logged (st.note (.returned t s conn.id)) :=
    h.note ((h.current s conn.id).mpr he) (fun _ => rfl)
  have hr : (resume s.key conn.id caller : Task K).up=none :=
    Task.up_none (Task.getting_resume s.key conn.id caller)
  have tasks : ∀ t' x i, ((Pool.finish (st.putConn s conn) t caller s conn.id).tasks t').up=
      some (x,i) ↔ t'≠t ∧ (st.tasks t').up=some (x,i) := by
    intro t' x i
    by_cases h' : t'=t
    · subst h'
      simp [Pool.finish,hr]
    · simp [Pool.finish,h']
  have held : ∀ x, (Pool.finish (st.putConn s conn) t caller s conn.id).held x=
      if x=s then some conn.id else st.held x := by
    intro x
    change ((st.putConn s conn).unlockSlot s).held x=_
    rw [held_unlockSlot,held_putConn]
  refine hj.silent (by rfl) ?_
  intro x c
  simp only [Established,tasks,held,held_note]
  by_cases hx : x=s
  · subst hx
    rw [if_pos rfl]
    constructor
    · intro hc
      rcases hc with hc|⟨t',ht,hc⟩
      · cases hc
        exact he
      · cases hi.holder_dials hh (Task.up_dial hc)
        exact absurd rfl ht
    · intro hc
      exact Or.inl (congrArg some (he.unique hi hc))
  · rw [if_neg hx]
    constructor
    · intro hc
      rcases hc with hc|⟨t',-,hc⟩
      · exact Or.inl hc
      · exact Or.inr ⟨t',hc⟩
    · intro hc
      rcases hc with hc|⟨t',hc⟩
      · exact Or.inl hc
      · refine Or.inr ⟨t',?_,hc⟩
        intro ht
        subst ht
        exact hx (hu x c hc)

theorem Logged.lockedGet {st : State K} (hi : Inv st) (h : Logged st) {t : Nat} {s : SlotId K}
    {caller : Caller} (ht : st.tasks t=.locking s (.get caller))
    (hh : (st.slots s).holder=some (.task t)) : Logged (lockedGet st t caller s) := by
  have hu : (st.tasks t).up=none := by rw [ht]; rfl
  simp only [Pool.lockedGet]
  split
  · rename_i conn hv
    have he : Established st s (PooledConn.mk conn.id st.now).id :=
      Or.inl (by rw [State.held,hv]; rfl)
    exact h.finish hi caller hh he (fun x i hx => by rw [hu] at hx; cases hx)
  · have hn : Logged { st with nextConnId := st.nextConnId+1 } := h.sameHeld rfl rfl (fun _ => rfl)
    exact hn.setTask hu rfl

theorem Logged.locked {st : State K} (hi : Inv st) (h : Logged st) {t : Nat} {s : SlotId K}
    {job : Job K} (ht : st.tasks t=.locking s job) (hh : (st.slots s).holder=some (.task t)) :
    Logged (locked st t s job) := by
  have hu : (st.tasks t).up=none := by rw [ht]; rfl
  cases job with
  | get caller => exact h.lockedGet hi ht hh
  | clear stale =>
    have hx : ((st.clearSlot s).tasks t).up=none := by rwa [(shrinks_clearSlot st s).tasks]
    exact ((h.clearSlot hi s).unlockSlot s).setTask hx rfl
  | scan now maxIdle slots =>
    have hx : ((Pool.scanSlot st now maxIdle s).tasks t).up=none := by
      rwa [(shrinks_scanSlot st now maxIdle s).tasks]
    exact ((h.scanSlot hi now maxIdle s).unlockSlot s).setTask hx rfl
  | count slots rest => exact (h.unlockSlot s).setTask hu rfl

theorem Logged.slotFor {st : State K} (h : Logged st) (key : K) : Logged (slotFor st key).1 := by
  simp only [Pool.slotFor]
  split
  · exact h
  · exact h.sameHeld rfl rfl (fun _ => rfl)

theorem slotFor_tasks (st : State K) (key : K) : (slotFor st key).1.tasks=st.tasks := by
  simp only [slotFor]
  split <;> rfl

theorem Logged.getOrCreate {st : State K} (h : Logged st) {t : Nat} (caller : Caller) (key : K)
    (hu : (st.tasks t).up=none) : Logged (getOrCreate st t caller key) :=
  (h.slotFor key).setTask (by rwa [slotFor_tasks]) rfl

theorem Logged.pruneNext {st : State K} (h : Logged st) {t : Nat} (s : SlotId K)
    (stale : List (SlotId K)) (hu : (st.tasks t).up=none) :
    Logged (pruneNext st t s stale) := by
  simp only [Pool.pruneNext]
  split
  · exact h.setTask hu rfl
  · have he : Logged { st with conns := st.conns.erase s.key } := h.sameHeld rfl rfl (fun _ => rfl)
    exact he.setTask hu rfl

theorem Logged.closeHandler {st : State K} (hi : Inv st) (h : Logged st) (c : Nat)
    (s : SlotId K) : Logged (closeHandler st c s) := by
  simp only [Pool.closeHandler]
  split_ifs
  · exact ((h.clearSlot hi s).unlockSlot s).sameHeld rfl rfl (fun _ => rfl)
  · exact (h.unlockSlot s).sameHeld rfl rfl (fun _ => rfl)

theorem Logged.step {st st' : State K} {a : Action K} (hi : Inv st) (h : Logged st)
    (hs : step st a=some st') : Logged st' := by
  cases step_steps hs with
  | connect key ht => exact h.getOrCreate _ key (by rw [ht]; rfl)
  | reconnect ht => exact h.getOrCreate _ _ (by rw [ht]; rfl)
  | lock ht =>
    rename_i t s job
    have hu : (st.tasks t).up=none := by rw [ht]; rfl
    exact (h.lockSlot s (.task t)).setTask hu rfl
  | work ht hh => exact h.locked hi ht hh
  | connected ht => exact h.connected hi ht
  | refused ht =>
    rename_i t i caller s
    have hu : (st.tasks t).up=none := by rw [ht]; rfl
    exact (h.unlockSlot s).setTask hu rfl
  | store ht =>
    rename_i t i caller s
    have hu : (st.tasks t).up=some (s,i) := by rw [ht]; rfl
    refine h.finish hi caller (hi.dial (Task.up_dial hu)).1 (Or.inr ⟨t,hu⟩) ?_
    intro x i hx
    rw [ht] at hx
    cases hx
    rfl
  | move hm => exact h.setTask hm.up.1 hm.up.2
  | evictDead ht =>
    exact (h.evict hi _ _).setTask (by rw [(shrinks_evict _ _ _).tasks,ht]; rfl) rfl
  | evictTunnel ht hf => exact h.evict hi _ _
  | prune debug ht => exact h.pruneNext _ _ (by rw [ht]; rfl)
  | environment failed timeout now => exact h.sameHeld rfl rfl (fun _ => rfl)
  | close failed hd => exact h.sameHeld rfl rfl (fun _ => rfl)
  | driverLock hd => exact (h.lockSlot _ _).sameHeld rfl rfl (fun _ => rfl)
  | driverWork hd hh => exact h.closeHandler hi _ _

/-- Both invariants at once, for the rules about runs. -/
def Traced (st : State K) : Prop := Inv st ∧ Logged st

theorem traced_new (timeout : Option Nat) : Traced (State.new timeout : State K) :=
  ⟨inv_new timeout,logged_new timeout⟩

theorem Traced.step (st : State K) (a : Action K) (st' : State K) (h : Traced st)
    (hs : step st a=some st') : Traced st' := ⟨h.1.step hs,h.2.step h.1 hs⟩

theorem Reachable.traced {st : State K} (h : Reachable st) : Traced st := by
  obtain ⟨timeout,as,hr⟩ := h
  exact run_invariant Traced.step (traced_new timeout) hr

/-- No dead connection stays cached, one handshake at a time on a slot, and only a clear makes
room for the next one. -/
theorem handshakes_single_flight (st : State K) (h : Reachable st) :
    (∀ s c, st.held s=some c → Alive st c s) ∧
    (∀ t t' s i i', (st.tasks t).dial=some (s,i) → (st.tasks t').dial=some (s,i') → t=t') ∧
    (∀ s c c' past mid later, st.log=past++.handshake s c::(mid++.handshake s c'::later) →
      ∃ d, .cleared s d∈mid) ∧
    (∀ s t t' c c' past mid later,
      st.log=past++.returned t s c::(mid++.returned t' s c'::later) →
      (∀ d, .cleared s d∉mid) → c=c') := by
  obtain ⟨hi,hl⟩ := h.traced
  refine ⟨fun s c hc => hi.held hc,?_,?_,?_⟩
  · intro t t' s i i' hd hd'
    cases hi.holder_dials (hi.dial hd).1 hd'
    rfl
  · intro s c c' past mid later hlog
    by_contra hn
    have hm : ∀ d, .cleared s d∉mid := fun d hd => hn ⟨d,hd⟩
    have hc : current s (past++[.handshake s c])=some c := by
      rw [current_concat,track,if_pos rfl]
    have hsplit : st.log=(past++[.handshake s c])++(mid++.handshake s c'::later) := by simp [hlog]
    have hk := current_keeps hl.justified hsplit hc hm
    have hj := hl.justified ((past++[.handshake s c])++mid) (.handshake s c') later (by simp [hlog])
    rw [Justified,hk] at hj
    cases hj
  · intro s t t' c c' past mid later hlog hm
    have hc : current s (past++[.returned t s c])=some c := by
      rw [current_concat]
      exact hl.justified past (.returned t s c) _ hlog
    have hsplit : st.log=(past++[.returned t s c])++(mid++.returned t' s c'::later) := by
      simp [hlog]
    have hk := current_keeps hl.justified hsplit hc hm
    have hj := hl.justified ((past++[.returned t s c])++mid) (.returned t' s c') later
      (by simp [hlog])
    rw [Justified,hk] at hj
    exact Option.some.inj hj

/-- A connection closes, its handler clears the slot, the next caller dials again, and the one
after it takes the connection stored by then. -/
theorem handshakes_single_flight_redial : ∃ st : State Nat, Reachable st ∧
    st.log=[.handshake ⟨0,0⟩ 1,.returned 1 ⟨0,0⟩ 1,.cleared ⟨0,0⟩ 1,.handshake ⟨0,0⟩ 2,
      .returned 2 ⟨0,0⟩ 2,.returned 3 ⟨0,0⟩ 2] ∧
    (∃ d, Event.cleared (⟨0,0⟩ : SlotId Nat) d∈
      [Event.returned 1 ⟨0,0⟩ 1,Event.cleared ⟨0,0⟩ 1]) ∧
    st.held ⟨0,0⟩=some 2 ∧ Alive st 2 ⟨0,0⟩ := by
  have hr : Reachable (K := Nat) _ := ⟨none,[.connect 1 0,.lock 1,.work 1,.handshake 1 true,
    .store 1,.close 1,.driverLock 1,.driverWork 1,.connect 2 0,.lock 2,.work 2,
    .handshake 2 true,.store 2,.connect 3 0,.lock 3,.work 3],rfl⟩
  obtain ⟨halive,-,hredial,-⟩ := handshakes_single_flight _ hr
  exact ⟨_,hr,by decide,
    hredial ⟨0,0⟩ 1 2 [] [.returned 1 ⟨0,0⟩ 1,.cleared ⟨0,0⟩ 1]
      [.returned 2 ⟨0,0⟩ 2,.returned 3 ⟨0,0⟩ 2] (by decide),
    by decide,halive ⟨0,0⟩ 2 (by decide)⟩

end Tobira.Pool
