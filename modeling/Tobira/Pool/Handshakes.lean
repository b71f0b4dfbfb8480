import Mathlib.Data.List.Induction
import Tobira.Pool.History

namespace Tobira.Pool

open Tobira.Framework

variable {K : Type}

/-- No handshake is new, and the drivers are those there were. -/
structure Quiet (st st' : State K) : Prop where
  log : ∀ s c, .handshake s c∈st'.log → .handshake s c∈st.log
  drivers : st'.drivers=st.drivers

theorem Quiet.trans {a b c : State K} (h : Quiet a b) (h' : Quiet b c) : Quiet a c where
  log := fun s i hm => h.log s i (h'.log s i hm)
  drivers := h'.drivers.trans h.drivers

theorem quiet_same {st st' : State K} (hl : st'.log=st.log) (hd : st'.drivers=st.drivers) :
    Quiet st st' := by
  refine ⟨?_,hd⟩
  intro s c hm
  rwa [hl] at hm

theorem Quiet.note {st st' : State K} (h : Quiet st st') {e : Event K}
    (he : ∀ s c, e≠.handshake s c) : Quiet st (st'.note e) := by
  refine ⟨?_,h.drivers⟩
  intro s c hm
  rcases List.mem_append.mp hm with hm|hm
  · exact h.log s c hm
  · exact absurd (List.mem_singleton.mp hm).symm (he s c)

/-- The driver of each connection that was established belongs to the slot it was established on. -/
def Owned (st : State K) : Prop :=
  ∀ s c, .handshake s c∈st.log → ∃ phase, st.drivers c=some ⟨s,phase⟩

theorem owned_new (timeout : Option Nat) : Owned (State.new timeout : State K) := by
  intro s c hm
  cases hm

theorem Owned.quiet {st st' : State K} (h : Owned st) (hq : Quiet st st') : Owned st' := by
  intro s c hm
  rw [hq.drivers]
  exact h s c (hq.log s c hm)

/-- A driver moves on, on its slot. -/
theorem Owned.setPhase {st : State K} (h : Owned st) {c : Nat} {s : SlotId K} {p : Phase}
    (hd : st.drivers c=some ⟨s,p⟩) (q : Phase) : Owned (st.setDriver c ⟨s,q⟩) := by
  intro x i hm
  obtain ⟨phase,hi⟩ := h x i hm
  by_cases he : i=c
  · subst he
    rw [hd] at hi
    cases hi
    exact ⟨q,by simp⟩
  · exact ⟨phase,by simpa [he] using hi⟩

/-- The id of a connection that is being dialled has no driver yet. -/
theorem Owned.connected {st : State K} (hi : Inv st) (h : Owned st) {t i : Nat} {caller : Caller}
    {s : SlotId K} (ht : st.tasks t=.dialing caller s i) :
    Owned (connected st t caller s i) := by
  intro x c hm
  have hdrivers : (Pool.connected st t caller s i).drivers=
      Function.update st.drivers i (some ⟨s,.running⟩) := rfl
  rw [hdrivers]
  rcases List.mem_append.mp hm with hm|hm
  · obtain ⟨phase,hc⟩ := h x c hm
    have hne : c≠i := by
      rintro rfl
      rw [hi.dialing ht] at hc
      cases hc
    exact ⟨phase,by rw [Function.update_of_ne hne,hc]⟩
  · cases List.mem_singleton.mp hm
    exact ⟨.running,by rw [Function.update_self]⟩

variable [DecidableEq K]

theorem quiet_setSlot (st : State K) (s : SlotId K) (m : Slot) : Quiet st (st.setSlot s m) :=
  quiet_same rfl rfl

theorem quiet_clearSlot (st : State K) (s : SlotId K) : Quiet st (st.clearSlot s) := by
  simp only [State.clearSlot]
  split
  · exact quiet_same rfl rfl
  · apply (quiet_setSlot st s _).note
    intro _ _ he
    cases he

theorem quiet_evict (st : State K) (key : K) (c : Nat) : Quiet st (evict st key c) := by
  simp only [evict]
  split
  · exact quiet_same rfl rfl
  · split_ifs
    · refine Quiet.trans (Quiet.note (quiet_same rfl rfl) ?_) (quiet_clearSlot _ _)
      intro _ _ he
      cases he
    · exact quiet_same rfl rfl

theorem quiet_scanSlot (st : State K) (now maxIdle : Nat) (s : SlotId K) :
    Quiet st (scanSlot st now maxIdle s) := by
  simp only [scanSlot]
  split
  · split_ifs
    · exact quiet_clearSlot st s
    · exact quiet_same rfl rfl
  · exact quiet_same rfl rfl

theorem Quiet.finish {st st' : State K} (h : Quiet st st') (t : Nat) (caller : Caller)
    (s : SlotId K) (c : Nat) : Quiet st (finish st' t caller s c) := by
  have hunlock : Quiet st (st'.unlockSlot s) := h.trans (quiet_same rfl rfl)
  have hnote : Quiet st ((st'.unlockSlot s).note (.returned t s c)) := by
    apply hunlock.note
    intro _ _ he
    cases he
  exact hnote.trans (quiet_same rfl rfl)

theorem quiet_getOrCreate (st : State K) (t : Nat) (caller : Caller) (key : K) :
    Quiet st (getOrCreate st t caller key) := by
  simp only [getOrCreate,slotFor]
  split <;> exact quiet_same rfl rfl

theorem quiet_locked (st : State K) (t : Nat) (s : SlotId K) (job : Job K) :
    Quiet st (locked st t s job) := by
  cases job with
  | get caller =>
    simp only [locked,lockedGet]
    split
    · exact (quiet_setSlot st s _).finish t caller s _
    · exact quiet_same rfl rfl
  | clear stale => exact (quiet_clearSlot st s).trans (quiet_same rfl rfl)
  | scan now maxIdle slots => exact (quiet_scanSlot st now maxIdle s).trans (quiet_same rfl rfl)
  | count slots rest => exact quiet_same rfl rfl

theorem quiet_pruneNext (st : State K) (t : Nat) (s : SlotId K) (stale : List (SlotId K)) :
    Quiet st (pruneNext st t s stale) := by
  simp only [pruneNext]
  split <;> exact quiet_same rfl rfl

theorem Owned.closeHandler {st : State K} (h : Owned st) {c : Nat} {s : SlotId K} {p : Phase}
    (hd : st.drivers c=some ⟨s,p⟩) : Owned (closeHandler st c s) := by
  have hq : Quiet st ((if st.held s=some c then st.clearSlot s else st).unlockSlot s) := by
    split_ifs
    · exact (quiet_clearSlot st s).trans (quiet_same rfl rfl)
    · exact quiet_same rfl rfl
  exact (h.quiet hq).setPhase (by rw [hq.drivers,hd]) .finished

theorem Owned.step {st st' : State K} {a : Action K} (hi : Inv st) (h : Owned st)
    (hs : step st a=some st') : Owned st' := by
  cases step_steps hs with
  | connect key ht => exact h.quiet (quiet_getOrCreate st _ _ _)
  | reconnect ht => exact h.quiet (quiet_getOrCreate st _ _ _)
  | lock ht => exact h.quiet (quiet_same rfl rfl)
  | work ht hh => exact h.quiet (quiet_locked st _ _ _)
  | connected ht => exact h.connected hi ht
  | refused ht => exact h.quiet (quiet_same rfl rfl)
  | store ht => exact h.quiet ((quiet_setSlot st _ _).finish _ _ _ _)
  | move hm => exact h.quiet (quiet_same rfl rfl)
  | evictDead ht => exact h.quiet ((quiet_evict st _ _).trans (quiet_same rfl rfl))
  | evictTunnel ht hf => exact h.quiet (quiet_evict st _ _)
  | prune debug ht => exact h.quiet (quiet_pruneNext st _ _ _)
  | environment failed timeout now => exact h.quiet (quiet_same rfl rfl)
  | close failed hd => exact (h.quiet (quiet_same rfl rfl)).setPhase hd _
  | driverLock hd => exact (h.quiet (quiet_same rfl rfl)).setPhase hd _
  | driverWork hd hh => exact h.closeHandler hd

theorem Reachable.owned {st : State K} (h : Reachable st) : Owned st := by
  obtain ⟨timeout,as,hr⟩ := h
  have keep : ∀ (st : State K) a st', Inv st ∧ Owned st → step st a=some st' →
      Inv st' ∧ Owned st' := fun st a st' hs ha => ⟨hs.1.step ha,hs.2.step hs.1 ha⟩
  exact (run_invariant keep ⟨inv_new timeout,owned_new timeout⟩ hr).2

/-- The connection of a slot was established on it. -/
theorem handshake_of_current {s : SlotId K} {c : Nat} {log : List (Event K)}
    (h : current s log=some c) : .handshake s c∈log := by
  induction log using List.reverseRecOn with
  | nil => cases h
  | append_singleton log e ih =>
    rw [current_concat] at h
    cases e with
    | handshake x d =>
      rw [track] at h
      split_ifs at h with hx
      · cases h
        simp [hx]
      · exact List.mem_append_left _ (ih h)
    | returned t x d => exact List.mem_append_left _ (ih h)
    | cleared x d =>
      rw [track] at h
      split_ifs at h with hx
      exact List.mem_append_left _ (ih h)
    | evict d x r => exact List.mem_append_left _ (ih h)

/-- A call gets a connection that was established on the slot it asked for, and on no other. -/
theorem returned_handshake {st : State K} (h : Reachable st) {t c : Nat} {s : SlotId K}
    (hr : .returned t s c∈st.log) :
    .handshake s c∈st.log ∧ ∀ s', .handshake s' c∈st.log → s'=s := by
  obtain ⟨past,later,hlog⟩ := List.append_of_mem hr
  have hs : .handshake s c∈st.log := by
    rw [hlog]
    exact List.mem_append_left _ (handshake_of_current (h.traced.2.justified _ _ _ hlog))
  refine ⟨hs,?_⟩
  intro s' hs'
  obtain ⟨p,hp⟩ := h.owned s c hs
  obtain ⟨q,hq⟩ := h.owned s' c hs'
  rw [hp] at hq
  cases hq
  rfl

/-- What `prune_to_endpoints` takes for stale. -/
theorem mem_stale {st st' : State K} {t : Nat} {active : List K} {stale : List (SlotId K)}
    {debug : Bool} (h : step st (.pruneToEndpoints t active stale debug)=some st') (s : SlotId K) :
    s∈stale ↔ s∈st.entries ∧ s.key∉active := by
  by_cases hc : st.tasks t=.idle ∧ stale.Perm (st.entries.filter (fun s => s.key∉active))
  · rw [hc.2.mem_iff,List.mem_filter,decide_eq_true_eq]
  · rw [step,if_neg hc] at h
    cases h

end Tobira.Pool
