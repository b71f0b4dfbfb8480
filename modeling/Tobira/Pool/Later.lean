import Tobira.Pool.Evict

namespace Tobira.Pool

open Tobira.Framework

variable {K : Type} [DecidableEq K]

/-- What a step can do to ids and slots: dial under a new id, store the id that was being
dialled, register a new slot, and hand a registered slot to a `get_or_create`. -/
structure Later (st st' : State K) : Prop where
  next : st.nextConnId ≤ st'.nextConnId
  nextSlot : st.nextSlot ≤ st'.nextSlot
  entry : ∀ {key n}, st'.conns.lookup key=some n →
    st.conns.lookup key=some n ∨ (n=st.nextSlot ∧ st.nextSlot<st'.nextSlot)
  getting : ∀ {t s}, (st'.tasks t).getting=some s →
    (st.tasks t).getting=some s ∨ st'.Registered s
  dial : ∀ {t s i}, (st'.tasks t).dial=some (s,i) →
    (st.tasks t).dial=some (s,i) ∨ i=st.nextConnId
  held : ∀ {s i}, st'.held s=some i → st.held s=some i ∨ ∃ t, (st.tasks t).dial=some (s,i)

theorem Later.setDriver {st st' : State K} (h : Later st st') (c : Nat) (d : Driver K) :
    Later st (st'.setDriver c d) := ⟨h.next,h.nextSlot,h.entry,h.getting,h.dial,h.held⟩

/-- A step that clears or hands over locks and moves one task, but not into `get_or_create`. -/
theorem Shrinks.later {st st' : State K} (h : Shrinks st st') {t : Nat} {y : Task K}
    (hg : y.getting=none ∨ y.getting=(st.tasks t).getting)
    (hd : y.dial=none ∨ y.dial=(st.tasks t).dial) : Later st (st'.setTask t y) where
  next := Nat.le_of_eq h.nextConnId.symm
  nextSlot := Nat.le_of_eq h.nextSlot.symm
  entry := fun hn => Or.inl (h.conns ▸ hn)
  getting := by
    intro t' s hs
    rcases setTask_some hs with ⟨rfl,hy⟩|hs
    · rcases hg with hg|hg
      · rw [hg] at hy
        cases hy
      · exact Or.inl (hg ▸ hy)
    · rw [h.tasks] at hs
      exact Or.inl hs
  dial := by
    intro t' s i hs
    rcases setTask_some hs with ⟨rfl,hy⟩|hs
    · rcases hd with hd|hd
      · rw [hd] at hy
        cases hy
      · exact Or.inl (hd ▸ hy)
    · rw [h.tasks] at hs
      exact Or.inl hs
  held := fun hs => Or.inl (h.held _ _ hs)

theorem Shrinks.later_same {st st' : State K} (h : Shrinks st st') : Later st st' :=
  ⟨Nat.le_of_eq h.nextConnId.symm,Nat.le_of_eq h.nextSlot.symm,fun hn => Or.inl (h.conns ▸ hn),
    fun hs => Or.inl (h.tasks ▸ hs),fun hs => Or.inl (h.tasks ▸ hs),
    fun hs => Or.inl (h.held _ _ hs)⟩

theorem slotFor_registered (st : State K) (key : K) :
    (slotFor st key).1.Registered (slotFor st key).2 := by
  simp only [slotFor]
  split
  · assumption
  · exact AList.lookup_insert st.conns

theorem later_getOrCreate {st : State K} {t : Nat} (caller : Caller) (key : K) :
    Later st (getOrCreate st t caller key) := by
  have hreg := slotFor_registered st key
  have htasks := slotFor_tasks st key
  refine ⟨?_,?_,?_,?_,?_,?_⟩
  · simp only [getOrCreate,slotFor]
    split <;> exact le_refl _
  · simp only [getOrCreate,slotFor]
    split
    · exact le_refl _
    · exact Nat.le_succ _
  · intro key' n hn
    simp only [getOrCreate,slotFor] at hn ⊢
    split at hn
    · exact Or.inl hn
    · by_cases hk : key'=key
      · subst hk
        have hl : (st.conns.insert key' st.nextSlot).lookup key'=some n := hn
        rw [AList.lookup_insert] at hl
        cases hl
        exact Or.inr ⟨rfl,Nat.lt_succ_self _⟩
      · have hl : (st.conns.insert key st.nextSlot).lookup key'=some n := hn
        rw [AList.lookup_insert_ne hk] at hl
        exact Or.inl hl
  · intro t' s hs
    rcases setTask_some hs with ⟨rfl,hy⟩|hs
    · cases hy
      exact Or.inr hreg
    · rw [htasks] at hs
      exact Or.inl hs
  · intro t' s i hs
    rcases setTask_some hs with ⟨rfl,hy⟩|hs
    · cases hy
    · rw [htasks] at hs
      exact Or.inl hs
  · intro s i hs
    simp only [getOrCreate,slotFor] at hs
    split at hs <;> exact Or.inl hs

theorem shrinks_touch {st : State K} {s : SlotId K} {conn : PooledConn}
    (hc : st.held s=some conn.id) : Shrinks st (st.putConn s conn) := by
  refine ⟨rfl,rfl,rfl,rfl,rfl,?_⟩
  intro x c hx
  rw [held_putConn] at hx
  split_ifs at hx with he
  · rw [he,hc,hx]
  · exact hx

theorem later_store {st : State K} {t i : Nat} {caller : Caller} {s : SlotId K}
    (ht : st.tasks t=.dialed caller s i) :
    Later st (finish (st.putConn s ⟨i,st.now⟩) t caller s i) := by
  have hm : Later st (st.setTask t (resume s.key i caller)) :=
    Shrinks.later ⟨rfl,rfl,rfl,rfl,rfl,fun _ _ h => h⟩ (Or.inl (Task.getting_resume _ _ _))
      (Or.inl (Task.dial_none (Task.getting_resume _ _ _)))
  refine ⟨hm.next,hm.nextSlot,hm.entry,hm.getting,hm.dial,?_⟩
  intro x c hx
  change ((st.putConn s ⟨i,st.now⟩).unlockSlot s).held x=_ at hx
  rw [held_unlockSlot,held_putConn] at hx
  split_ifs at hx with he
  · subst he
    cases hx
    exact Or.inr ⟨t,by rw [ht]; rfl⟩
  · exact Or.inl hx

theorem later_lockedGet {st : State K} {t : Nat} {caller : Caller} {s : SlotId K}
    (ht : st.tasks t=.locking s (.get caller)) : Later st (lockedGet st t caller s) := by
  simp only [lockedGet]
  split
  · rename_i conn hv
    have hc : st.held s=some (PooledConn.mk conn.id st.now).id := by
      rw [State.held,hv]
      rfl
    have hs := ((shrinks_touch hc).trans (shrinks_unlockSlot _ s)).trans
      (shrinks_note _ (.returned t s conn.id))
    exact hs.later (Or.inl (Task.getting_resume _ _ _))
      (Or.inl (Task.dial_none (Task.getting_resume _ _ _)))
  · refine ⟨Nat.le_succ _,le_refl _,Or.inl,?_,?_,Or.inl⟩
    · intro t' x hs
      rcases setTask_some hs with ⟨rfl,hy⟩|hs
      · cases hy
        exact Or.inl (by rw [ht]; rfl)
      · exact Or.inl hs
    · intro t' x i hs
      rcases setTask_some hs with ⟨rfl,hy⟩|hs
      · cases hy
        exact Or.inr rfl
      · exact Or.inl hs

theorem later_pruneNext {st : State K} {t : Nat} (s : SlotId K) (stale : List (SlotId K)) :
    Later st (pruneNext st t s stale) := by
  simp only [pruneNext]
  split
  · exact Shrinks.later ⟨rfl,rfl,rfl,rfl,rfl,fun _ _ h => h⟩ (Or.inl rfl) (Or.inl rfl)
  · have hm : Later st (st.setTask t (.enter s (.clear stale))) :=
      Shrinks.later ⟨rfl,rfl,rfl,rfl,rfl,fun _ _ h => h⟩ (Or.inl rfl) (Or.inl rfl)
    refine ⟨hm.next,hm.nextSlot,?_,?_,hm.dial,hm.held⟩
    · intro key n hn
      by_cases hk : key=s.key
      · subst hk
        have hl : (st.conns.erase s.key).lookup s.key=some n := hn
        rw [AList.lookup_erase] at hl
        cases hl
      · have hl : (st.conns.erase s.key).lookup key=some n := hn
        rw [AList.lookup_erase_ne hk] at hl
        exact Or.inl hl
    · intro t' x hs
      rcases setTask_some hs with ⟨rfl,hy⟩|hs
      · cases hy
      · exact Or.inl hs

theorem later_locked {st : State K} {t : Nat} {s : SlotId K} {job : Job K}
    (ht : st.tasks t=.locking s job) : Later st (locked st t s job) := by
  cases job with
  | get caller => exact later_lockedGet ht
  | clear stale =>
    exact ((shrinks_clearSlot st s).trans (shrinks_unlockSlot _ s)).later (Or.inl rfl) (Or.inl rfl)
  | scan now maxIdle slots =>
    exact ((shrinks_scanSlot st now maxIdle s).trans (shrinks_unlockSlot _ s)).later (Or.inl rfl)
      (Or.inl rfl)
  | count slots rest => exact (shrinks_unlockSlot st s).later (Or.inl rfl) (Or.inl rfl)

theorem later_closeHandler (st : State K) (c : Nat) (s : SlotId K) :
    Later st (closeHandler st c s) := by
  simp only [closeHandler]
  apply Later.setDriver
  apply Shrinks.later_same
  split_ifs
  · exact (shrinks_clearSlot st s).trans (shrinks_unlockSlot _ s)
  · exact shrinks_unlockSlot st s

theorem step_later {st st' : State K} {a : Action K} (h : step st a=some st') : Later st st' := by
  cases step_steps h with
  | connect key ht => exact later_getOrCreate .first key
  | reconnect ht => exact later_getOrCreate _ _
  | lock ht =>
    rename_i t s job
    have hg : (Task.locking s job).getting=(st.tasks t).getting := by
      rw [ht]
      cases job <;> rfl
    exact (shrinks_lockSlot st s (.task t)).later (Or.inr hg) (Or.inl rfl)
  | work ht hh => exact later_locked ht
  | connected ht =>
    rename_i t i caller s
    have hm : Later st ((st.note (.handshake s i)).setTask t (.dialed caller s i)) :=
      (shrinks_note st _).later (Or.inr (by rw [ht]; rfl)) (Or.inr (by rw [ht]; rfl))
    exact hm.setDriver i ⟨s,.running⟩
  | refused ht => exact (shrinks_unlockSlot st _).later (Or.inl rfl) (Or.inl rfl)
  | store ht => exact later_store ht
  | move hm =>
    exact Shrinks.later ⟨rfl,rfl,rfl,rfl,rfl,fun _ _ h => h⟩ (Or.inl hm.getting) (Or.inl hm.dial)
  | evictDead ht => exact (shrinks_evict st _ _).later (Or.inl rfl) (Or.inl rfl)
  | evictTunnel ht hf => exact (shrinks_evict st _ _).later_same
  | prune debug ht => exact later_pruneNext _ _
  | environment failed timeout now => exact ⟨le_refl _,le_refl _,Or.inl,Or.inl,Or.inl,Or.inl⟩
  | close failed hd =>
    have he : Later st { st with failed := failed } :=
      ⟨le_refl _,le_refl _,Or.inl,Or.inl,Or.inl,Or.inl⟩
    exact he.setDriver _ _
  | driverLock hd => exact (shrinks_lockSlot st _ _).later_same.setDriver _ _
  | driverWork hd hh => exact later_closeHandler st _ _

/-! A task's step leaves the other tasks where they are. -/

section Others
variable {st : State K} {t u : Nat} (hu : u≠t)
include hu

theorem getOrCreate_other (caller : Caller) (key : K) :
    (getOrCreate st t caller key).tasks u=st.tasks u := by
  rw [getOrCreate,State.setTask_tasks,Function.update_of_ne hu,slotFor_tasks]

theorem finish_other (caller : Caller) (s : SlotId K) (c : Nat) :
    (finish st t caller s c).tasks u=st.tasks u := by
  simp [finish,hu]

theorem locked_other (s : SlotId K) (job : Job K) : (locked st t s job).tasks u=st.tasks u := by
  cases job with
  | get caller =>
    simp only [locked,lockedGet]
    split
    · rw [finish_other hu]
      rfl
    · simp [hu]
  | clear stale => simp [locked,hu,(shrinks_clearSlot st s).tasks]
  | scan now maxIdle slots => simp [locked,hu,(shrinks_scanSlot st now maxIdle s).tasks]
  | count slots rest => simp [locked,hu]

omit [DecidableEq K] in
theorem connected_other (caller : Caller) (s : SlotId K) (i : Nat) :
    (connected st t caller s i).tasks u=st.tasks u := by
  simp [connected,hu]

theorem pruneNext_other (s : SlotId K) (stale : List (SlotId K)) :
    (pruneNext st t s stale).tasks u=st.tasks u := by
  simp only [pruneNext]
  split <;> simp [hu]

end Others

theorem closeHandler_tasks (st : State K) (c : Nat) (s : SlotId K) :
    (closeHandler st c s).tasks=st.tasks := by
  simp only [closeHandler]
  split_ifs
  · exact (shrinks_clearSlot st s).tasks
  · rfl

/-- Serials that have not been given out are in no map entry and their slots are empty. -/
structure Fresh (st : State K) : Prop where
  entry : ∀ {key n}, st.conns.lookup key=some n → n<st.nextSlot
  getting : ∀ {t s}, (st.tasks t).getting=some s → s.serial<st.nextSlot
  held : ∀ {s c}, st.held s=some c → s.serial<st.nextSlot

theorem fresh_new (timeout : Option Nat) : Fresh (State.new timeout : State K) where
  entry := fun h => by cases h
  getting := fun h => by cases h
  held := fun h => by cases h

theorem Fresh.later {st st' : State K} (hf : Fresh st) (h : Later st st') : Fresh st' := by
  have entry {key : K} {n : Nat} (hn : st'.conns.lookup key=some n) : n<st'.nextSlot := by
    rcases h.entry hn with hn|⟨rfl,hlt⟩
    · exact lt_of_lt_of_le (hf.entry hn) h.nextSlot
    · exact hlt
  refine ⟨entry,?_,?_⟩
  · intro t s hs
    rcases h.getting hs with hs|hs
    · exact lt_of_lt_of_le (hf.getting hs) h.nextSlot
    · exact entry hs
  · intro s c hs
    rcases h.held hs with hs|⟨t,hd⟩
    · exact lt_of_lt_of_le (hf.held hs) h.nextSlot
    · exact lt_of_lt_of_le (hf.getting (Task.dial_getting hd)) h.nextSlot

/-- A slot that a step registers is empty. -/
theorem Fresh.registered {st st' : State K} (hf : Fresh st) (h : Later st st') {s : SlotId K}
    (hr : st'.Registered s) : st.Registered s ∨ st'.held s=none := by
  rcases h.entry hr with hr|⟨hs,-⟩
  · exact Or.inl hr
  · right
    apply Option.eq_none_iff_forall_ne_some.mpr
    intro c hc
    have hlt : s.serial<st.nextSlot := by
      rcases h.held hc with hc|⟨t,hd⟩
      · exact hf.held hc
      · exact hf.getting (Task.dial_getting hd)
    omega

end Tobira.Pool
