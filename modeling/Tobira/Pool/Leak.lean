import Tobira.Pool.Later

namespace Tobira.Pool

open Tobira.Framework

variable {K : Type} [DecidableEq K]

/-- Each removal by `prune_to_endpoints` takes the slot of its snapshot out of the map, and no
`get_or_create` that found a removed slot is still in progress when the slot is cleared. -/
def Orderly (st : State K) : Action K → Prop
  | .next t _ => ∀ s stale, st.tasks t=.loop (.prune (s::stale)) →
      ∀ n, st.conns.lookup s.key=some n → n=s.serial
  | .work t => ∀ s stale, st.tasks t=.locking s (.clear stale) →
      ∀ u, (st.tasks u).getting≠some s
  | _ => True

/-- The slot has a connection or a `get_or_create` that may put one there. -/
def InUse (st : State K) (s : SlotId K) : Prop :=
  (∃ c, st.held s=some c) ∨ ∃ t, (st.tasks t).getting=some s

/-- A slot in use is in the map, or a `prune_to_endpoints` call is about to clear it. -/
def Kept (st : State K) : Prop :=
  ∀ s, InUse st s → st.Registered s ∨ ∃ t, (st.tasks t).clearing=some s

theorem kept_new (timeout : Option Nat) : Kept (State.new timeout : State K) := by
  intro s h
  rcases h with ⟨c,h⟩|⟨t,h⟩ <;> cases h

theorem Later.inUse {st st' : State K} (h : Later st st') {s : SlotId K} (hs : InUse st' s) :
    InUse st s ∨ st'.Registered s := by
  rcases hs with ⟨c,hc⟩|⟨t,ht⟩
  · left
    rcases h.held hc with hc|⟨t,hd⟩
    · exact Or.inl ⟨c,hc⟩
    · exact Or.inr ⟨t,Task.dial_getting hd⟩
  · rcases h.getting ht with ht|hr
    · exact Or.inl (Or.inr ⟨t,ht⟩)
    · exact Or.inr hr

/-- A step that takes nothing out of the map and ends no clearing. -/
theorem Kept.later {st st' : State K} (hk : Kept st) (h : Later st st')
    (hr : ∀ s, st.Registered s → st'.Registered s)
    (hc : ∀ t s, (st.tasks t).clearing=some s → (st'.tasks t).clearing=some s) : Kept st' := by
  intro s hs
  rcases h.inUse hs with hu|hreg
  · rcases hk s hu with hreg|⟨t,ht⟩
    · exact Or.inl (hr s hreg)
    · exact Or.inr ⟨t,hc t s ht⟩
  · exact Or.inl hreg

omit [DecidableEq K] in
/-- The task that moves was not clearing, or still is. -/
theorem clearing_update {st st' : State K} {t : Nat}
    (ho : ∀ u, u≠t → st'.tasks u=st.tasks u)
    (hc : (st.tasks t).clearing=none ∨ (st'.tasks t).clearing=(st.tasks t).clearing) (u : Nat)
    (s : SlotId K) (hu : (st.tasks u).clearing=some s) : (st'.tasks u).clearing=some s := by
  by_cases he : u=t
  · subst he
    rcases hc with hc|hc
    · rw [hc] at hu
      cases hu
    · rw [hc,hu]
  · rw [ho u he,hu]

theorem slotFor_keeps (st : State K) (key : K) {s : SlotId K} (h : st.Registered s) :
    (slotFor st key).1.Registered s := by
  simp only [slotFor]
  split
  · exact h
  · rename_i hn
    have hk : s.key≠key := by
      intro he
      rw [State.Registered,he,hn] at h
      cases h
    rw [State.Registered,AList.lookup_insert_ne hk]
    exact h

theorem Kept.getOrCreate {st : State K} (hk : Kept st) {t : Nat} (caller : Caller) (key : K)
    (hc : (st.tasks t).clearing=none) : Kept (getOrCreate st t caller key) :=
  hk.later (later_getOrCreate caller key) (fun _ hr => slotFor_keeps st key hr)
    (clearing_update (fun _ hu => getOrCreate_other hu caller key) (Or.inl hc))

/-- The removal of a slot is followed by its clearing. -/
theorem Kept.pruneNext {st : State K} (hk : Kept st) {t : Nat} {s : SlotId K}
    {stale : List (SlotId K)} (ht : st.tasks t=.loop (.prune (s::stale)))
    (ho : ∀ n, st.conns.lookup s.key=some n → n=s.serial) : Kept (pruneNext st t s stale) := by
  have hl : Later st (Pool.pruneNext st t s stale) := later_pruneNext s stale
  have hcl := clearing_update (fun u hu => pruneNext_other hu s stale)
    (Or.inl (by rw [ht]; rfl) : (st.tasks t).clearing=none ∨ _)
  simp only [Pool.pruneNext] at hl hcl ⊢
  split at hl
  · rename_i hn
    exact hk.later hl (fun _ hr => hr) (fun u x hu => by simpa [hn] using hcl u x hu)
  · rename_i n hn
    intro x hx
    rcases hl.inUse hx with hu|hreg
    · rcases hk x hu with hreg|⟨u,hu⟩
      · by_cases he : x.key=s.key
        · have hxs : x=s := by
            rw [State.Registered,he] at hreg
            obtain ⟨k,m⟩ := x
            cases he
            rw [ho m hreg]
          exact Or.inr ⟨t,by simp [hxs,Task.clearing]⟩
        · left
          change (st.conns.erase s.key).lookup x.key=some x.serial
          rw [AList.lookup_erase_ne he]
          exact hreg
      · exact Or.inr ⟨u,by simpa [hn] using hcl u x hu⟩
    · exact Or.inl hreg

/-- The slot that is cleared goes out of use. -/
theorem Kept.clear {st : State K} (hk : Kept st) {t : Nat} {s : SlotId K}
    {stale : List (SlotId K)} (ht : st.tasks t=.locking s (.clear stale))
    (ho : ∀ u, (st.tasks u).getting≠some s) : Kept (locked st t s (.clear stale)) := by
  have hl := later_locked ht
  intro x hx
  have hne : x≠s := by
    intro he
    subst he
    rcases hx with ⟨c,hc⟩|⟨u,hu⟩
    · change ((st.clearSlot x).unlockSlot x).held x=_ at hc
      rw [held_unlockSlot,held_clearSlot,if_pos rfl] at hc
      cases hc
    · by_cases hut : u=t
      · subst hut
        simp [locked,Task.getting] at hu
      · rw [locked_other hut] at hu
        exact ho u hu
  have hreg : st.Registered x ↔ (locked st t s (.clear stale)).Registered x := by
    have hc : (locked st t s (.clear stale)).conns=st.conns := (shrinks_clearSlot st s).conns
    rw [State.Registered,State.Registered,hc]
  rcases hl.inUse hx with hu|hr
  · rcases hk x hu with hr|⟨u,hu⟩
    · exact Or.inl (hreg.mp hr)
    · refine Or.inr ⟨u,?_⟩
      have hut : u≠t := by
        intro he
        rw [he,ht] at hu
        cases hu
        exact hne rfl
      rw [locked_other hut]
      exact hu
  · exact Or.inl hr

theorem locked_conns (st : State K) (t : Nat) (s : SlotId K) (job : Job K) :
    (locked st t s job).conns=st.conns := by
  cases job with
  | get caller =>
    simp only [locked,lockedGet]
    split <;> rfl
  | clear stale => exact (shrinks_clearSlot st s).conns
  | scan now maxIdle slots => exact (shrinks_scanSlot st now maxIdle s).conns
  | count slots rest => rfl

/-- The step of a task that neither removes an entry nor is clearing. -/
theorem Kept.task {st st' : State K} (hk : Kept st) (hl : Later st st') {t : Nat}
    (hn : st'.conns=st.conns) (ho : ∀ u, u≠t → st'.tasks u=st.tasks u)
    (hc : (st.tasks t).clearing=none ∨ (st'.tasks t).clearing=(st.tasks t).clearing) :
    Kept st' := by
  refine hk.later hl ?_ (clearing_update ho hc)
  intro s hr
  rwa [State.Registered,hn]

/-- A step that moves no task. -/
theorem Kept.same {st st' : State K} (hk : Kept st) (hl : Later st st')
    (hn : st'.conns=st.conns) (ht : st'.tasks=st.tasks) : Kept st' :=
  hk.task hl (t := 0) hn (fun u _ => by rw [ht]) (Or.inr (by rw [ht]))

theorem Kept.locked {st : State K} (hk : Kept st) {t : Nat} {s : SlotId K} {job : Job K}
    (ht : st.tasks t=.locking s job) (ho : Orderly st (.work t)) : Kept (locked st t s job) := by
  have other (hc : (st.tasks t).clearing=none) : Kept (Pool.locked st t s job) :=
    hk.task (later_locked ht) (locked_conns st t s job) (fun u hu => locked_other hu s job)
      (Or.inl hc)
  cases job with
  | clear stale => exact hk.clear ht (ho s stale ht)
  | get caller => exact other (by rw [ht]; rfl)
  | scan now maxIdle slots => exact other (by rw [ht]; rfl)
  | count slots rest => exact other (by rw [ht]; rfl)

theorem Kept.step (st : State K) (a : Action K) (st' : State K) (hk : Kept st)
    (ho : Orderly st a) (h : step st a=some st') : Kept st' := by
  have hl := step_later h
  cases step_steps h with
  | connect key ht => exact hk.getOrCreate _ key (by rw [ht]; rfl)
  | reconnect ht => exact hk.getOrCreate _ _ (by rw [ht]; rfl)
  | lock ht =>
    rename_i t s job
    refine hk.task hl (t := t) rfl (fun u hu => by simp [hu]) (Or.inr ?_)
    rw [State.setTask_tasks,Function.update_self,ht]
    cases job <;> rfl
  | work ht hh => exact hk.locked ht ho
  | connected ht =>
    exact hk.task hl rfl (fun u hu => connected_other hu _ _ _) (Or.inl (by rw [ht]; rfl))
  | refused ht =>
    rename_i t i caller s
    exact hk.task hl (t := t) rfl (fun u hu => by simp [hu]) (Or.inl (by rw [ht]; rfl))
  | store ht =>
    exact hk.task hl rfl (fun u hu => finish_other hu _ _ _) (Or.inl (by rw [ht]; rfl))
  | move hm => exact hk.task hl rfl (fun u hu => by simp [hu]) (Or.inl hm.clearing)
  | evictDead ht =>
    rename_i t c key
    have hs := shrinks_evict st key c
    exact hk.task hl (t := t) hs.conns (fun u hu => by simp [hu,hs.tasks])
      (Or.inl (by rw [ht]; rfl))
  | evictTunnel ht hf =>
    exact hk.same hl (shrinks_evict st _ _).conns (shrinks_evict st _ _).tasks
  | prune debug ht => exact hk.pruneNext ht (ho _ _ ht)
  | environment failed timeout now => exact hk.same hl rfl rfl
  | close failed hd => exact hk.same hl rfl rfl
  | driverLock hd => exact hk.same hl rfl rfl
  | driverWork hd hh =>
    refine hk.same hl ?_ (closeHandler_tasks st _ _)
    simp only [closeHandler]
    split_ifs
    · exact (shrinks_clearSlot st _).conns
    · rfl

omit [DecidableEq K] in
theorem Task.clearing_inCall {x : Task K} {s : SlotId K} (h : x.clearing=some s) :
    x.inCall=true := by
  simp only [clearing] at h
  split at h <;> first | rfl | cases h

/-- In every run whose prunes are orderly, a slot with a connection is the registered one
whenever no call of the pool is in progress. -/
theorem pruned_slots_keep_nothing {timeout : Option Nat} {as : List (Action K)} {st : State K}
    (hw : Within step Orderly (State.new timeout) as)
    (h : run step (State.new timeout) as=some st) (hq : ∀ t, (st.tasks t).inCall=false)
    {s : SlotId K} {c : Nat} (hc : st.held s=some c) : st.Registered s := by
  have hk := run_within Kept.step hw (kept_new timeout) h
  rcases hk s (Or.inl ⟨c,hc⟩) with hr|⟨t,ht⟩
  · exact hr
  · have hi := Task.clearing_inCall ht
    rw [hq t] at hi
    cases hi

/-- The endpoint is pruned, and a new slot takes the next connection. -/
def pruneThenConnect : List (Action Nat) :=
  [.connect 1 0,.lock 1,.work 1,.handshake 1 true,.store 1,
    .pruneToEndpoints 2 [] [⟨0,0⟩] false,.next 2 false,.lock 2,.work 2,.next 2 false,
    .connect 3 0,.lock 3,.work 3,.handshake 3 true,.store 3]

theorem pruned_slots_keep_nothing_after_prune : ∃ st : State Nat,
    run step (State.new none) pruneThenConnect=some st ∧ st.held ⟨0,1⟩=some 2 ∧
    st.Registered ⟨0,1⟩ := by
  have hw : Within step Orderly (State.new none) pruneThenConnect := by
    iterate 2 refine within_cons trivial rfl ?_
    refine within_cons (fun s stale h => by cases h) rfl ?_
    iterate 3 refine within_cons trivial rfl ?_
    refine within_cons ?_ rfl ?_
    · intro s stale h n hn
      cases h
      cases hn
      rfl
    refine within_cons trivial rfl ?_
    refine within_cons ?_ rfl ?_
    · intro s stale h u
      cases h
      match u with
      | 0 | 1 | 2 | 3 => decide
      | n+4 => exact (by simp : (none : Option (SlotId Nat))≠some ⟨0,0⟩)
    refine within_cons (fun s stale h => by cases h) rfl ?_
    iterate 2 refine within_cons trivial rfl ?_
    refine within_cons (fun s stale h => by cases h) rfl ?_
    iterate 2 refine within_cons trivial rfl ?_
    trivial
  have hr : ∃ st : State Nat, run step (State.new none) pruneThenConnect=some st ∧
      st.held ⟨0,1⟩=some 2 ∧ ∀ t, (st.tasks t).inCall=false := by
    refine ⟨_,rfl,by decide,?_⟩
    intro t
    match t with
    | 0 | 1 | 2 | 3 => rfl
    | n+4 => rfl
  obtain ⟨st,hr,hc,hq⟩ := hr
  exact ⟨st,hr,hc,pruned_slots_keep_nothing hw hr hq hc⟩

/-- A getter finds the slot of connection 1, `prune_to_endpoints` removes and clears the slot,
and the getter dials into it. -/
def connectDuringPrune : List (Action Nat) :=
  [.connect 1 0,.lock 1,.work 1,.handshake 1 true,.store 1,.connect 2 0,
    .pruneToEndpoints 3 [] [⟨0,0⟩] false,.next 3 false,.lock 3,.work 3,.next 3 false,
    .lock 2,.work 2,.handshake 2 true,.store 2]

theorem pruned_slot_leaks : ∃ st : State Nat,
    run step (State.new none) connectDuringPrune=some st ∧ (∀ t, (st.tasks t).inCall=false) ∧
    st.held ⟨0,0⟩=some 2 ∧ ¬st.Registered ⟨0,0⟩ := by
  refine ⟨_,rfl,?_,by decide,by decide⟩
  intro t
  match t with
  | 0 | 1 | 2 | 3 => rfl
  | n+4 => rfl

end Tobira.Pool
