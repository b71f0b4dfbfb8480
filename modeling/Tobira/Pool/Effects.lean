import Tobira.Pool.Steps

namespace Tobira.Pool

open Tobira.Framework

variable {K : Type}

/-- The new state has the tasks, the drivers and the map of the old one and no connection
in a slot that was not there. -/
structure Shrinks (st st' : State K) : Prop where
  conns : st'.conns=st.conns
  nextSlot : st'.nextSlot=st.nextSlot
  nextConnId : st'.nextConnId=st.nextConnId
  drivers : st'.drivers=st.drivers
  tasks : st'.tasks=st.tasks
  held : ∀ s c, st'.held s=some c → st.held s=some c

theorem Shrinks.trans {a b c : State K} (h : Shrinks a b) (h' : Shrinks b c) : Shrinks a c where
  conns := h'.conns.trans h.conns
  nextSlot := h'.nextSlot.trans h.nextSlot
  nextConnId := h'.nextConnId.trans h.nextConnId
  drivers := h'.drivers.trans h.drivers
  tasks := h'.tasks.trans h.tasks
  held := fun s c hs => h.held s c (h'.held s c hs)

/-- What a task shows after an update is its own, or that of the task put in its place. -/
theorem setTask_some {β : Type} {f : Task K → Option β} {st : State K} {t u : Nat} {y : Task K}
    {b : β} (h : f ((st.setTask t y).tasks u)=some b) :
    (u=t ∧ f y=some b) ∨ f (st.tasks u)=some b := by
  by_cases hu : u=t
  · rw [State.setTask_tasks,hu,Function.update_self] at h
    exact Or.inl ⟨hu,h⟩
  · rw [State.setTask_tasks,Function.update_of_ne hu] at h
    exact Or.inr h

@[simp] theorem held_setTask (st : State K) (t : Nat) (y : Task K) (x : SlotId K) :
    (st.setTask t y).held x=st.held x := rfl

@[simp] theorem held_note (st : State K) (e : Event K) (x : SlotId K) :
    (st.note e).held x=st.held x := rfl

theorem shrinks_note (st : State K) (e : Event K) : Shrinks st (st.note e) :=
  ⟨rfl,rfl,rfl,rfl,rfl,fun _ _ h => h⟩

variable [DecidableEq K]

theorem held_setSlot (st : State K) (s x : SlotId K) (m : Slot) :
    (st.setSlot s m).held x=if x=s then m.value.map PooledConn.id else st.held x := by
  by_cases h : x=s
  · subst h
    simp [State.held]
  · simp [State.held,h]

theorem held_setSlot_same (st : State K) (s x : SlotId K) {m : Slot}
    (hm : m.value.map PooledConn.id=st.held s) : (st.setSlot s m).held x=st.held x := by
  rw [held_setSlot]
  split_ifs with h
  · rw [hm,h]
  · rfl

@[simp] theorem held_lockSlot (st : State K) (s x : SlotId K) (o : Owner) :
    (st.lockSlot s o).held x=st.held x :=
  held_setSlot_same st s x (by rw [Mutex.lock_value]; rfl)

@[simp] theorem held_unlockSlot (st : State K) (s x : SlotId K) :
    (st.unlockSlot s).held x=st.held x :=
  held_setSlot_same st s x (by rw [Mutex.unlock_value]; rfl)

theorem held_putConn (st : State K) (s x : SlotId K) (conn : PooledConn) :
    (st.putConn s conn).held x=if x=s then some conn.id else st.held x := held_setSlot st s x _

theorem held_clearSlot (st : State K) (s x : SlotId K) :
    (st.clearSlot s).held x=if x=s then none else st.held x := by
  simp only [State.clearSlot]
  split
  · split_ifs with hx
    · rw [hx]
      assumption
    · rfl
  · exact held_setSlot st s x _

theorem shrinks_lockSlot (st : State K) (s : SlotId K) (o : Owner) : Shrinks st (st.lockSlot s o) :=
  ⟨rfl,rfl,rfl,rfl,rfl,fun x c h => by rwa [held_lockSlot] at h⟩

theorem shrinks_unlockSlot (st : State K) (s : SlotId K) : Shrinks st (st.unlockSlot s) :=
  ⟨rfl,rfl,rfl,rfl,rfl,fun x c h => by rwa [held_unlockSlot] at h⟩

theorem shrinks_clearSlot (st : State K) (s : SlotId K) : Shrinks st (st.clearSlot s) := by
  have hh : ∀ x c, (st.clearSlot s).held x=some c → st.held x=some c := by
    intro x c h
    rw [held_clearSlot] at h
    split_ifs at h
    exact h
  have hs : st.clearSlot s=st ∨
      ∃ c, st.clearSlot s=(st.setSlot s ((st.slots s).set none)).note (.cleared s c) := by
    simp only [State.clearSlot]
    split
    · exact Or.inl rfl
    · exact Or.inr ⟨_,rfl⟩
  rcases hs with hs|⟨c,hs⟩
  · rw [hs]
    exact ⟨rfl,rfl,rfl,rfl,rfl,fun _ _ h => h⟩
  · rw [hs] at hh ⊢
    exact ⟨rfl,rfl,rfl,rfl,rfl,hh⟩

theorem holder_setSlot_same (st : State K) (s x : SlotId K) {m : Slot}
    (hm : m.holder=(st.slots s).holder) :
    ((st.setSlot s m).slots x).holder=(st.slots x).holder := by
  by_cases h : x=s
  · subst h
    simp [hm]
  · simp [h]

@[simp] theorem holder_clearSlot (st : State K) (s x : SlotId K) :
    ((st.clearSlot s).slots x).holder=(st.slots x).holder := by
  simp only [State.clearSlot]
  split
  · rfl
  · exact holder_setSlot_same st s x rfl

theorem holder_lockSlot (st : State K) {s x : SlotId K} {o h : Owner}
    (hx : (st.slots x).holder=some h) : ((st.lockSlot s o).slots x).holder=some h := by
  by_cases hs : x=s
  · subst hs
    simp [Mutex.lock_holder hx]
  · simp [hs,hx]

theorem shrinks_evict (st : State K) (key : K) (c : Nat) : Shrinks st (evict st key c) := by
  rw [evict]
  split
  · exact ⟨rfl,rfl,rfl,rfl,rfl,fun _ _ h => h⟩
  · dsimp only
    split_ifs
    · exact (shrinks_note st _).trans (shrinks_clearSlot _ _)
    · exact ⟨rfl,rfl,rfl,rfl,rfl,fun _ _ h => h⟩

@[simp] theorem holder_evict (st : State K) (key : K) (c : Nat) (x : SlotId K) :
    ((evict st key c).slots x).holder=(st.slots x).holder := by
  rw [evict]
  split
  · rfl
  · dsimp only
    split_ifs
    · rw [holder_clearSlot]
      rfl
    · rfl

theorem shrinks_scanSlot (st : State K) (now maxIdle : Nat) (s : SlotId K) :
    Shrinks st (scanSlot st now maxIdle s) := by
  simp only [scanSlot]
  split
  · split_ifs
    · exact shrinks_clearSlot st s
    · exact ⟨rfl,rfl,rfl,rfl,rfl,fun _ _ h => h⟩
  · exact ⟨rfl,rfl,rfl,rfl,rfl,fun _ _ h => h⟩

@[simp] theorem holder_scanSlot (st : State K) (now maxIdle : Nat) (s x : SlotId K) :
    ((scanSlot st now maxIdle s).slots x).holder=(st.slots x).holder := by
  simp only [scanSlot]
  split
  · split_ifs
    · exact holder_clearSlot st s x
    · rfl
  · rfl

end Tobira.Pool
