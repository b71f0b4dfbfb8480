import Mathlib.Logic.Function.Basic
import Tobira.Framework.Halt

namespace Tobira.Framework

/-- A state of a machine and how much each of its outlets takes at the moment. -/
structure Roomed (σ ι : Type*) where
  state : σ
  room : ι → Nat

/-- A step of the machine, or an outlet that comes to take another amount. -/
inductive RoomAction (α ι : Type*) where
  | act (a : α)
  | offer (o : ι) (n : Nat)
  deriving DecidableEq,Repr

section Rooms
variable {σ α ι : Type*} [DecidableEq ι]

/-- The machine with outlets: a step that needs room at one of them waits for it and uses it
up. -/
def roomStep (needs : α → Option (ι×Nat)) (step : σ → α → Option σ) (r : Roomed σ ι) :
    RoomAction α ι → Option (Roomed σ ι)
  | .offer o n => some { r with room := Function.update r.room o n }
  | .act a =>
    match needs a with
    | none => (step r.state a).map (fun s => { r with state := s })
    | some (o,n) =>
      if n ≤ r.room o then
        (step r.state a).map (fun s => ⟨s,Function.update r.room o (r.room o-n)⟩)
      else none

/-- The action is one of the machine's, of a kind. -/
def RoomAction.Acts (k : α → Prop) : RoomAction α ι → Prop
  | .act a => k a
  | .offer _ _ => False

/-- What the machine itself does in a schedule. -/
def machineActs (as : List (RoomAction α ι)) : List α :=
  as.filterMap (fun a => match a with
    | .act a => some a
    | .offer _ _ => none)

/-- What is in hand waits for an outlet that takes nothing. -/
def Held {β : Type*} (room : Nat) (items : List β) : Prop := items≠[] ∧ room=0

variable {needs : α → Option (ι×Nat)} {step : σ → α → Option σ}

theorem roomStep_act {r r' : Roomed σ ι} {a : α} (h : roomStep needs step r (.act a)=some r') :
    step r.state a=some r'.state := by
  simp only [roomStep] at h
  split at h
  · obtain ⟨s,hs,rfl⟩ := Option.map_eq_some_iff.mp h
    exact hs
  · split_ifs at h
    obtain ⟨s,hs,rfl⟩ := Option.map_eq_some_iff.mp h
    exact hs

/-- What every step of the machine preserves, the machine with outlets preserves. -/
theorem room_keep {I : σ → Prop} (keep : ∀ s a s', I s → step s a=some s' → I s')
    (r : Roomed σ ι) (a : RoomAction α ι) (r' : Roomed σ ι) (hi : I r.state)
    (h : roomStep needs step r a=some r') : I r'.state := by
  cases a with
  | act a => exact keep _ a _ hi (roomStep_act h)
  | offer o n =>
    cases h
    exact hi

/-- Without the offers, a run of the machine with outlets is one of the machine. -/
theorem room_run {r r' : Roomed σ ι} {as : List (RoomAction α ι)}
    (h : run (roomStep needs step) r as=some r') :
    run step r.state (machineActs as)=some r'.state := by
  induction as generalizing r with
  | nil =>
    cases h
    rfl
  | cons a as ih =>
    obtain ⟨mid,hs,hr⟩ := run_cons h
    cases a with
    | act a =>
      change (step r.state a).bind _=_
      rw [roomStep_act hs]
      exact ih hr
    | offer o n =>
      cases hs
      have hrest := ih hr
      exact hrest

/-- Every run of the machine is one with outlets that take what it needs. -/
theorem run_room {s s' : σ} {as : List α} (h : run step s as=some s') (room : ι → Nat) :
    ∃ bs room', machineActs bs=as ∧
      run (roomStep needs step) ⟨s,room⟩ bs=some ⟨s',room'⟩ := by
  induction as generalizing s room with
  | nil =>
    cases h
    exact ⟨[],room,rfl,rfl⟩
  | cons a as ih =>
    obtain ⟨mid,hs,hr⟩ := run_cons h
    cases hn : needs a with
    | none =>
      have hstep : roomStep needs step ⟨s,room⟩ (.act a)=some ⟨mid,room⟩ := by
        simp only [roomStep,hn,hs]
        rfl
      obtain ⟨bs,room',hbs,hrun⟩ := ih hr room
      refine ⟨.act a::bs,room',congrArg (a::·) hbs,?_⟩
      rw [run,hstep]
      exact hrun
    | some need =>
      obtain ⟨o,n⟩ := need
      have hstep : roomStep needs step ⟨s,Function.update room o n⟩ (.act a)=
          some ⟨mid,Function.update (Function.update room o n) o 0⟩ := by
        simp only [roomStep,hn,hs,Function.update_self]
        rw [if_pos (Nat.le_refl n),Nat.sub_self]
        rfl
      obtain ⟨bs,room',hbs,hrun⟩ := ih hr (Function.update (Function.update room o n) o 0)
      refine ⟨.offer o n::.act a::bs,room',congrArg (a::·) hbs,?_⟩
      change (roomStep needs step ⟨s,Function.update room o n⟩ (.act a)).bind _=_
      rw [hstep]
      exact hrun

/-- With and without the waiting for room the machine comes to the same states. -/
theorem room_reached_iff {s s' : σ} (room : ι → Nat) :
    (∃ as r, run (roomStep needs step) ⟨s,room⟩ as=some r ∧ r.state=s') ↔
      ∃ as, run step s as=some s' := by
  constructor
  · rintro ⟨as,r,h,rfl⟩
    exact ⟨_,room_run h⟩
  · rintro ⟨as,h⟩
    obtain ⟨bs,room',-,hrun⟩ := run_room h room
    exact ⟨bs,_,hrun,rfl⟩

section Stuck
variable {k : α → Prop} {r : Roomed σ ι} (hb : Blocked (roomStep needs step) (RoomAction.Acts k) r)
include hb

theorem blocked_free {a : α} (hk : k a) (hn : needs a=none) : step r.state a=none := by
  have h := hb (.act a) hk
  simp only [roomStep,hn] at h
  exact Option.map_eq_none_iff.mp h

theorem blocked_room {a : α} {o : ι} {n : Nat} (hk : k a) (hn : needs a=some (o,n)) :
    step r.state a=none ∨ r.room o<n := by
  have h := hb (.act a) hk
  simp only [roomStep,hn] at h
  split_ifs at h with hle
  · exact Or.inl (Option.map_eq_none_iff.mp h)
  · exact Or.inr (Nat.lt_of_not_le hle)

end Stuck

/-- A measure that the machine's actions of a kind lower bounds how many of them there can be,
whatever room there is. -/
theorem room_length_le {k : α → Prop} {I : σ → Prop} {w : σ → Nat}
    (keep : ∀ s a s', I s → step s a=some s' → I s')
    (drop : ∀ s a s', I s → k a → step s a=some s' → w s'<w s) {r r' : Roomed σ ι}
    {as : List (RoomAction α ι)} (hi : I r.state) (ha : ∀ a∈as, a.Acts k)
    (h : run (roomStep needs step) r as=some r') : as.length+w r'.state ≤ w r.state := by
  apply run_length_le (I := fun r => I r.state) (w := fun r => w r.state) (room_keep keep) ?_ hi ha h
  intro s a s' hs hk hstep
  cases a with
  | act a => exact drop _ a _ hs hk (roomStep_act hstep)
  | offer o n => exact hk.elim

theorem room_blocked {k : α → Prop} {I : σ → Prop} {w : σ → Nat}
    (keep : ∀ s a s', I s → step s a=some s' → I s')
    (drop : ∀ s a s', I s → k a → step s a=some s' → w s'<w s) {r : Roomed σ ι}
    (hi : I r.state) : ∃ as r', (∀ a∈as, RoomAction.Acts k a) ∧
      run (roomStep needs step) r as=some r' ∧ Blocked (roomStep needs step) (RoomAction.Acts k) r' := by
  apply exists_blocked (I := fun r => I r.state) (w := fun r => w r.state) (room_keep keep) ?_ hi
  intro s a s' hs hk hstep
  cases a with
  | act a => exact drop _ a _ hs hk (roomStep_act hstep)
  | offer o n => exact hk.elim

end Rooms

end Tobira.Framework
