import Mathlib.Order.Basic

namespace Tobira.Framework

/-- A timer that looks every `period` at how long ago the last activity was. `started` is the
time of its creation, when it first fires, and `next` that of its next tick. -/
structure Watchdog where
  now : Nat
  last : Nat
  next : Nat
  started : Nat
  deriving DecidableEq,Repr

namespace Watchdog

def new (now : Nat) : Watchdog := ⟨now,now,now,now⟩

def mark (w : Watchdog) : Watchdog := { w with last := w.now }

def start (w : Watchdog) : Watchdog := { w with next := w.now,started := w.now }

def idleFor (w : Watchdog) : Nat := w.now-w.last

/-- Time passes; a tick that is due is served at most `late` after its time. -/
def advance (late d : Nat) (w : Watchdog) : Option Watchdog :=
  if w.now+d ≤ w.next+late then some { w with now := w.now+d } else none

/-- The next tick is due one period after this one was, however late this one is served. -/
def tick (period : Nat) (w : Watchdog) : Option Watchdog :=
  if w.next ≤ w.now then some { w with next := w.next+period } else none

/-- The timer is served in time, and the last look at the activity was not too long ago. -/
structure Timely (timeout period late : Nat) (w : Watchdog) : Prop where
  order : w.last ≤ w.now
  prompt : w.now ≤ w.next+late
  looked : w.next<w.last+timeout+period ∨ w.next=w.started

variable {timeout period late : Nat} {w w' : Watchdog}

theorem timely_start (h : w.last ≤ w.now) : Timely timeout period late w.start :=
  ⟨h,Nat.le_add_right _ _,Or.inr rfl⟩

theorem Timely.mark (h : Timely timeout period late w) : Timely timeout period late w.mark := by
  refine ⟨Nat.le_refl _,h.prompt,?_⟩
  have ho := h.order
  rcases h.looked with hl|hl
  · left
    change w.next<w.now+timeout+period
    omega
  · exact Or.inr hl

theorem Timely.advance {d : Nat} (h : Timely timeout period late w)
    (ha : w.advance late d=some w') : Timely timeout period late w' := by
  rw [Watchdog.advance] at ha
  split_ifs at ha with hc
  cases ha
  exact ⟨Nat.le_trans h.order (Nat.le_add_right _ _),hc,h.looked⟩

theorem tick_keeps (h : w.tick period=some w') :
    w'.last=w.last ∧ w'.now=w.now ∧ w'.started=w.started ∧ w'.idleFor=w.idleFor := by
  rw [Watchdog.tick] at h
  split_ifs at h
  cases h
  exact ⟨rfl,rfl,rfl,rfl⟩

/-- A tick that finds less than the timeout gives another period. -/
theorem Timely.tick (h : Timely timeout period late w) (hi : w.idleFor<timeout)
    (ht : w.tick period=some w') : Timely timeout period late w' := by
  rw [Watchdog.tick] at ht
  split_ifs at ht with hc
  cases ht
  have ho := h.order
  have hp := h.prompt
  rw [idleFor] at hi
  refine ⟨ho,?_,Or.inl ?_⟩
  · change w.now ≤ w.next+period+late
    omega
  · change w.next+period<w.last+timeout+period
    omega

/-- Nobody is idle for longer than the timeout, a period and the delay in serving a tick. -/
theorem Timely.bound (h : Timely timeout period late w) :
    w.now<w.last+timeout+period+late ∨ w.now ≤ w.started+late := by
  have hp := h.prompt
  rcases h.looked with hl|hl
  · left
    omega
  · right
    omega

end Watchdog

end Tobira.Framework
