import Mathlib.Data.List.Basic

namespace Tobira.Framework

/-- A fair asynchronous mutex: an unlock passes the lock to the first task in the queue. -/
structure Mutex (ω α : Type*) where
  value : α
  holder : Option ω
  queue : List ω

namespace Mutex
variable {ω α : Type*}

def new (value : α) : Mutex ω α := ⟨value,none,[]⟩

def lock (m : Mutex ω α) (o : ω) : Mutex ω α :=
  match m.holder with
  | none => { m with holder := some o }
  | some _ => { m with queue := m.queue++[o] }

def unlock (m : Mutex ω α) : Mutex ω α :=
  match m.queue with
  | [] => { m with holder := none }
  | o::queue => { m with holder := some o,queue := queue }

def set (m : Mutex ω α) (value : α) : Mutex ω α := { m with value := value }

@[simp] theorem lock_value (m : Mutex ω α) (o : ω) : (m.lock o).value=m.value := by
  simp only [lock]
  split <;> rfl

@[simp] theorem unlock_value (m : Mutex ω α) : m.unlock.value=m.value := by
  simp only [unlock]
  split <;> rfl

/-- Asking for a lock takes it from nobody. -/
theorem lock_holder {m : Mutex ω α} {o h : ω} (hm : m.holder=some h) :
    (m.lock o).holder=some h := by
  rw [lock,hm]

/-- The holder and the queue behind it. -/
def parties (m : Mutex ω α) : List ω := m.holder.toList++m.queue

/-- Nobody queues for a free lock. -/
def Proper (m : Mutex ω α) : Prop := m.holder=none → m.queue=[]

theorem proper_new (value : α) : (Mutex.new value : Mutex ω α).Proper := fun _ => rfl

theorem Proper.lock {m : Mutex ω α} (h : m.Proper) (o : ω) :
    (m.lock o).Proper ∧ (m.lock o).parties=m.parties++[o] := by
  cases hh : m.holder with
  | none =>
    simp only [Mutex.lock,hh]
    refine ⟨fun he => (by cases he),?_⟩
    simp [parties,hh,h hh]
  | some x =>
    simp only [Mutex.lock,hh]
    refine ⟨fun he => (by cases he),?_⟩
    simp [parties,hh]

theorem unlock_proper (m : Mutex ω α) : m.unlock.Proper := by
  simp only [unlock]
  split
  · exact fun _ => ‹_›
  · exact fun he => by cases he

theorem unlock_parties {m : Mutex ω α} {o : ω} (h : m.holder=some o) :
    m.unlock.parties=m.parties.tail := by
  simp only [unlock,parties,h]
  split
  · simp [*]
  · simp [*]

theorem parties_head {m : Mutex ω α} {o : ω} (h : m.holder=some o) :
    m.parties.head?=some o := by
  rw [parties,h]
  rfl

theorem parties_tail {m : Mutex ω α} (h : m.Proper) : m.parties.tail=m.queue := by
  cases hh : m.holder with
  | none => simp [parties,hh,h hh]
  | some o => simp [parties,hh]

end Mutex

end Tobira.Framework
