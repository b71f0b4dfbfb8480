import Tobira.Pool.Model

namespace Tobira.Pool

open Tobira.Framework

variable {K : Type}

namespace Task

/-- The slot of the `get_or_create` call in progress. -/
def getting : Task K → Option (SlotId K)
  | .enter s (.get _) | .locking s (.get _) | .dialing _ s _ | .dialed _ s _ => some s
  | _ => none

/-- The slot a `prune_to_endpoints` call has removed from the map and not yet cleared. -/
def clearing : Task K → Option (SlotId K)
  | .enter s (.clear _) | .locking s (.clear _) => some s
  | _ => none

/-- Inside `get_or_create`, `prune_to_endpoints` or `prune_idle`. -/
def inCall : Task K → Bool
  | .enter _ _ | .locking _ _ | .dialing _ _ _ | .dialed _ _ _ => true
  | .snapshot _ | .counting _ _ | .loop _ => true
  | _ => false

/-- Neither calling `get_or_create` nor clearing a removed slot nor past a failed connection. -/
def plain : Task K → Bool
  | .idle | .tunnel _ _ | .snapshot _ | .counting _ _ | .loop _ => true
  | .enter _ (.scan _ _ _) | .enter _ (.count _ _) => true
  | _ => false

theorem getting_plain {x : Task K} (h : x.plain=true) : x.getting=none := by
  simp only [plain] at h
  split at h <;> first | rfl | cases h

theorem getting_resume (key : K) (c : Nat) (caller : Caller) :
    (resume key c caller).getting=none := by cases caller <;> rfl

end Task

/-- The steps that only move one task. -/
inductive Moves : Task K → Task K → Prop where
  | failed (key : K) (c : Nat) : Moves (.ready key c) (.dead key c)
  | plain {x y : Task K} (hg : x.getting=none) (hc : x.clearing=none) (hy : y.plain=true) :
      Moves x y

theorem Moves.clearing {x y : Task K} (h : Moves x y) : x.clearing=none := by
  cases h with
  | failed key c => rfl
  | plain hg hc hy => exact hc

theorem Moves.getting {x y : Task K} (h : Moves x y) : y.getting=none := by
  cases h with
  | failed key c => rfl
  | plain hg hc hy => exact Task.getting_plain hy

theorem stepPollReady_moves {st st' : State K} {t : Nat} {ok : Bool}
    (h : stepPollReady st t ok=some st') : ∃ y, Moves (st.tasks t) y ∧ st'=st.setTask t y := by
  simp only [stepPollReady] at h
  split at h
  · rename_i key c heq
    cases h
    exact ⟨_,.plain (by rw [heq]; rfl) (by rw [heq]; rfl) rfl,rfl⟩
  · rename_i key c heq
    split_ifs at h
    cases h
    exact ⟨_,heq ▸ .failed key c,rfl⟩
  · rename_i key old c heq
    cases h
    exact ⟨_,.plain (by rw [heq]; rfl) (by rw [heq]; rfl) rfl,rfl⟩
  · rename_i key old c heq
    split_ifs at h
    cases h
    exact ⟨_,.plain (by rw [heq]; rfl) (by rw [heq]; rfl) rfl,rfl⟩
  · cases h

variable [DecidableEq K]

/-- Everything a step can do. -/
inductive Steps (st : State K) : Action K → State K → Prop where
  | connect {t : Nat} (key : K) (h : st.tasks t=.idle) :
      Steps st (.connect t key) (getOrCreate st t .first key)
  | reconnect {t c : Nat} {key : K} (h : st.tasks t=.evicted key c) :
      Steps st (.reconnect t) (getOrCreate st t (.retry c) key)
  | lock {t : Nat} {s : SlotId K} {job : Job K} (h : st.tasks t=.enter s job) :
      Steps st (.lock t) ((st.lockSlot s (.task t)).setTask t (.locking s job))
  | work {t : Nat} {s : SlotId K} {job : Job K} (h : st.tasks t=.locking s job)
      (hh : (st.slots s).holder=some (.task t)) : Steps st (.work t) (locked st t s job)
  | connected {t id : Nat} {caller : Caller} {s : SlotId K} (h : st.tasks t=.dialing caller s id) :
      Steps st (.handshake t true) (connected st t caller s id)
  | refused {t id : Nat} {caller : Caller} {s : SlotId K} (h : st.tasks t=.dialing caller s id) :
      Steps st (.handshake t false) ((st.unlockSlot s).setTask t .idle)
  | store {t id : Nat} {caller : Caller} {s : SlotId K} (h : st.tasks t=.dialed caller s id) :
      Steps st (.store t) (finish (st.putConn s ⟨id,st.now⟩) t caller s id)
  | move {a : Action K} {t : Nat} {y : Task K} (h : Moves (st.tasks t) y) :
      Steps st a (st.setTask t y)
  | evictDead {t c : Nat} {key : K} (h : st.tasks t=.dead key c) :
      Steps st (.evict t) ((evict st key c).setTask t (.evicted key c))
  | evictTunnel {t c : Nat} {key : K} (h : st.tasks t=.tunnel key c) (hf : st.failed c=true) :
      Steps st (.evict t) (evict st key c)
  | prune {t : Nat} {s : SlotId K} {stale : List (SlotId K)} (debug : Bool)
      (h : st.tasks t=.loop (.prune (s::stale))) :
      Steps st (.next t debug) (pruneNext st t s stale)
  | environment {a : Action K} (failed : Nat → Bool) (timeout : Option Nat) (now : Nat) :
      Steps st a { st with failed := failed,idleTimeout := timeout,now := now }
  | close {c : Nat} {s : SlotId K} (failed : Nat → Bool) (h : st.drivers c=some ⟨s,.running⟩) :
      Steps st (.close c) ({ st with failed := failed }.setDriver c ⟨s,.closing⟩)
  | driverLock {c : Nat} {s : SlotId K} (h : st.drivers c=some ⟨s,.closing⟩) :
      Steps st (.driverLock c) ((st.lockSlot s (.driver c)).setDriver c ⟨s,.locking⟩)
  | driverWork {c : Nat} {s : SlotId K} (h : st.drivers c=some ⟨s,.locking⟩)
      (hh : (st.slots s).holder=some (.driver c)) : Steps st (.driverWork c) (closeHandler st c s)

theorem stepNext_steps {st st' : State K} {t : Nat} {debug : Bool}
    (h : stepNext st t debug=some st') : Steps st (.next t debug) st' := by
  have plain {y : Task K} (hg : (st.tasks t).getting=none) (hc : (st.tasks t).clearing=none)
      (hy : y.plain=true) : Steps st (.next t debug) (st.setTask t y) := .move (.plain hg hc hy)
  simp only [stepNext] at h
  split at h
  all_goals
    rename_i heq
    cases h
  · exact plain (by rw [heq]; rfl) (by rw [heq]; rfl) (by cases debug <;> rfl)
  · exact .prune debug heq
  all_goals exact plain (by rw [heq]; rfl) (by rw [heq]; rfl) rfl

theorem step_steps {st st' : State K} {a : Action K} (h : step st a=some st') :
    Steps st a st' := by
  cases a with
  | connect t key =>
    simp only [step] at h
    split at h <;> cases h
    exact .connect key ‹_›
  | reconnect t =>
    simp only [step] at h
    split at h <;> cases h
    exact .reconnect ‹_›
  | lock t =>
    simp only [step] at h
    split at h <;> cases h
    exact .lock ‹_›
  | work t =>
    simp only [step] at h
    split at h
    · split_ifs at h with hh
      cases h
      exact .work ‹_› hh
    · cases h
  | handshake t ok =>
    simp only [step] at h
    split at h <;> cases h
    cases ok with
    | true => exact .connected ‹_›
    | false => exact .refused ‹_›
  | store t =>
    simp only [step] at h
    split at h <;> cases h
    exact .store ‹_›
  | pollReady t ok =>
    obtain ⟨y,hm,rfl⟩ := stepPollReady_moves h
    exact .move hm
  | evict t =>
    simp only [step] at h
    split at h
    · cases h
      exact .evictDead ‹_›
    · split_ifs at h with hf
      cases h
      exact .evictTunnel ‹_› hf
    · cases h
  | closeTunnel t =>
    simp only [step] at h
    split at h <;> cases h
    rename_i heq
    exact .move (.plain (by rw [heq]; rfl) (by rw [heq]; rfl) rfl)
  | pruneToEndpoints t active stale debug =>
    by_cases hc : st.tasks t=.idle ∧ stale.Perm (st.entries.filter (fun s => s.key∉active))
    · rw [step,if_pos hc] at h
      cases h
      exact .move (.plain (by rw [hc.1]; rfl) (by rw [hc.1]; rfl) (by cases debug <;> rfl))
    · rw [step,if_neg hc] at h
      cases h
  | poolCounts t slots =>
    simp only [step] at h
    split at h
    · rename_i heq
      split_ifs at h
      cases h
      exact .move (.plain (by rw [heq]; rfl) (by rw [heq]; rfl) rfl)
    · cases h
  | pruneIdle t slots debug =>
    by_cases hc : st.tasks t=.idle
    · rw [step,if_pos hc] at h
      split at h
      · cases h
        exact .environment _ _ _
      · by_cases hp : slots.Perm st.entries
        · rw [if_pos hp] at h
          cases h
          exact .move (.plain (by rw [hc]; rfl) (by rw [hc]; rfl) (by cases debug <;> rfl))
        · rw [if_neg hp] at h
          cases h
    · rw [step,if_neg hc] at h
      cases h
  | next t debug => exact stepNext_steps h
  | fail c =>
    simp only [step] at h
    split at h <;> cases h
    exact .environment _ _ _
  | close c =>
    simp only [step] at h
    split at h <;> cases h
    exact .close _ ‹_›
  | driverLock c =>
    simp only [step] at h
    split at h <;> cases h
    exact .driverLock ‹_›
  | driverWork c =>
    simp only [step] at h
    split at h
    · split_ifs at h with hh
      cases h
      exact .driverWork ‹_› hh
    · cases h
  | setIdleTimeout timeout =>
    cases h
    exact .environment _ _ _
  | tick =>
    cases h
    exact .environment _ _ _

end Tobira.Pool
