import Tobira.Pool.Effects

namespace Tobira.Pool

open Tobira.Framework

variable {K : Type}

/-- Whose step under a guard an action is. -/
def Action.mover : Action K → Option Owner
  | .work t | .handshake t _ | .store t => some (.task t)
  | .driverWork c => some (.driver c)
  | _ => none

/-- Where a task can go outside the guards without touching the map. -/
inductive Hop (now : Nat) : Task K → Task K → Prop where
  | ready (key : K) (c : Nat) : Hop now (.ready key c) (.tunnel key c)
  | dead (key : K) (c : Nat) : Hop now (.ready key c) (.dead key c)
  | again (key : K) (old c : Nat) : Hop now (.again key old c) (.tunnel key c)
  | giveUp (key : K) (old c : Nat) : Hop now (.again key old c) .idle
  | closeTunnel (key : K) (c : Nat) : Hop now (.tunnel key c) .idle
  | startPrune (stale : List (SlotId K)) : Hop now .idle (.loop (.prune stale))
  | startPruneDebug (stale : List (SlotId K)) : Hop now .idle (.snapshot (.prune stale))
  | startScan (maxIdle : Nat) (slots : List (SlotId K)) :
      Hop now .idle (.loop (.scan now maxIdle slots))
  | startScanDebug (maxIdle : Nat) (slots : List (SlotId K)) :
      Hop now .idle (.counting slots (.scan now maxIdle slots))
  | snapshot (slots : List (SlotId K)) (rest : Rest K) :
      Hop now (.snapshot rest) (.counting slots rest)
  | count (s : SlotId K) (slots : List (SlotId K)) (rest : Rest K) :
      Hop now (.counting (s::slots) rest) (.enter s (.count slots rest))
  | counted (rest : Rest K) : Hop now (.counting [] rest) (.loop rest)
  | scan (start maxIdle : Nat) (s : SlotId K) (slots : List (SlotId K)) :
      Hop now (.loop (.scan start maxIdle (s::slots))) (.enter s (.scan start maxIdle slots))
  | scanned (start maxIdle : Nat) : Hop now (.loop (.scan start maxIdle [])) .idle
  | pruned : Hop now (.loop (.prune [])) .idle
  | prunedDebug : Hop now (.loop (.prune [])) (.snapshot .pruned)
  | reported : Hop now (.loop .pruned) .idle

variable [DecidableEq K]

/-- Everything a step can do, with each branch as the code has it. -/
inductive Does (st : State K) : Action K → State K → Prop where
  | connect {t : Nat} (key : K) (h : st.tasks t=.idle) :
      Does st (.connect t key) (getOrCreate st t .first key)
  | reconnect {t c : Nat} {key : K} (h : st.tasks t=.evicted key c) :
      Does st (.reconnect t) (getOrCreate st t (.retry c) key)
  | lock {t : Nat} {s : SlotId K} {job : Job K} (h : st.tasks t=.enter s job) :
      Does st (.lock t) ((st.lockSlot s (.task t)).setTask t (.locking s job))
  | work {t : Nat} {s : SlotId K} {job : Job K} (h : st.tasks t=.locking s job)
      (hh : (st.slots s).holder=some (.task t)) : Does st (.work t) (locked st t s job)
  | connected {t id : Nat} {caller : Caller} {s : SlotId K} (h : st.tasks t=.dialing caller s id) :
      Does st (.handshake t true) (connected st t caller s id)
  | refused {t id : Nat} {caller : Caller} {s : SlotId K} (h : st.tasks t=.dialing caller s id) :
      Does st (.handshake t false) ((st.unlockSlot s).setTask t .idle)
  | store {t id : Nat} {caller : Caller} {s : SlotId K} (h : st.tasks t=.dialed caller s id) :
      Does st (.store t) (finish (st.putConn s ⟨id,st.now⟩) t caller s id)
  | hop {a : Action K} {t : Nat} {y : Task K} (h : Hop st.now (st.tasks t) y) (ha : a.mover=none) :
      Does st a (st.setTask t y)
  | evictDead {t c : Nat} {key : K} (h : st.tasks t=.dead key c) :
      Does st (.evict t) ((evict st key c).setTask t (.evicted key c))
  | evictTunnel {t c : Nat} {key : K} (h : st.tasks t=.tunnel key c) (hf : st.failed c=true) :
      Does st (.evict t) (evict st key c)
  | prune {t : Nat} {s : SlotId K} {stale : List (SlotId K)} (debug : Bool)
      (h : st.tasks t=.loop (.prune (s::stale))) :
      Does st (.next t debug) (pruneNext st t s stale)
  | noTimeout {t : Nat} {slots : List (SlotId K)} {debug : Bool} (h : st.idleTimeout=none) :
      Does st (.pruneIdle t slots debug) st
  | fail {c : Nat} : Does st (.fail c) { st with failed := Function.update st.failed c true }
  | close {c : Nat} {s : SlotId K} (h : st.drivers c=some ⟨s,.running⟩) :
      Does st (.close c)
        ({ st with failed := Function.update st.failed c true }.setDriver c ⟨s,.closing⟩)
  | driverLock {c : Nat} {s : SlotId K} (h : st.drivers c=some ⟨s,.closing⟩) :
      Does st (.driverLock c) ((st.lockSlot s (.driver c)).setDriver c ⟨s,.locking⟩)
  | driverWork {c : Nat} {s : SlotId K} (h : st.drivers c=some ⟨s,.locking⟩)
      (hh : (st.slots s).holder=some (.driver c)) : Does st (.driverWork c) (closeHandler st c s)
  | setIdleTimeout (timeout : Option Nat) :
      Does st (.setIdleTimeout timeout) { st with idleTimeout := timeout }
  | tick : Does st .tick { st with now := st.now+1 }

theorem stepPollReady_does {st st' : State K} {t : Nat} {ok : Bool}
    (h : stepPollReady st t ok=some st') : Does st (.pollReady t ok) st' := by
  simp only [stepPollReady] at h
  split at h
  · rename_i key c heq
    cases h
    exact .hop (heq ▸ .ready key c) rfl
  · rename_i key c heq
    split_ifs at h
    cases h
    exact .hop (heq ▸ .dead key c) rfl
  · rename_i key old c heq
    cases h
    exact .hop (heq ▸ .again key old c) rfl
  · rename_i key old c heq
    split_ifs at h
    cases h
    exact .hop (heq ▸ .giveUp key old c) rfl
  · cases h

theorem stepNext_does {st st' : State K} {t : Nat} {debug : Bool}
    (h : stepNext st t debug=some st') : Does st (.next t debug) st' := by
  simp only [stepNext] at h
  split at h
  all_goals
    rename_i heq
    cases h
  · cases debug with
    | true => exact .hop (heq ▸ .prunedDebug) rfl
    | false => exact .hop (heq ▸ .pruned) rfl
  · exact .prune debug heq
  · exact .hop (heq ▸ .reported) rfl
  · exact .hop (heq ▸ .scanned _ _) rfl
  · exact .hop (heq ▸ .scan _ _ _ _) rfl
  · exact .hop (heq ▸ .counted _) rfl
  · exact .hop (heq ▸ .count _ _ _) rfl

theorem step_does {st st' : State K} {a : Action K} (h : step st a=some st') :
    Does st a st' := by
  cases a with
  | pollReady t ok => exact stepPollReady_does h
  | next t debug => exact stepNext_does h
  | handshake t ok =>
    simp only [step] at h
    split at h <;> cases h
    cases ok with
    | true => exact .connected ‹_›
    | false => exact .refused ‹_›
  | evict t =>
    simp only [step] at h
    split at h
    · cases h
      exact .evictDead ‹_›
    · split_ifs at h with hf
      cases h
      exact .evictTunnel ‹_› hf
    · cases h
  | closeTunnel t =>
    simp only [step] at h
    split at h <;> cases h
    rename_i heq
    exact .hop (heq ▸ .closeTunnel _ _) rfl
  | pruneToEndpoints t active stale debug =>
    by_cases hc : st.tasks t=.idle ∧ stale.Perm (st.entries.filter (fun s => s.key∉active))
    · rw [step,if_pos hc] at h
      cases h
      cases debug with
      | true => exact .hop (hc.1 ▸ .startPruneDebug stale) rfl
      | false => exact .hop (hc.1 ▸ .startPrune stale) rfl
    · rw [step,if_neg hc] at h
      cases h
  | poolCounts t slots =>
    simp only [step] at h
    split at h
    · rename_i heq
      split_ifs at h
      cases h
      exact .hop (heq ▸ .snapshot slots _) rfl
    · cases h
  | pruneIdle t slots debug =>
    by_cases hc : st.tasks t=.idle
    · rw [step,if_pos hc] at h
      split at h
      · cases h
        exact .noTimeout ‹_›
      · by_cases hp : slots.Perm st.entries
        · rw [if_pos hp] at h
          cases h
          cases debug with
          | true => exact .hop (hc ▸ .startScanDebug _ slots) rfl
          | false => exact .hop (hc ▸ .startScan _ slots) rfl
        · rw [if_neg hp] at h
          cases h
    · rw [step,if_neg hc] at h
      cases h
  | fail c =>
    simp only [step] at h
    split at h <;> cases h
    exact .fail
  | setIdleTimeout timeout =>
    cases h
    exact .setIdleTimeout timeout
  | tick =>
    cases h
    exact .tick
  | connect t key =>
    simp only [step] at h
    split at h <;> cases h
    exact .connect key ‹_›
  | reconnect t =>
    simp only [step] at h
    split at h <;> cases h
    exact .reconnect ‹_›
  | lock t =>
    simp only [step] at h
    split at h <;> cases h
    exact .lock ‹_›
  | work t =>
    simp only [step] at h
    split at h
    · split_ifs at h with hh
      cases h
      exact .work ‹_› hh
    · cases h
  | store t =>
    simp only [step] at h
    split at h <;> cases h
    exact .store ‹_›
  | close c =>
    simp only [step] at h
    split at h <;> cases h
    exact .close ‹_›
  | driverLock c =>
    simp only [step] at h
    split at h <;> cases h
    exact .driverLock ‹_›
  | driverWork c =>
    simp only [step] at h
    split at h
    · split_ifs at h with hh
      cases h
      exact .driverWork ‹_› hh
    · cases h

end Tobira.Pool
