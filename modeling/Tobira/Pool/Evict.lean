import Tobira.Pool.History

namespace Tobira.Pool

open Tobira.Framework

variable {K : Type}

/-- The endpoint and the connection of the task that calls `evict`: `poll_ready` failed on the
connection, or a tunnel on it met a connection-level error. -/
def evicts (st : State K) (t : Nat) : Option (K×Nat) :=
  match st.tasks t with
  | .dead key c => some (key,c)
  | .tunnel key c => if st.failed c then some (key,c) else none
  | _ => none

variable [DecidableEq K]

/-- An `evict` takes out of a slot no other connection than the one that failed. -/
def EvictsOwn (st : State K) : Action K → Prop
  | .evict t => ∀ key c, evicts st t=some (key,c) → ∀ st', step st (.evict t)=some st' →
      ∀ s i, st.held s=some i → st'.held s≠some i → i=c
  | _ => True

/-- When an `evict` gets the lock, no connection but the failed one has been established on
the registered slot since the slot was last cleared. -/
def Unreplaced (st : State K) : Action K → Prop
  | .evict t => ∀ key c, evicts st t=some (key,c) → ∀ s : SlotId K, s.key=key →
      st.Registered s → (st.slots s).holder=none → ∀ i, current s st.log=some i → i=c
  | _ => True

/-- `evict` empties the registered slot of the key, if nobody holds it, and no other. -/
theorem held_evict (st : State K) (key : K) (c : Nat) (s : SlotId K) :
    (evict st key c).held s=
      if s.key=key ∧ st.Registered s ∧ (st.slots s).holder=none then none else st.held s := by
  rw [evict]
  split
  · rename_i hn
    rw [if_neg]
    intro h
    obtain ⟨rfl,hr,-⟩ := h
    rw [State.Registered,hn] at hr
    cases hr
  · rename_i n hn
    dsimp only
    split_ifs with hh hs hs
    · rw [held_clearSlot,held_note,ite_eq_left_iff]
      intro hne
      obtain ⟨rfl,hr,-⟩ := hs
      rw [State.Registered,hn] at hr
      cases hr
      exact absurd rfl hne
    · rw [held_clearSlot,held_note,if_neg]
      intro he
      subst he
      exact hs ⟨rfl,hn,hh⟩
    · obtain ⟨rfl,hr,hf⟩ := hs
      rw [State.Registered,hn] at hr
      cases hr
      exact absurd hf hh
    · rfl

theorem step_evict {st : State K} {t c : Nat} {key : K} (h : evicts st t=some (key,c)) :
    ∃ st', step st (.evict t)=some st' ∧ ∀ s, st'.held s=(evict st key c).held s := by
  simp only [evicts] at h
  split at h
  · rename_i heq
    cases h
    exact ⟨(evict st key c).setTask t (.evicted key c),by rw [step,heq],fun _ => rfl⟩
  · rename_i heq
    split_ifs at h with hf
    cases h
    exact ⟨evict st key c,by rw [step,heq]; simp [hf],fun _ => rfl⟩
  · cases h

/-- A slot that nobody holds has what the log says. -/
theorem Traced.current_free {st : State K} (h : Traced st) {s : SlotId K}
    (hf : (st.slots s).holder=none) : current s st.log=st.held s := by
  apply h.2.free
  intro t i hd
  rw [(h.1.dial hd).1] at hf
  cases hf

theorem evictsOwn_iff {st : State K} (h : Traced st) (a : Action K) :
    EvictsOwn st a ↔ Unreplaced st a := by
  cases a with
  | evict t =>
    apply forall_congr'
    intro key
    apply forall_congr'
    intro c
    apply imp_congr_right
    intro he
    obtain ⟨st',hs,hh⟩ := step_evict he
    constructor
    · intro ho s hk hr hf i hc
      rw [h.current_free hf] at hc
      apply ho st' hs s i hc
      rw [hh,held_evict,if_pos ⟨hk,hr,hf⟩]
      simp
    · intro hu st'' hs' s i hc hn
      rw [hs] at hs'
      cases hs'
      rw [hh,held_evict] at hn
      split_ifs at hn with hp
      · obtain ⟨hk,hr,hf⟩ := hp
        exact hu s hk hr hf i (by rw [h.current_free hf,hc])
      · exact absurd hc hn
  | _ => exact Iff.rfl

/-- In every run, evictions stay with the failed connection exactly when each of them comes
before a replacement is established. -/
theorem evict_spares_replacement_iff (timeout : Option Nat) (as : List (Action K)) :
    Within step EvictsOwn (State.new timeout) as ↔
      Within step Unreplaced (State.new timeout) as :=
  within_congr Traced.step (fun _ a h => evictsOwn_iff h a) (traced_new timeout) as

/-- Connection 1 closes, its handler clears the slot and connection 2 takes its place, while a
tunnel is still open on connection 1. -/
def replacedBeforeEvict : List (Action Nat) :=
  [.connect 1 0,.lock 1,.work 1,.handshake 1 true,.store 1,.pollReady 1 true,.close 1,
    .driverLock 1,.driverWork 1,.connect 2 0,.lock 2,.work 2,.handshake 2 true,.store 2]

theorem evict_discards_replacement :
    ¬Within step EvictsOwn (State.new none : State Nat) (replacedBeforeEvict++[.evict 1]) := by
  intro h
  have he := h.at_run (s := State.new none) rfl
  have hc : 2=1 := he 0 1 rfl _ rfl ⟨0,0⟩ 2 (by decide) (by decide)
  cases hc

end Tobira.Pool
