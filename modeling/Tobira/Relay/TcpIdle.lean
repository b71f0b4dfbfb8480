import Tobira.Relay.Transparency
import Tobira.Relay.Tunnel

namespace Tobira.Relay

open Tobira.Framework Tobira.Transport

/-- A TCP inbound relayed by `relay_tcp` with an idle timeout. -/
structure WatchedTcp where
  session : TcpSession
  clock : Watchdog
  idle : Option Nat
  deriving DecidableEq,Repr

inductive WatchedEvent where
  | event (e : TcpEvent)
  | tick
  | advance (d : Nat)
  deriving DecidableEq,Repr

/-- `ActivityStream` calls `mark` for every read and write of at least one byte. -/
def TcpAction.marks : TcpAction → Bool
  | .upRead _ | .upWrite _ | .downRead _ | .downWrite _ => true
  | _ => false

/-- The activity and the timer are created with the copy. -/
def watchTcp (clock : Watchdog) (a : TcpAction) : Watchdog :=
  if a=.startCopy then clock.mark.start else if a.marks then clock.mark else clock

/-- `relay_tcp` with `copy_bidirectional_with_idle_timeout`. -/
def watchedTcp (timeout late : Nat) (st : WatchedTcp) : WatchedEvent → Option WatchedTcp
  | .event (.tcp a) =>
    if st.idle=none then
      (tcpSession st.session (.tcp a)).map
        (fun s => { st with session := s,clock := watchTcp st.clock a })
    else none
  | .event e => (tcpSession st.session e).map (fun s => { st with session := s })
  | .tick =>
    if st.session.relay.phase=.copying ∧ st.idle=none then
      (st.clock.tick (idleCheckInterval timeout)).map (fun w =>
        if timeout ≤ w.idleFor then { st with clock := w,idle := some w.idleFor }
        else { st with clock := w })
    else none
  | .advance d =>
    if st.session.relay.phase=.copying ∧ st.idle=none then
      (st.clock.advance late d).map (fun w => { st with clock := w })
    else some { st with clock := { st.clock with now := st.clock.now+d } }

/-- Everything a step of the watched relay can do. -/
inductive WatchedSteps (timeout late : Nat) (st : WatchedTcp) : WatchedEvent → WatchedTcp → Prop where
  | tcp {a : TcpAction} {s : TcpSession} (hi : st.idle=none)
      (h : tcpSession st.session (.tcp a)=some s) :
      WatchedSteps timeout late st (.event (.tcp a))
        { st with session := s,clock := watchTcp st.clock a }
  | peer {e : TcpEvent} {s : TcpSession} (he : ∀ a, e≠.tcp a)
      (h : tcpSession st.session e=some s) (hp : s.relay.phase=st.session.relay.phase) :
      WatchedSteps timeout late st (.event e) { st with session := s }
  | tick {w : Watchdog} (hp : st.session.relay.phase=.copying) (hi : st.idle=none)
      (hw : st.clock.tick (idleCheckInterval timeout)=some w) (ht : w.idleFor<timeout) :
      WatchedSteps timeout late st .tick { st with clock := w }
  | expire {w : Watchdog} (hp : st.session.relay.phase=.copying) (hi : st.idle=none)
      (hw : st.clock.tick (idleCheckInterval timeout)=some w) (ht : timeout ≤ w.idleFor) :
      WatchedSteps timeout late st .tick { st with clock := w,idle := some w.idleFor }
  | advance {d : Nat} (hl : st.session.relay.phase=.copying → st.idle=none →
      st.clock.now+d ≤ st.clock.next+late) :
      WatchedSteps timeout late st (.advance d)
        { st with clock := { st.clock with now := st.clock.now+d } }

/-- Only `relay_tcp` itself moves on to another phase. -/
theorem tcpSession_phase {s s' : TcpSession} {e : TcpEvent} (h : tcpSession s e=some s')
    (he : ∀ a, e≠.tcp a) : s'.relay.phase=s.relay.phase := by
  cases e with
  | arrive =>
    simp only [tcpSession] at h
    split at h <;> cases h
    rfl
  | tcp a => exact absurd rfl (he a)
  | take n =>
    cases h
    rfl
  | _ =>
    simp only [tcpSession] at h
    split_ifs at h
    cases h
    rfl

theorem watchedTcp_steps {timeout late : Nat} {st st' : WatchedTcp} {e : WatchedEvent}
    (h : watchedTcp timeout late st e=some st') : WatchedSteps timeout late st e st' := by
  cases e with
  | event e =>
    cases e with
    | tcp a =>
      simp only [watchedTcp] at h
      split_ifs at h with hi
      obtain ⟨s,hs,rfl⟩ := Option.map_eq_some_iff.mp h
      exact .tcp hi hs
    | _ =>
      simp only [watchedTcp] at h
      obtain ⟨s,hs,rfl⟩ := Option.map_eq_some_iff.mp h
      exact .peer (by simp) hs (tcpSession_phase hs (by simp))
  | tick =>
    simp only [watchedTcp] at h
    split_ifs at h with hc
    obtain ⟨w,hw,rfl⟩ := Option.map_eq_some_iff.mp h
    split_ifs with ht
    · exact .expire hc.1 hc.2 hw ht
    · exact .tick hc.1 hc.2 hw (Nat.lt_of_not_le ht)
  | advance d =>
    simp only [watchedTcp] at h
    split_ifs at h with hc
    · obtain ⟨w,hw,rfl⟩ := Option.map_eq_some_iff.mp h
      rw [Watchdog.advance] at hw
      split_ifs at hw with hl
      cases hw
      exact .advance (fun _ _ => hl)
    · cases h
      exact .advance (fun hp hi => absurd ⟨hp,hi⟩ hc)

/-- While the copy runs, its timer is served in time; the activity is as old as the timer. -/
structure WatchedTcp.Timely (timeout late : Nat) (st : WatchedTcp) : Prop where
  order : st.clock.last ≤ st.clock.now
  started : st.session.relay.phase=.copying → st.clock.started ≤ st.clock.last
  timely : st.session.relay.phase=.copying → st.idle=none →
    st.clock.Timely timeout (idleCheckInterval timeout) late

/-- `relay_tcp` starts to copy only with `startCopy`. -/
theorem relayTcp_copying {capacity : Option Nat} {r r' : TcpRelay} {a : TcpAction}
    (h : relayTcp capacity r a=some r') (hp : r'.phase=.copying) :
    a=.startCopy ∨ r.phase=.copying := by
  simp only [relayTcp] at h
  split at h
  · cases h
    cases hp
  · split_ifs at h
    cases h
    exact Or.inr hp
  · exact Or.inl rfl
  · exact Or.inr ‹_›
  · cases h

theorem WatchedTcp.Timely.step {timeout late : Nat} {st st' : WatchedTcp} {e : WatchedEvent}
    (h : st.Timely timeout late) (hs : watchedTcp timeout late st e=some st') :
    st'.Timely timeout late := by
  have order := h.order
  cases watchedTcp_steps hs with
  | @tcp a s hi ht =>
    obtain ⟨r,hr,rfl⟩ := Option.map_eq_some_iff.mp ht
    rw [watchTcp]
    split_ifs with hstart hmark
    · exact ⟨Nat.le_refl _,fun _ => Nat.le_refl _,fun _ _ => Watchdog.timely_start (Nat.le_refl _)⟩
    · refine ⟨Nat.le_refl _,?_,?_⟩
      · intro hp
        rcases relayTcp_copying hr hp with ha|hp
        · exact absurd ha hstart
        · exact Nat.le_trans (h.started hp) order
      · intro hp hi
        rcases relayTcp_copying hr hp with ha|hp
        · exact absurd ha hstart
        · exact (h.timely hp hi).mark
    · refine ⟨order,?_,?_⟩
      · intro hp
        rcases relayTcp_copying hr hp with ha|hp
        · exact absurd ha hstart
        · exact h.started hp
      · intro hp hi
        rcases relayTcp_copying hr hp with ha|hp
        · exact absurd ha hstart
        · exact h.timely hp hi
  | peer he ht hp =>
    exact ⟨order,fun hc => h.started (hp.symm.trans hc),fun hc => h.timely (hp.symm.trans hc)⟩
  | tick hp hi hw ht =>
    obtain ⟨hl,hn,hst,hidle⟩ := Watchdog.tick_keeps hw
    rw [hidle] at ht
    refine ⟨?_,?_,fun _ _ => (h.timely hp hi).tick ht hw⟩
    · rw [hl,hn]
      exact order
    · intro _
      rw [hl,hst]
      exact h.started hp
  | expire hp hi hw ht =>
    obtain ⟨hl,hn,hst,-⟩ := Watchdog.tick_keeps hw
    refine ⟨?_,?_,fun _ he => by cases he⟩
    · rw [hl,hn]
      exact order
    · intro _
      rw [hl,hst]
      exact h.started hp
  | @advance d hl =>
    refine ⟨Nat.le_trans order (Nat.le_add_right _ _),h.started,?_⟩
    intro hp hi
    exact (h.timely hp hi).advance (by rw [Watchdog.advance,if_pos (hl hp hi)])

/-- Time and the last activity do not go back. -/
theorem watchedTcp_clock {timeout late : Nat} {st st' : WatchedTcp} {e : WatchedEvent} {t : Nat}
    (h : t ≤ st.clock.last ∧ t ≤ st.clock.now) (hs : watchedTcp timeout late st e=some st') :
    t ≤ st'.clock.last ∧ t ≤ st'.clock.now := by
  cases watchedTcp_steps hs with
  | tcp hi ht =>
    rw [watchTcp]
    split_ifs
    · exact ⟨h.2,h.2⟩
    · exact ⟨h.2,h.2⟩
    · exact h
  | peer he ht hp => exact h
  | tick hp hi hw ht =>
    obtain ⟨hl,hn,-,-⟩ := Watchdog.tick_keeps hw
    rw [hl,hn]
    exact h
  | expire hp hi hw ht =>
    obtain ⟨hl,hn,-,-⟩ := Watchdog.tick_keeps hw
    rw [hl,hn]
    exact h
  | advance hl => exact ⟨h.1,Nat.le_trans h.2 (Nat.le_add_right _ _)⟩

theorem watchTcp_marks {clock : Watchdog} {a : TcpAction} (h : a.marks=true) :
    watchTcp clock a=clock.mark := by
  rw [watchTcp,if_neg (by rintro rfl; cases h),if_pos h]

/-- `relay_tcp` with an idle timeout does what it does without one until it gives up. While it
copies, the last byte moved less than the timeout, a check interval and the delay in serving a
tick ago; and it gives up only when no byte has been read or written for the timeout. -/
theorem tcp_idle_bounds {timeout late now : Nat} {authId : Bytes} {segments : List Bytes}
    {as : List WatchedEvent} {st : WatchedTcp}
    (hr : run (watchedTcp timeout late) ⟨.start authId segments,.new now,none⟩ as=some st) :
    (∃ es, run tcpSession (.start authId segments) es=some st.session) ∧
    (st.session.relay.phase=.copying → st.idle=none →
      st.clock.now < st.clock.last+timeout+idleCheckInterval timeout+late) ∧
    (∀ a s1 bs s2 s3, a.marks=true → watchedTcp timeout late st (.event (.tcp a))=some s1 →
      run (watchedTcp timeout late) s1 bs=some s2 →
      watchedTcp timeout late s2 .tick=some s3 → s3.idle≠none →
      st.clock.now+timeout ≤ s2.clock.now) := by
  have ht : st.Timely timeout late := by
    refine run_invariant (I := WatchedTcp.Timely timeout late) (fun _ _ _ hi hs => hi.step hs) ?_ hr
    exact ⟨Nat.le_refl _,(fun hp => by cases hp),fun hp => by cases hp⟩
  refine ⟨?_,?_,?_⟩
  · refine run_refines (v := WatchedTcp.session) ?_ hr
    intro s e s' hs
    cases watchedTcp_steps hs with
    | tcp hi h => exact Or.inr ⟨_,h⟩
    | peer he h hp => exact Or.inr ⟨_,h⟩
    | _ => exact Or.inl rfl
  · intro hp hi
    have hstart := ht.started hp
    have hperiod : 0 < idleCheckInterval timeout := by
      rw [idleCheckInterval]
      omega
    rcases (ht.timely hp hi).bound with hb|hb
    · exact hb
    · omega
  · intro a s1 bs s2 s3 hm h1 h2 h3 hidle
    have hmark : st.clock.now ≤ s1.clock.last ∧ st.clock.now ≤ s1.clock.now := by
      cases watchedTcp_steps h1 with
      | tcp hi h =>
        rw [watchTcp_marks hm]
        exact ⟨Nat.le_refl _,Nat.le_refl _⟩
      | peer he h hp => exact absurd rfl (he a)
    obtain ⟨hlast,hnow⟩ : st.clock.now ≤ s2.clock.last ∧ st.clock.now ≤ s2.clock.now :=
      run_invariant (fun _ _ _ hi hs => watchedTcp_clock hi hs) hmark h2
    cases watchedTcp_steps h3 with
    | tick hp hi hw hlt => exact absurd hi hidle
    | expire hp hi hw hle =>
      obtain ⟨-,-,-,hkeep⟩ := Watchdog.tick_keeps hw
      rw [hkeep,Watchdog.idleFor] at hle
      omega

/-- A byte arrives on a connection whose copy has started. -/
def byteArrived : List WatchedEvent :=
  [.event (.tcp .connect),.event (.tcp (.writeAuth 1)),.event (.tcp .startCopy),.tick,
    .event .arrive]

/-- The upstream does not take it. -/
def byteStuck : List WatchedEvent :=
  [.advance 1000,.tick,.advance 1000,.tick,.advance 1000,.tick,.advance 1000]

theorem tcp_idle_bounds_short : ∃ st s1 s2 s3,
    run (watchedTcp 4000 0) ⟨.start [1] [[2]],.new 0,none⟩ byteArrived=some st ∧
    watchedTcp 4000 0 st (.event (.tcp (.upRead 1)))=some s1 ∧
    run (watchedTcp 4000 0) s1 byteStuck=some s2 ∧
    watchedTcp 4000 0 s2 .tick=some s3 ∧ s3.idle=some 4000 ∧ st.clock.now+4000 ≤ s2.clock.now := by
  have hall : (run (watchedTcp 4000 0) ⟨.start [1] [[2]],.new 0,none⟩ byteArrived).bind (fun st =>
      (watchedTcp 4000 0 st (.event (.tcp (.upRead 1)))).bind (fun s1 =>
      (run (watchedTcp 4000 0) s1 byteStuck).bind (fun s2 =>
      (watchedTcp 4000 0 s2 .tick).map WatchedTcp.idle)))=some (some 4000) := by decide +kernel
  obtain ⟨st,hr,hall⟩ := Option.bind_eq_some_iff.mp hall
  obtain ⟨s1,h1,hall⟩ := Option.bind_eq_some_iff.mp hall
  obtain ⟨s2,h2,hall⟩ := Option.bind_eq_some_iff.mp hall
  obtain ⟨s3,h3,hidle⟩ := Option.map_eq_some_iff.mp hall
  have hquiet := (tcp_idle_bounds hr).2.2 (.upRead 1) s1 byteStuck s2 s3 rfl h1 h2 h3
    (by rw [hidle]; simp)
  exact ⟨st,s1,s2,s3,hr,h1,h2,h3,hidle,hquiet⟩

end Tobira.Relay
