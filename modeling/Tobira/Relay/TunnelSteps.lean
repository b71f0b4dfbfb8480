import Tobira.Relay.Tunnel

namespace Tobira.Relay

open Tobira.Framework Tobira.Transport

/-- Everything a step of the tunnel can do. -/
inductive TunnelSteps (setup : TunnelSetup) (st : Tunnel) : TunnelAction → Tunnel → Prop where
  | request {bytes : Bytes} (hc : st.first.source.closed=false) :
      TunnelSteps setup st (.request bytes) { st with
        requested := st.requested++bytes
        first := { st.first with source := ⟨st.first.source.items++bytes,st.first.source.closed⟩ } }
  | requestEnd : TunnelSteps setup st .requestEnd
      { st with first := { st.first with source := ⟨st.first.source.items,true⟩ } }
  | answer {bytes : Bytes} (hw : st.second.state≠.waiting) (hc : st.second.source.closed=false) :
      TunnelSteps setup st (.answer bytes) { st with
        answered := st.answered++bytes
        second := { st.second with
          source := ⟨st.second.source.items++bytes,st.second.source.closed⟩ } }
  | answerEnd (hw : st.second.state≠.waiting) : TunnelSteps setup st .answerEnd
      { st with second := { st.second with source := ⟨st.second.source.items,true⟩ } }
  | headersOk (hs : st.stage=.headers) : TunnelSteps setup st .headersOk { st with
      stage := .relaying false false
      second := { st.second with state := .running }
      clock := st.clock.start }
  | headersFail {e : H2Error} (hs : st.stage=.headers) : TunnelSteps setup st (.headersFail e)
      { st with
        stage := .refused
        refusal := some e
        evictions := st.evictions+(isH2ConnectionError e).toNat }
  | openingSend {n : Nat} (hs : st.stage=.opening) (hn : 0<n ∧ n ≤ st.unsent.length) :
      TunnelSteps setup st (.openingSend n)
        { st with unsent := st.unsent.drop n,opened := st.opened++st.unsent.take n }
  | openingFail (hs : st.stage=.opening) :
      TunnelSteps setup st .openingFail { st with stage := .returned false }
  | spawn (hs : st.stage=.opening) (hu : st.unsent=[]) : TunnelSteps setup st .spawn { st with
      stage := .headers
      first := { st.first with state := .running }
      clock := st.clock.mark }
  | first {a : PumpAction TaskError} {p : Pump UInt8 UInt8 TaskError}
      (ha : admits setup.firstErrors a=true) (h : st.first.step setup.first a=some p) :
      TunnelSteps setup st (.first a) { st with
        first := p
        evictions := st.evictions+evicts p
        clock := st.touch (marks p a) }
  | second {a : PumpAction TaskError} {p : Pump UInt8 UInt8 TaskError}
      (ha : admits setup.secondErrors a=true) (h : st.second.step setup.second a=some p) :
      TunnelSteps setup st (.second a) { st with second := p,clock := st.touch (marks p a) }
  | abortFirst (hs : st.stage=.refused ∨ ∃ r2, st.stage=.closing false r2)
      (hr : st.first.state=.running) : TunnelSteps setup st .abort
        { st with first := { st.first with state := .cancelled } }
  | abortSecond (hs : st.stage=.closing true false) (hr : st.second.state=.running) :
      TunnelSteps setup st .abort { st with second := { st.second with state := .cancelled } }
  | joinRefused (hs : st.stage=.refused) (hr : st.first.state≠.running) :
      TunnelSteps setup st .join { st with stage := .returned false }
  | joinFirst {r2 : Bool} (hs : st.stage=.closing false r2) (hr : st.first.state≠.running) :
      TunnelSteps setup st .join { st with stage := .closing true r2 }
  | joinSecond (hs : st.stage=.closing true false) (hr : st.second.state≠.running) :
      TunnelSteps setup st .join { st with stage := .closing true true }
  | collectFirst {r2 : Bool} (hs : st.stage=.relaying false r2) (hr : st.first.state≠.running) :
      TunnelSteps setup st .collectFirst { st with stage := .relaying true r2 }
  | collectSecond {r1 : Bool} (hs : st.stage=.relaying r1 false)
      (hr : st.second.state≠.running) :
      TunnelSteps setup st .collectSecond { st with stage := .relaying r1 true }
  | tick {r1 r2 : Bool} {timeout : Nat} {w : Watchdog} (hs : st.stage=.relaying r1 r2)
      (ht : setup.idleTimeout=some timeout)
      (hw : st.clock.tick (idleCheckInterval timeout)=some w) (hi : w.idleFor<timeout) :
      TunnelSteps setup st .tick { st with clock := w }
  | expire {r1 r2 : Bool} {timeout : Nat} {w : Watchdog} (hs : st.stage=.relaying r1 r2)
      (ht : setup.idleTimeout=some timeout)
      (hw : st.clock.tick (idleCheckInterval timeout)=some w) (hi : timeout ≤ w.idleFor) :
      TunnelSteps setup st .tick
        { st with stage := .closing r1 r2,idle := some w.idleFor,clock := w }
  | leave {r1 r2 : Bool} (hs : st.stage=.relaying r1 r2 ∨ st.stage=.closing r1 r2)
      (hb : (r1 && r2)=true) : TunnelSteps setup st .leave { st with stage := .left r1 r2 }
  | expect {r1 r2 : Bool} (hs : st.stage=.left r1 r2) : TunnelSteps setup st .expect
      { st with stage := if r1 && r2 then .returned true else .panicked }
  | advance {d : Nat} (hl : ∀ r1 r2 timeout, st.stage=.relaying r1 r2 →
      setup.idleTimeout=some timeout → st.clock.now+d ≤ st.clock.next+setup.late) :
      TunnelSteps setup st (.advance d)
        { st with clock := { st.clock with now := st.clock.now+d } }

theorem endStep_steps {setup : TunnelSetup} {st st' : Tunnel} {a : TunnelAction}
    (h : endStep st a=some st') : TunnelSteps setup st a st' := by
  cases a with
  | abort =>
    simp only [endStep] at h
    split at h
    · split_ifs at h with hr
      cases h
      exact .abortFirst (Or.inl ‹_›) hr
    · split_ifs at h with hr
      cases h
      exact .abortFirst (Or.inr ⟨_,‹_›⟩) hr
    · split_ifs at h with hr
      cases h
      exact .abortSecond ‹_› hr
    · cases h
  | join =>
    simp only [endStep] at h
    split at h
    · split_ifs at h with hr
      cases h
      exact .joinRefused ‹_› hr
    · split_ifs at h with hr
      cases h
      exact .joinFirst ‹_› hr
    · split_ifs at h with hr
      cases h
      exact .joinSecond ‹_› hr
    · cases h
  | _ => cases h

theorem waitStep_steps {setup : TunnelSetup} {st st' : Tunnel} {a : TunnelAction}
    (h : waitStep setup st a=some st') : TunnelSteps setup st a st' := by
  cases a with
  | collectFirst =>
    simp only [waitStep] at h
    split at h
    · split_ifs at h with hr
      cases h
      exact .collectFirst ‹_› hr
    · cases h
  | collectSecond =>
    simp only [waitStep] at h
    split at h
    · split_ifs at h with hr
      cases h
      exact .collectSecond ‹_› hr
    · cases h
  | tick =>
    simp only [waitStep] at h
    split at h
    · split_ifs at h with hb
      obtain ⟨w,hw,rfl⟩ := Option.map_eq_some_iff.mp h
      split_ifs with hi
      · exact .expire ‹_› ‹_› hw hi
      · exact .tick ‹_› ‹_› hw (Nat.lt_of_not_le hi)
    · cases h
  | leave =>
    simp only [waitStep] at h
    split at h
    · split_ifs at h with hb
      cases h
      exact .leave (Or.inl ‹_›) hb
    · split_ifs at h with hb
      cases h
      exact .leave (Or.inr ‹_›) hb
    · cases h
  | expect =>
    simp only [waitStep] at h
    split at h
    · cases h
      exact .expect ‹_›
    · cases h
  | _ => cases h

theorem tunnelStep_steps {setup : TunnelSetup} {st st' : Tunnel} {a : TunnelAction}
    (h : tunnelStep setup st a=some st') : TunnelSteps setup st a st' := by
  cases a with
  | request bytes =>
    simp only [tunnelStep] at h
    split_ifs at h with hc
    cases h
    exact .request hc
  | requestEnd =>
    cases h
    exact .requestEnd
  | answer bytes =>
    simp only [tunnelStep] at h
    split_ifs at h with hc
    cases h
    exact .answer hc.1 hc.2
  | answerEnd =>
    simp only [tunnelStep] at h
    split_ifs at h with hc
    cases h
    exact .answerEnd hc
  | headersOk =>
    simp only [tunnelStep] at h
    split_ifs at h with hs
    cases h
    exact .headersOk hs
  | headersFail e =>
    simp only [tunnelStep] at h
    split_ifs at h with hs
    cases h
    exact .headersFail hs
  | openingSend n =>
    simp only [tunnelStep] at h
    split_ifs at h with hc
    cases h
    exact .openingSend hc.1 hc.2
  | openingFail =>
    simp only [tunnelStep] at h
    split_ifs at h with hs
    cases h
    exact .openingFail hs
  | spawn =>
    simp only [tunnelStep] at h
    split_ifs at h with hc
    cases h
    exact .spawn hc.1 hc.2
  | first a =>
    simp only [tunnelStep] at h
    split_ifs at h with ha
    obtain ⟨p,hp,rfl⟩ := Option.map_eq_some_iff.mp h
    exact .first ha hp
  | second a =>
    simp only [tunnelStep] at h
    split_ifs at h with ha
    obtain ⟨p,hp,rfl⟩ := Option.map_eq_some_iff.mp h
    exact .second ha hp
  | advance d =>
    simp only [tunnelStep] at h
    split at h
    · obtain ⟨w,hw,rfl⟩ := Option.map_eq_some_iff.mp h
      rw [Watchdog.advance] at hw
      split_ifs at hw with hc
      cases hw
      exact .advance (fun _ _ _ _ _ => hc)
    · rename_i hfree
      cases h
      exact .advance (fun _ _ _ hs ht => absurd ht (hfree _ _ _ hs))
  | abort =>
    simp only [tunnelStep] at h
    exact endStep_steps h
  | join =>
    simp only [tunnelStep] at h
    exact endStep_steps h
  | _ =>
    simp only [tunnelStep] at h
    exact waitStep_steps h

end Tobira.Relay
