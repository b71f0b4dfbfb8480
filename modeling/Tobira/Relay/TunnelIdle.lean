import Tobira.Relay.GrpcRelay

namespace Tobira.Relay

open Tobira.Framework Tobira.Transport

/-- A task takes a unit in hand or has written one as a whole. -/
def Tunnel.Marks (setup : TunnelSetup) (st : Tunnel) (a : TunnelAction) : Prop :=
  (∃ x p, a=.first x ∧ st.first.step setup.first x=some p ∧ marks p x=true) ∨
  (∃ x p, a=.second x ∧ st.second.step setup.second x=some p ∧ marks p x=true)

/-- Time and the last activity do not go back. -/
theorem tunnelStep_clock {setup : TunnelSetup} {st st' : Tunnel} {a : TunnelAction} {t : Nat}
    (h : t ≤ st.clock.last ∧ t ≤ st.clock.now) (hs : tunnelStep setup st a=some st') :
    t ≤ st'.clock.last ∧ t ≤ st'.clock.now := by
  have touched (b : Bool) : t ≤ (st.touch b).last ∧ t ≤ (st.touch b).now := by
    cases b with
    | true => exact ⟨h.2,h.2⟩
    | false => exact h
  have ticked {period : Nat} {w : Watchdog} (hw : st.clock.tick period=some w) :
      t ≤ w.last ∧ t ≤ w.now := by
    obtain ⟨hl,hn,-⟩ := Watchdog.tick_keeps hw
    rw [hl,hn]
    exact h
  cases tunnelStep_steps hs with
  | spawn hstage hu => exact ⟨h.2,h.2⟩
  | first ha hp => exact touched _
  | second ha hp => exact touched _
  | tick hstage hto hw hi => exact ticked hw
  | expire hstage hto hw hi => exact ticked hw
  | advance hl => exact ⟨h.1,Nat.le_trans h.2 (Nat.le_add_right _ _)⟩
  | _ => exact h

theorem Tunnel.Marks.clock {setup : TunnelSetup} {st st' : Tunnel} {a : TunnelAction}
    (h : st.Marks setup a) (hs : tunnelStep setup st a=some st') :
    st.clock.now ≤ st'.clock.last ∧ st.clock.now ≤ st'.clock.now := by
  have touched : (st.touch true).last=st.clock.now ∧ (st.touch true).now=st.clock.now := ⟨rfl,rfl⟩
  rcases h with ⟨x,p,rfl,hp,hm⟩|⟨x,p,rfl,hp,hm⟩
  · simp only [tunnelStep] at hs
    split_ifs at hs
    rw [hp,Option.map_some,hm] at hs
    cases hs
    exact ⟨touched.1.ge,touched.2.ge⟩
  · simp only [tunnelStep] at hs
    split_ifs at hs
    rw [hp,Option.map_some,hm] at hs
    cases hs
    exact ⟨touched.1.ge,touched.2.ge⟩

/-- While the relay waits for its tasks with a timeout, its timer is served in time. -/
structure Watched (setup : TunnelSetup) (st : Tunnel) : Prop where
  order : st.clock.last ≤ st.clock.now
  timely : ∀ r1 r2 timeout, st.stage=.relaying r1 r2 → setup.idleTimeout=some timeout →
    st.clock.Timely timeout (idleCheckInterval timeout) setup.late

theorem Watched.step {setup : TunnelSetup} {st st' : Tunnel} {a : TunnelAction}
    (h : Watched setup st) (hs : tunnelStep setup st a=some st') : Watched setup st' := by
  have order := h.order
  have touched (b : Bool) : (st.touch b).last ≤ (st.touch b).now ∧
      ∀ r1 r2 timeout, st.stage=.relaying r1 r2 → setup.idleTimeout=some timeout →
      (st.touch b).Timely timeout (idleCheckInterval timeout) setup.late := by
    cases b with
    | true =>
      refine ⟨Nat.le_refl _,?_⟩
      intro r1 r2 timeout hstage hto
      exact (h.timely r1 r2 timeout hstage hto).mark
    | false => exact ⟨order,h.timely⟩
  cases tunnelStep_steps hs with
  | request hc => exact ⟨order,h.timely⟩
  | requestEnd => exact ⟨order,h.timely⟩
  | answer hw hc => exact ⟨order,h.timely⟩
  | answerEnd hw => exact ⟨order,h.timely⟩
  | headersOk hstage => exact ⟨order,fun _ _ _ _ _ => Watchdog.timely_start order⟩
  | openingSend hstage hn => exact ⟨order,h.timely⟩
  | spawn hstage hu => exact ⟨Nat.le_refl _,fun _ _ _ he => by cases he⟩
  | first ha hp => exact ⟨(touched _).1,(touched _).2⟩
  | second ha hp => exact ⟨(touched _).1,(touched _).2⟩
  | abortFirst hstage hr => exact ⟨order,h.timely⟩
  | abortSecond hstage hr => exact ⟨order,h.timely⟩
  | @collectFirst r2 hstage hr =>
    refine ⟨order,?_⟩
    intro r1 r2 timeout _ hto
    exact h.timely _ _ timeout hstage hto
  | collectSecond hstage hr =>
    refine ⟨order,?_⟩
    intro r1 r2 timeout _ hto
    exact h.timely _ _ timeout hstage hto
  | @tick r1 r2 timeout w hstage hto hw hi =>
    obtain ⟨hl,hn,-,hidle⟩ := Watchdog.tick_keeps hw
    refine ⟨?_,?_⟩
    · change w.last ≤ w.now
      rw [hl,hn]
      exact order
    · intro r1' r2' timeout' _ hto'
      obtain rfl : timeout=timeout' := Option.some.inj (hto.symm.trans hto')
      rw [hidle] at hi
      exact (h.timely r1 r2 timeout hstage hto).tick hi hw
  | expire hstage hto hw hi =>
    obtain ⟨hl,hn,-⟩ := Watchdog.tick_keeps hw
    refine ⟨?_,fun _ _ _ he => by cases he⟩
    rw [hl,hn]
    exact order
  | expect hstage =>
    refine ⟨order,?_⟩
    intro r1 r2 timeout he
    change (if _ then _ else _)=Stage.relaying r1 r2 at he
    split_ifs at he
  | @advance d hl =>
    refine ⟨Nat.le_trans order (Nat.le_add_right _ _),?_⟩
    intro r1 r2 timeout hstage hto
    have hp := hl r1 r2 timeout hstage hto
    exact (h.timely r1 r2 timeout hstage hto).advance (by rw [Watchdog.advance,if_pos hp])
  | _ => exact ⟨order,fun _ _ _ he => by cases he⟩

/-- With an idle timeout: while the relay waits for its tasks, the last activity is not longer ago
than the timeout, a check interval and the delay in serving a tick, except right after the headers;
and it closes for idleness only when no task has taken or written a unit for the timeout. -/
theorem tunnel_idle_bounds {setup : TunnelSetup} {buf pending : Bytes} {now : Nat}
    {as : List TunnelAction} {st : Tunnel}
    (hr : run (tunnelStep setup) (.start setup buf pending now) as=some st) :
    (∀ r1 r2 timeout, st.stage=.relaying r1 r2 → setup.idleTimeout=some timeout →
      st.clock.now < st.clock.last+timeout+idleCheckInterval timeout+setup.late ∨
      st.clock.now ≤ st.clock.started+setup.late) ∧
    (∀ a s1 bs s2 s3, st.Marks setup a → tunnelStep setup st a=some s1 →
      run (tunnelStep setup) s1 bs=some s2 → tunnelStep setup s2 .tick=some s3 → s3.idle≠none →
      ∃ timeout∈setup.idleTimeout, st.clock.now+timeout ≤ s2.clock.now) := by
  have hw : Watched setup st := by
    refine run_invariant (I := Watched setup) (fun _ _ _ hi hs => hi.step hs) ?_ hr
    exact ⟨Nat.le_refl _,fun _ _ _ he => by cases he⟩
  refine ⟨fun r1 r2 timeout hs ht => (hw.timely r1 r2 timeout hs ht).bound,?_⟩
  intro a s1 bs s2 s3 hm h1 h2 h3 hidle
  obtain ⟨hlast,hnow⟩ : st.clock.now ≤ s2.clock.last ∧ st.clock.now ≤ s2.clock.now :=
    run_invariant (fun _ _ _ hi hs => tunnelStep_clock hi hs) (hm.clock h1) h2
  have hc : Controlled setup s2 :=
    run_invariant (fun _ _ _ hi hs => hi.step hs) ((controlled_run hr).step h1) h2
  have hrec := hc.recorded
  cases tunnelStep_steps h3 with
  | tick hstage hto hw hi =>
    rw [Recorded,hstage] at hrec
    exact absurd hrec.2 hidle
  | @expire r1 r2 timeout w hstage hto hw hi =>
    obtain ⟨-,-,-,hkeep⟩ := Watchdog.tick_keeps hw
    rw [hkeep,Watchdog.idleFor] at hi
    exact ⟨timeout,hto,by omega⟩

/-- `relay_grpc` with a timeout of four seconds. -/
def idleSetup : TunnelSetup := relayGrpcSetup .release (List.replicate 16 1) (some 4000) 0

/-- A frame of the response arrives a second after the headers. -/
def answeredLate : List TunnelAction :=
  [.openingSend 23,.spawn,.headersOk,.tick,.advance 1000,.tick,.answer (encodeGrpcFrame [7]),
    .second (.pull 8)]

/-- The client does not take its byte. -/
def fourSeconds : List TunnelAction :=
  [.advance 1000,.tick,.advance 1000,.tick,.advance 1000,.tick,.advance 1000]

theorem tunnel_idle_bounds_short : ∃ st s1 s2 s3,
    run (tunnelStep idleSetup) (.start idleSetup [] [] 0) answeredLate=some st ∧
    tunnelStep idleSetup st (.second .take)=some s1 ∧
    run (tunnelStep idleSetup) s1 fourSeconds=some s2 ∧
    tunnelStep idleSetup s2 .tick=some s3 ∧ s3.idle=some 4000 ∧
    ∃ timeout∈idleSetup.idleTimeout, st.clock.now+timeout ≤ s2.clock.now := by
  have hall : (run (tunnelStep idleSetup) (.start idleSetup [] [] 0) answeredLate).bind (fun st =>
      (tunnelStep idleSetup st (.second .take)).bind (fun s1 =>
      (run (tunnelStep idleSetup) s1 fourSeconds).bind (fun s2 =>
      (tunnelStep idleSetup s2 .tick).map (fun s3 =>
        (s3.idle,(st.second.step idleSetup.second .take).map (fun p => marks p .take))))))=
      some (some 4000,some true) := by decide +kernel
  obtain ⟨st,hr,hall⟩ := Option.bind_eq_some_iff.mp hall
  obtain ⟨s1,h1,hall⟩ := Option.bind_eq_some_iff.mp hall
  obtain ⟨s2,h2,hall⟩ := Option.bind_eq_some_iff.mp hall
  obtain ⟨s3,h3,hall⟩ := Option.map_eq_some_iff.mp hall
  obtain ⟨hidle,hmark⟩ := Prod.mk.inj hall
  obtain ⟨p,hp,hm⟩ := Option.map_eq_some_iff.mp hmark
  have hquiet := (tunnel_idle_bounds hr).2 (.second .take) s1 fourSeconds s2 s3
    (Or.inr ⟨.take,p,rfl,hp,hm⟩) h1 h2 h3 (by rw [hidle]; simp)
  exact ⟨st,s1,s2,s3,hr,h1,h2,h3,hidle,hquiet⟩

end Tobira.Relay
