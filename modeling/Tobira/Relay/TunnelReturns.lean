import Tobira.Framework.Room
import Tobira.Relay.GrpcRelay

namespace Tobira.Relay

open Tobira.Framework Tobira.Transport

/-- The steps of the client, of the upstream, and of time. -/
def TunnelAction.outside : TunnelAction → Bool
  | .request _ | .requestEnd | .answer _ | .answerEnd | .headersOk | .headersFail _ | .tick
  | .advance _ => true
  | _ => false

def faults : PumpAction TaskError → Bool
  | .fail _ => true
  | _ => false

/-- The errors of the streams. -/
def TunnelAction.fault : TunnelAction → Bool
  | .openingFail => true
  | .first a | .second a => faults a
  | _ => false

/-- What the relay function and its tasks do as long as no stream fails. -/
def TunnelAction.own (a : TunnelAction) : Bool := !a.outside && !a.fault

theorem TunnelAction.outside_of_own {a : TunnelAction} (h : a.own=true) : a.outside=false := by
  have ho := (Bool.and_eq_true_iff.mp h).1
  simpa using ho

def Stage.rank : Stage → Nat
  | .opening => 8
  | .headers => 6
  | .refused => 4
  | .relaying r1 r2 | .closing r1 r2 => 3+(!r1).toNat+(!r2).toNat
  | .left _ _ => 2
  | .returned _ | .panicked => 0

/-- What is left to do until only a peer or time can go on. -/
def Tunnel.work (setup : TunnelSetup) (st : Tunnel) : Nat :=
  st.stage.rank+st.unsent.length+st.first.load setup.first+st.second.load setup.second

theorem setState_load {c : Codec UInt8 UInt8 TaskError} {p : Pump UInt8 UInt8 TaskError}
    {state : TaskState TaskError} :
    { p with state := state }.load c+p.state.left=p.load c+state.left := by
  simp only [Pump.load]
  omega

theorem tunnelStep_work {setup : TunnelSetup} {st st' : Tunnel} {a : TunnelAction}
    (hd : Delivers setup st) (ha : a.outside=false) (h : tunnelStep setup st a=some st') :
    st'.work setup < st.work setup := by
  obtain ⟨u1,h1⟩ := hd.request
  obtain ⟨u2,h2⟩ := hd.response
  cases tunnelStep_steps h with
  | openingSend hstage hn =>
    simp only [Tunnel.work,List.length_drop]
    omega
  | openingFail hstage =>
    simp only [Tunnel.work,hstage,Stage.rank]
    omega
  | spawn hstage hu =>
    have hl := @setState_load setup.first st.first .running
    rw [hd.stage hstage] at hl
    simp only [TaskState.left] at hl
    simp only [Tunnel.work,hstage,Stage.rank]
    omega
  | first _ hp =>
    have hl := Pump.step_load h1.fits hp
    simp only [Tunnel.work]
    omega
  | second _ hp =>
    have hl := Pump.step_load h2.fits hp
    simp only [Tunnel.work]
    omega
  | abortFirst hstage hr =>
    have hl := @setState_load setup.first st.first .cancelled
    rw [hr] at hl
    simp only [TaskState.left] at hl
    simp only [Tunnel.work]
    omega
  | abortSecond hstage hr =>
    have hl := @setState_load setup.second st.second .cancelled
    rw [hr] at hl
    simp only [TaskState.left] at hl
    simp only [Tunnel.work]
    omega
  | joinRefused hstage _ =>
    simp only [Tunnel.work,hstage,Stage.rank]
    omega
  | joinFirst hstage _ =>
    simp only [Tunnel.work,hstage,Stage.rank,Bool.not_true,Bool.not_false,Bool.toNat_true,
      Bool.toNat_false]
    omega
  | joinSecond hstage _ =>
    simp only [Tunnel.work,hstage,Stage.rank,Bool.not_true,Bool.not_false,Bool.toNat_true,
      Bool.toNat_false]
    omega
  | collectFirst hstage _ =>
    simp only [Tunnel.work,hstage,Stage.rank,Bool.not_true,Bool.not_false,Bool.toNat_true,
      Bool.toNat_false]
    omega
  | collectSecond hstage _ =>
    simp only [Tunnel.work,hstage,Stage.rank,Bool.not_true,Bool.not_false,Bool.toNat_true,
      Bool.toNat_false]
    omega
  | leave hstage _ =>
    rcases hstage with hstage|hstage
    · simp only [Tunnel.work,hstage,Stage.rank]
      omega
    · simp only [Tunnel.work,hstage,Stage.rank]
      omega
  | @expect r1 r2 hstage =>
    have hl : (if r1 && r2 then Stage.returned true else .panicked).rank=0 := by
      split_ifs <;> rfl
    have hk : (Stage.left r1 r2).rank=2 := rfl
    simp only [Tunnel.work,hl,hstage,hk]
    omega
  | _ => cases ha

/-- Who takes what a tunnel sends: the upstream through the window of the request stream, and the
client through its socket or the window of its response stream. -/
inductive TunnelOutlet where
  | upstream
  | client
  deriving DecidableEq,Repr

/-- What a step waits for. The end of a stream waits for nothing. -/
def tunnelNeeds : TunnelAction → Option (TunnelOutlet×Nat)
  | .openingSend n => some (.upstream,n)
  | .first (.put n) => some (.upstream,n)
  | .second (.put n) => some (.client,n)
  | _ => none

/-- The tunnel with peers that take what they are sent when they like. -/
def tunnelRoomStep (setup : TunnelSetup) : Roomed Tunnel TunnelOutlet →
    RoomAction TunnelAction TunnelOutlet → Option (Roomed Tunnel TunnelOutlet) :=
  roomStep tunnelNeeds (tunnelStep setup)

/-- The peers can only delay what `tunnelStep` does. -/
theorem tunnel_reached_iff (setup : TunnelSetup) (st st' : Tunnel) (room : TunnelOutlet → Nat) :
    (∃ as r, run (tunnelRoomStep setup) ⟨st,room⟩ as=some r ∧ r.state=st') ↔
      ∃ as, run (tunnelStep setup) st as=some st' := room_reached_iff room

/-- The task waits to be rid of the unit in its hands, or for its source with everything
written. -/
def PumpWaits (c : Codec UInt8 UInt8 TaskError) (p : Pump UInt8 UInt8 TaskError) (room : Nat) :
    Prop :=
  p.state=.running ∧
    (Held room p.pending ∨ (p.pending=[] ∧ c.next p.buf=.more ∧ p.source=⟨[],false⟩))

/-- Only a peer or the idle timeout can go on, or the relay function has returned. -/
def TunnelWaits (setup : TunnelSetup) (r : Roomed Tunnel TunnelOutlet) : Prop :=
  match r.state.stage with
  | .opening => Held (r.room .upstream) r.state.unsent
  | .headers => Over r.state.first ∨ PumpWaits setup.first r.state.first (r.room .upstream)
  | .relaying r1 r2 => (r1 && r2)=false ∧
    (r1=true ∨ PumpWaits setup.first r.state.first (r.room .upstream)) ∧
    (r2=true ∨ PumpWaits setup.second r.state.second (r.room .client))
  | .returned _ => True
  | _ => False

theorem admits_of_faults {errors : TaskError → Bool} {a : PumpAction TaskError}
    (h : faults a=false) : admits errors a=true := by
  cases a with
  | fail e => cases h
  | _ => rfl

/-- The steps of a task that waits for room only to write. -/
theorem pumpWaits_of_none {c : Codec UInt8 UInt8 TaskError} {p : Pump UInt8 UInt8 TaskError}
    {room : Nat} (hr : p.state=.running) (hput : p.step c (.put 1)=none ∨ room=0)
    (h : ∀ a, faults a=false → (∀ n, a≠.put n) → p.step c a=none) : PumpWaits c p room := by
  refine ⟨hr,?_⟩
  by_cases hp : p.pending=[]
  · right
    have hstuck := Pump.stuck hr hp (h _ rfl (by simp)) (h _ rfl (by simp)) (h _ rfl (by simp))
      (h _ rfl (by simp))
    exact ⟨hp,hstuck⟩
  · left
    refine ⟨hp,?_⟩
    rcases hput with hput|hroom
    · exact absurd (Pump.put_none hr hput) hp
    · exact hroom

section Stuck
variable {setup : TunnelSetup} {r : Roomed Tunnel TunnelOutlet}
  (hb : Blocked (tunnelRoomStep setup) (RoomAction.Acts (fun a => a.own=true)) r)
include hb

/-- A task of the tunnel is blocked as its steps are. -/
theorem stuck_task (act : PumpAction TaskError → TunnelAction) {o : TunnelOutlet}
    {c : Codec UInt8 UInt8 TaskError} {p : Pump UInt8 UInt8 TaskError} (hr : p.state=.running)
    (hput : tunnelNeeds (act (.put 1))=some (o,1))
    (hfree : ∀ a, (∀ n, a≠.put n) → tunnelNeeds (act a)=none)
    (hown : ∀ a, faults a=false → (act a).own=true)
    (hstep : ∀ a, faults a=false → tunnelStep setup r.state (act a)=none → p.step c a=none) :
    PumpWaits c p (r.room o) := by
  apply pumpWaits_of_none hr
  · rcases blocked_room hb (hown (.put 1) rfl) hput with hnone|hroom
    · exact Or.inl (hstep _ rfl hnone)
    · right
      omega
  · intro a ha hn
    exact hstep a ha (blocked_free hb (hown a ha) (hfree a hn))

theorem stuck_first (hr : r.state.first.state=.running) :
    PumpWaits setup.first r.state.first (r.room .upstream) := by
  apply stuck_task hb .first hr rfl
  · intro a hn
    cases a with
    | put n => exact absurd rfl (hn n)
    | _ => rfl
  · intro a ha
    simp [TunnelAction.own,TunnelAction.outside,TunnelAction.fault,ha]
  · intro a ha hnone
    simp only [tunnelStep] at hnone
    rw [if_pos (admits_of_faults ha)] at hnone
    exact Option.map_eq_none_iff.mp hnone

theorem stuck_second (hr : r.state.second.state=.running) :
    PumpWaits setup.second r.state.second (r.room .client) := by
  apply stuck_task hb .second hr rfl
  · intro a hn
    cases a with
    | put n => exact absurd rfl (hn n)
    | _ => rfl
  · intro a ha
    simp [TunnelAction.own,TunnelAction.outside,TunnelAction.fault,ha]
  · intro a ha hnone
    simp only [tunnelStep] at hnone
    rw [if_pos (admits_of_faults ha)] at hnone
    exact Option.map_eq_none_iff.mp hnone

/-- Ahead of the first task, the relay function waits for the upstream. -/
theorem stuck_opening (hs : r.state.stage=.opening) : Held (r.room .upstream) r.state.unsent := by
  have hspawn : tunnelStep setup r.state .spawn=none := blocked_free hb rfl rfl
  simp only [tunnelStep,hs,true_and] at hspawn
  split_ifs at hspawn with hnil
  refine ⟨hnil,?_⟩
  have hlen := List.length_pos_iff.mpr hnil
  rcases blocked_room hb (a := TunnelAction.openingSend 1) rfl rfl with hstep|hroom
  · simp only [tunnelStep] at hstep
    rw [if_pos ⟨hs,Nat.one_pos,hlen⟩] at hstep
    cases hstep
  · omega

theorem stuck_tunnel (hc : Controlled setup r.state) : TunnelWaits setup r := by
  have ht := hc.tasks
  have habort : tunnelStep setup r.state .abort=none := blocked_free hb rfl rfl
  have hjoin : tunnelStep setup r.state .join=none := blocked_free hb rfl rfl
  have hfirst : tunnelStep setup r.state .collectFirst=none := blocked_free hb rfl rfl
  have hsecond : tunnelStep setup r.state .collectSecond=none := blocked_free hb rfl rfl
  have hleave : tunnelStep setup r.state .leave=none := blocked_free hb rfl rfl
  have hexpect : tunnelStep setup r.state .expect=none := blocked_free hb rfl rfl
  simp only [tunnelStep,endStep,waitStep] at habort hjoin hfirst hsecond hleave hexpect
  rw [Tasks] at ht
  rw [TunnelWaits]
  cases hs : r.state.stage with
  | opening => exact stuck_opening hb hs
  | headers =>
    rw [hs] at ht
    by_cases hr : r.state.first.state=.running
    · exact Or.inr (stuck_first hb hr)
    · exact Or.inl ⟨ht.1,hr⟩
  | refused =>
    simp only [hs] at habort hjoin
    split_ifs at habort hjoin
  | relaying r1 r2 =>
    simp only [hs] at hfirst hsecond hleave
    refine ⟨?_,?_,?_⟩
    · split_ifs at hleave with hboth
      simpa using hboth
    · cases r1 with
      | true => exact Or.inl rfl
      | false =>
        right
        simp only [] at hfirst
        split_ifs at hfirst with hr
        exact stuck_first hb (Classical.not_not.mp hr)
    · cases r2 with
      | true => exact Or.inl rfl
      | false =>
        right
        simp only [] at hsecond
        split_ifs at hsecond with hr
        exact stuck_second hb (Classical.not_not.mp hr)
  | closing r1 r2 =>
    simp only [hs] at habort hjoin hleave
    cases r1 with
    | false => split_ifs at habort hjoin
    | true =>
      cases r2 with
      | false => split_ifs at habort hjoin
      | true => simp at hleave
  | left r1 r2 =>
    simp only [hs] at hexpect
    cases hexpect
  | returned ok => trivial
  | panicked =>
    rw [hs] at ht
    exact ht

end Stuck

/-- From every state of every run, whatever the peers take: without them and the timer only a
bounded number of steps remains, and some of the relay's own lead to where it has returned, waits
for the headers, or waits in each unfinished direction for a peer to send or to take. It is stuck
nowhere else. -/
theorem tunnel_never_hangs {setup : TunnelSetup} {buf pending : Bytes} {now : Nat}
    {room : TunnelOutlet → Nat} {as : List (RoomAction TunnelAction TunnelOutlet)}
    {r : Roomed Tunnel TunnelOutlet} (hb : ∀ size∈setup.first.limit, buf.length ≤ size)
    (hr : run (tunnelRoomStep setup) ⟨.start setup buf pending now,room⟩ as=some r) :
    (∀ bs r', (∀ a∈bs, a.Acts (fun a => a.outside=false)) →
      run (tunnelRoomStep setup) r bs=some r' → bs.length ≤ r.state.work setup) ∧
    (∃ bs r', (∀ a∈bs, a.Acts (fun a => a.own=true)) ∧ run (tunnelRoomStep setup) r bs=some r' ∧
      TunnelWaits setup r') ∧
    (Blocked (tunnelRoomStep setup) (RoomAction.Acts (fun a => a.own=true)) r →
      TunnelWaits setup r) := by
  have hd := delivers_run hb (room_run hr)
  have hc := controlled_run (room_run hr)
  have keep : ∀ s a s', Delivers setup s → tunnelStep setup s a=some s' → Delivers setup s' :=
    fun _ _ _ hi hs => hi.step hs
  refine ⟨?_,?_,fun hblocked => stuck_tunnel hblocked hc⟩
  · intro bs r' hbs hrun
    have hle := room_length_le keep (fun _ _ _ hi ho hs => tunnelStep_work hi ho hs) hd hbs hrun
    omega
  · obtain ⟨bs,r',hbs,hrun,hblocked⟩ := room_blocked (k := fun a : TunnelAction => a.own=true) keep
      (fun _ _ _ hi ho hs => tunnelStep_work hi (TunnelAction.outside_of_own ho) hs) hd
    have hc' : Controlled setup r'.state :=
      run_invariant (fun _ _ _ hi hs => hi.step hs) hc (room_run hrun)
    exact ⟨bs,r',hbs,hrun,stuck_tunnel hblocked hc'⟩

/-- The upstream takes the Auth ID and no more, the client nothing: each task has a unit in its
hands. -/
def takesNothing : List (RoomAction TunnelAction TunnelOutlet) :=
  [.offer .upstream 23,.act (.openingSend 23),.act .spawn,.act (.request [2,3]),
    .act (.first (.pull 2)),.act (.first .take),.act .headersOk,
    .act (.answer (encodeGrpcFrame [7])),.act (.second (.pull 8)),.act (.second .take)]

theorem tunnel_never_hangs_short : ∃ r,
    run (tunnelRoomStep (relayGrpcSetup .release (List.replicate 16 1) none 0))
      ⟨.start (relayGrpcSetup .release (List.replicate 16 1) none 0) [] [] 0,fun _ => 0⟩
      takesNothing=some r ∧
    TunnelWaits (relayGrpcSetup .release (List.replicate 16 1) none 0) r ∧
    ∀ bs r', (∀ a∈bs, a.Acts (fun a => a.outside=false)) →
      run (tunnelRoomStep (relayGrpcSetup .release (List.replicate 16 1) none 0)) r bs=some r' →
      bs.length≤17 := by
  have hr : ∃ r, run (tunnelRoomStep (relayGrpcSetup .release (List.replicate 16 1) none 0))
      ⟨.start (relayGrpcSetup .release (List.replicate 16 1) none 0) [] [] 0,fun _ => 0⟩
      takesNothing=some r ∧
      ((r.state.stage,r.state.work (relayGrpcSetup .release (List.replicate 16 1) none 0)),
        (r.state.first.state,r.state.first.pending),(r.state.second.state,r.state.second.pending))=
        ((.relaying false false,17),(.running,encodeGrpcFrame [2,3]),(.running,[7])) := by
    rw [← Option.map_eq_some_iff]
    decide +kernel
  have hroom : (run (tunnelRoomStep (relayGrpcSetup .release (List.replicate 16 1) none 0))
      ⟨.start (relayGrpcSetup .release (List.replicate 16 1) none 0) [] [] 0,fun _ => 0⟩
      takesNothing).map (fun r => (r.room .upstream,r.room .client))=some (0,0) := by
    decide +kernel
  obtain ⟨r,hr,hst⟩ := hr
  rw [hr,Option.map_some] at hroom
  simp only [Prod.mk.injEq,Option.some.injEq] at hst hroom
  obtain ⟨⟨hs,hwork⟩,⟨h1,hp1⟩,h2,hp2⟩ := hst
  have hbound := (tunnel_never_hangs (fun _ _ => Nat.zero_le _) hr).1
  rw [hwork] at hbound
  refine ⟨r,hr,?_,hbound⟩
  rw [TunnelWaits,hs]
  refine ⟨rfl,Or.inr ⟨h1,Or.inl ⟨?_,hroom.1⟩⟩,Or.inr ⟨h2,Or.inl ⟨?_,hroom.2⟩⟩⟩
  · rw [hp1]
    exact encodeGrpcFrame_ne_nil _
  · rw [hp2]
    simp

end Tobira.Relay
