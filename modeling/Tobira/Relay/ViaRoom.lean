import Tobira.Framework.Room
import Tobira.Relay.Returns

namespace Tobira.Relay

open Tobira.Framework Tobira.Transport

/-- Who takes what `relay_grpc_via_core` sends: the upstream the connection and, through its
socket, the request, and the client, through its HTTP/2 window, the response. -/
inductive ViaOutlet where
  | connect
  | socket
  | window
  deriving DecidableEq,Repr

/-- What a step waits for. An empty DATA frame and a shutdown of the socket wait for nothing. -/
def viaNeeds : ViaAction → Option (ViaOutlet×Nat)
  | .tcp .connect => some (.connect,1)
  | .tcp (.writeAuth n) => some (.socket,n)
  | .tcp (.upWrite n) => some (.socket,n)
  | .encodeSend n => some (.window,n)
  | _ => none

/-- `relay_grpc_via_core` with peers that take what they are sent when they like. -/
def viaRoomStep (m : Build) : Roomed ViaCore ViaOutlet → RoomAction ViaAction ViaOutlet →
    Option (Roomed ViaCore ViaOutlet) :=
  roomStep viaNeeds (viaStep m)

/-- The peers can only delay what `viaStep` does. -/
theorem viaCore_reached_iff (m : Build) (st st' : ViaCore) (room : ViaOutlet → Nat) :
    (∃ as r, run (viaRoomStep m) ⟨st,room⟩ as=some r ∧ r.state=st') ↔
      ∃ as, run (viaStep m) st as=some st' := room_reached_iff room

/-- The decode task has passed on everything the client has sent. -/
def Unfed (st : ViaCore) : Prop :=
  st.clientEnded=false ∧ st.chunks=[] ∧ st.decode.cached=[] ∧ peekFrame st.decode.buf=.more ∧
  st.decode.writing=[]

/-- The next step is one of a peer: what is held back of the request waits for the upstream, and
what is held back of the response for the client, or for the upstream that has not taken the Auth
ID yet. -/
structure Waiting (r : Roomed ViaCore ViaOutlet) : Prop where
  running : r.state.relayStatus=.running ∧ r.state.encode.status=.running
  main : r.state.main=.inner ∨ (r.state.main=.outer ∧ r.state.decode.status=.running)
  started : r.state.relay.phase≠.finished
  connecting : r.state.relay.phase=.connecting → r.room .connect=0
  writing : r.state.relay.phase=.writing → Held (r.room .socket) r.state.relay.authLeft
  request : r.state.relay.phase=.copying → Held (r.room .socket) r.state.relay.up.buf ∨
    (r.state.relay.up.buf=[] ∧ r.state.relay.inbound.items=[] ∧
      (r.state.main=.inner ∨ Unfed r.state))
  response : Held (r.room .window) r.state.encode.pending ∨
    (r.state.encode.pending=[] ∧ r.state.relay.outbound.items=[] ∧
      (r.state.relay.phase=.copying → r.state.relay.down.buf=[] ∧
        r.state.relay.response=⟨[],false⟩))

/-- Both tasks are over and the client has yet to take the end of the response. -/
structure Finishing (r : Roomed ViaCore ViaOutlet) : Prop where
  main : r.state.main=.awaitEncode
  running : r.state.encode.status=.running
  response : Held (r.room .window) r.state.encode.pending

section Stuck
variable {m : Build} {r : Roomed ViaCore ViaOutlet}
  (hb : Blocked (viaRoomStep m) (RoomAction.Acts (fun a => a.own=true)) r)
include hb

theorem stuck_encode (hp : r.state.main.polls=true) (hr : r.state.encode.status=.running) :
    Held (r.room .window) r.state.encode.pending ∨
    (r.state.encode.pending=[] ∧ r.state.relay.outbound.items=[] ∧
      r.state.relay.outbound.closed=false) := by
  by_cases hpending : r.state.encode.pending=[]
  · right
    have hread : viaStep m r.state (.encodeRead 1)=none := blocked_free hb rfl rfl
    have hend : viaStep m r.state .encodeEnd=none := blocked_free hb rfl rfl
    simp only [viaStep] at hread hend
    rw [if_pos ⟨hp,hr⟩] at hread hend
    simp only [encodeStep] at hread hend
    have hitems : r.state.relay.outbound.items=[] := by
      split_ifs at hread with hc
      have hsize : 1≤rawToGrpcReadBufSize := by decide
      have hn : ¬1 ≤ r.state.relay.outbound.items.length := by
        intro hn
        exact hc ⟨hpending,Nat.one_pos,hsize,hn⟩
      rw [← List.length_eq_zero_iff]
      omega
    refine ⟨hpending,hitems,?_⟩
    split_ifs at hend with hc
    cases hclosed : r.state.relay.outbound.closed with
    | false => rfl
    | true => exact absurd ⟨hpending,hitems,hclosed⟩ hc
  · left
    refine ⟨hpending,?_⟩
    have hlen := List.length_pos_iff.mpr hpending
    rcases blocked_room hb (a := ViaAction.encodeSend 1) rfl rfl with hsend|hroom
    · simp only [viaStep] at hsend
      rw [if_pos ⟨hp,hr⟩] at hsend
      simp only [encodeStep] at hsend
      rw [if_pos ⟨Nat.one_pos,hlen⟩] at hsend
      cases hsend
    · omega

theorem blocked_tcp (hr : r.state.relayStatus=.running) {a : TcpAction}
    (hn : viaNeeds (.tcp a)=none) : relayTcp (some duplexSize) r.state.relay a=none := by
  have ha : viaStep m r.state (.tcp a)=none := blocked_free hb rfl hn
  simp only [viaStep] at ha
  rw [if_pos hr] at ha
  exact Option.map_eq_none_iff.mp ha

theorem blocked_outlet (hr : r.state.relayStatus=.running) {a : TcpAction} {o : ViaOutlet}
    (hn : viaNeeds (.tcp a)=some (o,1)) :
    relayTcp (some duplexSize) r.state.relay a=none ∨ r.room o=0 := by
  rcases blocked_room hb (a := ViaAction.tcp a) rfl hn with ha|hroom
  · left
    simp only [viaStep] at ha
    rw [if_pos hr] at ha
    exact Option.map_eq_none_iff.mp ha
  · right
    omega

/-- Before the copy, `relay_tcp` waits for the upstream. -/
theorem stuck_start (hr : r.state.relayStatus=.running) :
    (r.state.relay.phase=.connecting → r.room .connect=0) ∧
    (r.state.relay.phase=.writing → Held (r.room .socket) r.state.relay.authLeft) := by
  constructor
  · intro hp
    rcases blocked_outlet hb hr (a := .connect) rfl with ha|hroom
    · simp [Relay.relayTcp,hp] at ha
    · exact hroom
  · intro hp
    have hs := blocked_tcp hb hr (a := .startCopy) rfl
    have hleft : r.state.relay.authLeft≠[] := by
      intro hnil
      simp [Relay.relayTcp,hp,hnil] at hs
    refine ⟨hleft,?_⟩
    have hlen := List.length_pos_iff.mpr hleft
    rcases blocked_outlet hb hr (a := .writeAuth 1) rfl with ha|hroom
    · simp only [Relay.relayTcp,hp] at ha
      rw [if_pos ⟨Nat.one_pos,hlen⟩] at ha
      cases ha
    · exact hroom

theorem blocked_copy (hr : r.state.relayStatus=.running) (hp : r.state.relay.phase=.copying)
    {a : TcpAction} (hn : viaNeeds (.tcp a)=none) :
    copyStep (some duplexSize) r.state.relay a=none := by
  have ha := blocked_tcp hb hr hn
  simp only [Relay.relayTcp,hp] at ha
  exact ha

/-- The request direction of the copy waits for the upstream or for the decode task. -/
theorem stuck_up (h : Wired r.state) (hr : r.state.relayStatus=.running)
    (hp : r.state.relay.phase=.copying) :
    Held (r.room .socket) r.state.relay.up.buf ∨
    (r.state.relay.up.buf=[] ∧ r.state.relay.inbound.items=[]) := by
  by_cases hbuf : r.state.relay.up.buf=[]
  · right
    have hup := h.pipes.up.stuck (n := copyBufSize) (by decide) hbuf
      (Option.map_eq_none_iff.mp (blocked_copy hb hr hp (a := .upRead 1) rfl))
      (Option.map_eq_none_iff.mp (blocked_copy hb hr hp (a := .upEof) rfl))
      (Option.map_eq_none_iff.mp (blocked_copy hb hr hp (a := .upShutdown) rfl))
    exact ⟨hbuf,hup.1⟩
  · left
    refine ⟨hbuf,?_⟩
    rcases blocked_outlet hb hr (a := .upWrite 1) rfl with ha|hroom
    · simp only [Relay.relayTcp,hp,copyStep] at ha
      exact absurd (Copy.write_none (Option.map_eq_none_iff.mp ha)) hbuf
    · exact hroom

/-- With room in the pipe to the encode future, the response direction has passed on everything
and waits for the upstream. -/
theorem stuck_down (h : Wired r.state) (hr : r.state.relayStatus=.running)
    (hp : r.state.relay.phase=.copying) (hi : r.state.relay.outbound.items=[])
    (hc : r.state.relay.outbound.closed=false) :
    r.state.relay.down.buf=[] ∧ r.state.relay.response=⟨[],false⟩ := by
  have hbuf : r.state.relay.down.buf=[] := by
    have hw := blocked_copy hb hr hp (a := .downWrite 1) rfl
    rw [copyStep,if_pos (by simp [hi,duplexSize])] at hw
    exact Copy.write_none (Option.map_eq_none_iff.mp hw)
  obtain ⟨hres,hend⟩ := h.pipes.down.stuck (n := copyBufSize) (by decide) hbuf
    (Option.map_eq_none_iff.mp (blocked_copy hb hr hp (a := .downRead 1) rfl))
    (Option.map_eq_none_iff.mp (blocked_copy hb hr hp (a := .downEof) rfl))
    (Option.map_eq_none_iff.mp (blocked_copy hb hr hp (a := .downShutdown) rfl))
  have hopen : r.state.relay.response.closed=false := by
    rcases hend with hd|ho
    · rw [h.pipes.shut hd] at hc
      cases hc
    · exact ho
  exact ⟨hbuf,by rw [← hres,← hopen]⟩

theorem stuck_decode (hd : r.state.decode.status=.running) (hr : r.state.relayStatus=.running)
    (hi : r.state.relay.inbound.items=[]) : Unfed r.state := by
  have hwrite : viaStep m r.state (.decodeWrite 1)=none := blocked_free hb rfl rfl
  have hnext : viaStep m r.state .decodeNext=none := blocked_free hb rfl rfl
  have hw : r.state.decode.writing=[] := by
    simp only [viaStep] at hwrite
    split_ifs at hwrite with hc
    simp only [hd,hr,hi,true_and,List.length_nil] at hc
    have hsize : 0+1≤duplexSize := by decide
    rw [← List.length_eq_zero_iff]
    by_contra hne
    exact hc ⟨Nat.one_pos,by omega,hsize⟩
  simp only [viaStep] at hnext
  rw [if_pos ⟨hd,hw⟩] at hnext
  simp only [ViaCore.decodeNext] at hnext
  split at hnext
  · cases hnext
  · rename_i hcached
    split at hnext
    · cases hnext
    · cases hnext
    · rename_i hmore
      split at hnext
      · cases hnext
      · rename_i hchunks
        split_ifs at hnext with hend
        exact ⟨by simpa using hend,hchunks,hcached,hmore,hw⟩

/-- In one of the `select!`s with the tasks it watches still running. -/
theorem stuck_select (h : Wired r.state) (hr : r.state.relayStatus=.running)
    (he : r.state.encode.status=.running)
    (hm : r.state.main=.inner ∨ (r.state.main=.outer ∧ r.state.decode.status=.running)) :
    Waiting r := by
  have hpolls : r.state.main.polls=true := by
    rcases hm with hm|⟨hm,-⟩
    · rw [hm]
      rfl
    · rw [hm]
      rfl
  obtain ⟨hconnecting,hwriting⟩ := stuck_start hb hr
  refine ⟨⟨hr,he⟩,hm,h.going hr,hconnecting,hwriting,?_,?_⟩
  · intro hp
    rcases stuck_up hb h hr hp with hheld|⟨hbuf,hitems⟩
    · exact Or.inl hheld
    · refine Or.inr ⟨hbuf,hitems,?_⟩
      rcases hm with hm|⟨hm,hd⟩
      · exact Or.inl hm
      · exact Or.inr (stuck_decode hb hd hr hitems)
  · rcases stuck_encode hb hpolls he with hheld|⟨hpending,hitems,hopen⟩
    · exact Or.inl hheld
    · exact Or.inr ⟨hpending,hitems,fun hp => stuck_down hb h hr hp hitems hopen⟩

theorem stuck_waiting (h : Wired r.state) :
    Waiting r ∨ Finishing r ∨ ∃ ok, r.state.main=.returned ok := by
  have hjoin : viaStep m r.state .join=none := blocked_free hb rfl rfl
  have hcancelDecode : viaStep m r.state .cancelDecode=none := blocked_free hb rfl rfl
  have hcancelRelay : viaStep m r.state .cancelRelay=none := blocked_free hb rfl rfl
  have hpickDecode : viaStep m r.state .pickDecode=none := blocked_free hb rfl rfl
  have hpickEncode : viaStep m r.state .pickEncode=none := blocked_free hb rfl rfl
  have hpickRelay : viaStep m r.state .pickRelay=none := blocked_free hb rfl rfl
  simp only [viaStep,mainStep] at hjoin hcancelDecode hcancelRelay hpickDecode hpickEncode hpickRelay
  -- In both `select!`s all three tasks still run, or one of their ends could be taken up.
  have polling (hm : r.state.main=.outer ∨ r.state.main=.inner) :
      r.state.relayStatus=.running ∧ r.state.encode.status=.running := by
    constructor
    · by_contra hr
      rw [if_neg hr] at hpickRelay
      rcases hm with hm|hm <;> simp [hm] at hpickRelay
    · by_contra he
      rw [if_neg he] at hpickEncode
      rcases hm with hm|hm <;> simp [hm] at hpickEncode
  cases hm : r.state.main with
  | outer =>
    obtain ⟨hr,he⟩ := polling (Or.inl hm)
    have hd : r.state.decode.status=.running := by
      by_contra hd
      simp [hm,hd] at hpickDecode
    exact Or.inl (stuck_select hb h hr he (Or.inr ⟨hm,hd⟩))
  | inner =>
    obtain ⟨hr,he⟩ := polling (Or.inr hm)
    exact Or.inl (stuck_select hb h hr he (Or.inl hm))
  | abortBoth ok =>
    simp only [hm] at hcancelDecode hcancelRelay hjoin
    split_ifs at hcancelDecode hcancelRelay hjoin with hd hr hc
    exact absurd ⟨hd,hr⟩ hc
  | abortRelay ok =>
    simp only [hm] at hcancelRelay hjoin
    split_ifs at hcancelRelay hjoin
  | abortDecode ok =>
    simp only [hm] at hcancelDecode hjoin
    split_ifs at hcancelDecode hjoin
  | awaitEncode =>
    have he : r.state.encode.status=.running := by
      simp only [hm] at hjoin
      split_ifs at hjoin with hc
      exact Classical.not_not.mp hc
    rcases stuck_encode hb (by rw [hm]; rfl) he with hheld|⟨-,-,hopen⟩
    · exact Or.inr (Or.inl ⟨hm,he,hheld⟩)
    · have hended := h.ended
      rw [Ended,hm] at hended
      rw [h.dropped hended.2] at hopen
      cases hopen
  | returned ok => exact Or.inr (Or.inr ⟨ok,rfl⟩)

end Stuck

/-- From every state a run of `relay_grpc_via_core` reaches, whatever has failed before and
whatever its peers take: without its peers only a bounded number of steps remains, and some of its
own lead to where it waits for a peer to send or to take, or has returned. It is stuck nowhere
else, and when it has returned its tasks are over. -/
theorem via_core_never_hangs {m : Build} {authId : Bytes} {cached : List Bytes}
    {reader : GrpcFrameReader} {room : ViaOutlet → Nat} {as : List (RoomAction ViaAction ViaOutlet)}
    {r : Roomed ViaCore ViaOutlet}
    (hr : run (viaRoomStep m) ⟨.start authId cached reader,room⟩ as=some r) :
    (∀ bs r', (∀ a∈bs, a.Acts (fun a => a.peer=false)) → run (viaRoomStep m) r bs=some r' →
      bs.length ≤ r.state.work) ∧
    (∃ bs r', (∀ a∈bs, a.Acts (fun a => a.own=true)) ∧ run (viaRoomStep m) r bs=some r' ∧
      (Waiting r' ∨ Finishing r' ∨ ∃ ok, r'.state.main=.returned ok)) ∧
    (Blocked (viaRoomStep m) (RoomAction.Acts (fun a => a.own=true)) r →
      Waiting r ∨ Finishing r ∨ ∃ ok, r.state.main=.returned ok) ∧
    (∀ ok, r.state.main=.returned ok →
      r.state.decode.status≠.running ∧ r.state.relayStatus≠.running) := by
  have keep : ∀ s a s', Wired s → viaStep m s a=some s' → Wired s' := fun _ _ _ hi hs => hi.step hs
  have hw : Wired r.state := run_invariant keep (wired_start authId cached reader) (room_run hr)
  refine ⟨?_,?_,fun hb => stuck_waiting hb hw,?_⟩
  · intro bs r' hbs hrun
    have hle := room_length_le (I := fun _ => True) (w := ViaCore.work) (fun _ _ _ _ _ => trivial)
      (fun _ _ _ _ hp hs => viaStep_work hp hs) trivial hbs hrun
    omega
  · obtain ⟨bs,r',hbs,hrun,hb⟩ := room_blocked (k := fun a : ViaAction => a.own=true)
      (w := ViaCore.work) keep
      (fun _ _ _ _ hp hs => viaStep_work (ViaAction.peer_of_own hp) hs) hw
    have hw' : Wired r'.state := run_invariant keep hw (room_run hrun)
    exact ⟨bs,r',hbs,hrun,stuck_waiting hb hw'⟩
  · intro ok hm
    have he := hw.ended
    rw [Ended,hm] at he
    exact he

/-- Both peers are done, but the client takes only the first bytes of the response's frame. -/
def clientStopsTaking : List (RoomAction ViaAction ViaOutlet) :=
  [.act .endStream,.act .decodeNext,.act (.decodeWrite 1),.act .decodeNext,.offer .connect 1,
    .act (.tcp .connect),.offer .socket 17,.act (.tcp (.writeAuth 16)),.act (.tcp .startCopy),
    .act (.tcp (.upRead 1)),.act (.tcp (.upWrite 1)),.act (.tcp .upEof),.act (.tcp .upShutdown),
    .act (.respond [9]),.act .closeWrite,.act (.tcp (.downRead 1)),.act (.tcp (.downWrite 1)),
    .act (.tcp .downEof),.act (.tcp .downShutdown),.act (.tcp .finish),.act .pickDecode,
    .act .pickRelay,.act (.encodeRead 1),.offer .window 3,.act (.encodeSend 3)]

theorem via_core_never_hangs_short : ∃ r,
    run (viaRoomStep .release) ⟨shortStart,fun _ => 0⟩ clientStopsTaking=some r ∧ Finishing r ∧
    (∀ bs r', (∀ a∈bs, a.Acts (fun a => a.peer=false)) →
      run (viaRoomStep .release) r bs=some r' → bs.length≤7) ∧
    ∃ bs r', run (viaRoomStep .release) r bs=some r' ∧
      (Waiting r' ∨ Finishing r' ∨ ∃ ok, r'.state.main=.returned ok) := by
  have hr : ∃ r, run (viaRoomStep .release) ⟨shortStart,fun _ => 0⟩ clientStopsTaking=some r ∧
      (r.state.main,r.state.encode.status,r.state.encode.pending,r.room .window,r.state.work)=
        (.awaitEncode,.running,[0,3,0x0A,1,9],0,7) := by
    rw [← Option.map_eq_some_iff]
    decide +kernel
  obtain ⟨r,hr,hst⟩ := hr
  simp only [Prod.mk.injEq] at hst
  obtain ⟨hm,he,hp,hroom,hwork⟩ := hst
  have hfinishing : Finishing r := ⟨hm,he,by rw [hp]; simp,hroom⟩
  obtain ⟨hbound,⟨bs,r',-,hbs,hend⟩,-⟩ := via_core_never_hangs hr
  rw [hwork] at hbound
  exact ⟨r,hr,hfinishing,hbound,bs,r',hbs,hend⟩

end Tobira.Relay
