import Tobira.Relay.Request

namespace Tobira.Relay

open Tobira.Framework Tobira.Transport

/-- Some task of the run ended with an error. -/
def Failed (st : ViaCore) : Prop :=
  st.decode.status=.failed ∨ st.relayStatus=.failed ∨ st.encode.status=.failed

/-- The response direction: what the encode future has read so far, and the rest. -/
structure Encoded (st : ViaCore) (reads : List Bytes) : Prop where
  sizes : ∀ d∈reads, 0<d.length ∧ d.length ≤ rawToGrpcReadBufSize
  wire : wire st.encode.sent++st.encode.pending=(reads.map encodeGrpcFrame).flatten
  flow : DownFlow st.answered reads.flatten st.relay
  closed : st.relay.outbound.closed=true →
    st.relay.down.done=true ∨ st.relayStatus=.cancelled
  ended : st.encode.status=.ok →
    st.relay.down.done=true ∧ st.relay.outbound.items=[] ∧ st.encode.pending=[]

def Answering (st : ViaCore) : Prop := ∃ reads, Encoded st reads

/-- What `relay_grpc_via_core` knows at each of its waits. -/
def Control (st : ViaCore) : Prop :=
  match st.main with
  | .outer | .inner => st.relayStatus=.running ∨ st.relayStatus=.ok
  | .abortBoth ok | .abortRelay ok =>
    ok=true ∧ st.encode.status=.ok ∧ st.relay.up.done=true
  | .abortDecode ok => ok=true ∧ st.relayStatus=.ok
  | .awaitEncode => st.relayStatus=.ok
  | .returned _ => st.encode.status=.ok ∧ st.relay.up.done=true

structure Flow (m : Build) (authId : Bytes) (st : ViaCore) : Prop where
  request : Requesting m authId st
  response : Answering st
  control : Control st
  relayDone : st.relayStatus=.ok → st.relay.phase=.finished
  relayAlive : st.relayStatus≠.failed
  encodeAlive : st.encode.status=.running ∨ st.encode.status=.ok
  cancelled : st.relayStatus=.cancelled → st.encode.status=.ok

/-- When `select!` takes up the end of the encode future, the relay task has shut down the
upstream's write side: the request direction is over. -/
def Waits (st : ViaCore) : ViaAction → Prop
  | .pickEncode => st.relay.up.done=true
  | _ => True

instance (st : ViaCore) : (a : ViaAction) → Decidable (Waits st a)
  | .pickEncode => inferInstanceAs (Decidable (st.relay.up.done=true))
  | .send _ | .endStream | .respond _ | .closeWrite | .decodeNext | .decodeWrite _ | .decodeFail
  | .tcp _ | .relayFail | .encodeRead _ | .encodeSend _ | .encodeEnd | .encodeFail
  | .pickDecode | .pickRelay | .cancelDecode | .cancelRelay | .join => .isTrue trivial

theorem flow_start {m : Build} {r q : GrpcFrameReader} {cached : List Bytes} {authId : Bytes}
    (h : InitialAuth m [] r cached authId q) : Flow m authId (.start authId cached q) where
  request := requesting_start h
  response := by
    refine ⟨[],⟨by simp,rfl,downFlow_start authId ⟨[],false⟩,?_,?_⟩⟩
    · intro he
      cases he
    · intro he
      cases he
  control := Or.inl rfl
  relayDone := fun he => by cases he
  relayAlive := fun he => by cases he
  encodeAlive := Or.inl rfl
  cancelled := fun he => by cases he

/-- The relay task at its end has shut down the upstream's write side. -/
theorem Flow.relay_over {m : Build} {authId : Bytes} {st : ViaCore} (h : Flow m authId st)
    (hr : st.relayStatus=.ok) : st.relay.up.done=true := by
  obtain ⟨read,fed,ht⟩ := h.request
  exact ht.flow.ended (h.relayDone hr)

/-- The waits stay justified while the relay task goes on or ends well. -/
theorem Control.relay {st st' : ViaCore} (h : Control st) (hs : st.relayStatus=.running)
    (hm : st'.main=st.main) (he : st'.encode=st.encode)
    (hr : st'.relayStatus=.running ∨ st'.relayStatus=.ok)
    (hup : st.relay.up.done=true → st'.relay.up.done=true) : Control st' := by
  rw [Control] at h ⊢
  rw [hm,he]
  cases hmain : st.main with
  | outer => exact hr
  | inner => exact hr
  | abortBoth ok =>
    rw [hmain] at h
    exact ⟨h.1,h.2.1,hup h.2.2⟩
  | abortRelay ok =>
    rw [hmain] at h
    exact ⟨h.1,h.2.1,hup h.2.2⟩
  | abortDecode ok =>
    rw [hmain,hs] at h
    cases h.2
  | awaitEncode =>
    rw [hmain,hs] at h
    cases h
  | returned ok =>
    rw [hmain] at h
    exact ⟨h.1,hup h.2⟩

theorem Encoded.tcp {st : ViaCore} {reads : List Bytes} {r : TcpRelay} {a : TcpAction}
    (h : Encoded st reads) (hs : st.relayStatus=.running)
    (ht : relayTcp (some duplexSize) st.relay a=some r) :
    Encoded (if r.phase=.finished then { st with relay := r }.endRelay .ok
      else { st with relay := r }) reads := by
  have hk := relayTcp_keeps ht h.flow.sound
  have hdown := h.flow.relayTcp ht
  have hopen : st.relay.outbound.closed=true → st.relay.down.done=true := by
    intro hc
    rcases h.closed hc with hd|hx
    · exact hd
    · rw [hs] at hx
      cases hx
  have hclosed : r.outbound.closed=true → r.down.done=true := by
    intro hc
    rcases hk.outbound hc with hc|hd
    · exact (hk.down (hopen hc)).1
    · exact hd
  have hended : st.encode.status=.ok →
      r.down.done=true ∧ r.outbound.items=[] ∧ st.encode.pending=[] := by
    intro ho
    obtain ⟨hd,hi,hp⟩ := h.ended ho
    obtain ⟨hd',hi'⟩ := hk.down hd
    exact ⟨hd',hi'.trans hi,hp⟩
  split_ifs with hfin
  · exact ⟨h.sizes,h.wire,⟨hdown.bytes,hdown.sound,hdown.ended,fun _ => rfl⟩,
      fun _ => Or.inl (hdown.ended hfin),hended⟩
  · exact ⟨h.sizes,h.wire,hdown,fun hc => Or.inl (hclosed hc),hended⟩

/-- A step of `relay_tcp`, or the drop of its streams at the end. -/
theorem Flow.relayStep {m : Build} {authId : Bytes} {st : ViaCore} {r : TcpRelay} {a : TcpAction}
    (h : Flow m authId st) (hs : st.relayStatus=.running)
    (ht : relayTcp (some duplexSize) st.relay a=some r) :
    Flow m authId (if r.phase=.finished then { st with relay := r }.endRelay .ok
      else { st with relay := r }) := by
  have hq := h.request.tcp ht
  obtain ⟨reads,he⟩ := h.response
  have hup := (relayTcp_keeps ht he.flow.sound).up
  have hr := he.tcp hs ht
  split_ifs at hq hr ⊢ with hfin
  · refine ⟨hq,⟨reads,hr⟩,h.control.relay hs rfl rfl (Or.inr rfl) hup,fun _ => hfin,?_,
      h.encodeAlive,?_⟩
    · intro hx
      cases hx
    · intro hx
      cases hx
  · refine ⟨hq,⟨reads,hr⟩,h.control.relay hs rfl rfl (Or.inl hs) hup,?_,h.relayAlive,
      h.encodeAlive,h.cancelled⟩
    intro hx
    rw [show st.relayStatus=_ from hx] at hs
    cases hs

/-- A step of the client or of the decode task leaves the other parts alone. -/
structure RequestOnly (st st' : ViaCore) : Prop where
  relayStatus : st'.relayStatus=st.relayStatus
  main : st'.main=st.main
  encode : st'.encode=st.encode
  answered : st'.answered=st.answered
  phase : st'.relay.phase=st.relay.phase
  up : st'.relay.up=st.relay.up
  outbound : st'.relay.outbound=st.relay.outbound
  down : st'.relay.down=st.relay.down
  response : st'.relay.response=st.relay.response

theorem Flow.request_step {m : Build} {authId : Bytes} {st st' : ViaCore} (h : Flow m authId st)
    (hq : Requesting m authId st') (hs : RequestOnly st st') : Flow m authId st' where
  request := hq
  response := by
    obtain ⟨reads,he⟩ := h.response
    refine ⟨reads,⟨he.sizes,?_,⟨?_,?_,?_,?_⟩,?_,?_⟩⟩
    · rw [hs.encode]
      exact he.wire
    · rw [hs.outbound,hs.down,hs.response,hs.answered]
      exact he.flow.bytes
    · rw [hs.down,hs.response]
      exact he.flow.sound
    · rw [hs.phase,hs.down]
      exact he.flow.ended
    · rw [hs.down,hs.outbound]
      exact he.flow.shut
    · rw [hs.outbound,hs.down,hs.relayStatus]
      exact he.closed
    · rw [hs.encode,hs.down,hs.outbound]
      exact he.ended
  control := by
    have hc := h.control
    simp only [Control] at hc ⊢
    rw [hs.main,hs.relayStatus,hs.encode,hs.up]
    exact hc
  relayDone := by
    rw [hs.relayStatus,hs.phase]
    exact h.relayDone
  relayAlive := by
    rw [hs.relayStatus]
    exact h.relayAlive
  encodeAlive := by
    rw [hs.encode]
    exact h.encodeAlive
  cancelled := by
    rw [hs.relayStatus,hs.encode]
    exact h.cancelled

theorem takeFrame_only (m : Build) (st : ViaCore) (frame : Bytes) :
    RequestOnly st (st.takeFrame m frame) := by
  simp only [ViaCore.takeFrame]
  split <;> constructor <;> rfl

theorem decodeNext_only {m : Build} {st st' : ViaCore} (h : st.decodeNext m=some st') :
    RequestOnly st st' := by
  simp only [ViaCore.decodeNext] at h
  split at h
  · rename_i frame cached hc
    cases h
    have ho := takeFrame_only m { st with decode := { st.decode with cached := cached } } frame
    exact ⟨ho.relayStatus,ho.main,ho.encode,ho.answered,ho.phase,ho.up,ho.outbound,ho.down,
      ho.response⟩
  · split at h
    · rename_i frame rest hp
      cases h
      have ho := takeFrame_only m { st with decode := { st.decode with buf := rest } } frame
      exact ⟨ho.relayStatus,ho.main,ho.encode,ho.answered,ho.phase,ho.up,ho.outbound,ho.down,
        ho.response⟩
    · cases h
      constructor <;> rfl
    · split at h
      · cases h
        constructor <;> rfl
      · split_ifs at h
        cases h
        constructor <;> rfl

/-- The upstream sends more, or ends its side. -/
theorem Flow.response_step {m : Build} {authId : Bytes} {st : ViaCore} (h : Flow m authId st)
    {answered : Bytes} {response : Pipe UInt8}
    (hf : ∀ taken, DownFlow st.answered taken st.relay →
      DownFlow answered taken { st.relay with response := response }) :
    Flow m authId
      { st with answered := answered,relay := { st.relay with response := response } } where
  request := h.request.respond answered response
  response := by
    obtain ⟨reads,he⟩ := h.response
    exact ⟨reads,⟨he.sizes,he.wire,hf _ he.flow,he.closed,he.ended⟩⟩
  control := h.control
  relayDone := h.relayDone
  relayAlive := h.relayAlive
  encodeAlive := h.encodeAlive
  cancelled := h.cancelled

/-- The encode future keeps the response in order, or fails. -/
theorem Encoded.step {st st' : ViaCore} {reads : List Bytes} (h : Encoded st reads)
    (hrun : st.encode.status=.running) (hr : st.relayStatus≠.cancelled)
    (hs : EncodeSteps st st') : st'.encode.status=.failed ∨ Answering st' := by
  have running : st.encode.status≠.ok := by
    rw [hrun]
    decide
  cases hs with
  | @read n empty pos fits there =>
    have hd : (st.relay.outbound.items.take n).length=n := by
      rw [List.length_take]
      omega
    have hw := h.wire
    rw [empty,List.append_nil] at hw
    right
    refine ⟨reads++[st.relay.outbound.items.take n],⟨?_,?_,?_,h.closed,
      fun hx => absurd hx running⟩⟩
    · intro d hmem
      rcases List.mem_append.mp hmem with hmem|hmem
      · exact h.sizes d hmem
      · rw [List.mem_singleton.mp hmem,hd]
        exact ⟨pos,fits⟩
    · change Transport.wire st.encode.sent++encodeGrpcFrame (st.relay.outbound.items.take n)=_
      rw [hw]
      simp
    · refine ⟨?_,h.flow.sound,h.flow.ended,h.flow.shut⟩
      change (reads++[st.relay.outbound.items.take n]).flatten++st.relay.outbound.items.drop n++
        st.relay.down.buf++st.relay.response.items=_
      rw [← h.flow.bytes]
      simp
  | @send n pos there =>
    right
    refine ⟨reads,⟨h.sizes,?_,h.flow,h.closed,fun hx => absurd hx running⟩⟩
    change Transport.wire (st.encode.sent++[⟨st.encode.pending.take n,false⟩])++
      st.encode.pending.drop n=_
    rw [wire_append,← h.wire]
    simp [Transport.wire]
  | done empty drained closed =>
    have hd : st.relay.down.done=true := by
      rcases h.closed closed with hd|hx
      · exact hd
      · exact absurd hx hr
    right
    refine ⟨reads,⟨h.sizes,?_,h.flow,h.closed,fun _ => ⟨hd,drained,empty⟩⟩⟩
    change Transport.wire (st.encode.sent++[⟨[],true⟩])++st.encode.pending=_
    rw [wire_append,← h.wire]
    simp [Transport.wire]
  | fail => exact Or.inl rfl

/-- The encode future touches its own state and the pipe it reads. -/
structure EncodeOnly (st st' : ViaCore) : Prop where
  main : st'.main=st.main
  relayStatus : st'.relayStatus=st.relayStatus
  decode : st'.decode=st.decode
  phase : st'.relay.phase=st.relay.phase

theorem EncodeSteps.only {st st' : ViaCore} (h : EncodeSteps st st') : EncodeOnly st st' := by
  cases h <;> constructor <;> rfl

theorem EncodeSteps.status {st st' : ViaCore} (h : EncodeSteps st st')
    (hrun : st.encode.status=.running) : st'.encode.status=.failed ∨
      st'.encode.status=.running ∨ st'.encode.status=.ok := by
  cases h with
  | done empty drained closed => exact Or.inr (Or.inr rfl)
  | fail => exact Or.inl rfl
  | _ => exact Or.inr (Or.inl hrun)

theorem Control.encode {st st' : ViaCore} (h : Control st) (hp : st.main.polls=true)
    (ho : EncodeOnly st st') : Control st' := by
  rw [Control] at h ⊢
  rw [ho.main,ho.relayStatus]
  cases hmain : st.main with
  | outer =>
    rw [hmain] at h
    exact h
  | inner =>
    rw [hmain] at h
    exact h
  | awaitEncode =>
    rw [hmain] at h
    exact h
  | _ =>
    rw [hmain] at hp
    cases hp

/-- A step of the encode future, which runs only while nothing has been aborted. -/
theorem Flow.encodeStep {m : Build} {authId : Bytes} {st st' : ViaCore}
    (h : Flow m authId st) (hrun : st.encode.status=.running) (hp : st.main.polls=true)
    (hs : EncodeSteps st st') : Failed st' ∨ Flow m authId st' := by
  have hnot : st.relayStatus≠.cancelled := by
    intro hc
    rw [h.cancelled hc] at hrun
    cases hrun
  obtain ⟨reads,he⟩ := h.response
  have ho := hs.only
  rcases hs.status hrun with hf|halive
  · exact Or.inl (Or.inr (Or.inr hf))
  rcases he.step hrun hnot hs with hf|ha
  · exact Or.inl (Or.inr (Or.inr hf))
  right
  refine ⟨h.request.encodeStep hs,ha,h.control.encode hp ho,?_,?_,halive,?_⟩
  · rw [ho.relayStatus,ho.phase]
    exact h.relayDone
  · rw [ho.relayStatus]
    exact h.relayAlive
  · rw [ho.relayStatus]
    exact fun hx => absurd hx hnot

/-- A step of `relay_grpc_via_core` itself. -/
theorem Flow.mainStep {m : Build} {authId : Bytes} {st st' : ViaCore} {a : ViaAction}
    (h : Flow m authId st) (hw : Waits st a) (hs : MainSteps st a st') : Flow m authId st' := by
  have hc := h.control
  rw [Control] at hc
  have move {main : Main} (hm : Control { st with main := main }) :
      Flow m authId { st with main := main } := by
    obtain ⟨reads,he⟩ := h.response
    exact ⟨h.request.setMain main,⟨reads,⟨he.sizes,he.wire,he.flow,he.closed,he.ended⟩⟩,hm,
      h.relayDone,h.relayAlive,h.encodeAlive,h.cancelled⟩
  have encodeOk (hn : st.encode.status≠.running) : st.encode.status=.ok :=
    h.encodeAlive.resolve_left hn
  have counts (hr : st.relayStatus=.ok) : relayOk st.relayStatus=true := by
    rw [hr]
    rfl
  cases hs with
  | decoded hm hd =>
    rw [hm] at hc
    exact move hc
  | undecoded hm hd hb => exact absurd (h.request.status.resolve_left hd) hb
  | encoded hm he => exact move ⟨decide_eq_true (encodeOk he),encodeOk he,hw⟩
  | encodedLate hm he => exact move ⟨decide_eq_true (encodeOk he),encodeOk he,hw⟩
  | relayed hm hr =>
    rw [hm] at hc
    have hok := hc.resolve_left hr
    exact move ⟨counts hok,hok⟩
  | relayedLate hm hr =>
    rw [hm] at hc
    have hok := hc.resolve_left hr
    rw [if_pos (counts hok)]
    exact move hok
  | @cancelDecode ok hm hd =>
    -- The request direction is over by then, so there is no decode task left to cancel.
    have hup : st.relay.up.done=true := by
      rcases hm with hm|hm <;> rw [hm] at hc
      · exact hc.2.2
      · exact h.relay_over hc.2
    rw [h.request.decode_over hup] at hd
    cases hd
  | @cancelRelay ok hm hr =>
    have hen : ok=true ∧ st.encode.status=.ok ∧ st.relay.up.done=true := by
      rcases hm with hm|hm <;> rw [hm] at hc <;> exact hc
    obtain ⟨reads,he⟩ := h.response
    refine ⟨h.request.endRelay _,⟨reads,⟨he.sizes,he.wire,?_,fun _ => Or.inr rfl,he.ended⟩⟩,?_,
      ?_,?_,Or.inr hen.2.1,fun _ => hen.2.1⟩
    · exact ⟨he.flow.bytes,he.flow.sound,he.flow.ended,fun _ => rfl⟩
    · rw [Control]
      rcases hm with hm|hm <;> rw [show (st.endRelay .cancelled).main=_ from hm] <;> exact hen
    · intro hx
      cases hx
    · intro hx
      cases hx
  | joinBoth hm hd hr =>
    rw [hm] at hc
    exact move hc.2
  | joinRelay hm hr =>
    rw [hm] at hc
    exact move hc.2
  | joinDecode hm hd =>
    rw [hm] at hc
    obtain ⟨rfl,hok⟩ := hc
    exact move hok
  | joinEncode hm he =>
    rw [hm] at hc
    exact move ⟨encodeOk he,h.relay_over hc⟩

end Tobira.Relay
