import Tobira.Relay.TunnelFlow

namespace Tobira.Relay

open Tobira.Framework Tobira.Transport

/-- `relay_grpc`: the Auth ID goes ahead as a frame, raw bytes are framed one way and frames
decoded the other. -/
def relayGrpcSetup (m : Build) (authId : Bytes) (idleTimeout : Option Nat) (late : Nat) :
    TunnelSetup where
  first := rawToGrpcCodec
  second := grpcToRawCodec m
  firstErrors := fun e => e.isRaw || e.isSend
  secondErrors := fun e => e.isRecv || e.isRaw
  opening := encodeGrpcFrame authId
  idleTimeout := idleTimeout
  late := late

/-- `relay_grpc_to_grpc_fast`: the cached frames go ahead, then frames are passed on both ways. -/
def relayGrpcToGrpcFastSetup (cached : List Bytes) (idleTimeout : Option Nat) (late : Nat) :
    TunnelSetup where
  first := grpcFramesCodec
  second := grpcFramesCodec
  firstErrors := fun e => e.isRecv || e.isSend
  secondErrors := fun e => e.isRecv || e.isSend
  opening := cached.flatten
  idleTimeout := idleTimeout
  late := late

/-- What is read of the data of frames is read of the data of the stream. -/
theorem framesData_payload (m : Build) {frames : List Bytes} {rest : Bytes}
    (h : ∀ f∈frames, ExactFrame f) : framesData m frames <+: payload m (frames.flatten++rest) := by
  rw [payload,parseFrames_flatten frames rest h,framesData_append]
  exact List.prefix_append _ _

/-- The frames of a stream that ends inside a frame or after one. -/
theorem parseFrames_cut {frames : List Bytes} {rest : Bytes} (h : ∀ f∈frames, ExactFrame f)
    (hr : peekFrame rest=.more) : (parseFrames (frames.flatten++rest)).1=frames := by
  rw [parseFrames_flatten frames rest h,parseFrames_more hr,List.append_nil]

/-- A relay that returned well, without idleness and without an error of its tasks, has let both
of them end by themselves. -/
theorem returned_complete {setup : TunnelSetup} {buf pending : Bytes} {now : Nat}
    {as : List TunnelAction} {st : Tunnel}
    (hr : run (tunnelStep setup) (.start setup buf pending now) as=some st)
    (hs : st.stage=.returned true) (hi : st.idle=none) (h1 : ∀ e, st.first.state≠.failed e)
    (h2 : ∀ e, st.second.state≠.failed e) : st.first.state=.ok ∧ st.second.state=.ok := by
  have hc := controlled_run hr
  have ht := hc.tasks
  have hrec := hc.recorded
  rw [Tasks,hs] at ht
  rw [Recorded,hs] at hrec
  obtain ⟨o1,o2⟩ := ht.2 rfl
  constructor
  · cases h : st.first.state with
    | waiting => exact absurd h o1.1
    | running => exact absurd h o1.2
    | ok => rfl
    | failed e => exact absurd h (h1 e)
    | cancelled =>
      rcases hc.cancelFirst h with hn|hn
      · exact absurd (hrec rfl) hn
      · exact absurd hi hn
  · cases h : st.second.state with
    | waiting => exact absurd h o2.1
    | running => exact absurd h o2.2
    | ok => rfl
    | failed e => exact absurd h (h2 e)
    | cancelled => exact absurd hi (hc.cancelSecond h)

section RelayGrpc
variable {m : Build} {authId pending : Bytes} {idleTimeout : Option Nat} {late now : Nat}
  {as : List TunnelAction} {st : Tunnel}

/-- What either direction has carried, and that one whose task ended well is complete. -/
theorem relayGrpc_carries (ha : authId.length≤authIdSize)
    (hr : run (tunnelStep (relayGrpcSetup m authId idleTimeout late))
      (.start (relayGrpcSetup m authId idleTimeout late) [] pending now) as=some st) :
    (∃ reads : List Bytes, (∀ d∈reads, 0<d.length ∧ d.length ≤ rawToGrpcReadBufSize) ∧
      reads.flatten <+: st.requested ∧
      st.upstream <+: ((authId::reads).map encodeGrpcFrame).flatten) ∧
    st.second.sent <+: payload m st.answered ∧
    (st.first.state=.ok → payload m st.upstream=authId++st.requested) ∧
    (st.second.state=.ok → st.second.sent=payload m st.answered) := by
  have hd := delivers_run (fun _ _ => Nat.zero_le _) hr
  obtain ⟨u1,h1⟩ := hd.request
  obtain ⟨u2,h2⟩ := hd.response
  have hunits1 := h1.units
  have hunits2 := h2.units
  have hsizes : ∀ d∈u1.map Prod.fst, 0<d.length ∧ d.length ≤ rawToGrpcReadBufSize := by
    intro d hm
    obtain ⟨u,hu,rfl⟩ := List.mem_map.mp hm
    exact (hunits1 u hu).2
  have hframes : ∀ f∈u2.map Prod.fst, ExactFrame f := by
    intro f hm
    obtain ⟨u,hu,rfl⟩ := List.mem_map.mp hm
    exact (hunits2 u hu).1
  have hin1 := h1.input
  have hin2 := h2.input
  have hwire : encodeGrpcFrame authId++(u1.map Prod.snd).flatten=
      ((authId::u1.map Prod.fst).map encodeGrpcFrame).flatten := by
    rw [rawToGrpc_units hunits1,List.map_cons,List.flatten_cons]
  have hrequest : st.first.state=.ok → payload m st.upstream=authId++st.requested := by
    intro hok
    obtain ⟨hall,hmore,-⟩ := h1.complete hok
    have hbuf : st.first.buf=[] := rawToGrpcCodec.whole rawToGrpcReadBufSize rfl _ hmore
    have hfit : ∀ d∈authId::u1.map Prod.fst, d.length ≤ rawToGrpcReadBufSize := by
      intro d hm
      rcases List.mem_cons.mp hm with rfl|hm
      · exact ha.trans (by decide)
      · exact (hsizes d hm).2
    rw [hbuf,List.append_nil] at hall
    rw [hd.complete h1 hok]
    change payload m (encodeGrpcFrame authId++_)=_
    rw [hwire,payload_encode m hfit,List.flatten_cons,hall]
  have hresponse : st.second.state=.ok → st.second.sent=payload m st.answered := by
    intro hok
    obtain ⟨hall,hmore,hsent⟩ := h2.complete hok
    rw [hsent,grpcToRaw_units hunits2,payload,← hall,
      parseFrames_cut hframes (grpcToRawCodec_more hmore)]
  refine ⟨⟨u1.map Prod.fst,hsizes,?_,?_⟩,?_,hrequest,hresponse⟩
  · rw [← hin1]
    exact List.prefix_append _ _
  · rw [← hwire]
    exact hd.upstream h1
  · have hout := h2.output
    rw [grpcToRaw_units hunits2] at hout
    have hdata : framesData m (u2.map Prod.fst) <+: payload m ((u2.map Prod.fst).flatten++
        (st.second.buf++st.second.source.items)) := framesData_payload m hframes
    rw [hin2,← hout] at hdata
    exact (List.prefix_append _ _).trans hdata

/-- In every run of `relay_grpc`: what is on the request stream is the start of frames for the
Auth ID and for what the client sent, and the client has got the start of the response's payload.
A direction whose task ended well is complete, so with no idle timeout and no error both are when
the function returns `Ok`. -/
theorem relay_grpc_delivers (ha : authId.length≤authIdSize)
    (hr : run (tunnelStep (relayGrpcSetup m authId idleTimeout late))
      (.start (relayGrpcSetup m authId idleTimeout late) [] pending now) as=some st) :
    (∃ reads : List Bytes, (∀ d∈reads, 0<d.length ∧ d.length ≤ rawToGrpcReadBufSize) ∧
      reads.flatten <+: st.requested ∧
      st.upstream <+: ((authId::reads).map encodeGrpcFrame).flatten) ∧
    st.second.sent <+: payload m st.answered ∧
    (st.first.state=.ok → payload m st.upstream=authId++st.requested) ∧
    (st.second.state=.ok → st.second.sent=payload m st.answered) ∧
    (st.stage=.returned true → st.idle=none → (∀ e, st.first.state≠.failed e) →
      (∀ e, st.second.state≠.failed e) →
      payload m st.upstream=authId++st.requested ∧ st.second.sent=payload m st.answered) := by
  obtain ⟨hforward,hback,hrequest,hresponse⟩ := relayGrpc_carries ha hr
  refine ⟨hforward,hback,hrequest,hresponse,?_⟩
  intro hs hi hf1 hf2
  obtain ⟨o1,o2⟩ := returned_complete hr hs hi hf1 hf2
  exact ⟨hrequest o1,hresponse o2⟩

end RelayGrpc

/-- The upstream ends its response before the client has ended its request. -/
def halfClosed (opening : Nat) (request response : Bytes) (first second : Nat) :
    List TunnelAction :=
  [.openingSend opening,.spawn,.request request,.first (.pull request.length),.first .take,
    .first (.put first),.headersOk,.answer response,.answerEnd,.second (.pull response.length),
    .second .take,.second (.put second),.second .finish,.collectSecond,.requestEnd,.first .finish,
    .collectFirst,.leave,.expect]

theorem relay_grpc_delivers_short : ∃ st,
    run (tunnelStep (relayGrpcSetup .release (List.replicate 16 1) none 0))
      (.start (relayGrpcSetup .release (List.replicate 16 1) none 0) [] [] 0)
      (halfClosed 23 [2,3] (encodeGrpcFrame [7]) 9 1)=some st ∧
    payload .release st.upstream=List.replicate 16 1++st.requested ∧
    st.second.sent=payload .release st.answered := by
  have hr : ∃ st, run (tunnelStep (relayGrpcSetup .release (List.replicate 16 1) none 0))
      (.start (relayGrpcSetup .release (List.replicate 16 1) none 0) [] [] 0)
      (halfClosed 23 [2,3] (encodeGrpcFrame [7]) 9 1)=some st ∧
      (st.first.state,st.second.state)=(.ok,.ok) := by
    rw [← Option.map_eq_some_iff]
    decide +kernel
  obtain ⟨st,hr,hst⟩ := hr
  simp only [Prod.mk.injEq] at hst
  have h := relay_grpc_delivers (by decide) hr
  exact ⟨st,hr,h.2.2.1 hst.1,h.2.2.2.1 hst.2⟩

/-- In every run: the results that `expect` takes are there; the relay function returns only when
no task runs; a task is cancelled only because the headers failed or both directions were idle
for the timeout; and `evict` is called once for a connection error in place of the headers and
once for one of the first task, and for nothing else. -/
theorem tunnel_tasks_accounted {setup : TunnelSetup} {buf pending : Bytes} {now : Nat}
    {as : List TunnelAction} {st : Tunnel}
    (hr : run (tunnelStep setup) (.start setup buf pending now) as=some st) :
    st.stage≠.panicked ∧
    (∀ ok, st.stage=.returned ok → st.first.state≠.running ∧ st.second.state≠.running ∧
      (ok=true → Over st.first ∧ Over st.second)) ∧
    (st.first.state=.cancelled → st.refusal≠none ∨ st.idle≠none) ∧
    (st.second.state=.cancelled → st.idle≠none) ∧
    (∀ d∈st.idle, ∃ timeout∈setup.idleTimeout, timeout ≤ d) ∧
    st.evictions=refusals st+evicts st.first := by
  have hc := controlled_run hr
  have ht := hc.tasks
  simp only [Tasks] at ht
  refine ⟨?_,?_,hc.cancelFirst,hc.cancelSecond,hc.idle,hc.evictions⟩
  · intro hs
    rw [hs] at ht
    exact ht
  · intro ok hs
    rw [hs] at ht
    exact ⟨ht.1.1,ht.1.2,ht.2⟩

/-- The tasks of the half-closed run end by themselves, and nothing is evicted. -/
theorem tunnel_tasks_accounted_short : ∃ st,
    run (tunnelStep (relayGrpcSetup .release (List.replicate 16 1) none 0))
      (.start (relayGrpcSetup .release (List.replicate 16 1) none 0) [] [] 0)
      (halfClosed 23 [2,3] (encodeGrpcFrame [7]) 9 1)=some st ∧
    st.stage=.returned true ∧ Over st.first ∧ Over st.second ∧
    st.evictions=refusals st+evicts st.first := by
  have hr : ∃ st, run (tunnelStep (relayGrpcSetup .release (List.replicate 16 1) none 0))
      (.start (relayGrpcSetup .release (List.replicate 16 1) none 0) [] [] 0)
      (halfClosed 23 [2,3] (encodeGrpcFrame [7]) 9 1)=some st ∧ st.stage=.returned true := by
    rw [← Option.map_eq_some_iff]
    decide +kernel
  obtain ⟨st,hr,hst⟩ := hr
  obtain ⟨-,hret,-,-,-,hev⟩ := tunnel_tasks_accounted hr
  obtain ⟨h1,h2⟩ := (hret true hst).2.2 rfl
  exact ⟨st,hr,hst,h1,h2,hev⟩

section RelayGrpcToGrpcFast
variable {m : Build} {authId : Bytes} {cached : List Bytes} {r q : GrpcFrameReader}
  {idleTimeout : Option Nat} {late now : Nat} {as : List TunnelAction} {st : Tunnel}

/-- What either direction has carried, and that one whose task ended well is complete. -/
theorem relayGrpcToGrpcFast_carries (ha : readInitialAuth m r=.ok (cached,authId,q))
    (hr : run (tunnelStep (relayGrpcToGrpcFastSetup cached idleTimeout late))
      (.start (relayGrpcToGrpcFastSetup cached idleTimeout late) q.buf q.recvStream.chunks.flatten
        now) as=some st) :
    st.upstream <+: cached.flatten++st.requested ∧
    st.second.sent <+: st.answered ∧
    (st.first.state=.ok → st.upstream=(parseFrames (cached.flatten++st.requested)).1.flatten) ∧
    (st.second.state=.ok → st.second.sent=(parseFrames st.answered).1.flatten) := by
  have hd := delivers_run (fun _ hm => by cases hm) hr
  obtain ⟨u1,h1⟩ := hd.request
  obtain ⟨u2,h2⟩ := hd.response
  have hframes {units : List (Bytes×Bytes)} (hu : ∀ u∈units, grpcFramesCodec.unit u.1 u.2) :
      ∀ f∈units.map Prod.fst, ExactFrame f := by
    intro f hm
    obtain ⟨u,hmem,rfl⟩ := List.mem_map.mp hm
    exact (hu u hmem).2
  have hcached : ∀ f∈cached++u1.map Prod.fst, ExactFrame f := by
    intro f hm
    rcases List.mem_append.mp hm with hm|hm
    · exact ((readInitialAuth_spec ha).frames f hm).1
    · exact hframes h1.units f hm
  have hrequest : st.first.state=.ok →
      st.upstream=(parseFrames (cached.flatten++st.requested)).1.flatten := by
    intro hok
    obtain ⟨hall,hmore,-⟩ := h1.complete hok
    have hclient : cached.flatten++st.requested=
        (cached++u1.map Prod.fst).flatten++st.first.buf := by
      rw [← hall,List.flatten_append,List.append_assoc]
    rw [hd.complete h1 hok,grpcFrames_units h1.units,hclient,
      parseFrames_cut hcached (grpcFramesCodec_more hmore),List.flatten_append]
    rfl
  have hresponse : st.second.state=.ok → st.second.sent=(parseFrames st.answered).1.flatten := by
    intro hok
    obtain ⟨hall,hmore,hsent⟩ := h2.complete hok
    rw [hsent,grpcFrames_units h2.units,← hall,
      parseFrames_cut (hframes h2.units) (grpcFramesCodec_more hmore)]
  refine ⟨?_,?_,hrequest,hresponse⟩
  · have hup := hd.upstream h1
    rw [grpcFrames_units h1.units] at hup
    apply hup.trans
    rw [← h1.input,← List.append_assoc cached.flatten]
    exact List.prefix_append _ _
  · have hout := h2.output
    rw [grpcFrames_units h2.units] at hout
    rw [← h2.input,← hout,List.append_assoc]
    exact List.prefix_append _ _

/-- In every run of `relay_grpc_to_grpc_fast`: either peer has got the start of what the other
sent, with nothing skipped, added or reordered. A direction whose task ended well has every whole
frame across, so with no idle timeout and no error both have when the function returns `Ok`. -/
theorem relay_grpc_to_grpc_fast_delivers (ha : readInitialAuth m r=.ok (cached,authId,q))
    (hr : run (tunnelStep (relayGrpcToGrpcFastSetup cached idleTimeout late))
      (.start (relayGrpcToGrpcFastSetup cached idleTimeout late) q.buf q.recvStream.chunks.flatten
        now) as=some st) :
    st.upstream <+: cached.flatten++st.requested ∧
    st.second.sent <+: st.answered ∧
    (st.first.state=.ok → st.upstream=(parseFrames (cached.flatten++st.requested)).1.flatten) ∧
    (st.second.state=.ok → st.second.sent=(parseFrames st.answered).1.flatten) ∧
    (st.stage=.returned true → st.idle=none → (∀ e, st.first.state≠.failed e) →
      (∀ e, st.second.state≠.failed e) →
      st.upstream=(parseFrames (cached.flatten++st.requested)).1.flatten ∧
      st.second.sent=(parseFrames st.answered).1.flatten) := by
  obtain ⟨hforward,hback,hrequest,hresponse⟩ := relayGrpcToGrpcFast_carries ha hr
  refine ⟨hforward,hback,hrequest,hresponse,?_⟩
  intro hs hi hf1 hf2
  obtain ⟨o1,o2⟩ := returned_complete hr hs hi hf1 hf2
  exact ⟨hrequest o1,hresponse o2⟩

end RelayGrpcToGrpcFast

theorem relay_grpc_to_grpc_fast_delivers_short : ∃ st,
    run (tunnelStep (relayGrpcToGrpcFastSetup [encodeGrpcFrame (List.replicate 16 1)] none 0))
      (.start (relayGrpcToGrpcFastSetup [encodeGrpcFrame (List.replicate 16 1)] none 0) [] [] 0)
      (halfClosed 23 (encodeGrpcFrame [2,3]) (encodeGrpcFrame [7]) 9 8)=some st ∧
    st.upstream=(parseFrames (encodeGrpcFrame (List.replicate 16 1)++st.requested)).1.flatten ∧
    st.second.sent=(parseFrames st.answered).1.flatten := by
  have h0 : readInitialAuth .release (.new ⟨[encodeGrpcFrame (List.replicate 16 1)],none⟩)=.ok
      ([encodeGrpcFrame (List.replicate 16 1)],List.replicate 16 1,⟨⟨[],none⟩,[]⟩) := by
    decide +kernel
  have hr : ∃ st,
      run (tunnelStep (relayGrpcToGrpcFastSetup [encodeGrpcFrame (List.replicate 16 1)] none 0))
      (.start (relayGrpcToGrpcFastSetup [encodeGrpcFrame (List.replicate 16 1)] none 0) [] [] 0)
      (halfClosed 23 (encodeGrpcFrame [2,3]) (encodeGrpcFrame [7]) 9 8)=some st ∧
      (st.first.state,st.second.state)=(.ok,.ok) := by
    rw [← Option.map_eq_some_iff]
    decide +kernel
  obtain ⟨st,hr,hst⟩ := hr
  simp only [Prod.mk.injEq] at hst
  have h := relay_grpc_to_grpc_fast_delivers h0 hr
  refine ⟨st,hr,?_,h.2.2.2.1 hst.2⟩
  have hup := h.2.2.1 hst.1
  rw [List.flatten_singleton] at hup
  exact hup

end Tobira.Relay
