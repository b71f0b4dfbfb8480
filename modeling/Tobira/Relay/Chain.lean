import Mathlib.Data.List.Chain
import Tobira.Relay.Carried
import Tobira.Config

namespace Tobira.Relay

open Tobira.Framework Tobira.Transport

/-- A TCP session with all that its upstream has sent and all that its client has taken. -/
structure TcpRecord where
  session : TcpSession
  answered : Bytes
  taken : Bytes
  deriving DecidableEq,Repr

def TcpRecord.start (authId : Bytes) (segments : List Bytes) : TcpRecord :=
  ⟨.start authId segments,[],[]⟩

def recordTcp (t : TcpRecord) (e : TcpEvent) : Option TcpRecord :=
  (tcpSession t.session e).map (fun s =>
    match e with
    | .respond bytes => ⟨s,t.answered++bytes,t.taken⟩
    | .take n => ⟨s,t.answered,t.taken++t.session.relay.outbound.items.take n⟩
    | _ => ⟨s,t.answered,t.taken⟩)

/-- What the session has written to its client. -/
def TcpRecord.written (t : TcpRecord) : Bytes := t.taken++t.session.relay.outbound.items

/-- Both directions of a TCP session. -/
structure TcpRecord.Flow (authId stream : Bytes) (t : TcpRecord) : Prop where
  request : ∃ fed, Feeding authId stream t.session fed
  response : DownFlow t.answered t.taken t.session.relay

theorem DownFlow.feed {answered taken : Bytes} {r : TcpRelay} (h : DownFlow answered taken r)
    (inbound : Pipe UInt8) : DownFlow answered taken { r with inbound := inbound } :=
  ⟨h.bytes,h.sound,h.ended,h.shut⟩

theorem DownFlow.take {answered taken : Bytes} {r : TcpRelay} (h : DownFlow answered taken r)
    (n : Nat) : DownFlow answered (taken++r.outbound.items.take n)
      { r with outbound := ⟨r.outbound.items.drop n,r.outbound.closed⟩ } where
  bytes := by
    change taken++r.outbound.items.take n++r.outbound.items.drop n++_++_=_
    rw [List.append_assoc taken,List.take_append_drop,h.bytes]
  sound := h.sound
  ended := h.ended
  shut := h.shut

theorem TcpRecord.Flow.step {authId stream : Bytes} {t t' : TcpRecord} {e : TcpEvent}
    (h : t.Flow authId stream) (hs : recordTcp t e=some t') : t'.Flow authId stream := by
  obtain ⟨s,hsession,rfl⟩ := Option.map_eq_some_iff.mp hs
  obtain ⟨fed,hf⟩ := h.request
  have hd := h.response
  have hrequest := hf.step hsession
  cases e with
  | arrive =>
    simp only [tcpSession] at hsession
    split at hsession
    · cases hsession
    · cases hsession
      exact ⟨hrequest,hd.feed _⟩
  | hangUp =>
    simp only [tcpSession] at hsession
    split_ifs at hsession
    cases hsession
    exact ⟨hrequest,hd.feed _⟩
  | respond bytes =>
    simp only [tcpSession] at hsession
    split_ifs at hsession with hc
    cases hsession
    exact ⟨hrequest,hd.answer hc.2 bytes⟩
  | closeWrite =>
    simp only [tcpSession] at hsession
    split_ifs at hsession
    cases hsession
    exact ⟨hrequest,hd.close⟩
  | take n =>
    cases hsession
    exact ⟨hrequest,hd.take n⟩
  | tcp a =>
    obtain ⟨r,hr,rfl⟩ := Option.map_eq_some_iff.mp hsession
    exact ⟨hrequest,hd.relayTcp hr⟩

theorem record_run {authId : Bytes} {segments : List Bytes} {as : List TcpEvent} {t : TcpRecord}
    (hr : run recordTcp (.start authId segments) as=some t) : t.Flow authId segments.flatten := by
  refine run_invariant (fun _ _ _ hi hs => hi.step hs) ?_ hr
  exact ⟨⟨[],⟨rfl,upFlow_start authId ⟨[],false⟩,fun he => by cases he⟩⟩,
    downFlow_start authId ⟨[],false⟩⟩

theorem Feeding.upstream {authId stream fed : Bytes} {s : TcpSession}
    (h : Feeding authId stream s fed) : s.relay.upstream <+: authId++stream := by
  rw [← h.bytes,← List.append_assoc]
  exact h.flow.upstream.trans (List.prefix_append _ _)

theorem Feeding.complete {authId stream fed : Bytes} {s : TcpSession}
    (h : Feeding authId stream s fed) (hd : s.relay.up.done=true) :
    s.relay.upstream=authId++stream := by
  obtain ⟨hup,hclosed⟩ := h.flow.complete hd
  have hall := h.bytes
  rw [h.closed hclosed,List.flatten_nil,List.append_nil] at hall
  rw [hup,hall]

/-- The data of what is on the wire between two hops. -/
def data (m : Build) : RelayNetwork → Bytes → Bytes
  | .tcp,bytes => bytes
  | .grpc,bytes => payload m bytes

theorem data_mono (m : Build) (network : RelayNetwork) {a b : Bytes} (h : a <+: b) :
    data m network a <+: data m network b := by
  cases network with
  | tcp => exact h
  | grpc => exact payload_mono m h

/-- A connection through one relay as it is seen from outside: the networks it comes in and goes
out on, the Auth ID it was looked up with, what its client has sent and what of it has been passed
on, what its upstream has sent and what of it has been passed back, and which direction has ended
well. -/
structure Connection where
  inbound : RelayNetwork
  outbound : RelayNetwork
  authId : Bytes
  requested : Bytes
  forwarded : Bytes
  answered : Bytes
  returned : Bytes
  requestOver : Bool
  responseOver : Bool
  deriving DecidableEq,Repr

/-- A relayed connection in any state of any run of the function that relays it. A timeout or an
error of `relay_tcp` is a run in which it takes no further step. -/
inductive Relaying (m : Build) : Connection → Prop where
  | tcpToTcp {segments rest : List Bytes} {authId : Bytes} {as : List TcpEvent} {t : TcpRecord}
      (auth : readExact authIdSize segments=some (authId,rest))
      (ran : run recordTcp (.start authId rest) as=some t) :
      Relaying m ⟨.tcp,.tcp,authId,segments.flatten,t.session.relay.upstream,t.answered,t.written,
        t.session.relay.up.done,t.session.relay.down.done⟩
  | tcpToGrpc {segments rest : List Bytes} {authId : Bytes} {idleTimeout : Option Nat}
      {late now : Nat} {as : List TunnelAction} {st : Tunnel}
      (auth : readExact authIdSize segments=some (authId,rest))
      (ran : run (tunnelStep (relayGrpcSetup m authId idleTimeout late))
        (.start (relayGrpcSetup m authId idleTimeout late) [] rest.flatten now) as=some st) :
      Relaying m ⟨.tcp,.grpc,authId,authId++st.requested,st.upstream,st.answered,st.second.sent,
        decide (st.first.state=.ok),decide (st.second.state=.ok)⟩
  | grpcToTcp {r q : GrpcFrameReader} {cached : List Bytes} {authId : Bytes}
      {as : List ViaAction} {st : ViaCore}
      (auth : readInitialAuth m r=.ok (cached,authId,q))
      (ran : run (viaStep m) (.start authId cached q) as=some st) :
      Relaying m ⟨.grpc,.tcp,authId,st.requested,st.relay.upstream,st.answered,wire st.encode.sent,
        decide (st.decode.status=.ok ∧ st.relay.up.done=true),
        decide (st.encode.status=.ok ∧ st.relay.down.done=true)⟩
  | grpcToGrpc {r q : GrpcFrameReader} {cached : List Bytes} {authId : Bytes}
      {idleTimeout : Option Nat} {late now : Nat} {as : List TunnelAction} {st : Tunnel}
      (auth : readInitialAuth m r=.ok (cached,authId,q))
      (ran : run (tunnelStep (relayGrpcToGrpcFastSetup cached idleTimeout late))
        (.start (relayGrpcToGrpcFastSetup cached idleTimeout late) q.buf
          q.recvStream.chunks.flatten now) as=some st) :
      Relaying m ⟨.grpc,.grpc,authId,cached.flatten++st.requested,st.upstream,st.answered,
        st.second.sent,decide (st.first.state=.ok),decide (st.second.state=.ok)⟩

/-- Nothing is added, left out or reordered, and a direction that ended well is complete. -/
structure Connection.Carries (m : Build) (c : Connection) : Prop where
  size : c.authId.length=authIdSize
  authId : c.authId <+: data m c.inbound c.requested
  request : data m c.outbound c.forwarded <+: data m c.inbound c.requested
  response : data m c.inbound c.returned <+: data m c.outbound c.answered
  requestAll : c.requestOver=true → data m c.outbound c.forwarded=data m c.inbound c.requested
  responseAll : c.responseOver=true → data m c.inbound c.returned=data m c.outbound c.answered

theorem readExact_split {segments rest : List Bytes} {authId : Bytes}
    (h : readExact authIdSize segments=some (authId,rest)) :
    authId.length=authIdSize ∧ segments.flatten=authId++rest.flatten := by
  obtain ⟨rfl,hrest,hl⟩ := readExact_eq h
  refine ⟨?_,?_⟩
  · rw [List.length_take,Nat.min_eq_left hl]
  · rw [hrest,List.take_append_drop]

theorem InitialAuth.size {m : Build} {r q : GrpcFrameReader} {cached : List Bytes} {authId : Bytes}
    (h : InitialAuth m [] r cached authId q) : authId.length=authIdSize := by
  rw [h.authId,List.length_take,Nat.min_eq_left h.enough]

theorem tcpToTcp_carries {m : Build} {segments rest : List Bytes} {authId : Bytes}
    {as : List TcpEvent} {t : TcpRecord} (ha : readExact authIdSize segments=some (authId,rest))
    (hr : run recordTcp (.start authId rest) as=some t) :
    Connection.Carries m ⟨.tcp,.tcp,authId,segments.flatten,t.session.relay.upstream,t.answered,
      t.written,t.session.relay.up.done,t.session.relay.down.done⟩ := by
  obtain ⟨hsize,hstream⟩ := readExact_split ha
  have hflow := record_run hr
  obtain ⟨fed,hf⟩ := hflow.request
  have hd := hflow.response
  rw [hstream]
  refine ⟨hsize,?_,?_,?_,?_,?_⟩
  · exact List.prefix_append _ _
  · exact hf.upstream
  · exact hd.written
  · intro hover
    exact hf.complete hover
  · intro hover
    exact hd.complete hover

theorem tcpToGrpc_carries {m : Build} {segments rest : List Bytes} {authId : Bytes}
    {idleTimeout : Option Nat} {late now : Nat} {as : List TunnelAction} {st : Tunnel}
    (ha : readExact authIdSize segments=some (authId,rest))
    (hr : run (tunnelStep (relayGrpcSetup m authId idleTimeout late))
      (.start (relayGrpcSetup m authId idleTimeout late) [] rest.flatten now) as=some st) :
    Connection.Carries m ⟨.tcp,.grpc,authId,authId++st.requested,st.upstream,st.answered,
      st.second.sent,decide (st.first.state=.ok),decide (st.second.state=.ok)⟩ := by
  obtain ⟨hsize,-⟩ := readExact_split ha
  obtain ⟨⟨reads,hsizes,hreads,hup⟩,hback,hrequest,hresponse⟩ :=
    relayGrpc_carries (Nat.le_of_eq hsize) hr
  refine ⟨hsize,List.prefix_append _ _,?_,hback,?_,?_⟩
  · have hfits : ∀ d∈authId::reads, d.length ≤ rawToGrpcReadBufSize := by
      intro d hd
      rcases List.mem_cons.mp hd with hd|hd
      · rw [hd,hsize]
        decide
      · exact (hsizes d hd).2
    have hpart := payload_encode_part m hfits hup
    rw [List.flatten_cons] at hpart
    exact hpart.trans ((List.prefix_append_right_inj _).mpr hreads)
  · intro hover
    exact hrequest (of_decide_eq_true hover)
  · intro hover
    exact hresponse (of_decide_eq_true hover)

theorem grpcToTcp_carries {m : Build} {r q : GrpcFrameReader} {cached : List Bytes}
    {authId : Bytes} {as : List ViaAction} {st : ViaCore}
    (ha : readInitialAuth m r=.ok (cached,authId,q))
    (hr : run (viaStep m) (.start authId cached q) as=some st) :
    Connection.Carries m ⟨.grpc,.tcp,authId,st.requested,st.relay.upstream,st.answered,
      wire st.encode.sent,decide (st.decode.status=.ok ∧ st.relay.up.done=true),
      decide (st.encode.status=.ok ∧ st.relay.down.done=true)⟩ := by
  have hinit := readInitialAuth_spec ha
  obtain ⟨fed,hflow,hfed⟩ := fed_run hinit hr
  obtain ⟨reads,hs⟩ := sent_run hr
  refine ⟨hinit.size,(List.prefix_append _ _).trans hfed,?_,?_,?_,?_⟩
  · exact hflow.upstream.trans hfed
  · have hwire : wire st.encode.sent <+: (reads.map encodeGrpcFrame).flatten := by
      rw [← hs.wire]
      exact List.prefix_append _ _
    have hread : reads.flatten <+: st.answered :=
      (List.prefix_append _ st.relay.outbound.items).trans hs.flow.written
    exact (payload_encode_part m hs.sizes hwire).trans hread
  · intro hover
    obtain ⟨hok,hdone⟩ := of_decide_eq_true hover
    change st.relay.upstream=payload m st.requested
    rcases requesting_run hinit hr with (hx|hx)|hq
    · rw [hok] at hx
      cases hx
    · rw [hok] at hx
      cases hx
    · exact (hq.complete hdone).2.1
  · intro hover
    obtain ⟨hok,hdone⟩ := of_decide_eq_true hover
    change payload m (wire st.encode.sent)=st.answered
    obtain ⟨-,hitems,hpending⟩ := hs.ended hok
    have hwire := hs.wire
    have hall := hs.flow.complete hdone
    rw [hpending,List.append_nil] at hwire
    rw [hitems,List.append_nil] at hall
    rw [hwire,payload_encode m hs.sizes,hall]

theorem payload_parsed (m : Build) (bytes : Bytes) :
    payload m (parseFrames bytes).1.flatten=payload m bytes :=
  payload_frames m (parseFrames_exact bytes)

theorem grpcToGrpc_carries {m : Build} {r q : GrpcFrameReader} {cached : List Bytes}
    {authId : Bytes} {idleTimeout : Option Nat} {late now : Nat} {as : List TunnelAction}
    {st : Tunnel} (ha : readInitialAuth m r=.ok (cached,authId,q))
    (hr : run (tunnelStep (relayGrpcToGrpcFastSetup cached idleTimeout late))
      (.start (relayGrpcToGrpcFastSetup cached idleTimeout late) q.buf q.recvStream.chunks.flatten
        now) as=some st) :
    Connection.Carries m ⟨.grpc,.grpc,authId,cached.flatten++st.requested,st.upstream,st.answered,
      st.second.sent,decide (st.first.state=.ok),decide (st.second.state=.ok)⟩ := by
  have hinit := readInitialAuth_spec ha
  obtain ⟨hup,hback,hrequest,hresponse⟩ := relayGrpcToGrpcFast_carries ha hr
  refine ⟨hinit.size,?_,payload_mono m hup,payload_mono m hback,?_,?_⟩
  · change authId <+: payload m (cached.flatten++st.requested)
    have hframes : ∀ f∈cached, ExactFrame f := fun f hf => (hinit.frames f hf).1
    refine List.IsPrefix.trans ?_ (framesData_payload m hframes)
    rw [hinit.authId]
    exact List.take_prefix _ _
  · intro hover
    change payload m st.upstream=payload m (cached.flatten++st.requested)
    rw [hrequest (of_decide_eq_true hover),payload_parsed]
  · intro hover
    change payload m st.second.sent=payload m st.answered
    rw [hresponse (of_decide_eq_true hover),payload_parsed]

theorem Relaying.carries {m : Build} {c : Connection} (h : Relaying m c) : c.Carries m := by
  cases h with
  | tcpToTcp auth ran => exact tcpToTcp_carries auth ran
  | tcpToGrpc auth ran => exact tcpToGrpc_carries auth ran
  | grpcToTcp auth ran => exact grpcToTcp_carries auth ran
  | grpcToGrpc auth ran => exact grpcToGrpc_carries auth ran

/-- The upstream of the first connection is the relay of the second one, and the network between
the two delivers in order. -/
structure Joins (a b : Connection) : Prop where
  network : a.outbound=b.inbound
  request : b.requested <+: a.forwarded
  response : a.answered <+: b.returned

theorem Joins.request_data {m : Build} {a b : Connection} (h : Joins a b) :
    data m b.inbound b.requested <+: data m a.outbound a.forwarded := by
  rw [h.network]
  exact data_mono m b.inbound h.request

theorem Joins.response_data {m : Build} {a b : Connection} (h : Joins a b) :
    data m a.outbound a.answered <+: data m b.inbound b.returned := by
  rw [h.network]
  exact data_mono m b.inbound h.response

/-- Both ends of the same data start with the same Auth ID. -/
theorem Connection.Carries.authId_eq {m : Build} {a b : Connection} (ha : a.Carries m)
    (hb : b.Carries m) (h : data m b.inbound b.requested <+: data m a.inbound a.requested) :
    b.authId=a.authId :=
  List.IsPrefix.eq_of_length (List.prefix_of_prefix_length_le (hb.authId.trans h) ha.authId
    (Nat.le_of_eq (hb.size.trans ha.size.symm))) (hb.size.trans ha.size.symm)

/-- Through any number of relays, over any mix of networks, with every relay in any state of any
run: all of them look up the same Auth ID; what the last one has sent to its upstream is the start
of what the client has sent to the first, and what the client has got is the start of what the
upstream has sent; and a direction that has ended well at every relay, with nothing in between on
its way, is complete. -/
theorem relay_chain_carries {m : Build} {first : Connection} {rest : List Connection}
    (hr : ∀ c∈first::rest, Relaying m c) (hj : (first::rest).IsChain Joins) :
    (∀ c∈first::rest, c.authId=first.authId) ∧
    ∀ last∈(first::rest).getLast?,
      data m last.outbound last.forwarded <+: data m first.inbound first.requested ∧
      data m first.inbound first.returned <+: data m last.outbound last.answered ∧
      ((∀ c∈first::rest, c.requestOver=true) →
        (first::rest).IsChain (fun a b => b.requested=a.forwarded) →
        data m last.outbound last.forwarded=data m first.inbound first.requested) ∧
      ((∀ c∈first::rest, c.responseOver=true) →
        (first::rest).IsChain (fun a b => a.answered=b.returned) →
        data m first.inbound first.returned=data m last.outbound last.answered) := by
  induction rest generalizing first with
  | nil =>
    have hc := (hr first List.mem_cons_self).carries
    refine ⟨?_,?_⟩
    · intro c hm
      rw [List.mem_singleton.mp hm]
    · intro last hl
      cases hl
      exact ⟨hc.request,hc.response,fun ho _ => hc.requestAll (ho first List.mem_cons_self),
        fun ho _ => hc.responseAll (ho first List.mem_cons_self)⟩
  | cons second rest ih =>
    obtain ⟨hjoin,hjs⟩ := List.isChain_cons_cons.mp hj
    have hc := (hr first List.mem_cons_self).carries
    have hc2 := (hr second (by simp)).carries
    have htail : ∀ c∈second::rest, Relaying m c := fun c hm => hr c (List.mem_cons_of_mem _ hm)
    obtain ⟨hauth,hlast⟩ := ih htail hjs
    have hdata := (hjoin.request_data (m := m)).trans hc.request
    refine ⟨?_,?_⟩
    · intro c hm
      rcases List.mem_cons.mp hm with rfl|hm
      · rfl
      · rw [hauth c hm]
        exact hc.authId_eq hc2 hdata
    · intro last hl
      rw [List.getLast?_cons_cons] at hl
      obtain ⟨hforward,hback,hrequest,hresponse⟩ := hlast last hl
      refine ⟨hforward.trans hdata,hc.response.trans (hjoin.response_data.trans hback),?_,?_⟩
      · intro ho hlinks
        obtain ⟨hlink,hlinks⟩ := List.isChain_cons_cons.mp hlinks
        rw [hrequest (fun c hm => ho c (List.mem_cons_of_mem _ hm)) hlinks,hlink,← hjoin.network,
          hc.requestAll (ho first List.mem_cons_self)]
      · intro ho hlinks
        obtain ⟨hlink,hlinks⟩ := List.isChain_cons_cons.mp hlinks
        rw [hc.responseAll (ho first List.mem_cons_self),hlink,hjoin.network,
          hresponse (fun c hm => ho c (List.mem_cons_of_mem _ hm)) hlinks]

/-- A client over TCP, a relay with a gRPC upstream, and the relay behind it with a TCP one. -/
def nearHop : Connection :=
  ⟨.tcp,.grpc,List.replicate 16 1,List.replicate 16 1++[2,3],
    encodeGrpcFrame (List.replicate 16 1)++encodeGrpcFrame [2,3],encodeGrpcFrame [7],[7],true,true⟩

def farHop : Connection :=
  ⟨.grpc,.tcp,List.replicate 16 1,
    encodeGrpcFrame (List.replicate 16 1)++encodeGrpcFrame [2,3],List.replicate 16 1++[2,3],[7],
    encodeGrpcFrame [7],true,true⟩

def farRun : List ViaAction :=
  [.endStream,.decodeNext,.decodeNext,.decodeWrite 2,.decodeNext,.tcp .connect,
    .tcp (.writeAuth 16),.tcp .startCopy,.tcp (.upRead 2),.tcp (.upWrite 2),.tcp .upEof,
    .tcp .upShutdown,.respond [7],.closeWrite,.tcp (.downRead 1),.tcp (.downWrite 1),.tcp .downEof,
    .tcp .downShutdown,.encodeRead 1,.encodeSend 8,.encodeEnd]

theorem nearHop_relaying : Relaying .release nearHop := by
  have ha : readExact authIdSize [List.replicate 16 1]=some (List.replicate 16 1,[[]]) := by
    decide +kernel
  have hr : ∃ st, run (tunnelStep (relayGrpcSetup .release (List.replicate 16 1) none 0))
      (.start (relayGrpcSetup .release (List.replicate 16 1) none 0) [] [] 0)
      (halfClosed 23 [2,3] (encodeGrpcFrame [7]) 9 1)=some st ∧
      (⟨.tcp,.grpc,List.replicate 16 1,List.replicate 16 1++st.requested,st.upstream,st.answered,
        st.second.sent,decide (st.first.state=.ok),decide (st.second.state=.ok)⟩ : Connection)=
        nearHop := by
    rw [← Option.map_eq_some_iff]
    decide +kernel
  obtain ⟨st,hr,hst⟩ := hr
  rw [← hst]
  exact .tcpToGrpc ha hr

theorem farHop_relaying : Relaying .release farHop := by
  have ha : readInitialAuth .release
      (.new ⟨[encodeGrpcFrame (List.replicate 16 1)++encodeGrpcFrame [2,3]],none⟩)=.ok
      ([encodeGrpcFrame (List.replicate 16 1)],List.replicate 16 1,
        ⟨⟨[],none⟩,encodeGrpcFrame [2,3]⟩) := by
    decide +kernel
  have hr : ∃ st, run (viaStep .release) (.start (List.replicate 16 1)
      [encodeGrpcFrame (List.replicate 16 1)] ⟨⟨[],none⟩,encodeGrpcFrame [2,3]⟩) farRun=some st ∧
      (⟨.grpc,.tcp,List.replicate 16 1,st.requested,st.relay.upstream,st.answered,
        wire st.encode.sent,decide (st.decode.status=.ok ∧ st.relay.up.done=true),
        decide (st.encode.status=.ok ∧ st.relay.down.done=true)⟩ : Connection)=farHop := by
    rw [← Option.map_eq_some_iff]
    decide +kernel
  obtain ⟨st,hr,hst⟩ := hr
  rw [← hst]
  exact .grpcToTcp ha hr

theorem relay_chain_carries_pair : Relaying .release nearHop ∧ Relaying .release farHop ∧
    Joins nearHop farHop ∧
    data .release farHop.outbound farHop.forwarded=
      data .release nearHop.inbound nearHop.requested ∧
    data .release nearHop.inbound nearHop.returned=
      data .release farHop.outbound farHop.answered := by
  have hj : Joins nearHop farHop := ⟨rfl,List.prefix_refl _,List.prefix_refl _⟩
  have hr : ∀ c∈[nearHop,farHop], Relaying .release c := by
    intro c hm
    rcases List.mem_cons.mp hm with hm|hm
    · rw [hm]
      exact nearHop_relaying
    · rw [List.mem_singleton.mp hm]
      exact farHop_relaying
  have hends : ∀ c∈[nearHop,farHop], c.requestOver=true ∧ c.responseOver=true := by
    intro c hm
    rcases List.mem_cons.mp hm with hm|hm
    · rw [hm]
      exact ⟨rfl,rfl⟩
    · rw [List.mem_singleton.mp hm]
      exact ⟨rfl,rfl⟩
  have h := (relay_chain_carries hr (List.isChain_pair.mpr hj)).2 farHop rfl
  exact ⟨nearHop_relaying,farHop_relaying,hj,
    h.2.2.1 (fun c hm => (hends c hm).1) (List.isChain_pair.mpr rfl),
    h.2.2.2 (fun c hm => (hends c hm).2) (List.isChain_pair.mpr rfl)⟩

end Tobira.Relay
