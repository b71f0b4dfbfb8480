import Tobira.Relay.HalfClose
import Tobira.Vmess.Validator

namespace Tobira.Relay

open Tobira.Framework Tobira.Transport

/-- A TCP inbound relayed by `relay_tcp`: the segments of the client that have not arrived yet,
and the relay. -/
structure TcpSession where
  segments : List Bytes
  relay : TcpRelay
  deriving DecidableEq,Repr

inductive TcpEvent where
  | arrive
  | hangUp
  | respond (bytes : Bytes)
  | closeWrite
  | take (n : Nat)
  | tcp (a : TcpAction)
  deriving DecidableEq,Repr

def TcpSession.start (authId : Bytes) (segments : List Bytes) : TcpSession :=
  ⟨segments,.start authId ⟨[],false⟩⟩

def tcpSession (s : TcpSession) : TcpEvent → Option TcpSession
  | .arrive =>
    match s.segments with
    | [] => none
    | segment::segments =>
      some ⟨segments,{ s.relay with
        inbound := ⟨s.relay.inbound.items++segment,s.relay.inbound.closed⟩ }⟩
  | .hangUp =>
    if s.segments=[] then
      some { s with relay := { s.relay with inbound := ⟨s.relay.inbound.items,true⟩ } }
    else none
  | .respond bytes =>
    if s.relay.phase≠.connecting ∧ s.relay.response.closed=false then
      some { s with relay := { s.relay with
        response := ⟨s.relay.response.items++bytes,s.relay.response.closed⟩ } }
    else none
  | .closeWrite =>
    if s.relay.phase≠.connecting then
      some { s with relay := { s.relay with response := ⟨s.relay.response.items,true⟩ } }
    else none
  | .take n =>
    some { s with relay := { s.relay with
      outbound := ⟨s.relay.outbound.items.drop n,s.relay.outbound.closed⟩ } }
  | .tcp a => (relayTcp none s.relay a).map (fun r => { s with relay := r })

/-- The bytes `fed` into the relay and the segments still to come make up the stream. -/
structure Feeding (authId stream : Bytes) (s : TcpSession) (fed : Bytes) : Prop where
  bytes : fed++s.segments.flatten=stream
  flow : UpFlow authId fed s.relay
  closed : s.relay.inbound.closed=true → s.segments=[]

theorem Feeding.step {authId stream fed : Bytes} {s s' : TcpSession} {e : TcpEvent}
    (h : Feeding authId stream s fed) (hs : tcpSession s e=some s') :
    ∃ fed', Feeding authId stream s' fed' := by
  cases e with
  | arrive =>
    simp only [tcpSession] at hs
    split at hs
    · cases hs
    · rename_i segment segments hseg
      cases hs
      have hopen : s.relay.inbound.closed=false := by
        cases hc : s.relay.inbound.closed with
        | false => rfl
        | true =>
          rw [h.closed hc] at hseg
          cases hseg
      refine ⟨fed++segment,⟨?_,h.flow.feed hopen segment,?_⟩⟩
      · rw [← h.bytes,hseg,List.flatten_cons,List.append_assoc]
      · intro hc
        rw [show s.relay.inbound.closed=true from hc] at hopen
        cases hopen
  | hangUp =>
    simp only [tcpSession] at hs
    split_ifs at hs with hseg
    cases hs
    exact ⟨fed,⟨h.bytes,h.flow.close,fun _ => hseg⟩⟩
  | respond bytes =>
    simp only [tcpSession] at hs
    split_ifs at hs
    cases hs
    exact ⟨fed,⟨h.bytes,h.flow.respond _ _ _,h.closed⟩⟩
  | closeWrite =>
    simp only [tcpSession] at hs
    split_ifs at hs
    cases hs
    exact ⟨fed,⟨h.bytes,h.flow.respond _ _ _,h.closed⟩⟩
  | take n =>
    cases hs
    exact ⟨fed,⟨h.bytes,h.flow.respond _ _ _,h.closed⟩⟩
  | tcp a =>
    obtain ⟨r,hr,rfl⟩ := Option.map_eq_some_iff.mp hs
    refine ⟨fed,⟨h.bytes,h.flow.relayTcp hr,?_⟩⟩
    intro hc
    exact h.closed ((relayTcp_closed hr).symm.trans hc)

/-- Once the upstream's write side is shut down, the upstream has the Auth ID and the stream. -/
theorem tcpSession_complete {authId : Bytes} {segments : List Bytes} {as : List TcpEvent}
    {s : TcpSession} (hr : run tcpSession (.start authId segments) as=some s)
    (hd : s.relay.up.done=true) : s.relay.upstream=authId++segments.flatten := by
  have hstart : ∃ fed, Feeding authId segments.flatten (.start authId segments) fed :=
    ⟨[],⟨rfl,upFlow_start authId ⟨[],false⟩,fun he => by cases he⟩⟩
  have hrun : ∃ fed, Feeding authId segments.flatten s fed := by
    refine run_invariant (I := fun s => ∃ fed, Feeding authId segments.flatten s fed) ?_ hstart hr
    rintro s e s' ⟨fed,hf⟩ hs
    exact hf.step hs
  obtain ⟨fed,hf⟩ := hrun
  obtain ⟨hup,hclosed⟩ := hf.flow.complete hd
  have hall := hf.bytes
  rw [hf.closed hclosed,List.flatten_nil,List.append_nil] at hall
  rw [hup,hall]

/-- `relay_grpc` in the request direction: the Auth ID as the first frame, then a frame for
each read. -/
def relayGrpc (authId : Bytes) (reads : List Bytes) (caps : List Capacity) :
    Except Stop (List DataFrame×List Capacity) := do
  let (first,caps) ← sendGrpcData caps (encodeGrpcFrame authId) false
  let (rest,caps) ← rawToGrpc reads caps
  return (first++rest,caps)

theorem relayGrpc_wire {authId : Bytes} {reads : List Bytes} {caps left : List Capacity}
    {sent : List DataFrame} (hr : ∀ d∈reads, d≠[])
    (h : relayGrpc authId reads caps=.ok (sent,left)) :
    wire sent=((authId::reads).map encodeGrpcFrame).flatten := by
  rw [relayGrpc] at h
  obtain ⟨⟨first,caps'⟩,hf,h⟩ := bind_ok h
  obtain ⟨⟨rest,left'⟩,ht,h⟩ := bind_ok h
  cases h
  rw [wire_append,sendGrpcData_wire hf,(rawToGrpc_framed hr ht).wire_eq,List.map_cons,
    List.flatten_cons]

theorem relayGrpc_payload (m : Build) {authId : Bytes} {reads : List Bytes}
    {caps left : List Capacity} {sent : List DataFrame} (ha : authId.length≤authIdSize)
    (hr : ∀ d∈reads, 0<d.length ∧ d.length ≤ rawToGrpcReadBufSize)
    (h : relayGrpc authId reads caps=.ok (sent,left)) :
    payload m (wire sent)=authId++reads.flatten := by
  have hne : ∀ d∈reads, d≠[] := fun d hd => List.ne_nil_of_length_pos (hr d hd).1
  have hall : ∀ d∈authId::reads, d.length ≤ rawToGrpcReadBufSize := by
    intro d hd
    rcases List.mem_cons.mp hd with rfl|hd
    · exact ha.trans (by decide)
    · exact (hr d hd).2
  rw [relayGrpc_wire hne h,payload_encode m hall,List.flatten_cons]

/-- `relay_grpc_to_grpc_fast` in the request direction: the cached frames as they are, then
those of the reader. -/
def relayGrpcToGrpcFast (cached : List Bytes) (reader : GrpcFrameReader) (caps : List Capacity) :
    Except Stop (List DataFrame×List Capacity) := do
  let p ← cached.foldlM forwardFrame ([],caps)
  let (rest,caps) ← grpcFramesToGrpc reader p.2
  return (p.1++rest,caps)

theorem relayGrpcToGrpcFast_wire {cached : List Bytes} {r : GrpcFrameReader}
    {caps left : List Capacity} {sent : List DataFrame} (he : r.recvStream.ending=none)
    (h : relayGrpcToGrpcFast cached r caps=.ok (sent,left)) :
    wire sent=(cached++(parseFrames r.bytes).1).flatten ∧
      ∃ rest, (parseFrames r.bytes).2=.rest rest := by
  rw [relayGrpcToGrpcFast] at h
  obtain ⟨p,hf,h⟩ := bind_ok h
  obtain ⟨⟨rest,left'⟩,hg,h⟩ := bind_ok h
  cases h
  obtain ⟨hw,ht⟩ := grpcFramesToGrpc_wire he hg
  refine ⟨?_,ht⟩
  rw [wire_append,foldlM_forwardFrame hf,hw,List.flatten_append]
  rfl

/-- The cached frames and those still in the reader are the frames of the stream, so the first
bytes of the cached data are the first bytes of all data. -/
theorem InitialAuth.frames_eq {m : Build} {r q : GrpcFrameReader} {cached frames : List Bytes}
    {authId : Bytes} (ha : InitialAuth m [] r cached authId q) (hb : r.bytes=frames.flatten)
    (hp : (parseFrames frames.flatten).1=frames) :
    frames=cached++(parseFrames q.bytes).1 ∧ authId=(framesData m frames).take authIdSize := by
  have hcached : ∀ f∈cached, ExactFrame f := fun f hm => (ha.frames f hm).1
  have heq : frames=cached++(parseFrames q.bytes).1 := by
    rw [← hb,ha.bytes,parseFrames_flatten cached q.bytes hcached] at hp
    exact hp.symm
  refine ⟨heq,?_⟩
  have hauth := ha.authId
  have henough := ha.enough
  rw [List.nil_append] at hauth henough
  rw [heq,framesData_append,List.take_append_of_le_length henough]
  exact hauth

/-- Cached and live frames reach the upstream as the one sequence that the client sent. -/
theorem relayGrpcToGrpcFast_payload {m : Build} {chunks cached frames : List Bytes}
    {authId : Bytes} {q : GrpcFrameReader} {caps left : List Capacity} {sent : List DataFrame}
    (hf : ∀ f∈frames, f.length=5+outerLen f) (hc : chunks.flatten=frames.flatten)
    (ha : InitialAuth m [] (.new ⟨chunks,none⟩) cached authId q)
    (h : relayGrpcToGrpcFast cached q caps=.ok (sent,left)) :
    authId=(framesData m frames).take authIdSize ∧ payload m (wire sent)=framesData m frames := by
  obtain ⟨hw,rest,ht⟩ := relayGrpcToGrpcFast_wire ha.ending h
  have hparse : (parseFrames frames.flatten).2=(parseFrames q.bytes).2 := by
    have hbytes : frames.flatten=cached.flatten++q.bytes := hc.symm.trans ha.bytes
    rw [hbytes,parseFrames_flatten cached q.bytes (fun f hm => (ha.frames f hm).1)]
  rcases parseFrames_whole hf with ⟨hp,hx⟩|⟨len,hl⟩
  · obtain ⟨heq,hauth⟩ := ha.frames_eq hc hp
    exact ⟨hauth,by rw [hw,← heq,payload_frames m hx]⟩
  · rw [hparse,ht] at hl
    cases hl

theorem requesting_run {m : Build} {r q : GrpcFrameReader} {cached : List Bytes} {authId : Bytes}
    {as : List ViaAction} {st : ViaCore} (h : InitialAuth m [] r cached authId q)
    (hr : run (viaStep m) (.start authId cached q) as=some st) :
    Stopped st ∨ Requesting m authId st := by
  refine run_invariant (I := fun st => Stopped st ∨ Requesting m authId st) ?_
    (Or.inr (requesting_start h)) hr
  intro st a st' hi hs
  rcases hi with (hf|hc)|hq
  · exact Or.inl (Or.inl (((viaStep_settles hs).decode (by rw [hf]; decide)).trans hf))
  · exact Or.inl (Or.inr (((viaStep_settles hs).decode (by rw [hc]; decide)).trans hc))
  · exact hq.step hs

/-- Decoding and skipping leaves the upstream with the data of the frames, Auth ID first. -/
theorem viaCore_payload {m : Build} {r q : GrpcFrameReader} {cached frames : List Bytes}
    {authId : Bytes} {as : List ViaAction} {st : ViaCore}
    (hf : ∀ f∈frames, f.length=5+outerLen f) (ha : InitialAuth m [] r cached authId q)
    (hr : run (viaStep m) (.start authId cached q) as=some st)
    (hreq : st.requested=frames.flatten) (hok : st.decode.status=.ok)
    (hd : st.relay.up.done=true) :
    authId=(framesData m frames).take authIdSize ∧ st.relay.upstream=framesData m frames := by
  have hq : Requesting m authId st := by
    rcases requesting_run ha hr with (hs|hs)|hq
    · rw [hok] at hs
      cases hs
    · rw [hok] at hs
      cases hs
    · exact hq
  obtain ⟨-,hup,hauth⟩ := hq.complete hd
  obtain ⟨rest,ht⟩ := hq.parsed hok
  rw [hreq] at hup hauth ht
  have hp : payload m frames.flatten=framesData m frames := by
    rcases parseFrames_whole hf with ⟨-,hx⟩|⟨len,hl⟩
    · exact payload_frames m hx
    · rw [ht] at hl
      cases hl
  rw [hp] at hup hauth
  exact ⟨hauth,hup⟩

/-- What a client sends: bytes in segments, or gRPC frames. -/
inductive Inbound where
  | tcp (segments : List Bytes)
  | grpc (frames : List Bytes)
  deriving DecidableEq,Repr

/-- The client's payload is `p`. A gRPC frame may be empty or fail to decode; what it announces
does not overflow. -/
def Inbound.Carries (m : Build) (p : Bytes) : Inbound → Prop
  | .tcp segments => segments.flatten=p
  | .grpc frames =>
    (∀ f∈frames, f.length=5+outerLen f ∧ FrameFits f) ∧ framesData m frames=p

/-- The Auth ID that is read, however the frames are cut into DATA chunks. -/
def Inbound.ReadsAuthId (m : Build) (authId : Bytes) : Inbound → Prop
  | .tcp segments => ∃ rest, readExact authIdSize segments=some (authId,rest)
  | .grpc frames => ∀ chunks : List Bytes, chunks.flatten=frames.flatten →
    ∃ cached q, readInitialAuth m (.new ⟨chunks,none⟩)=.ok (cached,authId,q)

/-- No frame is above the limit of the reader. -/
def Inbound.InLimit : Inbound → Prop
  | .tcp _ => True
  | .grpc frames => ∀ f∈frames, outerLen f ≤ maxGrpcFrameSize

/-- The request direction of a connection that has run to its end without an error, a timeout
or an abort: the Auth ID that was looked up and the bytes the upstream has received. `lookup`
is `match_auth_id` of the validator in force, whose answer selects the outbound. -/
inductive Relays (m : Build) (lookup : Bytes → Option Vmess.Upstream) :
    Inbound → Bytes → Bytes → Prop
  | tcpToTcp {segments rest : List Bytes} {authId : Bytes} {upstream : Vmess.Upstream}
      {as : List TcpEvent} {s : TcpSession}
      (auth : readExact authIdSize segments=some (authId,rest))
      (found : lookup authId=some upstream) (kind : upstream.transport=.tcp)
      (ran : run tcpSession (.start authId rest) as=some s) (ended : s.relay.up.done=true) :
      Relays m lookup (.tcp segments) authId s.relay.upstream
  | tcpToGrpc {segments rest reads : List Bytes} {authId : Bytes}
      {upstream : Vmess.Upstream} {service sni : Text} {uri : Vmess.Uri}
      {caps left : List Capacity} {sent : List DataFrame}
      (auth : readExact authIdSize segments=some (authId,rest))
      (found : lookup authId=some upstream) (kind : upstream.transport=.grpc service sni uri)
      (input : reads.flatten=rest.flatten)
      (sizes : ∀ d∈reads, 0<d.length ∧ d.length ≤ rawToGrpcReadBufSize)
      (ran : relayGrpc authId reads caps=.ok (sent,left)) :
      Relays m lookup (.tcp segments) authId (payload m (wire sent))
  | grpcToTcp {frames early cached : List Bytes} {authId : Bytes} {q : GrpcFrameReader}
      {upstream : Vmess.Upstream} {as : List ViaAction} {st : ViaCore}
      (auth : readInitialAuth m (.new ⟨early,none⟩)=.ok (cached,authId,q))
      (found : lookup authId=some upstream) (kind : upstream.transport=.tcp)
      (ran : run (viaStep m) (.start authId cached q) as=some st)
      (input : st.requested=frames.flatten) (decoded : st.decode.status=.ok)
      (ended : st.relay.up.done=true) :
      Relays m lookup (.grpc frames) authId st.relay.upstream
  | grpcToGrpc {frames chunks cached : List Bytes} {authId : Bytes} {q : GrpcFrameReader}
      {upstream : Vmess.Upstream} {service sni : Text} {uri : Vmess.Uri}
      {caps left : List Capacity} {sent : List DataFrame}
      (input : chunks.flatten=frames.flatten)
      (auth : readInitialAuth m (.new ⟨chunks,none⟩)=.ok (cached,authId,q))
      (found : lookup authId=some upstream) (kind : upstream.transport=.grpc service sni uri)
      (ran : relayGrpcToGrpcFast cached q caps=.ok (sent,left)) :
      Relays m lookup (.grpc frames) authId (payload m (wire sent))

theorem readsAuthId {m : Build} {p : Bytes} {inbound : Inbound} (hp : authIdSize≤p.length)
    (hc : inbound.Carries m p) (hl : inbound.InLimit) :
    inbound.ReadsAuthId m (p.take authIdSize) := by
  cases inbound with
  | tcp segments =>
    have hflat : segments.flatten=p := hc
    obtain ⟨taken,rest,hr⟩ := readExact_total (hflat ▸ hp)
    obtain ⟨rfl,-,-⟩ := readExact_eq hr
    exact ⟨rest,by rw [← hflat]; exact hr⟩
  | grpc frames =>
    obtain ⟨hf,hdata⟩ := hc
    intro chunks hch
    have hframes : ∀ f∈frames, ExactFrame f ∧ Decodes m f := fun f hm =>
      ⟨⟨(hf f hm).1,hl f hm⟩,decodes_of_fits m (hf f hm).2⟩
    have hb : (GrpcFrameReader.new ⟨chunks,none⟩).bytes=frames.flatten++[] := by
      rw [List.append_nil,← hch]
      rfl
    have henough : authIdSize≤([]++framesData m frames).length := by
      rw [List.nil_append,hdata]
      exact hp
    obtain ⟨⟨cached,authId,q⟩,hr⟩ :=
      @readInitialAuthFrom_total m frames [] [] [] _ hb hframes henough
    have hx : (parseFrames frames.flatten).1=frames := by
      rw [← List.append_nil frames.flatten,parseFrames_flatten _ _ (fun f hm => (hframes f hm).1),
        parseFrames_more rfl,List.append_nil]
    obtain ⟨-,hauth⟩ := (readInitialAuth_spec hr).frames_eq hch hx
    rw [hdata] at hauth
    exact ⟨cached,q,by rw [← hauth]; exact hr⟩

/-- Whatever the transports and however the payload is cut, the Auth ID looked up is the first
part of the payload and the upstream receives the payload. -/
theorem relay_transparent {m : Build} {lookup : Bytes → Option Vmess.Upstream} {p : Bytes}
    {inbound : Inbound} (hp : authIdSize≤p.length) (hc : inbound.Carries m p) :
    (inbound.InLimit → inbound.ReadsAuthId m (p.take authIdSize)) ∧
    ∀ authId received, Relays m lookup inbound authId received →
      authId=p.take authIdSize ∧ received=p := by
  refine ⟨readsAuthId hp hc,?_⟩
  intro authId received h
  cases h with
  | tcpToTcp auth found kind ran ended =>
    have hflat : List.flatten _=p := hc
    obtain ⟨ha,hrest,-⟩ := readExact_eq auth
    rw [hflat] at ha hrest
    refine ⟨ha,?_⟩
    rw [tcpSession_complete ran ended,hrest,ha,List.take_append_drop]
  | tcpToGrpc auth found kind input sizes ran =>
    have hflat : List.flatten _=p := hc
    obtain ⟨ha,hrest,-⟩ := readExact_eq auth
    rw [hflat] at ha hrest
    refine ⟨ha,?_⟩
    have hlen : authId.length≤authIdSize := by
      rw [ha]
      exact List.length_take_le _ _
    rw [relayGrpc_payload m hlen sizes ran,input,hrest,ha,List.take_append_drop]
  | grpcToTcp auth found kind ran input decoded ended =>
    obtain ⟨hf,hdata⟩ := hc
    have hv := viaCore_payload (fun f hm => (hf f hm).1) (readInitialAuth_spec auth) ran input
      decoded ended
    rwa [hdata] at hv
  | grpcToGrpc input auth found kind ran =>
    obtain ⟨hf,hdata⟩ := hc
    have hv := relayGrpcToGrpcFast_payload (fun f hm => (hf f hm).1) input
      (readInitialAuth_spec auth) ran
    rwa [hdata] at hv

def splitPayload : Bytes := List.replicate 16 1++[2]

/-- The Auth ID cut over two segments. -/
def splitSegments : List Bytes := [List.replicate 10 1,List.replicate 6 1++[2]]

/-- The Auth ID cut over two frames, with an empty frame and one of a foreign tag between. -/
def authFrames : List Bytes :=
  [encodeGrpcFrame (List.replicate 10 1),[0,0,0,0,0],[0,0,0,0,1,0x0B],
    encodeGrpcFrame (List.replicate 6 1)]

def splitFrames : List Bytes := authFrames++[encodeGrpcFrame [2]]

/-- A validator whose only entry accepts every Auth ID. -/
def onlyUpstream (transport : Vmess.Transport) (_authId : Bytes) : Option Vmess.Upstream :=
  some ⟨"192.0.2.1:443".toList,.v4 ⟨192,0,2,1⟩ 443,transport,false⟩

def gunTransport : Vmess.Transport :=
  .grpc "GunService".toList "192.0.2.1".toList
    ⟨"https".toList,"192.0.2.1:443".toList,"/GunService/Tun".toList,none⟩

/-- One run on each pair of transports, with a send window that opens in small steps. -/
theorem relay_transparent_split :
    (∃ received, received=splitPayload ∧ Relays .release (onlyUpstream .tcp)
      (.tcp splitSegments) (splitPayload.take 16) received) ∧
    (∃ received, received=splitPayload ∧ Relays .release (onlyUpstream gunTransport)
      (.tcp splitSegments) (splitPayload.take 16) received) ∧
    (∃ received, received=splitPayload ∧ Relays .release (onlyUpstream .tcp)
      (.grpc splitFrames) (splitPayload.take 16) received) ∧
    (∃ received, received=splitPayload ∧ Relays .release (onlyUpstream gunTransport)
      (.grpc splitFrames) (splitPayload.take 16) received) := by
  have segments : (Inbound.tcp splitSegments).Carries .release splitPayload := rfl
  have frames : (Inbound.grpc splitFrames).Carries .release splitPayload :=
    ⟨by decide +kernel,by decide +kernel⟩
  have all {lookup : Bytes → Option Vmess.Upstream} {inbound : Inbound} {received : Bytes}
      (hc : inbound.Carries .release splitPayload)
      (h : Relays .release lookup inbound (splitPayload.take 16) received) :
      ∃ received, received=splitPayload ∧
        Relays .release lookup inbound (splitPayload.take 16) received :=
    ⟨received,((relay_transparent (by decide) hc).2 _ _ h).2,h⟩
  have hauth : readInitialAuth .release (.new ⟨[splitFrames.flatten],none⟩)=
      .ok (authFrames,splitPayload.take 16,⟨⟨[],none⟩,encodeGrpcFrame [2]⟩) := by decide +kernel
  refine ⟨?_,?_,?_,?_⟩
  · have hr : ∃ s, run tcpSession (.start (splitPayload.take 16) [[2]])
        [.tcp .connect,.tcp (.writeAuth 10),.arrive,.tcp (.writeAuth 6),.tcp .startCopy,.hangUp,
          .tcp (.upRead 1),.tcp (.upWrite 1),.tcp .upEof,.tcp .upShutdown]=some s ∧
        s.relay.up.done=true := ⟨_,rfl,rfl⟩
    obtain ⟨s,hr,hd⟩ := hr
    exact all segments (.tcpToTcp rfl rfl rfl hr hd)
  · have hr : relayGrpc (splitPayload.take 16) [[2]]
        [.granted 0,.granted 7,.granted 100,.granted 100]=
        .ok ([⟨[0,0,0,0,18,0x0A,16],false⟩,⟨List.replicate 16 1,false⟩,
          ⟨[0,0,0,0,3,0x0A,1,2],false⟩,⟨[],true⟩],[]) := by decide +kernel
    exact all segments (.tcpToGrpc rfl rfl rfl rfl (by decide) hr)
  · have hr : ∃ st, run (viaStep .release)
        (.start (splitPayload.take 16) authFrames ⟨⟨[],none⟩,encodeGrpcFrame [2]⟩)
        [.endStream,.decodeNext,.decodeNext,.decodeNext,.decodeNext,.decodeNext,.decodeWrite 1,
          .decodeNext,.tcp .connect,.tcp (.writeAuth 16),.tcp .startCopy,.tcp (.upRead 1),
          .tcp (.upWrite 1),.tcp .upEof,.tcp .upShutdown]=some st ∧
        (st.requested,st.decode.status,st.relay.up.done)=(splitFrames.flatten,.ok,true) := by
      rw [← Option.map_eq_some_iff]
      decide +kernel
    obtain ⟨st,hr,hst⟩ := hr
    simp only [Prod.mk.injEq] at hst
    exact all frames (.grpcToTcp hauth rfl rfl hr hst.1 hst.2.1 hst.2.2)
  · have hr : relayGrpcToGrpcFast authFrames ⟨⟨[],none⟩,encodeGrpcFrame [2]⟩
        (List.replicate 5 (.granted 100))=
        .ok (splitFrames.map (fun f => ⟨f,false⟩)++[⟨[],true⟩],[]) := by decide +kernel
    exact all frames (.grpcToGrpc (by simp) hauth rfl rfl hr)

end Tobira.Relay
