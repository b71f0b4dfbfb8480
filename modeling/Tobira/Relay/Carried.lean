import Tobira.Relay.GrpcRelay
import Tobira.Relay.Transparency

namespace Tobira.Relay

open Tobira.Framework Tobira.Transport

/-- More bytes on a stream leave the data it carries so far as it is. -/
theorem payload_mono (m : Build) {a b : Bytes} (h : a <+: b) : payload m a <+: payload m b := by
  obtain ⟨more,rfl⟩ := h
  obtain ⟨rest,hb⟩ := parseFrames_split a
  have hp : framesData m (parseFrames a).1 <+:
      payload m ((parseFrames a).1.flatten++(rest++more)) :=
    framesData_payload m (parseFrames_exact a)
  rwa [← List.append_assoc,← hb] at hp

/-- A part of encoded reads carries a part of what was read. -/
theorem payload_encode_part (m : Build) {reads : List Bytes} {bytes : Bytes}
    (h : ∀ d∈reads, d.length ≤ rawToGrpcReadBufSize)
    (hb : bytes <+: (reads.map encodeGrpcFrame).flatten) : payload m bytes <+: reads.flatten := by
  have hp := payload_mono m hb
  rwa [payload_encode m h] at hp

theorem UpFlow.upstream {authId fed : Bytes} {r : TcpRelay} (h : UpFlow authId fed r) :
    r.upstream <+: authId++fed := by
  rw [← h.bytes,List.append_assoc,List.append_assoc]
  exact List.prefix_append _ _

theorem DownFlow.written {answered taken : Bytes} {r : TcpRelay} (h : DownFlow answered taken r) :
    taken++r.outbound.items <+: answered := by
  rw [← h.bytes,List.append_assoc _ r.down.buf]
  exact List.prefix_append _ _

/-- Once the upstream's response has been read to its end, nothing of it is held back. -/
theorem DownFlow.complete {answered taken : Bytes} {r : TcpRelay} (hf : DownFlow answered taken r)
    (hd : r.down.done=true) : taken++r.outbound.items=answered := by
  obtain ⟨he,hb⟩ := hf.sound.done hd
  have hi := (hf.sound.eof he).1
  have h := hf.bytes
  rwa [hb,hi,List.append_nil,List.append_nil] at h

/-- Whatever has failed: what came out of the decode task follows the Auth ID in the payload. -/
def Fed (m : Build) (authId : Bytes) (st : ViaCore) : Prop :=
  ∃ fed, UpFlow authId fed st.relay ∧ authId++fed <+: payload m st.requested

theorem Requesting.fed {m : Build} {authId : Bytes} {st : ViaCore} (h : Requesting m authId st) :
    Fed m authId st := by
  obtain ⟨read,fed,ht⟩ := h
  refine ⟨fed,ht.flow,?_⟩
  have hframes : ∀ f∈read++st.decode.cached, ExactFrame f := fun f hf => (ht.frames f hf).1
  have hstream : st.requested=
      (read++st.decode.cached).flatten++(st.decode.buf++st.chunks.flatten) := by
    rw [ht.bytes,List.flatten_append,List.append_assoc]
  have hall : framesData m (read++st.decode.cached) <+: payload m st.requested := by
    rw [hstream]
    exact framesData_payload m hframes
  refine List.IsPrefix.trans ?_ hall
  have hpart : authId++fed <+: authId++(framesData m read).drop authIdSize := by
    rw [← ht.data,← List.append_assoc]
    exact List.prefix_append _ _
  refine hpart.trans ?_
  have hfirst := ht.first
  rw [framesData_append] at hfirst ⊢
  -- the frames read so far are short of an Auth ID or hold it as a whole
  rcases Nat.le_total authIdSize (framesData m read).length with hl|hl
  · rw [hfirst,List.take_append_of_le_length hl,List.take_append_drop]
    exact List.prefix_append _ _
  · rw [hfirst,List.drop_eq_nil_of_le hl,List.append_nil]
    exact List.take_prefix _ _

/-- The decode task leaves the relay alone, or drops its end of the pipe. -/
theorem takeFrame_relay (m : Build) (st : ViaCore) (frame : Bytes) :
    (st.takeFrame m frame).requested=st.requested ∧
    ((st.takeFrame m frame).relay=st.relay ∨
      (st.takeFrame m frame).relay={ st.relay with inbound := ⟨st.relay.inbound.items,true⟩ }) := by
  simp only [ViaCore.takeFrame]
  split
  · exact ⟨rfl,Or.inr rfl⟩
  · exact ⟨rfl,Or.inl rfl⟩
  · exact ⟨rfl,Or.inl rfl⟩

theorem decodeNext_relay {m : Build} {st st' : ViaCore} (h : st.decodeNext m=some st') :
    st'.requested=st.requested ∧
    (st'.relay=st.relay ∨
      st'.relay={ st.relay with inbound := ⟨st.relay.inbound.items,true⟩ }) := by
  simp only [ViaCore.decodeNext] at h
  split at h
  · rename_i frame cached hc
    cases h
    exact takeFrame_relay m { st with decode := { st.decode with cached := cached } } frame
  · split at h
    · rename_i frame rest hp
      cases h
      exact takeFrame_relay m { st with decode := { st.decode with buf := rest } } frame
    · cases h
      exact ⟨rfl,Or.inr rfl⟩
    · split at h
      · cases h
        exact ⟨rfl,Or.inl rfl⟩
      · split_ifs at h
        cases h
        exact ⟨rfl,Or.inr rfl⟩

theorem viaStep_requested {m : Build} {st st' : ViaCore} {a : ViaAction}
    (h : viaStep m st a=some st') : st.requested <+: st'.requested := by
  cases viaStep_steps h with
  | send hc => exact List.prefix_append _ _
  | decodeNext hd hw hn => rw [(decodeNext_relay hn).1]
  | tcp hr ht =>
    split_ifs
    · exact List.prefix_refl _
    · exact List.prefix_refl _
  | encode hp he hs => cases hs <;> exact List.prefix_refl _
  | main h =>
    rcases h.moves with ⟨main,rfl⟩|⟨-,rfl⟩|⟨-,rfl⟩
    · exact List.prefix_refl _
    · exact List.prefix_refl _
    · exact List.prefix_refl _
  | _ => exact List.prefix_refl _

/-- Only the decode task puts bytes into the pipe. -/
theorem UpFlow.viaStep {m : Build} {authId fed : Bytes} {st st' : ViaCore} {a : ViaAction}
    (hf : UpFlow authId fed st.relay) (ha : ∀ n, a≠.decodeWrite n)
    (h : viaStep m st a=some st') : UpFlow authId fed st'.relay := by
  cases viaStep_steps h with
  | send hc => exact hf
  | endStream => exact hf
  | respond hp hc => exact hf.respond _ _ _
  | closeWrite hp => exact hf.respond _ _ _
  | decodeNext hd hw hn =>
    rcases (decodeNext_relay hn).2 with hr|hr
    · rw [hr]
      exact hf
    · rw [hr]
      exact hf.close
  | decodeWrite => exact absurd rfl (ha _)
  | decodeFail hd => exact hf.close
  | tcp hr ht =>
    have hup := hf.relayTcp ht
    split_ifs
    · exact hup.respond _ _ _
    · exact hup
  | relayFail hr => exact hf.respond _ _ _
  | encode hp he hs =>
    cases hs with
    | read => exact hf.respond _ _ _
    | _ => exact hf
  | main h =>
    rcases h.moves with ⟨main,rfl⟩|⟨-,rfl⟩|⟨-,rfl⟩
    · exact hf
    · exact hf.close
    · exact hf.respond _ _ _

/-- The request direction of `relay_grpc_via_core` in every run. -/
theorem fed_run {m : Build} {r q : GrpcFrameReader} {cached : List Bytes} {authId : Bytes}
    {as : List ViaAction} {st : ViaCore} (h : InitialAuth m [] r cached authId q)
    (hr : run (viaStep m) (.start authId cached q) as=some st) : Fed m authId st := by
  have hinv : (Stopped st ∨ Requesting m authId st) ∧ Fed m authId st := by
    refine run_invariant (I := fun st => (Stopped st ∨ Requesting m authId st) ∧ Fed m authId st)
      ?_ ⟨Or.inr (requesting_start h),(requesting_start h).fed⟩ hr
    intro st a st' hi hs
    obtain ⟨hstop,fed,hf,hp⟩ := hi
    have hnext : Stopped st' ∨ Requesting m authId st' := by
      rcases hstop with (hx|hx)|hq
      · exact Or.inl (Or.inl (((viaStep_settles hs).decode (by rw [hx]; decide)).trans hx))
      · exact Or.inl (Or.inr (((viaStep_settles hs).decode (by rw [hx]; decide)).trans hx))
      · exact hq.step hs
    refine ⟨hnext,?_⟩
    by_cases ha : ∀ n, a≠.decodeWrite n
    · exact ⟨fed,hf.viaStep ha hs,hp.trans (payload_mono m (viaStep_requested hs))⟩
    · -- a task that writes goes on
      push Not at ha
      obtain ⟨n,rfl⟩ := ha
      simp only [Relay.viaStep] at hs
      split_ifs at hs with hc
      cases hs
      rcases hnext with (hx|hx)|hq
      · exact absurd (hc.1.symm.trans hx) (by decide)
      · exact absurd (hc.1.symm.trans hx) (by decide)
      · exact hq.fed
  exact hinv.2

/-- The response direction, whatever has failed: what the encode future has read, and the rest. -/
structure Sent (st : ViaCore) (reads : List Bytes) : Prop where
  sizes : ∀ d∈reads, d.length ≤ rawToGrpcReadBufSize
  wire : wire st.encode.sent++st.encode.pending=(reads.map encodeGrpcFrame).flatten
  flow : DownFlow st.answered reads.flatten st.relay
  closed : st.relay.outbound.closed=true → st.relay.down.done=true ∨ st.relayStatus≠.running
  ended : st.encode.status=.ok → st.relay.outbound.closed=true ∧ st.relay.outbound.items=[] ∧
    st.encode.pending=[]

theorem sent_start (authId : Bytes) (cached : List Bytes) (q : GrpcFrameReader) :
    Sent (.start authId cached q) [] where
  sizes := fun _ hd => by cases hd
  wire := rfl
  flow := downFlow_start authId ⟨[],false⟩
  closed := fun hc => by cases hc
  ended := fun he => by cases he

/-- The client and the decode task do not reach the response. -/
theorem Sent.request {st st' : ViaCore} {reads : List Bytes} (h : Sent st reads)
    (hs : RequestOnly st st') : Sent st' reads := by
  refine ⟨h.sizes,?_,⟨?_,?_,?_,?_⟩,?_,?_⟩
  · rw [hs.encode]
    exact h.wire
  · rw [hs.outbound,hs.down,hs.response,hs.answered]
    exact h.flow.bytes
  · rw [hs.down,hs.response]
    exact h.flow.sound
  · rw [hs.phase,hs.down]
    exact h.flow.ended
  · rw [hs.down,hs.outbound]
    exact h.flow.shut
  · rw [hs.outbound,hs.down,hs.relayStatus]
    exact h.closed
  · rw [hs.encode,hs.outbound]
    exact h.ended

theorem Sent.endRelay {st : ViaCore} {reads : List Bytes} {status : Status} (h : Sent st reads)
    (hs : status≠.running) : Sent (st.endRelay status) reads where
  sizes := h.sizes
  wire := h.wire
  flow := ⟨h.flow.bytes,h.flow.sound,h.flow.ended,fun _ => rfl⟩
  closed := fun _ => Or.inr hs
  ended := fun he => ⟨rfl,(h.ended he).2⟩

theorem Sent.tcp {st : ViaCore} {reads : List Bytes} {r : TcpRelay} {a : TcpAction}
    (h : Sent st reads) (hs : st.relayStatus=.running)
    (ht : relayTcp (some duplexSize) st.relay a=some r) : Sent { st with relay := r } reads := by
  have hk := relayTcp_keeps ht h.flow.sound
  have hopen : st.relay.outbound.closed=true → st.relay.down.done=true := by
    intro hc
    rcases h.closed hc with hd|hx
    · exact hd
    · exact absurd hs hx
  have hflow := h.flow.relayTcp ht
  refine ⟨h.sizes,h.wire,hflow,?_,?_⟩
  · intro hc
    rcases hk.outbound hc with hc|hd
    · exact Or.inl (hk.down (hopen hc)).1
    · exact Or.inl hd
  · intro he
    obtain ⟨hc,hi,hp⟩ := h.ended he
    obtain ⟨hd,hi'⟩ := hk.down (hopen hc)
    exact ⟨hflow.shut hd,hi'.trans hi,hp⟩

theorem Sent.encode {st st' : ViaCore} {reads : List Bytes} (h : Sent st reads)
    (hrun : st.encode.status=.running) (hs : EncodeSteps st st') : ∃ reads', Sent st' reads' := by
  have running : st.encode.status≠.ok := by
    rw [hrun]
    decide
  cases hs with
  | @read n empty pos fits there =>
    have hw := h.wire
    rw [empty,List.append_nil] at hw
    refine ⟨reads++[st.relay.outbound.items.take n],⟨?_,?_,?_,h.closed,
      fun hx => absurd hx running⟩⟩
    · intro d hmem
      rcases List.mem_append.mp hmem with hmem|hmem
      · exact h.sizes d hmem
      · rw [List.mem_singleton.mp hmem,List.length_take]
        omega
    · change Transport.wire st.encode.sent++encodeGrpcFrame (st.relay.outbound.items.take n)=_
      rw [hw]
      simp
    · refine ⟨?_,h.flow.sound,h.flow.ended,h.flow.shut⟩
      change (reads++[st.relay.outbound.items.take n]).flatten++st.relay.outbound.items.drop n++
        st.relay.down.buf++st.relay.response.items=_
      rw [← h.flow.bytes]
      simp
  | @send n pos there =>
    refine ⟨reads,⟨h.sizes,?_,h.flow,h.closed,fun hx => absurd hx running⟩⟩
    change Transport.wire (st.encode.sent++[⟨st.encode.pending.take n,false⟩])++
      st.encode.pending.drop n=_
    rw [wire_append,← h.wire]
    simp [Transport.wire]
  | done empty drained closed =>
    refine ⟨reads,⟨h.sizes,?_,h.flow,h.closed,fun _ => ⟨closed,drained,empty⟩⟩⟩
    change Transport.wire (st.encode.sent++[⟨[],true⟩])++st.encode.pending=_
    rw [wire_append,← h.wire]
    simp [Transport.wire]
  | fail => exact ⟨reads,⟨h.sizes,h.wire,h.flow,h.closed,fun hx => by cases hx⟩⟩

theorem Sent.step {m : Build} {st st' : ViaCore} {a : ViaAction} {reads : List Bytes}
    (h : Sent st reads) (hs : viaStep m st a=some st') : ∃ reads', Sent st' reads' := by
  cases viaStep_steps hs with
  | send hc => exact ⟨reads,h.request (by constructor <;> rfl)⟩
  | endStream => exact ⟨reads,h.request (by constructor <;> rfl)⟩
  | respond hp hc => exact ⟨reads,⟨h.sizes,h.wire,h.flow.answer hc _,h.closed,h.ended⟩⟩
  | closeWrite hp => exact ⟨reads,⟨h.sizes,h.wire,h.flow.close,h.closed,h.ended⟩⟩
  | decodeNext hd hw hn => exact ⟨reads,h.request (decodeNext_only hn)⟩
  | decodeWrite hd hr hn hf => exact ⟨reads,h.request (by constructor <;> rfl)⟩
  | decodeFail hd => exact ⟨reads,h.request (by constructor <;> rfl)⟩
  | tcp hr ht =>
    refine ⟨reads,?_⟩
    split_ifs
    · exact (h.tcp hr ht).endRelay (by decide)
    · exact h.tcp hr ht
  | relayFail hr => exact ⟨reads,h.endRelay (by decide)⟩
  | encode hp he hx => exact h.encode he hx
  | main hx =>
    refine ⟨reads,?_⟩
    rcases hx.moves with ⟨main,rfl⟩|⟨-,rfl⟩|⟨-,rfl⟩
    · exact ⟨h.sizes,h.wire,h.flow,h.closed,h.ended⟩
    · exact h.request (by constructor <;> rfl)
    · exact h.endRelay (by decide)

/-- The response direction of `relay_grpc_via_core` in every run. -/
theorem sent_run {m : Build} {q : GrpcFrameReader} {cached : List Bytes} {authId : Bytes}
    {as : List ViaAction} {st : ViaCore}
    (hr : run (viaStep m) (.start authId cached q) as=some st) : ∃ reads, Sent st reads := by
  refine run_invariant (I := fun st => ∃ reads, Sent st reads) ?_
    ⟨[],sent_start authId cached q⟩ hr
  intro st a st' hi hs
  obtain ⟨reads,h⟩ := hi
  exact h.step hs

end Tobira.Relay
