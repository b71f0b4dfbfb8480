import Tobira.Relay.Flow

namespace Tobira.Relay

open Tobira.Framework Tobira.Transport

/-- A task that has ended stays as it ended. -/
structure Settles (st st' : ViaCore) : Prop where
  decode : st.decode.status≠.running → st'.decode.status=st.decode.status
  relay : st.relayStatus≠.running → st'.relayStatus=st.relayStatus
  encode : st.encode.status≠.running → st'.encode.status=st.encode.status

theorem viaStep_settles {m : Build} {st st' : ViaCore} {a : ViaAction}
    (h : viaStep m st a=some st') : Settles st st' := by
  cases viaStep_steps h with
  | decodeNext hd hw hn =>
    have ho := decodeNext_only hn
    exact ⟨fun he => absurd hd he,fun _ => ho.relayStatus,fun _ => by rw [ho.encode]⟩
  | decodeFail hd => exact ⟨fun he => absurd hd he,fun _ => rfl,fun _ => rfl⟩
  | tcp hr ht =>
    split_ifs
    · exact ⟨fun _ => rfl,fun he => absurd hr he,fun _ => rfl⟩
    · exact ⟨fun _ => rfl,fun _ => rfl,fun _ => rfl⟩
  | relayFail hr => exact ⟨fun _ => rfl,fun he => absurd hr he,fun _ => rfl⟩
  | encode hp he hs =>
    have ho := hs.only
    exact ⟨fun _ => by rw [ho.decode],fun _ => ho.relayStatus,fun hn => absurd he hn⟩
  | main hs =>
    obtain ⟨main,rfl⟩|⟨hd,rfl⟩|⟨hr,rfl⟩ := hs.moves
    · exact ⟨fun _ => rfl,fun _ => rfl,fun _ => rfl⟩
    · exact ⟨fun he => absurd hd he,fun _ => rfl,fun _ => rfl⟩
    · exact ⟨fun _ => rfl,fun he => absurd hr he,fun _ => rfl⟩
  | _ => exact ⟨fun _ => rfl,fun _ => rfl,fun _ => rfl⟩

theorem Failed.step {m : Build} {st st' : ViaCore} {a : ViaAction} (hf : Failed st)
    (h : viaStep m st a=some st') : Failed st' := by
  have hs := viaStep_settles h
  rcases hf with hf|hf|hf
  · exact Or.inl ((hs.decode (by rw [hf]; decide)).trans hf)
  · exact Or.inr (Or.inl ((hs.relay (by rw [hf]; decide)).trans hf))
  · exact Or.inr (Or.inr ((hs.encode (by rw [hf]; decide)).trans hf))

theorem Flow.step {m : Build} {authId : Bytes} {st st' : ViaCore} {a : ViaAction}
    (h : Flow m authId st) (hw : Waits st a) (hs : viaStep m st a=some st') :
    Failed st' ∨ Flow m authId st' := by
  cases viaStep_steps hs with
  | send hc =>
    apply Or.inr (h.request_step (h.request.send hc _) _)
    constructor <;> rfl
  | endStream =>
    apply Or.inr (h.request_step h.request.endStream _)
    constructor <;> rfl
  | respond hp hc => exact Or.inr (h.response_step (fun _ hf => hf.answer hc _))
  | closeWrite hp => exact Or.inr (h.response_step (fun _ hf => hf.close))
  | decodeNext hd hd' hn =>
    rcases h.request.decodeNext hd hd' hn with hf|hq
    · exact Or.inl (Or.inl hf)
    · exact Or.inr (h.request_step hq (decodeNext_only hn))
  | decodeWrite hd hr hn hf =>
    apply Or.inr (h.request_step (h.request.decodeWrite hd _) _)
    constructor <;> rfl
  | decodeFail hd => exact Or.inl (Or.inl rfl)
  | tcp hr ht => exact Or.inr (h.relayStep hr ht)
  | relayFail hr => exact Or.inl (Or.inr (Or.inl rfl))
  | encode hp he hs => exact h.encodeStep he hp hs
  | main hs => exact Or.inr (h.mainStep hw hs)

/-- In every run in which the end of the encode future is taken up only after the request
direction is over, the flow is kept or some task failed. -/
theorem flow_run {m : Build} {r q : GrpcFrameReader} {cached : List Bytes} {authId : Bytes}
    {as : List ViaAction} {st : ViaCore} (h : InitialAuth m [] r cached authId q)
    (hw : Within (viaStep m) Waits (.start authId cached q) as)
    (hr : run (viaStep m) (.start authId cached q) as=some st) :
    Failed st ∨ Flow m authId st := by
  refine run_within (I := fun st => Failed st ∨ Flow m authId st) ?_ hw
    (Or.inr (flow_start h)) hr
  intro st a st' hi hg hs
  rcases hi with hf|hf
  · exact Or.inl (hf.step hs)
  · exact hf.step hg hs

/-- What the encode future has sent decodes to what the upstream sent. -/
theorem Encoded.complete {st : ViaCore} {reads : List Bytes} (h : Encoded st reads) (m : Build)
    (he : st.encode.status=.ok) : payload m (Transport.wire st.encode.sent)=st.answered := by
  obtain ⟨hd,hi,hp⟩ := h.ended he
  obtain ⟨heof,hb⟩ := h.flow.sound.done hd
  have hr := (h.flow.sound.eof heof).1
  have hbytes := h.flow.bytes
  rw [hi,hb,hr] at hbytes
  have hw := h.wire
  rw [hp,List.append_nil] at hw
  rw [hw,payload_encode m (fun d hd => (h.sizes d hd).2)]
  simpa using hbytes

/-- The relay task is cancelled only when the request direction is over. -/
theorem Flow.cancelled_late {m : Build} {authId : Bytes} {st : ViaCore} (h : Flow m authId st)
    (hc : st.relayStatus=.cancelled) : st.relay.up.done=true := by
  have hk := h.control
  simp only [Control] at hk
  cases hm : st.main with
  | abortBoth ok =>
    rw [hm] at hk
    exact hk.2.2
  | abortRelay ok =>
    rw [hm] at hk
    exact hk.2.2
  | returned ok =>
    rw [hm] at hk
    exact hk.2
  | _ =>
    rw [hm,hc] at hk
    simp at hk

/-- In every error-free run in which the end of the encode future is taken up only after the
request direction is over, nothing of the request is cancelled, and on `Ok` the upstream has
the whole request and the response stream the whole response. -/
theorem half_close_loses_nothing {m : Build} {r q : GrpcFrameReader} {cached : List Bytes}
    {authId : Bytes} {as : List ViaAction} {st : ViaCore}
    (h : readInitialAuth m r=.ok (cached,authId,q))
    (hw : Within (viaStep m) Waits (.start authId cached q) as)
    (hr : run (viaStep m) (.start authId cached q) as=some st) (hf : ¬Failed st) :
    st.decode.status≠.cancelled ∧ (st.relayStatus=.cancelled → st.relay.up.done=true) ∧
    (st.main=.returned true → st.clientEnded=true ∧
      st.relay.upstream=payload m st.requested ∧
      payload m (wire st.encode.sent)=st.answered) := by
  have hflow : Flow m authId st := by
    rcases flow_run (readInitialAuth_spec h) hw hr with he|he
    · exact absurd he hf
    · exact he
  refine ⟨?_,hflow.cancelled_late,?_⟩
  · rcases hflow.request.status with hs|hs <;> rw [hs] <;> decide
  · intro hret
    have hk := hflow.control
    rw [Control,hret] at hk
    obtain ⟨he,hd⟩ := hk
    obtain ⟨hend,hup,-⟩ := hflow.request.complete hd
    obtain ⟨reads,hen⟩ := hflow.response
    exact ⟨hend,hup,hen.complete m he⟩

/-- A request that starts with one frame: the Auth ID and one more byte. -/
def shortRequest : GrpcFrameReader :=
  .new ⟨[encodeGrpcFrame (List.replicate 16 1++[2])],none⟩

def shortStart : ViaCore :=
  .start (List.replicate 16 1) [encodeGrpcFrame (List.replicate 16 1++[2])] ⟨⟨[],none⟩,[]⟩

/-- The client ends its stream, the request is forwarded, and then the upstream answers. -/
def answeredAfterRequest : List ViaAction :=
  [.endStream,.decodeNext,.decodeWrite 1,.decodeNext,.tcp .connect,.tcp (.writeAuth 16),
    .tcp .startCopy,.tcp (.upRead 1),.tcp (.upWrite 1),.tcp .upEof,.tcp .upShutdown,.respond [9],
    .closeWrite,.tcp (.downRead 1),.tcp (.downWrite 1),.tcp .downEof,.tcp .downShutdown,
    .encodeRead 1,.encodeSend 8,.encodeEnd]

/-- The upstream ends its response while the client still sends. -/
def answeredEarly : List ViaAction :=
  [.tcp .connect,.tcp (.writeAuth 16),.tcp .startCopy,.closeWrite,.tcp .downEof,
    .tcp .downShutdown,.send (encodeGrpcFrame [3]),.encodeEnd,.pickEncode,.cancelDecode,
    .cancelRelay,.join]

theorem half_close_loses_nothing_short : ∃ st,
    run (viaStep .release) shortStart (answeredAfterRequest++[.pickEncode,.cancelRelay,.join])=
      some st ∧
    st.main=.returned true ∧ st.relay.upstream=payload .release st.requested ∧
    payload .release (wire st.encode.sent)=st.answered := by
  have h0 : readInitialAuth .release shortRequest=.ok
      ([encodeGrpcFrame (List.replicate 16 1++[2])],List.replicate 16 1,⟨⟨[],none⟩,[]⟩) := by
    decide +kernel
  have hw : Within (viaStep .release) Waits shortStart
      (answeredAfterRequest++[.pickEncode,.cancelRelay,.join]) := by decide +kernel
  have hr : ∃ st, run (viaStep .release) shortStart
      (answeredAfterRequest++[.pickEncode,.cancelRelay,.join])=some st ∧
      (st.main,st.decode.status,st.relayStatus,st.encode.status)=
        (.returned true,.ok,.cancelled,.ok) := by
    rw [← Option.map_eq_some_iff]
    decide +kernel
  obtain ⟨st,hr,hst⟩ := hr
  simp only [Prod.mk.injEq] at hst
  obtain ⟨hm,hd,hs,he⟩ := hst
  have hf : ¬Failed st := by
    simp [Failed,hd,hs,he]
  have h := (half_close_loses_nothing h0 hw hr hf).2.2 hm
  exact ⟨st,hr,hm,h.2⟩

theorem early_answer_loses_request :
    readInitialAuth .release shortRequest=.ok
      ([encodeGrpcFrame (List.replicate 16 1++[2])],List.replicate 16 1,⟨⟨[],none⟩,[]⟩) ∧
    ∃ st, run (viaStep .release) shortStart answeredEarly=some st ∧ ¬Failed st ∧
      st.main=.returned true ∧ st.relay.upstream=List.replicate 16 1 ∧
      payload .release st.requested=List.replicate 16 1++[2,3] := by
  refine ⟨by decide +kernel,_,rfl,?_,rfl,rfl,by decide +kernel⟩
  intro h
  rcases h with h|h|h <;> cases h

end Tobira.Relay
