import Tobira.Relay.ViaCore

namespace Tobira.Relay

open Tobira.Framework Tobira.Transport

/-- Everything a step of the encode future can do. -/
inductive EncodeSteps (st : ViaCore) : ViaCore → Prop where
  | read {n : Nat} (empty : st.encode.pending=[]) (pos : 0<n) (fits : n ≤ rawToGrpcReadBufSize)
      (there : n ≤ st.relay.outbound.items.length) :
      EncodeSteps st { st with
        encode := { st.encode with pending := encodeGrpcFrame (st.relay.outbound.items.take n) }
        relay := { st.relay with
          outbound := ⟨st.relay.outbound.items.drop n,st.relay.outbound.closed⟩ } }
  | send {n : Nat} (pos : 0<n) (there : n ≤ st.encode.pending.length) :
      EncodeSteps st { st with
        encode := { st.encode with
          pending := st.encode.pending.drop n
          sent := st.encode.sent++[⟨st.encode.pending.take n,false⟩] } }
  | done (empty : st.encode.pending=[]) (drained : st.relay.outbound.items=[])
      (closed : st.relay.outbound.closed=true) :
      EncodeSteps st { st with
        encode := { st.encode with sent := st.encode.sent++[⟨[],true⟩],status := .ok } }
  | fail : EncodeSteps st { st with encode := { st.encode with status := .failed } }

theorem encodeStep_steps {st st' : ViaCore} {a : ViaAction} (h : encodeStep st a=some st') :
    EncodeSteps st st' := by
  cases a with
  | encodeRead n =>
    simp only [encodeStep] at h
    split_ifs at h with hc
    cases h
    exact .read hc.1 hc.2.1 hc.2.2.1 hc.2.2.2
  | encodeSend n =>
    simp only [encodeStep] at h
    split_ifs at h with hc
    cases h
    exact .send hc.1 hc.2
  | encodeEnd =>
    simp only [encodeStep] at h
    split_ifs at h with hc
    cases h
    exact .done hc.1 hc.2.1 hc.2.2
  | encodeFail =>
    cases h
    exact .fail
  | _ => cases h

/-- Everything a step of `relay_grpc_via_core` itself can do. -/
inductive MainSteps (st : ViaCore) : ViaAction → ViaCore → Prop where
  | decoded (hm : st.main=.outer) (hd : st.decode.status=.ok) :
      MainSteps st .pickDecode { st with main := .inner }
  | undecoded (hm : st.main=.outer) (hd : st.decode.status≠.running)
      (hb : st.decode.status≠.ok) : MainSteps st .pickDecode { st with main := .abortRelay false }
  | encoded (hm : st.main=.outer) (he : st.encode.status≠.running) :
      MainSteps st .pickEncode { st with main := .abortBoth (decide (st.encode.status=.ok)) }
  | encodedLate (hm : st.main=.inner) (he : st.encode.status≠.running) :
      MainSteps st .pickEncode { st with main := .abortRelay (decide (st.encode.status=.ok)) }
  | relayed (hm : st.main=.outer) (hr : st.relayStatus≠.running) :
      MainSteps st .pickRelay { st with main := .abortDecode (relayOk st.relayStatus) }
  | relayedLate (hm : st.main=.inner) (hr : st.relayStatus≠.running) :
      MainSteps st .pickRelay
        { st with main := if relayOk st.relayStatus then .awaitEncode else .returned false }
  | cancelDecode {ok : Bool} (hm : st.main=.abortBoth ok ∨ st.main=.abortDecode ok)
      (hd : st.decode.status=.running) : MainSteps st .cancelDecode (st.endDecode .cancelled)
  | cancelRelay {ok : Bool} (hm : st.main=.abortBoth ok ∨ st.main=.abortRelay ok)
      (hr : st.relayStatus=.running) : MainSteps st .cancelRelay (st.endRelay .cancelled)
  | joinBoth {ok : Bool} (hm : st.main=.abortBoth ok) (hd : st.decode.status≠.running)
      (hr : st.relayStatus≠.running) : MainSteps st .join { st with main := .returned ok }
  | joinRelay {ok : Bool} (hm : st.main=.abortRelay ok) (hr : st.relayStatus≠.running) :
      MainSteps st .join { st with main := .returned ok }
  | joinDecode {ok : Bool} (hm : st.main=.abortDecode ok) (hd : st.decode.status≠.running) :
      MainSteps st .join { st with main := if ok then .awaitEncode else .returned false }
  | joinEncode (hm : st.main=.awaitEncode) (he : st.encode.status≠.running) :
      MainSteps st .join { st with main := .returned (decide (st.encode.status=.ok)) }

theorem mainStep_steps {st st' : ViaCore} {a : ViaAction} (h : mainStep st a=some st') :
    MainSteps st a st' := by
  cases a with
  | pickDecode =>
    simp only [mainStep] at h
    split_ifs at h with hp hd <;> cases h
    · exact .decoded hp.1 hd
    · exact .undecoded hp.1 hp.2 hd
  | pickEncode =>
    simp only [mainStep] at h
    split_ifs at h with he
    split at h <;> cases h
    · exact .encoded ‹_› he
    · exact .encodedLate ‹_› he
  | pickRelay =>
    by_cases hr : st.relayStatus=.running
    · rw [mainStep,if_pos hr] at h
      cases h
    rw [mainStep,if_neg hr] at h
    split at h <;> cases h
    · exact .relayed ‹_› hr
    · exact .relayedLate ‹_› hr
  | cancelDecode =>
    simp only [mainStep] at h
    split at h
    · split_ifs at h with hd
      cases h
      exact .cancelDecode (Or.inl ‹_›) hd
    · split_ifs at h with hd
      cases h
      exact .cancelDecode (Or.inr ‹_›) hd
    · cases h
  | cancelRelay =>
    simp only [mainStep] at h
    split at h
    · split_ifs at h with hr
      cases h
      exact .cancelRelay (Or.inl ‹_›) hr
    · split_ifs at h with hr
      cases h
      exact .cancelRelay (Or.inr ‹_›) hr
    · cases h
  | join =>
    simp only [mainStep] at h
    split at h
    · split_ifs at h with hc
      cases h
      exact .joinBoth ‹_› hc.1 hc.2
    · split_ifs at h with hr
      cases h
      exact .joinRelay ‹_› hr
    · by_cases hd : st.decode.status≠.running
      · rw [if_pos hd] at h
        cases h
        exact .joinDecode ‹_› hd
      · rw [if_neg hd] at h
        cases h
    · split_ifs at h with he
      cases h
      exact .joinEncode ‹_› he
    · cases h
  | _ => cases h

/-- Seen from the tasks, it moves on, or cancels one that still runs. -/
theorem MainSteps.moves {st st' : ViaCore} {a : ViaAction} (h : MainSteps st a st') :
    (∃ main, st'={ st with main := main }) ∨
    (st.decode.status=.running ∧ st'=st.endDecode .cancelled) ∨
    (st.relayStatus=.running ∧ st'=st.endRelay .cancelled) := by
  cases h with
  | cancelDecode hm hd => exact Or.inr (Or.inl ⟨hd,rfl⟩)
  | cancelRelay hm hr => exact Or.inr (Or.inr ⟨hr,rfl⟩)
  | _ => exact Or.inl ⟨_,rfl⟩

/-- Everything a step of the client, the upstream or the relay can do. -/
inductive ViaSteps (m : Build) (st : ViaCore) : ViaAction → ViaCore → Prop where
  | send {chunk : Bytes} (hc : st.clientEnded=false) :
      ViaSteps m st (.send chunk)
        { st with requested := st.requested++chunk,chunks := st.chunks++[chunk] }
  | endStream : ViaSteps m st .endStream { st with clientEnded := true }
  | respond {bytes : Bytes} (hp : st.relay.phase≠.connecting)
      (hc : st.relay.response.closed=false) :
      ViaSteps m st (.respond bytes)
        { st with
          answered := st.answered++bytes
          relay := { st.relay with
            response := ⟨st.relay.response.items++bytes,st.relay.response.closed⟩ } }
  | closeWrite (hp : st.relay.phase≠.connecting) :
      ViaSteps m st .closeWrite
        { st with relay := { st.relay with response := ⟨st.relay.response.items,true⟩ } }
  | decodeNext {st' : ViaCore} (hd : st.decode.status=.running) (hw : st.decode.writing=[])
      (h : st.decodeNext m=some st') : ViaSteps m st .decodeNext st'
  | decodeWrite {n : Nat} (hd : st.decode.status=.running) (hr : st.relayStatus=.running)
      (hn : 0<n ∧ n ≤ st.decode.writing.length)
      (hf : st.relay.inbound.items.length+n≤duplexSize) :
      ViaSteps m st (.decodeWrite n)
        { st with
          decode := { st.decode with writing := st.decode.writing.drop n }
          relay := { st.relay with inbound :=
            ⟨st.relay.inbound.items++st.decode.writing.take n,st.relay.inbound.closed⟩ } }
  | decodeFail (hd : st.decode.status=.running) :
      ViaSteps m st .decodeFail (st.endDecode .failed)
  | tcp {a : TcpAction} {r : TcpRelay} (hr : st.relayStatus=.running)
      (h : relayTcp (some duplexSize) st.relay a=some r) :
      ViaSteps m st (.tcp a) (if r.phase=.finished then { st with relay := r }.endRelay .ok
        else { st with relay := r })
  | relayFail (hr : st.relayStatus=.running) : ViaSteps m st .relayFail (st.endRelay .failed)
  | encode {a : ViaAction} {st' : ViaCore} (hp : st.main.polls=true)
      (he : st.encode.status=.running) (h : EncodeSteps st st') : ViaSteps m st a st'
  | main {a : ViaAction} {st' : ViaCore} (h : MainSteps st a st') : ViaSteps m st a st'

theorem viaStep_steps {m : Build} {st st' : ViaCore} {a : ViaAction}
    (h : viaStep m st a=some st') : ViaSteps m st a st' := by
  cases a with
  | send chunk =>
    simp only [viaStep] at h
    split_ifs at h with hc
    cases h
    exact .send hc
  | endStream =>
    cases h
    exact .endStream
  | respond bytes =>
    simp only [viaStep] at h
    split_ifs at h with hc
    cases h
    exact .respond hc.1 hc.2
  | closeWrite =>
    simp only [viaStep] at h
    split_ifs at h with hp
    cases h
    exact .closeWrite hp
  | decodeNext =>
    simp only [viaStep] at h
    split_ifs at h with hc
    exact .decodeNext hc.1 hc.2 h
  | decodeWrite n =>
    simp only [viaStep] at h
    split_ifs at h with hc
    cases h
    obtain ⟨hd,hr,hn,hlen,hf⟩ := hc
    exact .decodeWrite hd hr ⟨hn,hlen⟩ hf
  | decodeFail =>
    simp only [viaStep] at h
    split_ifs at h with hd
    cases h
    exact .decodeFail hd
  | tcp a =>
    simp only [viaStep] at h
    split_ifs at h with hr
    obtain ⟨r,ht,rfl⟩ := Option.map_eq_some_iff.mp h
    exact .tcp hr ht
  | relayFail =>
    simp only [viaStep] at h
    split_ifs at h with hr
    cases h
    exact .relayFail hr
  | encodeRead n =>
    simp only [viaStep] at h
    split_ifs at h with hc
    exact .encode hc.1 hc.2 (encodeStep_steps h)
  | encodeSend n =>
    simp only [viaStep] at h
    split_ifs at h with hc
    exact .encode hc.1 hc.2 (encodeStep_steps h)
  | encodeEnd =>
    simp only [viaStep] at h
    split_ifs at h with hc
    exact .encode hc.1 hc.2 (encodeStep_steps h)
  | encodeFail =>
    simp only [viaStep] at h
    split_ifs at h with hc
    exact .encode hc.1 hc.2 (encodeStep_steps h)
  | _ =>
    simp only [viaStep] at h
    exact .main (mainStep_steps h)

end Tobira.Relay
