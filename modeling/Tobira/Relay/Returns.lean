import Tobira.Framework.Halt
import Tobira.Relay.HalfClose

namespace Tobira.Relay

open Tobira.Framework Tobira.Transport

/-- The steps of the client and of the upstream. -/
def ViaAction.peer : ViaAction → Bool
  | .send _ | .endStream | .respond _ | .closeWrite => true
  | _ => false

/-- The errors of the streams. -/
def ViaAction.fault : ViaAction → Bool
  | .decodeFail | .relayFail | .encodeFail => true
  | _ => false

/-- What `relay_grpc_via_core` and its tasks do as long as no stream fails. -/
def ViaAction.own (a : ViaAction) : Bool := !a.peer && !a.fault

theorem ViaAction.peer_of_own {a : ViaAction} (h : a.own=true) : a.peer=false := by
  have hp := (Bool.and_eq_true_iff.mp h).1
  simpa using hp

def Status.left : Status → Nat
  | .running => 1
  | _ => 0

def Phase.left : Phase → Nat
  | .connecting => 3
  | .writing => 2
  | .copying => 1
  | .finished => 0

def Main.left : Main → Nat
  | .outer => 5
  | .inner => 4
  | .abortBoth _ | .abortRelay _ | .abortDecode _ => 3
  | .awaitEncode => 1
  | .returned _ => 0

theorem Status.left_running {s : Status} (h : s=.running) : s.left=1 := by
  rw [h]
  rfl

/-- A byte of the request moves from its chunk through the pipe and the copy to the upstream. -/
def chunksLeft (chunks : List Bytes) : Nat := (chunks.map (fun c => 3*c.length+1)).sum

def Decode.left (d : Decode) : Nat :=
  chunksLeft d.cached+3*d.buf.length+3*d.writing.length+d.status.left

/-- A byte of the response ends in a frame, which is longer than its data. -/
def TcpRelay.work (r : TcpRelay) : Nat :=
  r.phase.left+r.authLeft.length+r.up.load 0 r.inbound+r.down.load 18 r.response+
    18*r.outbound.items.length

/-- What is left to do until only a peer can go on. -/
def ViaCore.work (st : ViaCore) : Nat :=
  chunksLeft st.chunks+st.decode.left+st.relay.work+st.relayStatus.left+
    st.encode.pending.length+st.encode.status.left+st.main.left

@[simp]
theorem chunksLeft_cons (chunk : Bytes) (chunks : List Bytes) :
    chunksLeft (chunk::chunks)=3*chunk.length+1+chunksLeft chunks := rfl

theorem copyStep_work {capacity : Option Nat} {r r' : TcpRelay} {a : TcpAction}
    (hp : r.phase=.copying) (h : copyStep capacity r a=some r') : r'.work<r.work := by
  cases a with
  | upRead n =>
    obtain ⟨⟨c,src⟩,hc,rfl⟩ := Option.map_eq_some_iff.mp h
    have hl := Copy.read_load (w := 0) hc
    simp only [TcpRelay.work]
    omega
  | upWrite n =>
    obtain ⟨⟨c,out⟩,hc,rfl⟩ := Option.map_eq_some_iff.mp h
    have hl := Copy.write_load (w := 0) r.inbound hc
    simp only [TcpRelay.work]
    omega
  | upEof =>
    obtain ⟨c,hc,rfl⟩ := Option.map_eq_some_iff.mp h
    have hl := Copy.sawEnd_load (w := 0) hc
    simp only [TcpRelay.work]
    omega
  | upShutdown =>
    obtain ⟨c,hc,rfl⟩ := Option.map_eq_some_iff.mp h
    have hl := Copy.shutdown_load (w := 0) r.inbound hc
    simp only [TcpRelay.work]
    omega
  | downRead n =>
    obtain ⟨⟨c,src⟩,hc,rfl⟩ := Option.map_eq_some_iff.mp h
    have hl := Copy.read_load (w := 18) hc
    simp only [TcpRelay.work]
    omega
  | downWrite n =>
    simp only [copyStep] at h
    split_ifs at h
    obtain ⟨⟨c,out⟩,hc,rfl⟩ := Option.map_eq_some_iff.mp h
    have hl := Copy.write_load (w := 18) r.response hc
    simp only [TcpRelay.work,List.length_append]
    omega
  | downEof =>
    obtain ⟨c,hc,rfl⟩ := Option.map_eq_some_iff.mp h
    have hl := Copy.sawEnd_load (w := 18) hc
    simp only [TcpRelay.work]
    omega
  | downShutdown =>
    obtain ⟨c,hc,rfl⟩ := Option.map_eq_some_iff.mp h
    have hl := Copy.shutdown_load (w := 18) r.response hc
    simp only [TcpRelay.work]
    omega
  | finish =>
    simp only [copyStep] at h
    split_ifs at h
    cases h
    simp only [TcpRelay.work,hp,Phase.left]
    omega
  | _ => cases h

theorem relayTcp_work {capacity : Option Nat} {r r' : TcpRelay} {a : TcpAction}
    (h : relayTcp capacity r a=some r') : r'.work<r.work := by
  simp only [relayTcp] at h
  split at h
  · rename_i hp
    cases h
    simp only [TcpRelay.work,hp,Phase.left]
    omega
  · split_ifs at h with hn
    cases h
    simp only [TcpRelay.work,List.length_drop]
    omega
  · rename_i hp
    split_ifs at h
    cases h
    simp only [TcpRelay.work,hp,Phase.left]
    omega
  · exact copyStep_work ‹_› h
  · cases h

/-- Taking a frame leaves at most the data of the frame to write. -/
theorem takeFrame_left (m : Build) (st : ViaCore) (frame : Bytes) :
    (st.takeFrame m frame).decode.left ≤ st.decode.left+3*(frame.length-5) ∧
    (st.takeFrame m frame).chunks=st.chunks ∧
    (st.takeFrame m frame).relay.work=st.relay.work := by
  simp only [ViaCore.takeFrame]
  split
  · refine ⟨?_,rfl,rfl⟩
    simp only [ViaCore.endDecode,Decode.left,Status.left]
    omega
  · exact ⟨Nat.le_add_right _ _,rfl,rfl⟩
  · rename_i data hd
    refine ⟨?_,rfl,rfl⟩
    have hl := decodeGrpcFrameData_length hd
    simp only [Decode.left,skipAuthIdBytes,List.length_drop]
    omega

theorem endDecode_work {st : ViaCore} {status : Status} (hd : st.decode.status=.running)
    (hs : status.left=0) : (st.endDecode status).work < st.work := by
  change chunksLeft st.chunks+(chunksLeft st.decode.cached+3*st.decode.buf.length+
    3*st.decode.writing.length+status.left)+st.relay.work+st.relayStatus.left+
    st.encode.pending.length+st.encode.status.left+st.main.left<_
  simp only [ViaCore.work,Decode.left,Status.left_running hd,hs]
  omega

theorem endRelay_work {st : ViaCore} {status : Status} (hr : st.relayStatus=.running)
    (hs : status.left=0) : (st.endRelay status).work < st.work := by
  change chunksLeft st.chunks+st.decode.left+st.relay.work+status.left+st.encode.pending.length+
    st.encode.status.left+st.main.left<_
  simp only [ViaCore.work,Status.left_running hr,hs]
  omega

theorem setMain_work {st : ViaCore} {main : Main} (h : main.left < st.main.left) :
    { st with main := main }.work < st.work := by
  simp only [ViaCore.work]
  omega

theorem decodeNext_work {m : Build} {st st' : ViaCore} (hd : st.decode.status=.running)
    (h : st.decodeNext m=some st') : st'.work < st.work := by
  have ho := decodeNext_only h
  simp only [ViaCore.decodeNext] at h
  split at h
  · rename_i frame cached hc
    cases h
    obtain ⟨hl,hch,hr⟩ :=
      takeFrame_left m { st with decode := { st.decode with cached := cached } } frame
    simp only [Decode.left] at hl
    simp only [ViaCore.work,ho.relayStatus,ho.encode,ho.main,hch,hr,Decode.left,hc,chunksLeft_cons]
    omega
  · split at h
    · rename_i frame rest hp
      cases h
      obtain ⟨hl,hch,hr⟩ :=
        takeFrame_left m { st with decode := { st.decode with buf := rest } } frame
      obtain ⟨hb,hx,-⟩ := peekFrame_frame hp
      simp only [Decode.left] at hl
      simp only [ViaCore.work,ho.relayStatus,ho.encode,ho.main,hch,hr,Decode.left,hb,
        List.length_append]
      omega
    · cases h
      exact endDecode_work hd rfl
    · split at h
      · rename_i chunk chunks hc
        cases h
        simp only [ViaCore.work,Decode.left,hc,chunksLeft_cons,List.length_append]
        omega
      · split_ifs at h
        cases h
        exact endDecode_work hd rfl

theorem MainSteps.work {st st' : ViaCore} {a : ViaAction} (h : MainSteps st a st') :
    st'.work < st.work := by
  cases h with
  | decoded hm _ => exact setMain_work (by rw [hm]; decide)
  | undecoded hm _ _ => exact setMain_work (by rw [hm]; decide)
  | encoded hm _ => exact setMain_work (by rw [hm]; simp [Main.left])
  | encodedLate hm _ => exact setMain_work (by rw [hm]; simp [Main.left])
  | relayed hm _ => exact setMain_work (by rw [hm]; simp [Main.left])
  | relayedLate hm _ =>
    apply setMain_work
    rw [hm]
    split_ifs <;> decide
  | cancelDecode _ hd => exact endDecode_work hd rfl
  | cancelRelay _ hr => exact endRelay_work hr rfl
  | joinBoth hm _ _ => exact setMain_work (by rw [hm]; simp [Main.left])
  | joinRelay hm _ => exact setMain_work (by rw [hm]; simp [Main.left])
  | @joinDecode ok hm _ =>
    apply setMain_work
    rw [hm]
    cases ok <;> simp [Main.left]
  | joinEncode hm _ => exact setMain_work (by rw [hm]; simp [Main.left])

theorem encodeStep_work {st st' : ViaCore} {a : ViaAction} (hr : st.encode.status=.running)
    (h : encodeStep st a=some st') : st'.work < st.work := by
  cases encodeStep_steps h with
  | @read n empty pos fits there =>
    have hv := varintSize_le_ten (UInt64.ofNat (st.relay.outbound.items.take n).length)
    have ht : (st.relay.outbound.items.take n).length=n := by
      rw [List.length_take]
      omega
    simp only [ViaCore.work,TcpRelay.work,encodeGrpcFrame_length,encodedLen,ht,List.length_drop]
    rw [ht] at hv
    omega
  | send pos there =>
    simp only [ViaCore.work,List.length_drop]
    omega
  | done empty drained closed =>
    have hok : Status.left .ok=0 := rfl
    simp only [ViaCore.work,Status.left_running hr,hok]
    omega
  | fail =>
    have hfailed : Status.left .failed=0 := rfl
    simp only [ViaCore.work,Status.left_running hr,hfailed]
    omega

/-- Each step that is not one of a peer leaves less to do. -/
theorem viaStep_work {m : Build} {st st' : ViaCore} {a : ViaAction} (ho : a.peer=false)
    (h : viaStep m st a=some st') : st'.work < st.work := by
  cases a with
  | send chunk => cases ho
  | endStream => cases ho
  | respond bytes => cases ho
  | closeWrite => cases ho
  | decodeNext =>
    simp only [viaStep] at h
    split_ifs at h with hc
    exact decodeNext_work hc.1 h
  | decodeWrite n =>
    simp only [viaStep] at h
    split_ifs at h with hc
    cases h
    obtain ⟨-,-,hn,hlen,-⟩ := hc
    simp only [ViaCore.work,Decode.left,TcpRelay.work,Copy.load,List.length_append,List.length_drop,
      List.length_take]
    omega
  | decodeFail =>
    simp only [viaStep] at h
    split_ifs at h with hd
    cases h
    exact endDecode_work hd rfl
  | tcp a =>
    simp only [viaStep] at h
    split_ifs at h with hr
    obtain ⟨r,ht,rfl⟩ := Option.map_eq_some_iff.mp h
    have hw := relayTcp_work ht
    have hlt : { st with relay := r }.work < st.work := by
      simp only [ViaCore.work]
      omega
    split_ifs
    · have hend : ({ st with relay := r }.endRelay .ok).work<{ st with relay := r }.work :=
        endRelay_work hr rfl
      exact hend.trans hlt
    · exact hlt
  | relayFail =>
    simp only [viaStep] at h
    split_ifs at h with hr
    cases h
    exact endRelay_work hr rfl
  | encodeRead n =>
    simp only [viaStep] at h
    split_ifs at h with hc
    exact encodeStep_work hc.2 h
  | encodeSend n =>
    simp only [viaStep] at h
    split_ifs at h with hc
    exact encodeStep_work hc.2 h
  | encodeEnd =>
    simp only [viaStep] at h
    split_ifs at h with hc
    exact encodeStep_work hc.2 h
  | encodeFail =>
    simp only [viaStep] at h
    split_ifs at h with hc
    exact encodeStep_work hc.2 h
  | _ =>
    simp only [viaStep] at h
    exact (mainStep_steps h).work

/-- What `relay_grpc_via_core` has seen end at each of its waits. -/
def Ended (st : ViaCore) : Prop :=
  match st.main with
  | .outer | .abortBoth _ => True
  | .inner | .abortRelay _ => st.decode.status≠.running
  | .abortDecode _ => st.relayStatus≠.running
  | .awaitEncode | .returned _ => st.decode.status≠.running ∧ st.relayStatus≠.running

/-- The copies keep to what their sources send, and the end of the response is passed on. -/
structure TcpRelay.Piped (r : TcpRelay) : Prop where
  up : r.up.Sound r.inbound
  down : r.down.Sound r.response
  shut : r.down.done=true → r.outbound.closed=true

theorem TcpRelay.Piped.relayTcp {capacity : Option Nat} {r r' : TcpRelay} {a : TcpAction}
    (h : r.Piped) (ht : relayTcp capacity r a=some r') : r'.Piped := by
  cases relayTcp_steps ht with
  | up _ hm => exact ⟨hm.sound h.up,h.down,h.shut⟩
  | down _ hm hd => exact ⟨h.up,hm.sound h.down,fun he => h.shut (hd ▸ he)⟩
  | shutdown _ hm _ => exact ⟨h.up,hm.sound h.down,fun _ => rfl⟩
  | _ => exact ⟨h.up,h.down,h.shut⟩

/-- The state of the pipes and the tasks, whatever has failed so far. -/
structure Wired (st : ViaCore) : Prop where
  pipes : st.relay.Piped
  feeding : st.decode.status=.running → st.relay.inbound.closed=false
  dropped : st.relayStatus≠.running → st.relay.outbound.closed=true
  going : st.relayStatus=.running → st.relay.phase≠.finished
  ended : Ended st

theorem wired_start (authId : Bytes) (cached : List Bytes) (reader : GrpcFrameReader) :
    Wired (.start authId cached reader) where
  pipes := ⟨Copy.sound_new _,Copy.sound_new _,fun h => by cases h⟩
  feeding := fun _ => rfl
  dropped := fun h => absurd rfl h
  going := fun _ h => by cases h
  ended := trivial

/-- The waits stay justified when tasks end and `relay_grpc_via_core` does not move. -/
theorem Ended.mono {st st' : ViaCore} (h : Ended st) (hm : st'.main=st.main)
    (hd : st.decode.status≠.running → st'.decode.status≠.running)
    (hr : st.relayStatus≠.running → st'.relayStatus≠.running) : Ended st' := by
  simp only [Ended] at h ⊢
  rw [hm]
  cases hmain : st.main with
  | outer => trivial
  | abortBoth ok => trivial
  | inner =>
    rw [hmain] at h
    exact hd h
  | abortRelay ok =>
    rw [hmain] at h
    exact hd h
  | abortDecode ok =>
    rw [hmain] at h
    exact hr h
  | awaitEncode =>
    rw [hmain] at h
    exact ⟨hd h.1,hr h.2⟩
  | returned ok =>
    rw [hmain] at h
    exact ⟨hd h.1,hr h.2⟩

theorem Wired.endDecode {st : ViaCore} {status : Status} (h : Wired st) (hs : status≠.running) :
    Wired (st.endDecode status) where
  pipes := ⟨h.pipes.up.close,h.pipes.down,h.pipes.shut⟩
  feeding := fun hr => absurd hr hs
  dropped := h.dropped
  going := h.going
  ended := h.ended.mono rfl (fun _ => hs) (fun hr => hr)

theorem Wired.endRelay {st : ViaCore} {status : Status} (h : st.relay.Piped)
    (hf : st.decode.status=.running → st.relay.inbound.closed=false) (he : Ended st)
    (hs : status≠.running) : Wired (st.endRelay status) where
  pipes := ⟨h.up,h.down,fun _ => rfl⟩
  feeding := hf
  dropped := fun _ => rfl
  going := fun hr => absurd hr hs
  ended := he.mono rfl (fun hd => hd) (fun _ => hs)

/-- The decode task reads, whatever it has in its hands. -/
theorem Wired.decode {st : ViaCore} (h : Wired st) (chunks cached : List Bytes) (buf : Bytes)
    (skip : Nat) (writing : Bytes) : Wired { st with
      chunks := chunks
      decode := ⟨cached,buf,skip,writing,st.decode.status⟩ } :=
  ⟨h.pipes,h.feeding,h.dropped,h.going,h.ended⟩

theorem Wired.takeFrame {m : Build} {st : ViaCore} (h : Wired st) (frame : Bytes) :
    Wired (st.takeFrame m frame) := by
  simp only [ViaCore.takeFrame]
  split
  · exact h.endDecode (by decide)
  · exact h
  · exact h.decode _ _ _ _ _

theorem Wired.decodeNext {m : Build} {st st' : ViaCore} (h : Wired st)
    (hs : st.decodeNext m=some st') : Wired st' := by
  simp only [ViaCore.decodeNext] at hs
  split at hs
  · cases hs
    exact Wired.takeFrame (h.decode _ _ _ _ _) _
  · split at hs
    · cases hs
      exact Wired.takeFrame (h.decode _ _ _ _ _) _
    · cases hs
      exact h.endDecode (by decide)
    · split at hs
      · cases hs
        exact h.decode _ _ _ _ _
      · split_ifs at hs
        cases hs
        exact h.endDecode (by decide)

theorem Wired.relayTcp {st : ViaCore} {r : TcpRelay} {a : TcpAction} (h : Wired st)
    (hr : st.relayStatus=.running) (ht : relayTcp (some duplexSize) st.relay a=some r) :
    Wired (if r.phase=.finished then { st with relay := r }.endRelay .ok
      else { st with relay := r }) := by
  have hp := h.pipes.relayTcp ht
  have hf : st.decode.status=.running → r.inbound.closed=false := by
    intro hd
    exact (relayTcp_closed ht).trans (h.feeding hd)
  split_ifs with hfin
  · exact Wired.endRelay hp hf h.ended (by decide)
  · exact ⟨hp,hf,fun hn => absurd hr hn,fun _ => hfin,h.ended⟩

theorem Wired.encodeStep {st st' : ViaCore} (h : Wired st) (hs : EncodeSteps st st') :
    Wired st' := by
  cases hs with
  | read empty pos fits there =>
    exact ⟨⟨h.pipes.up,h.pipes.down,h.pipes.shut⟩,h.feeding,h.dropped,h.going,h.ended⟩
  | _ => exact ⟨h.pipes,h.feeding,h.dropped,h.going,h.ended⟩

theorem Wired.setMain {st : ViaCore} {main : Main} (h : Wired st)
    (he : Ended { st with main := main }) : Wired { st with main := main } :=
  ⟨h.pipes,h.feeding,h.dropped,h.going,he⟩

theorem Wired.mainStep {st st' : ViaCore} {a : ViaAction} (h : Wired st)
    (hs : MainSteps st a st') : Wired st' := by
  have he := h.ended
  rw [Ended] at he
  cases hs with
  | decoded hm hd =>
    apply h.setMain
    change st.decode.status≠.running
    rw [hd]
    decide
  | undecoded hm hd hb => exact h.setMain hd
  | encoded hm _ => exact h.setMain trivial
  | encodedLate hm _ =>
    rw [hm] at he
    exact h.setMain he
  | relayed hm hr => exact h.setMain hr
  | relayedLate hm hr =>
    rw [hm] at he
    apply h.setMain
    split_ifs <;> exact ⟨he,hr⟩
  | cancelDecode hm hd => exact h.endDecode (by decide)
  | cancelRelay hm hr => exact Wired.endRelay h.pipes h.feeding h.ended (by decide)
  | joinBoth hm hd hr => exact h.setMain ⟨hd,hr⟩
  | joinRelay hm hr =>
    rw [hm] at he
    exact h.setMain ⟨he,hr⟩
  | @joinDecode ok hm hd =>
    rw [hm] at he
    apply h.setMain
    cases ok <;> exact ⟨hd,he⟩
  | joinEncode hm _ =>
    rw [hm] at he
    exact h.setMain he

theorem Wired.step {m : Build} {st st' : ViaCore} {a : ViaAction} (h : Wired st)
    (hs : viaStep m st a=some st') : Wired st' := by
  cases viaStep_steps hs with
  | send hc => exact ⟨h.pipes,h.feeding,h.dropped,h.going,h.ended⟩
  | endStream => exact ⟨h.pipes,h.feeding,h.dropped,h.going,h.ended⟩
  | respond hp hc =>
    exact ⟨⟨h.pipes.up,h.pipes.down.feed hc _,h.pipes.shut⟩,h.feeding,h.dropped,h.going,h.ended⟩
  | closeWrite hp =>
    exact ⟨⟨h.pipes.up,h.pipes.down.close,h.pipes.shut⟩,h.feeding,h.dropped,h.going,h.ended⟩
  | decodeNext hd hw hn => exact h.decodeNext hn
  | decodeWrite hd hr hn hf =>
    exact ⟨⟨h.pipes.up.feed (h.feeding hd) _,h.pipes.down,h.pipes.shut⟩,h.feeding,h.dropped,
      h.going,h.ended⟩
  | decodeFail hd => exact h.endDecode (by decide)
  | tcp hr ht => exact h.relayTcp hr ht
  | relayFail hr => exact Wired.endRelay h.pipes h.feeding h.ended (by decide)
  | encode hp he hs => exact h.encodeStep hs
  | main hs => exact h.mainStep hs

end Tobira.Relay
