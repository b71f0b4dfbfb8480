import Tobira.Relay.Steps

namespace Tobira.Relay

open Tobira.Framework Tobira.Transport

/-- The data a request stream carries. -/
def payload (m : Build) (bytes : Bytes) : Bytes := framesData m (parseFrames bytes).1

theorem payload_frames (m : Build) {frames : List Bytes} (h : ∀ f∈frames, ExactFrame f) :
    payload m frames.flatten=framesData m frames := by
  rw [payload,← List.append_nil frames.flatten,parseFrames_flatten _ _ h,parseFrames_more rfl,
    List.append_nil]

/-- Encoded reads carry the bytes that were read. -/
theorem payload_encode (m : Build) {reads : List Bytes}
    (h : ∀ d∈reads, d.length ≤ rawToGrpcReadBufSize) :
    payload m (reads.map encodeGrpcFrame).flatten=reads.flatten := by
  have hx : ∀ f∈reads.map encodeGrpcFrame, ExactFrame f := by
    intro f hf
    obtain ⟨d,hd,rfl⟩ := List.mem_map.mp hf
    exact exactFrame_encode (read_fits (h d hd))
  rw [payload_frames m hx,framesData,accepted_encode_all m h]

/-- The request direction of `relay_grpc_via_core`: the frames `read` so far, the bytes `fed`
into the pipe, and the rest still to come. -/
structure Taken (m : Build) (authId : Bytes) (st : ViaCore) (read : List Bytes) (fed : Bytes) :
    Prop where
  bytes : st.requested=
    read.flatten++(st.decode.cached.flatten++(st.decode.buf++st.chunks.flatten))
  frames : ∀ f∈read++st.decode.cached, ExactFrame f ∧ Decodes m f
  skip : st.decode.skip=authIdSize-(framesData m read).length
  data : fed++st.decode.writing=(framesData m read).drop authIdSize
  enough : authIdSize≤(framesData m (read++st.decode.cached)).length
  first : authId=(framesData m (read++st.decode.cached)).take authIdSize
  flow : UpFlow authId fed st.relay
  status : st.decode.status=.running ∨ st.decode.status=.ok
  pipe : st.decode.status=.running → st.relay.inbound.closed=false
  ended : st.decode.status=.ok → st.clientEnded=true ∧ st.decode.cached=[] ∧
    st.decode.writing=[] ∧ st.chunks=[] ∧ peekFrame st.decode.buf=.more

def Requesting (m : Build) (authId : Bytes) (st : ViaCore) : Prop :=
  ∃ read fed, Taken m authId st read fed

theorem requesting_start {m : Build} {r q : GrpcFrameReader} {cached : List Bytes}
    {authId : Bytes} (h : InitialAuth m [] r cached authId q) :
    Requesting m authId (.start authId cached q) := by
  refine ⟨[],[],?_,?_,?_,?_,?_,?_,upFlow_start authId ⟨[],false⟩,Or.inl rfl,fun _ => rfl,?_⟩
  · rfl
  · exact h.frames
  · rfl
  · rfl
  · exact h.enough
  · exact h.authId
  · intro he
    cases he

/-- A frame without data counts as one with empty data. -/
theorem takeFrame_ok {m : Build} {st : ViaCore} {frame : Bytes} {data : Option Bytes}
    (hd : decodeGrpcFrameData m frame=.ok data) (hw : st.decode.writing=[]) :
    st.takeFrame m frame={ st with
      decode := { st.decode with
        skip := (skipAuthIdBytes (data.getD []) st.decode.skip).2
        writing := (skipAuthIdBytes (data.getD []) st.decode.skip).1 } } := by
  rw [ViaCore.takeFrame,hd]
  cases data with
  | none =>
    have hs : skipAuthIdBytes [] st.decode.skip=(st.decode.writing,st.decode.skip) := by
      simp [skipAuthIdBytes,hw]
    rw [Option.getD_none,hs]
  | some data => rfl

/-- One more frame, taken off the cached ones or off the front of the buffer. -/
theorem Taken.takeFrame {m : Build} {authId fed : Bytes} {st : ViaCore} {read : List Bytes}
    {frame : Bytes} {cached : List Bytes} {buf : Bytes} (h : Taken m authId st read fed)
    (hrun : st.decode.status=.running) (hw : st.decode.writing=[]) (hexact : ExactFrame frame)
    (hbytes : st.decode.cached.flatten++(st.decode.buf++st.chunks.flatten)=
      frame++(cached.flatten++(buf++st.chunks.flatten)))
    (hcached : st.decode.cached=frame::cached ∨ (st.decode.cached=[] ∧ cached=[])) :
    let st' := { st with decode := { st.decode with cached := cached,buf := buf } }
    (st'.takeFrame m frame).decode.status=.failed ∨
      Requesting m authId (st'.takeFrame m frame) := by
  intro st'
  cases hd : decodeGrpcFrameData m frame with
  | error p =>
    left
    simp only [ViaCore.takeFrame,hd]
    rfl
  | ok data =>
    right
    have hone : framesData m [frame]=data.getD [] := by
      rw [framesData_cons,acceptedData,hd,framesData_nil,List.append_nil]
    have hread : framesData m (read++[frame])=framesData m read++data.getD [] := by
      rw [framesData_append,hone]
    have hfed : fed=(framesData m read).drop authIdSize := by
      have hf := h.data
      rwa [hw,List.append_nil] at hf
    -- A frame off the buffer lengthens the data behind the cached frames, a cached one does not.
    have hall : ∃ more, framesData m (read++[frame]++cached)=
        framesData m (read++st.decode.cached)++more := by
      rcases hcached with hc|⟨hc,rfl⟩
      · exact ⟨[],by rw [hc]; simp⟩
      · exact ⟨data.getD [],by rw [hc]; simp [hone]⟩
    obtain ⟨more,hmore⟩ := hall
    have hframes : ∀ f∈read++[frame]++cached, ExactFrame f ∧ Decodes m f := by
      intro f hf
      rcases List.mem_append.mp hf with hf|hf
      · rcases List.mem_append.mp hf with hf|hf
        · exact h.frames f (List.mem_append_left _ hf)
        · rw [List.mem_singleton.mp hf]
          exact ⟨hexact,data,hd⟩
      · rcases hcached with hc|⟨-,rfl⟩
        · exact h.frames f (List.mem_append_right _ (by rw [hc]; simp [hf]))
        · cases hf
    obtain ⟨hdrop,hskip⟩ := skipAuthIdBytes_eq (framesData m read) (data.getD [])
    have hne : st.decode.status≠.ok := by
      rw [hrun]
      decide
    rw [takeFrame_ok hd (show st'.decode.writing=[] from hw)]
    refine ⟨read++[frame],fed,⟨?_,hframes,?_,?_,?_,?_,h.flow,Or.inl hrun,h.pipe,
      fun he => absurd he hne⟩⟩
    · change st.requested=(read++[frame]).flatten++(cached.flatten++(buf++st.chunks.flatten))
      rw [h.bytes,hbytes]
      simp
    · change (skipAuthIdBytes (data.getD []) st.decode.skip).2=_
      rw [hread,h.skip]
      exact hskip
    · change fed++(skipAuthIdBytes (data.getD []) st.decode.skip).1=_
      rw [hread,h.skip,hfed]
      exact hdrop.symm
    · change _≤(framesData m (read++[frame]++cached)).length
      rw [hmore,List.length_append]
      exact h.enough.trans (Nat.le_add_right _ _)
    · change _=(framesData m (read++[frame]++cached)).take authIdSize
      rw [hmore,List.take_append_of_le_length h.enough]
      exact h.first

/-- A step of the decode task's loops. -/
theorem Requesting.decodeNext {m : Build} {authId : Bytes} {st st' : ViaCore}
    (h : Requesting m authId st) (hrun : st.decode.status=.running)
    (hw : st.decode.writing=[]) (hs : st.decodeNext m=some st') :
    st'.decode.status=.failed ∨ Requesting m authId st' := by
  obtain ⟨read,fed,h⟩ := h
  simp only [ViaCore.decodeNext] at hs
  split at hs
  · rename_i frame cached hc
    cases hs
    have hexact := (h.frames frame (by rw [hc]; simp)).1
    exact h.takeFrame hrun hw hexact (by rw [hc]; simp) (Or.inl hc)
  · rename_i hc
    split at hs
    · rename_i frame rest hp
      cases hs
      obtain ⟨hcat,hexact⟩ := peekFrame_frame hp
      have hb : st.decode.cached.flatten++(st.decode.buf++st.chunks.flatten)=
          frame++(st.decode.cached.flatten++(rest++st.chunks.flatten)) := by
        rw [hc,hcat]
        simp
      exact h.takeFrame hrun hw hexact hb (Or.inr ⟨hc,hc⟩)
    · cases hs
      exact Or.inl rfl
    · rename_i hp
      split at hs
      · rename_i chunk chunks hch
        cases hs
        right
        have hne : st.decode.status≠.ok := by
          rw [hrun]
          decide
        refine ⟨read,fed,⟨?_,h.frames,h.skip,h.data,h.enough,h.first,h.flow,h.status,h.pipe,
          fun he => absurd he hne⟩⟩
        rw [h.bytes,hch]
        simp
      · rename_i hch
        split_ifs at hs with hend
        cases hs
        right
        exact ⟨read,fed,⟨h.bytes,h.frames,h.skip,h.data,h.enough,h.first,h.flow.close,Or.inr rfl,
          (fun he => by cases he),fun _ => ⟨hend,hc,hw,hch,hp⟩⟩⟩

/-- Part of a `write_all` into the pipe. -/
theorem Requesting.decodeWrite {m : Build} {authId : Bytes} {st : ViaCore}
    (h : Requesting m authId st) (hrun : st.decode.status=.running) (n : Nat) :
    Requesting m authId { st with
      decode := { st.decode with writing := st.decode.writing.drop n }
      relay := { st.relay with inbound :=
        ⟨st.relay.inbound.items++st.decode.writing.take n,st.relay.inbound.closed⟩ } } := by
  obtain ⟨read,fed,h⟩ := h
  have hne : st.decode.status≠.ok := by
    rw [hrun]
    decide
  refine ⟨read,fed++st.decode.writing.take n,⟨h.bytes,h.frames,h.skip,?_,h.enough,h.first,
    h.flow.feed (h.pipe hrun) _,h.status,h.pipe,fun he => absurd he hne⟩⟩
  change fed++st.decode.writing.take n++st.decode.writing.drop n=_
  rw [List.append_assoc,List.take_append_drop,h.data]

theorem Requesting.send {m : Build} {authId : Bytes} {st : ViaCore}
    (h : Requesting m authId st) (hc : st.clientEnded=false) (chunk : Bytes) :
    Requesting m authId
      { st with requested := st.requested++chunk,chunks := st.chunks++[chunk] } := by
  obtain ⟨read,fed,h⟩ := h
  refine ⟨read,fed,⟨?_,h.frames,h.skip,h.data,h.enough,h.first,h.flow,h.status,h.pipe,?_⟩⟩
  · change st.requested++chunk=_
    rw [h.bytes]
    simp
  · intro he
    rw [(h.ended he).1] at hc
    cases hc

theorem Requesting.endStream {m : Build} {authId : Bytes} {st : ViaCore}
    (h : Requesting m authId st) : Requesting m authId { st with clientEnded := true } := by
  obtain ⟨read,fed,h⟩ := h
  exact ⟨read,fed,⟨h.bytes,h.frames,h.skip,h.data,h.enough,h.first,h.flow,h.status,h.pipe,
    fun he => ⟨rfl,(h.ended he).2⟩⟩⟩

/-- Whatever happens beyond the pipe, the decode task and the client do not see it. -/
theorem Requesting.relay {m : Build} {authId : Bytes} {st : ViaCore} {r : TcpRelay}
    (h : Requesting m authId st)
    (hf : ∀ fed, UpFlow authId fed st.relay → UpFlow authId fed r)
    (hi : r.inbound.closed=st.relay.inbound.closed) (status : Status) (answered : Bytes)
    (encode : Encode) (main : Main) :
    Requesting m authId { st with
      relay := r,relayStatus := status,answered := answered,encode := encode,main := main } := by
  obtain ⟨read,fed,h⟩ := h
  refine ⟨read,fed,⟨h.bytes,h.frames,h.skip,h.data,h.enough,h.first,hf fed h.flow,h.status,?_,
    h.ended⟩⟩
  intro hrun
  exact hi.trans (h.pipe hrun)

theorem Requesting.status {m : Build} {authId : Bytes} {st : ViaCore}
    (h : Requesting m authId st) : st.decode.status=.running ∨ st.decode.status=.ok := by
  obtain ⟨read,fed,h⟩ := h
  exact h.status

/-- The upstream's write side is shut down only after the decode task has ended. -/
theorem Requesting.decode_over {m : Build} {authId : Bytes} {st : ViaCore}
    (h : Requesting m authId st) (hd : st.relay.up.done=true) : st.decode.status=.ok := by
  obtain ⟨read,fed,h⟩ := h
  have hc := (h.flow.complete hd).2
  rcases h.status with hs|hs
  · rw [h.pipe hs] at hc
    cases hc
  · exact hs

/-- A decode task that ended well has taken every frame of the stream, and none was above the
limit. -/
theorem Taken.parsed {m : Build} {authId fed : Bytes} {st : ViaCore} {read : List Bytes}
    (h : Taken m authId st read fed) (hok : st.decode.status=.ok) :
    parseFrames st.requested=(read,.rest st.decode.buf) := by
  obtain ⟨-,hc,-,hch,hp⟩ := h.ended hok
  have hframes : ∀ f∈read, ExactFrame f := fun f hf => (h.frames f (List.mem_append_left _ hf)).1
  rw [h.bytes,hc,hch,List.flatten_nil,List.nil_append,List.append_nil,
    parseFrames_flatten read _ hframes,parseFrames_more hp,List.append_nil]

/-- When the upstream's write side is shut down, the client has ended its stream and the
upstream has the whole payload. -/
theorem Requesting.complete {m : Build} {authId : Bytes} {st : ViaCore}
    (h : Requesting m authId st) (hd : st.relay.up.done=true) :
    st.clientEnded=true ∧ st.relay.upstream=payload m st.requested ∧
      authId=(payload m st.requested).take authIdSize := by
  have hok := h.decode_over hd
  obtain ⟨read,fed,h⟩ := h
  obtain ⟨hend,hc,hw,-,-⟩ := h.ended hok
  have hp : payload m st.requested=framesData m read := by rw [payload,h.parsed hok]
  have hdata := h.data
  rw [hw,List.append_nil] at hdata
  have hfirst := h.first
  rw [hc,List.append_nil] at hfirst
  refine ⟨hend,?_,by rw [hp]; exact hfirst⟩
  rw [(h.flow.complete hd).1,hp,hdata,hfirst,List.take_append_drop]

theorem Requesting.parsed {m : Build} {authId : Bytes} {st : ViaCore}
    (h : Requesting m authId st) (hok : st.decode.status=.ok) :
    ∃ rest, (parseFrames st.requested).2=.rest rest := by
  obtain ⟨read,fed,h⟩ := h
  exact ⟨st.decode.buf,by rw [h.parsed hok]⟩

/-- The decode task ends before the request stream does. -/
def Stopped (st : ViaCore) : Prop :=
  st.decode.status=.failed ∨ st.decode.status=.cancelled

theorem Requesting.encodeStep {m : Build} {authId : Bytes} {st st' : ViaCore}
    (h : Requesting m authId st) (hs : EncodeSteps st st') : Requesting m authId st' := by
  cases hs with
  | read empty pos fits there =>
    apply h.relay
    · exact fun _ hu => hu.respond _ _ _
    · rfl
  | _ =>
    apply h.relay
    · exact fun _ hu => hu
    · rfl

theorem Requesting.endRelay {m : Build} {authId : Bytes} {st : ViaCore}
    (h : Requesting m authId st) (status : Status) :
    Requesting m authId (st.endRelay status) := by
  apply h.relay
  · exact fun _ hu => hu.respond _ _ _
  · rfl

theorem Requesting.setMain {m : Build} {authId : Bytes} {st : ViaCore}
    (h : Requesting m authId st) (main : Main) : Requesting m authId { st with main := main } := by
  apply h.relay
  · exact fun _ hu => hu
  · rfl

theorem Requesting.respond {m : Build} {authId : Bytes} {st : ViaCore}
    (h : Requesting m authId st) (answered : Bytes) (response : Pipe UInt8) :
    Requesting m authId
      { st with answered := answered,relay := { st.relay with response := response } } := by
  apply h.relay
  · exact fun _ hu => hu.respond _ _ _
  · rfl

theorem Requesting.tcp {m : Build} {authId : Bytes} {st : ViaCore} {a : TcpAction} {r : TcpRelay}
    (h : Requesting m authId st) (ht : relayTcp (some duplexSize) st.relay a=some r) :
    Requesting m authId (if r.phase=.finished then { st with relay := r }.endRelay .ok
      else { st with relay := r }) := by
  have hmove : Requesting m authId { st with relay := r } :=
    h.relay (fun _ hu => hu.relayTcp ht) (relayTcp_closed ht) _ _ _ _
  split_ifs
  · exact hmove.endRelay _
  · exact hmove

/-- Whatever the other tasks do, the request direction goes on or the decode task stops. -/
theorem Requesting.step {m : Build} {authId : Bytes} {st st' : ViaCore} {a : ViaAction}
    (h : Requesting m authId st) (hs : viaStep m st a=some st') :
    Stopped st' ∨ Requesting m authId st' := by
  cases viaStep_steps hs with
  | send hc => exact Or.inr (h.send hc _)
  | endStream => exact Or.inr h.endStream
  | respond hp hc => exact Or.inr (h.respond _ _)
  | closeWrite hp => exact Or.inr (h.respond _ _)
  | decodeNext hd hw hn =>
    rcases h.decodeNext hd hw hn with hf|hq
    · exact Or.inl (Or.inl hf)
    · exact Or.inr hq
  | decodeWrite hd hr hn hf => exact Or.inr (h.decodeWrite hd _)
  | decodeFail hd => exact Or.inl (Or.inl rfl)
  | tcp hr ht => exact Or.inr (h.tcp ht)
  | relayFail hr => exact Or.inr (h.endRelay _)
  | encode hp he hs => exact Or.inr (h.encodeStep hs)
  | main hs =>
    obtain ⟨main,rfl⟩|⟨hd,rfl⟩|⟨hr,rfl⟩ := hs.moves
    · exact Or.inr (h.setMain main)
    · exact Or.inl (Or.inr rfl)
    · exact Or.inr (h.endRelay _)

end Tobira.Relay
