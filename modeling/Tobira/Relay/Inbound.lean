import Tobira.Framework.Run
import Tobira.Relay.Auth
import Tobira.Relay.ServicePath
import Tobira.Transport.RoundTrip

namespace Tobira.Relay

open Tobira.Framework Tobira.Transport Tobira.Vmess

/-- `AUTH_READ_TIMEOUT`, in milliseconds. -/
def authReadTimeout : Nat := 10000

/-- How long a refused client is drained, in milliseconds. -/
def drainTimeout : Nat := 5000

/-- `rand::random_range(64usize..512)`. -/
def DrainLen (n : Nat) : Prop := 64 ≤ n ∧ n<512

instance (n : Nat) : Decidable (DrainLen n) := inferInstanceAs (Decidable (_ ∧ _))

/-- What was asked of the validator: its table and the clock at that time, and the Auth ID. -/
structure Lookup where
  validator : Validator
  now : UInt64
  authId : ByteArr 16

def Lookup.answer (c : Crypto) (q : Lookup) : Option Upstream :=
  q.validator.matchAuthId c q.now q.authId

/-- Where `relay_request` is. -/
inductive InboundStage where
  | authenticating (deadline : Nat) (cached : List Bytes) (raw : Bytes)
  | draining (deadline drainLen drained : Nat)
  | relaying (upstream : Upstream) (cached : List Bytes) (authId : Bytes)
  | closed
  | panicked

/-- When the timer of the stage fires. -/
def InboundStage.deadline : InboundStage → Option Nat
  | .authenticating deadline _ _ => some deadline
  | .draining deadline _ _ => some deadline
  | _ => none

/-- A request on a gRPC inbound until it is relayed: the DATA chunks that have arrived, the buffer
of the reader, the status of the response and the DATA frames sent after it. `sent` and `lookups`
record what the client has sent and what the validator was asked. -/
structure GrpcInbound where
  now : Nat
  sent : Bytes
  chunks : List Bytes
  ending : Option (Option H2Error)
  buf : Bytes
  status : Nat
  replies : List (Bytes×Bool)
  lookups : List Lookup
  stage : InboundStage

namespace GrpcInbound

/-- `handle_request`, up to the first `await`. -/
def start (now : Nat) (request : GrpcRequest) (serviceName : Text) : GrpcInbound :=
  match validateRequest request serviceName with
  | .error status => ⟨now,[],[],none,[],status,[],[],.closed⟩
  | .ok () => ⟨now,[],[],none,[],200,[],[],.authenticating (now+authReadTimeout) [] []⟩

/-- `drain_grpc_request` begins. -/
def drain (st : GrpcInbound) (drainLen : Nat) : Option GrpcInbound :=
  if DrainLen drainLen then
    some { st with stage := .draining (st.now+drainTimeout) drainLen 0 }
  else none

/-- The empty DATA frame that ends the response. -/
def refuse (st : GrpcInbound) : GrpcInbound :=
  { st with replies := st.replies++[([],true)],stage := .closed }

/-- A poll of `next_frame`. -/
inductive Polled where
  | frame (frame : Bytes) (st : GrpcInbound)
  | chunk (st : GrpcInbound)
  | over
  | pending

def pollFrame (st : GrpcInbound) : Polled :=
  match peekFrame st.buf with
  | .frame frame rest => .frame frame { st with buf := rest }
  | .tooLarge _ => .over
  | .more =>
    match st.chunks with
    | chunk::chunks => .chunk { st with buf := st.buf++chunk,chunks := chunks }
    | [] => if st.ending.isSome then .over else .pending

end GrpcInbound

inductive InboundAction where
  | send (chunk : Bytes)
  | finish (e : Option H2Error)
  | advance (d : Nat)
  | poll (validator : Validator) (now : UInt64) (drainLen : Nat)
  | expire (drainLen : Nat)

/-- A frame of the loop of `read_initial_auth`. -/
def authFrame (m : Build) (deadline : Nat) (cached : List Bytes) (raw frame : Bytes)
    (st : GrpcInbound) : GrpcInbound :=
  match decodeGrpcFrameData m frame with
  | .error _ => { st with stage := .panicked }
  | .ok data =>
    { st with stage := .authenticating deadline (cached++[frame]) (raw++data.getD []) }

/-- A frame of the loop of `drain_grpc_request`. -/
def drainFrame (m : Build) (deadline drainLen drained : Nat) (frame : Bytes) (st : GrpcInbound) :
    GrpcInbound :=
  match decodeGrpcFrameData m frame with
  | .error _ => { st with stage := .panicked }
  | .ok data => { st with stage := .draining deadline drainLen (drained+(data.getD []).length) }

/-- The task of the request, its client and the timer, which fires at most `late` after a
deadline. -/
def grpcInbound (c : Crypto) (m : Build) (late : Nat) (st : GrpcInbound) :
    InboundAction → Option GrpcInbound
  | .send chunk =>
    if st.ending=none then some { st with sent := st.sent++chunk,chunks := st.chunks++[chunk] }
    else none
  | .finish e => if st.ending=none then some { st with ending := some e } else none
  | .advance d =>
    if ∀ deadline∈st.stage.deadline, st.now+d ≤ deadline+late then
      some { st with now := st.now+d }
    else none
  | .poll validator now drainLen =>
    match st.stage with
    | .authenticating deadline cached raw =>
      if h : authIdSize ≤ raw.length then
        let q : Lookup := ⟨validator,now,raw.take authIdSize,List.length_take_of_le h⟩
        let st := { st with lookups := st.lookups++[q] }
        match q.answer c with
        | some upstream =>
          some { st with stage := .relaying upstream cached (raw.take authIdSize) }
        | none => st.drain drainLen
      else
        match st.pollFrame with
        | .frame frame st => some (authFrame m deadline cached raw frame st)
        | .chunk st => some st
        | .over => st.drain drainLen
        | .pending => none
    | .draining deadline len drained =>
      if len ≤ drained then some st.refuse
      else
        match st.pollFrame with
        | .frame frame st => some (drainFrame m deadline len drained frame st)
        | .chunk st => some st
        | .over => some st.refuse
        | .pending => none
    | _ => none
  | .expire drainLen =>
    match st.stage with
    | .authenticating deadline _ _ => if deadline ≤ st.now then st.drain drainLen else none
    | .draining deadline _ _ => if deadline ≤ st.now then some st.refuse else none
    | _ => none

section Steps
variable {c : Crypto} {m : Build} {late : Nat}

/-- What `next_frame` takes from the client: a frame, or a chunk into the buffer. -/
theorem pollFrame_frame {st st' : GrpcInbound} {frame : Bytes} (h : st.pollFrame=.frame frame st') :
    st'={ st with buf := st'.buf } ∧ st.buf=frame++st'.buf ∧ ExactFrame frame := by
  simp only [GrpcInbound.pollFrame] at h
  split at h
  · rename_i f rest hp
    cases h
    exact ⟨rfl,peekFrame_frame hp⟩
  · cases h
  · split at h
    · cases h
    · split_ifs at h

theorem pollFrame_chunk {st st' : GrpcInbound} (h : st.pollFrame=.chunk st') :
    ∃ chunk chunks, st.chunks=chunk::chunks ∧
      st'={ st with buf := st.buf++chunk,chunks := chunks } := by
  simp only [GrpcInbound.pollFrame] at h
  split at h
  · cases h
  · cases h
  · split at h
    · rename_i chunk chunks hc
      cases h
      exact ⟨chunk,chunks,hc,rfl⟩
    · split_ifs at h

theorem drain_some {st st' : GrpcInbound} {n : Nat} (h : st.drain n=some st') :
    DrainLen n ∧ st'={ st with stage := .draining (st.now+drainTimeout) n 0 } := by
  rw [GrpcInbound.drain] at h
  split_ifs at h with hn
  cases h
  exact ⟨hn,rfl⟩

/-- Everything that can happen to a request. -/
inductive InboundStep (c : Crypto) (m : Build) (late : Nat) (st : GrpcInbound) :
    GrpcInbound → Prop where
  | send (chunk : Bytes) :
      InboundStep c m late st { st with sent := st.sent++chunk,chunks := st.chunks++[chunk] }
  | finish (e : Option H2Error) : InboundStep c m late st { st with ending := some e }
  | advance (d : Nat) (hd : ∀ deadline∈st.stage.deadline, st.now+d ≤ deadline+late) :
      InboundStep c m late st { st with now := st.now+d }
  | chunk {chunk : Bytes} {chunks : List Bytes} (hc : st.chunks=chunk::chunks) :
      InboundStep c m late st { st with buf := st.buf++chunk,chunks := chunks }
  | authFrame {deadline : Nat} {cached : List Bytes} {raw frame rest : Bytes}
      (hs : st.stage=.authenticating deadline cached raw) (hb : st.buf=frame++rest)
      (hx : ExactFrame frame) :
      InboundStep c m late st (authFrame m deadline cached raw frame { st with buf := rest })
  | matched {deadline : Nat} {cached : List Bytes} {raw : Bytes} {q : Lookup} {upstream : Upstream}
      (hs : st.stage=.authenticating deadline cached raw) (hl : authIdSize ≤ raw.length)
      (hq : q.authId.1=raw.take authIdSize) (ha : q.answer c=some upstream) :
      InboundStep c m late st { st with
        lookups := st.lookups++[q],stage := .relaying upstream cached (raw.take authIdSize) }
  | unmatched {deadline n : Nat} {cached : List Bytes} {raw : Bytes} {q : Lookup}
      (hs : st.stage=.authenticating deadline cached raw) (hl : authIdSize ≤ raw.length)
      (hq : q.authId.1=raw.take authIdSize) (hn : DrainLen n) (ha : q.answer c=none) :
      InboundStep c m late st { st with
        lookups := st.lookups++[q],stage := .draining (st.now+drainTimeout) n 0 }
  | giveUp {deadline n : Nat} {cached : List Bytes} {raw : Bytes}
      (hs : st.stage=.authenticating deadline cached raw) (hn : DrainLen n) :
      InboundStep c m late st { st with stage := .draining (st.now+drainTimeout) n 0 }
  | drainFrame {deadline len drained : Nat} {frame rest : Bytes}
      (hs : st.stage=.draining deadline len drained) (hd : drained<len) (hb : st.buf=frame++rest)
      (hx : ExactFrame frame) :
      InboundStep c m late st (drainFrame m deadline len drained frame { st with buf := rest })
  | refuse {deadline len drained : Nat} (hs : st.stage=.draining deadline len drained) :
      InboundStep c m late st st.refuse

theorem grpcInbound_step {st st' : GrpcInbound} {a : InboundAction}
    (h : grpcInbound c m late st a=some st') : InboundStep c m late st st' := by
  cases a with
  | send chunk =>
    simp only [grpcInbound] at h
    split_ifs at h
    cases h
    exact .send chunk
  | finish e =>
    simp only [grpcInbound] at h
    split_ifs at h
    cases h
    exact .finish e
  | advance d =>
    simp only [grpcInbound] at h
    split_ifs at h with hd
    cases h
    exact .advance d hd
  | poll validator now n =>
    simp only [grpcInbound] at h
    split at h
    · rename_i deadline cached raw hs
      split_ifs at h with hl
      · split at h
        · rename_i upstream ha
          cases h
          exact .matched hs hl rfl ha
        · rename_i ha
          obtain ⟨hn,rfl⟩ := drain_some h
          exact .unmatched hs hl rfl hn ha
      · split at h
        · rename_i frame st1 hp
          cases h
          obtain ⟨he,hb,hx⟩ := pollFrame_frame hp
          rw [he]
          exact .authFrame hs hb hx
        · rename_i st1 hp
          cases h
          obtain ⟨chunk,chunks,hc,rfl⟩ := pollFrame_chunk hp
          exact .chunk hc
        · obtain ⟨hn,rfl⟩ := drain_some h
          exact .giveUp hs hn
        · cases h
    · rename_i deadline len drained hs
      split_ifs at h with hd
      · cases h
        exact .refuse hs
      · split at h
        · rename_i frame st1 hp
          cases h
          obtain ⟨he,hb,hx⟩ := pollFrame_frame hp
          rw [he]
          exact .drainFrame hs (by omega) hb hx
        · rename_i st1 hp
          cases h
          obtain ⟨chunk,chunks,hc,rfl⟩ := pollFrame_chunk hp
          exact .chunk hc
        · cases h
          exact .refuse hs
        · cases h
    · cases h
  | expire n =>
    simp only [grpcInbound] at h
    split at h
    · rename_i deadline cached raw hs
      split_ifs at h
      obtain ⟨hn,rfl⟩ := drain_some h
      exact .giveUp hs hn
    · rename_i deadline len drained hs
      split_ifs at h
      cases h
      exact .refuse hs
    · cases h

/-- The frames that were taken off the front of what the client has sent. -/
structure TakenOff (m : Build) (st : GrpcInbound) (cached : List Bytes) : Prop where
  bytes : st.sent=cached.flatten++(st.buf++st.chunks.flatten)
  frames : ∀ f∈cached, ExactFrame f ∧ Decodes m f

/-- The last frame that is drained may be of any size. -/
def drainLimit : Nat := 512+maxGrpcFrameSize

/-- What holds at each stage of a request that came at time `t`. -/
def GatedAt (c : Crypto) (m : Build) (late t : Nat) (st : GrpcInbound) : InboundStage → Prop
  | .authenticating deadline cached raw => st.replies=[] ∧ st.lookups=[] ∧
      deadline=t+authReadTimeout ∧ st.now ≤ deadline+late ∧ TakenOff m st cached ∧
      raw=framesData m cached
  | .draining deadline len drained => st.replies=[] ∧ DrainLen len ∧ drained<drainLimit ∧
      deadline ≤ t+authReadTimeout+late+drainTimeout ∧ st.now ≤ deadline+late
  | .relaying upstream cached authId => st.replies=[] ∧ TakenOff m st cached ∧
      authIdSize ≤ (framesData m cached).length ∧ authId=(framesData m cached).take authIdSize ∧
      ∃ q, st.lookups=[q] ∧ q.authId.1=authId ∧ q.answer c=some upstream
  | .closed => st.replies=if st.status=200 then [([],true)] else []
  | .panicked => st.replies=[]

/-- The validator is asked at most once, and only a request that is relayed got an answer. -/
def AskedOnce (c : Crypto) (st : GrpcInbound) : Prop :=
  st.lookups.length ≤ 1 ∧
    ((∃ upstream cached authId, st.stage=.relaying upstream cached authId) ∨
      ∀ q∈st.lookups, q.answer c=none)

structure Gated (c : Crypto) (m : Build) (late t : Nat) (st : GrpcInbound) : Prop where
  stage : GatedAt c m late t st st.stage
  asked : AskedOnce c st
  accepted : st.status=200 ∨ st.stage=.closed

theorem TakenOff.send {st : GrpcInbound} {cached : List Bytes} (h : TakenOff m st cached)
    (chunk : Bytes) :
    TakenOff m { st with sent := st.sent++chunk,chunks := st.chunks++[chunk] } cached := by
  refine ⟨?_,h.frames⟩
  change st.sent++chunk=_
  rw [h.bytes]
  simp

theorem TakenOff.chunk {st : GrpcInbound} {cached : List Bytes} (h : TakenOff m st cached)
    {chunk : Bytes} {chunks : List Bytes} (hc : st.chunks=chunk::chunks) :
    TakenOff m { st with buf := st.buf++chunk,chunks := chunks } cached := by
  refine ⟨?_,h.frames⟩
  change st.sent=_
  rw [h.bytes,hc]
  simp

theorem TakenOff.frame {st : GrpcInbound} {cached : List Bytes} (h : TakenOff m st cached)
    {frame rest : Bytes} (hb : st.buf=frame++rest) (hx : ExactFrame frame) (hd : Decodes m frame)
    (stage : InboundStage) : TakenOff m { st with buf := rest,stage := stage } (cached++[frame]) := by
  refine ⟨?_,?_⟩
  · change st.sent=_
    rw [h.bytes,hb]
    simp
  · intro f hf
    rcases List.mem_append.mp hf with hf|hf
    · exact h.frames f hf
    · rw [List.mem_singleton.mp hf]
      exact ⟨hx,hd⟩

theorem drainLimit_pos : 0<drainLimit := by decide

/-- What a step that leaves the stage alone has to keep. -/
theorem GatedAt.keep {t : Nat} {st st' : GrpcInbound} {stage : InboundStage}
    (h : GatedAt c m late t st stage) (hr : st'.replies=st.replies) (hl : st'.lookups=st.lookups)
    (hst : st'.status=st.status)
    (hn : st'.now=st.now ∨ ∀ deadline, stage.deadline=some deadline → st'.now ≤ deadline+late)
    (ht : ∀ cached, TakenOff m st cached → TakenOff m st' cached) :
    GatedAt c m late t st' stage := by
  have hnow : ∀ deadline, stage.deadline=some deadline → st.now ≤ deadline+late →
      st'.now ≤ deadline+late := by
    intro deadline hs hd
    rcases hn with hn|hn
    · rw [hn]
      exact hd
    · exact hn deadline hs
  cases stage with
  | authenticating deadline cached raw =>
    obtain ⟨h1,h2,h3,h4,h5,h6⟩ := h
    exact ⟨hr.trans h1,hl.trans h2,h3,hnow deadline rfl h4,ht cached h5,h6⟩
  | draining deadline len drained =>
    obtain ⟨h1,h2,h3,h4,h5⟩ := h
    exact ⟨hr.trans h1,h2,h3,h4,hnow deadline rfl h5⟩
  | relaying upstream cached authId =>
    obtain ⟨h1,h2,h3,h4,h5⟩ := h
    exact ⟨hr.trans h1,ht cached h2,h3,h4,by rw [hl]; exact h5⟩
  | closed =>
    change st'.replies=if st'.status=200 then _ else _
    rw [hr,hst]
    exact h
  | panicked => exact hr.trans h

theorem Gated.status {t : Nat} {st : GrpcInbound} (h : Gated c m late t st)
    (hs : st.stage≠.closed) : st.status=200 := h.accepted.resolve_right hs

theorem Gated.unanswered {t deadline len drained : Nat} {st : GrpcInbound}
    (h : Gated c m late t st) (hs : st.stage=.draining deadline len drained) :
    ∀ q∈st.lookups, q.answer c=none := by
  rcases h.asked.2 with ⟨upstream,cached,authId,hr⟩|hr
  · rw [hs] at hr
    cases hr
  · exact hr

theorem authFrame_gated {t deadline : Nat} {cached : List Bytes} {raw frame rest : Bytes}
    {st : GrpcInbound} (h : Gated c m late t st) (hs : st.stage=.authenticating deadline cached raw)
    (hb : st.buf=frame++rest) (hx : ExactFrame frame) :
    Gated c m late t (authFrame m deadline cached raw frame { st with buf := rest }) := by
  have hg := h.stage
  rw [hs] at hg
  obtain ⟨h1,h2,h3,h4,h5,h6⟩ := hg
  have hnone : AskedOnce c { st with buf := rest,stage := .panicked } :=
    ⟨by simp [h2],Or.inr (by simp [h2])⟩
  have hok := h.status (by simp [hs])
  rw [authFrame]
  cases hd : decodeGrpcFrameData m frame with
  | error p => exact ⟨h1,hnone,Or.inl hok⟩
  | ok data =>
    have hacc : acceptedData m frame=data := by rw [acceptedData,hd]
    refine ⟨⟨h1,h2,h3,h4,h5.frame hb hx ⟨data,hd⟩ _,?_⟩,⟨hnone.1,Or.inr ?_⟩,Or.inl hok⟩
    · rw [h6,framesData_append,framesData_cons,framesData_nil,hacc,List.append_nil]
    · simp [h2]

theorem drainFrame_gated {t deadline len drained : Nat} {frame rest : Bytes} {st : GrpcInbound}
    (h : Gated c m late t st) (hs : st.stage=.draining deadline len drained) (hd : drained<len)
    (hx : ExactFrame frame) :
    Gated c m late t (drainFrame m deadline len drained frame { st with buf := rest }) := by
  have hg := h.stage
  rw [hs] at hg
  obtain ⟨h1,h2,h3,h4,h5⟩ := hg
  have hasked := h.unanswered hs
  have hok := h.status (by simp [hs])
  rw [drainFrame]
  cases hdec : decodeGrpcFrameData m frame with
  | error p => exact ⟨h1,⟨h.asked.1,Or.inr hasked⟩,Or.inl hok⟩
  | ok data =>
    refine ⟨⟨h1,h2,?_,h4,h5⟩,⟨h.asked.1,Or.inr hasked⟩,Or.inl hok⟩
    have hlen := h2.2
    have hx1 := hx.1
    have hx2 := hx.2
    rw [drainLimit]
    cases data with
    | none =>
      simp only [Option.getD_none,List.length_nil]
      omega
    | some data =>
      have hl := decodeGrpcFrameData_length hdec
      simp only [Option.getD_some]
      omega

/-- A step that changes neither the stage nor the lookups. -/
theorem Gated.keep {t : Nat} {st st' : GrpcInbound} (h : Gated c m late t st)
    (hs : st'.stage=st.stage) (hr : st'.replies=st.replies) (hl : st'.lookups=st.lookups)
    (hst : st'.status=st.status)
    (hn : st'.now=st.now ∨ ∀ deadline, st.stage.deadline=some deadline → st'.now ≤ deadline+late)
    (ht : ∀ cached, TakenOff m st cached → TakenOff m st' cached) : Gated c m late t st' := by
  refine ⟨?_,?_,?_⟩
  · rw [hs]
    exact h.stage.keep hr hl hst hn ht
  · rw [AskedOnce,hs,hl]
    exact h.asked
  · rw [hst,hs]
    exact h.accepted

theorem Gated.step {t : Nat} {st st' : GrpcInbound} (h : Gated c m late t st)
    (hs : InboundStep c m late st st') : Gated c m late t st' := by
  have hg := h.stage
  cases hs with
  | send chunk => exact h.keep rfl rfl rfl rfl (Or.inl rfl) (fun _ hc => hc.send chunk)
  | finish e => exact h.keep rfl rfl rfl rfl (Or.inl rfl) (fun _ hc => ⟨hc.bytes,hc.frames⟩)
  | advance d hd => exact h.keep rfl rfl rfl rfl (Or.inr hd) (fun _ hc => ⟨hc.bytes,hc.frames⟩)
  | chunk hc => exact h.keep rfl rfl rfl rfl (Or.inl rfl) (fun _ ht => ht.chunk hc)
  | authFrame hs hb hx => exact authFrame_gated h hs hb hx
  | drainFrame hs hd hb hx => exact drainFrame_gated h hs hd hx
  | matched hs hl hq ha =>
    have hok := h.status (by simp [hs])
    rw [hs] at hg
    obtain ⟨h1,h2,h3,h4,h5,rfl⟩ := hg
    exact ⟨⟨h1,⟨h5.bytes,h5.frames⟩,hl,rfl,_,by simp [h2],hq,ha⟩,
      ⟨by simp [h2],Or.inl ⟨_,_,_,rfl⟩⟩,Or.inl hok⟩
  | unmatched hs hl hq hn ha =>
    have hok := h.status (by simp [hs])
    rw [hs] at hg
    obtain ⟨h1,h2,h3,h4,-⟩ := hg
    refine ⟨⟨h1,hn,drainLimit_pos,?_,?_⟩,⟨by simp [h2],Or.inr (by simp [h2,ha])⟩,Or.inl hok⟩
    · omega
    · change st.now ≤ st.now+drainTimeout+late
      omega
  | giveUp hs hn =>
    have hok := h.status (by simp [hs])
    rw [hs] at hg
    obtain ⟨h1,h2,h3,h4,-⟩ := hg
    refine ⟨⟨h1,hn,drainLimit_pos,?_,?_⟩,⟨by simp [h2],Or.inr (by simp [h2])⟩,Or.inl hok⟩
    · omega
    · change st.now ≤ st.now+drainTimeout+late
      omega
  | refuse hs =>
    have hok := h.status (by simp [hs])
    have hasked := h.unanswered hs
    rw [hs] at hg
    obtain ⟨h1,-⟩ := hg
    refine ⟨?_,⟨h.asked.1,Or.inr hasked⟩,Or.inl hok⟩
    change st.replies++[([],true)]=if st.status=200 then _ else _
    rw [h1,if_pos hok]
    rfl

theorem validateRequest_status {request : GrpcRequest} {serviceName : Text} {status : Nat}
    (h : validateRequest request serviceName=.error status) : status≠200 := by
  simp only [validateRequest] at h
  split_ifs at h <;> cases h <;> decide

theorem gated_start (t : Nat) (request : GrpcRequest) (serviceName : Text) :
    Gated c m late t (.start t request serviceName) := by
  rw [GrpcInbound.start]
  cases hv : validateRequest request serviceName with
  | error status =>
    refine ⟨?_,⟨by simp,Or.inr (by simp)⟩,Or.inr rfl⟩
    exact (if_neg (validateRequest_status hv)).symm
  | ok u =>
    refine ⟨⟨rfl,rfl,rfl,?_,⟨rfl,by simp⟩,rfl⟩,⟨by simp,Or.inr (by simp)⟩,Or.inl rfl⟩
    change t ≤ t+authReadTimeout+late
    omega

/-- The status is sent once. -/
theorem InboundStep.status {st st' : GrpcInbound} (h : InboundStep c m late st st') :
    st'.status=st.status := by
  cases h with
  | authFrame hs hb hx =>
    rw [Relay.authFrame]
    split <;> rfl
  | drainFrame hs hd hb hx =>
    rw [Relay.drainFrame]
    split <;> rfl
  | _ => rfl

/-- A question is one that was asked before, or the new one. -/
theorem mem_asked {lookups : List Lookup} {q : Lookup} {new : Lookup → Prop} (h : new q) :
    ∀ p∈lookups++[q], p∈lookups ∨ new p := by
  intro p hp
  rcases List.mem_append.mp hp with hp|hp
  · exact Or.inl hp
  · rw [List.mem_singleton.mp hp]
    exact Or.inr h

/-- The question is about the Auth ID that frames at the front of `sent` carry. -/
def AsksOf (m : Build) (sent : Bytes) (q : Lookup) : Prop :=
  ∃ cached rest, InitialAuth m [] ⟨⟨[sent],none⟩,[]⟩ cached q.authId.1 ⟨⟨[],none⟩,rest⟩

theorem AsksOf.more {sent : Bytes} {q : Lookup} (h : AsksOf m sent q) (more : Bytes) :
    AsksOf m (sent++more) q := by
  obtain ⟨cached,rest,ha⟩ := h
  refine ⟨cached,rest++more,⟨?_,ha.frames,ha.enough,ha.authId,rfl⟩⟩
  have hb : sent=cached.flatten++rest := by simpa [GrpcFrameReader.bytes] using ha.bytes
  simp [GrpcFrameReader.bytes,hb]

end Steps

/-- A client that knows the path. -/
def probeRequest : GrpcRequest :=
  tunnelRequest ⟨"https".toList,"relay.example.com:443".toList,"/GunService/Tun".toList,none⟩

/-- A frame with an Auth ID of zeros. -/
def zeroFrame : Bytes := encodeGrpcFrame (List.replicate 16 0)

section Polls
variable {c : Crypto} {m : Build} {late : Nat} {validator : Validator} {now : UInt64} {n : Nat}

theorem poll_chunk {deadline : Nat} {cached chunks : List Bytes} {raw chunk : Bytes}
    {st : GrpcInbound} (hs : st.stage=.authenticating deadline cached raw)
    (hl : raw.length<authIdSize) (hp : peekFrame st.buf=.more) (hc : st.chunks=chunk::chunks) :
    grpcInbound c m late st (.poll validator now n)=
      some { st with buf := st.buf++chunk,chunks := chunks } := by
  simp only [grpcInbound,hs,GrpcInbound.pollFrame,hp,hc]
  rw [dif_neg (by omega)]

theorem poll_frame {deadline : Nat} {cached : List Bytes} {raw frame rest : Bytes}
    {st : GrpcInbound} (hs : st.stage=.authenticating deadline cached raw)
    (hl : raw.length<authIdSize) (hp : peekFrame st.buf=.frame frame rest) {data : Option Bytes}
    (hd : decodeGrpcFrameData m frame=.ok data) :
    grpcInbound c m late st (.poll validator now n)=some { st with
      buf := rest,stage := .authenticating deadline (cached++[frame]) (raw++data.getD []) } := by
  simp only [grpcInbound,hs,GrpcInbound.pollFrame,hp,authFrame,hd]
  rw [dif_neg (by omega)]

theorem poll_match {deadline : Nat} {cached : List Bytes} {raw : Bytes} {authId : ByteArr 16}
    {st : GrpcInbound} (hs : st.stage=.authenticating deadline cached raw)
    (hl : authIdSize ≤ raw.length) (hid : raw.take authIdSize=authId.1) {upstream : Upstream}
    (ha : validator.matchAuthId c now authId=some upstream) :
    grpcInbound c m late st (.poll validator now n)=some { st with
      lookups := st.lookups++[⟨validator,now,authId⟩]
      stage := .relaying upstream cached authId.1 } := by
  obtain ⟨bytes,hlen⟩ := authId
  subst hid
  simp only [grpcInbound,hs,Lookup.answer]
  rw [dif_pos hl,ha]

/-- Polls take the chunks that `next_frame` needs into the buffer. -/
theorem polls_chunks {deadline : Nat} {cached : List Bytes} {raw : Bytes}
    (hl : raw.length<authIdSize) {ending : Option H2Error} {chunks : List Bytes}
    {buf frame : Bytes} {q : GrpcFrameReader}
    (h : nextFrameFrom ending chunks buf=.ok (some frame,q)) {st : GrpcInbound}
    (hs : st.stage=.authenticating deadline cached raw) (hc : st.chunks=chunks)
    (hb : st.buf=buf) : ∃ k st', run (grpcInbound c m late) st
        (List.replicate k (.poll validator now n))=some st' ∧
      st'={ st with buf := st'.buf,chunks := q.recvStream.chunks } ∧
      peekFrame st'.buf=.frame frame q.buf := by
  induction chunks generalizing st buf with
  | nil =>
    simp only [nextFrameFrom] at h
    split at h
    · cases h
    · rename_i f rest hp
      cases h
      exact ⟨0,st,rfl,by rw [← hc],by rw [hb]; exact hp⟩
    · split at h <;> cases h
  | cons chunk chunks ih =>
    simp only [nextFrameFrom] at h
    split at h
    · cases h
    · rename_i f rest hp
      cases h
      exact ⟨0,st,rfl,by rw [← hc],by rw [hb]; exact hp⟩
    · rename_i hp
      rw [← hb] at hp
      let mid : GrpcInbound := { st with buf := st.buf++chunk,chunks := chunks }
      have hbuf : mid.buf=buf++chunk := by rw [← hb]
      obtain ⟨k,st',hr,he,hpeek⟩ := ih h (show mid.stage=_ from hs) rfl hbuf
      refine ⟨k+1,st',?_,he,hpeek⟩
      rw [List.replicate_succ,run,poll_chunk hs hl hp hc]
      exact hr

/-- Polls do what `read_initial_auth` does on what has arrived, and then ask the validator. -/
theorem polls_auth {deadline : Nat} {cached frames : List Bytes} {raw : Bytes}
    {authId : ByteArr 16} {r q : GrpcFrameReader}
    (h : readInitialAuthFrom m cached raw r=.ok (frames,authId.1,q)) {upstream : Upstream}
    (ha : validator.matchAuthId c now authId=some upstream) {st : GrpcInbound}
    (hs : st.stage=.authenticating deadline cached raw) (hc : st.chunks=r.recvStream.chunks)
    (hb : st.buf=r.buf) : ∃ k st', run (grpcInbound c m late) st
        (List.replicate k (.poll validator now n))=some st' ∧
      st'.stage=.relaying upstream frames authId.1 := by
  induction hn : r.bytes.length using Nat.strongRecOn generalizing r raw cached st with
  | ind len ih =>
    rw [readInitialAuthFrom] at h
    split_ifs at h with hraw
    · simp only [Except.ok.injEq,Prod.mk.injEq] at h
      obtain ⟨rfl,hid,-⟩ := h
      refine ⟨1,{ st with
        lookups := st.lookups++[⟨validator,now,authId⟩]
        stage := .relaying upstream cached authId.1 },?_,rfl⟩
      rw [List.replicate_one,run,poll_match hs hraw hid ha]
      rfl
    · split at h
      · cases h
      · cases h
      · rename_i frame p hp
        cases hd : decodeGrpcFrameData m frame with
        | error e =>
          rw [hd] at h
          cases h
        | ok data =>
          rw [hd] at h
          have hlt : p.bytes.length<len := hn ▸ nextFrame_lt hp
          obtain ⟨k,mid,hr,hmid,hpeek⟩ := polls_chunks (by omega) hp hs hc hb
          have hms : mid.stage=.authenticating deadline cached raw := by
            rw [hmid]
            exact hs
          let next : GrpcInbound := { mid with
            buf := p.buf,stage := .authenticating deadline (cached++[frame]) (raw++data.getD []) }
          have hnc : next.chunks=p.recvStream.chunks := by
            change mid.chunks=_
            rw [hmid]
          obtain ⟨j,st',hrest,hst⟩ := ih _ hlt h (show next.stage=_ from rfl) hnc rfl rfl
          refine ⟨k+(j+1),st',?_,hst⟩
          rw [List.replicate_add,run_append hr,List.replicate_succ,run,
            poll_frame hms (by omega) hpeek hd]
          exact hrest

/-- Nor does it turn away whom it knows: in every state in which a request is still
authenticating, if the frames that have arrived carry an Auth ID that the validator matches, the
next polls relay the request. -/
theorem grpc_inbound_admits_matched {t : Nat} {request : GrpcRequest} {serviceName : Text}
    {as : List InboundAction} {st : GrpcInbound}
    (h : run (grpcInbound c m late) (.start t request serviceName) as=some st) {deadline : Nat}
    {cached : List Bytes} {raw : Bytes} (hs : st.stage=.authenticating deadline cached raw)
    (hd : ∀ f∈(parseFrames st.sent).1, Decodes m f) {authId : ByteArr 16}
    (hl : authIdSize ≤ (framesData m (parseFrames st.sent).1).length)
    (hid : authId.1=(framesData m (parseFrames st.sent).1).take authIdSize) {upstream : Upstream}
    (ha : validator.matchAuthId c now authId=some upstream) :
    ∃ k st' frames, run (grpcInbound c m late) st
        (List.replicate k (.poll validator now n))=some st' ∧
      st'.stage=.relaying upstream frames authId.1 := by
  have hg : Gated c m late t st := run_invariant (fun _ _ _ hi hs => hi.step (grpcInbound_step hs))
    (gated_start t request serviceName) h
  have hstage := hg.stage
  rw [hs] at hstage
  obtain ⟨-,-,-,-,htaken,rfl⟩ := hstage
  let r : GrpcFrameReader := ⟨⟨st.chunks,none⟩,st.buf⟩
  have hparse : (parseFrames st.sent).1=cached++(parseFrames r.bytes).1 := by
    rw [htaken.bytes,parseFrames_flatten cached _ (fun f hf => (htaken.frames f hf).1)]
    rfl
  rw [hparse] at hd hl hid
  rw [framesData_append] at hl
  obtain ⟨rest,hrest⟩ := parseFrames_split r.bytes
  obtain ⟨⟨frames,id,q⟩,hread⟩ := readInitialAuthFrom_total hrest
    (fun f hf => ⟨parseFrames_exact _ f hf,hd f (by simp [hf])⟩) hl
  obtain ⟨new,hnew,hinit⟩ := readInitialAuthFrom_spec hread
  have hsame : id=authId.1 := by
    rw [hid,hinit.authId,hinit.bytes,parseFrames_flatten new _ (fun f hf => (hinit.frames f hf).1),
      framesData_append,framesData_append,← List.append_assoc,
      List.take_append_of_le_length hinit.enough]
  subst hsame
  obtain ⟨k,st',hr,hst⟩ := polls_auth hread ha hs rfl rfl
  exact ⟨k,st',frames,hr,hst⟩

end Polls

/-- A table with one entry. -/
def oneEntry : Validator :=
  ⟨[⟨"550e8400-e29b-41d4-a716-446655440000".toList,⟨⟨List.replicate 16 1,rfl⟩⟩,
    ⟨"192.0.2.1:443".toList,.v4 ⟨192,0,2,1⟩ 443,.tcp,false⟩⟩]⟩

theorem zero_fits : encodedLen (List.replicate 16 0) ≤ maxGrpcFrameSize := read_fits (by decide)

theorem parseFrames_zero : (parseFrames zeroFrame).1=[zeroFrame] := by
  have hx : ∀ f∈[zeroFrame], ExactFrame f := by
    intro f hf
    rw [List.mem_singleton.mp hf]
    exact exactFrame_encode zero_fits
  have hnil : parseFrames []=([],.rest []) := parseFrames_more rfl
  have hp := parseFrames_flatten [zeroFrame] [] hx
  simp only [hnil,List.flatten_cons,List.flatten_nil,List.append_nil] at hp
  rw [hp]

theorem framesData_zero : framesData .release [zeroFrame]=List.replicate 16 0 := by
  have hacc : acceptedData .release zeroFrame=some _ := (accepted_encode .release zero_fits).2
  rw [framesData_cons,hacc]
  rfl

theorem grpc_inbound_admits_matched_zero : ∃ st k st' upstream frames,
    run (grpcInbound tailCrypto .release 100) (.start 7 probeRequest "GunService".toList)
      [.send zeroFrame]=some st ∧
    run (grpcInbound tailCrypto .release 100) st (List.replicate k (.poll oneEntry 60 64))=
      some st' ∧
    st'.stage=.relaying upstream frames (List.replicate 16 0) := by
  have hvalid : validateRequest probeRequest "GunService".toList=.ok () := by
    rw [probeRequest,validateRequest_tunnel,if_pos (by decide)]
  have hstart : GrpcInbound.start 7 probeRequest "GunService".toList=
      ⟨7,[],[],none,[],200,[],[],.authenticating (7+authReadTimeout) [] []⟩ := by
    rw [GrpcInbound.start,hvalid]
  obtain ⟨upstream,ha⟩ : ∃ upstream, oneEntry.matchAuthId tailCrypto 60
      ⟨List.replicate 16 0,rfl⟩=some upstream := Option.isSome_iff_exists.mp (by decide +kernel)
  have hr : run (grpcInbound tailCrypto .release 100)
      (.start 7 probeRequest "GunService".toList) [.send zeroFrame]=
        some ⟨7,zeroFrame,[zeroFrame],none,[],200,[],[],.authenticating (7+authReadTimeout) [] []⟩ := by
    rw [hstart]
    rfl
  obtain ⟨k,st',frames,hrun,hst⟩ := grpc_inbound_admits_matched (n := 64) hr rfl
    (by
      intro f hf
      rw [parseFrames_zero] at hf
      rw [List.mem_singleton.mp hf]
      exact (accepted_encode .release zero_fits).1)
    (by rw [parseFrames_zero,framesData_zero]; decide)
    (by rw [parseFrames_zero,framesData_zero]; rfl) ha
  exact ⟨_,k,st',upstream,frames,hr,hrun,hst⟩

end Tobira.Relay
