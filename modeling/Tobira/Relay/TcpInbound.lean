import Tobira.Relay.Inbound

namespace Tobira.Relay

open Tobira.Framework Tobira.Transport Tobira.Vmess

/-- Where `handle_stream` is. -/
inductive TcpStage where
  | authenticating (deadline : Nat) (read : Bytes)
  | draining (deadline drainLen : Nat)
  | relaying (upstream : Upstream) (authId : Bytes)
  | closed

def TcpStage.deadline : TcpStage → Option Nat
  | .authenticating deadline _ => some deadline
  | .draining deadline _ => some deadline
  | _ => none

/-- A connection on a TCP inbound until it is relayed: what has arrived in the socket, and whether
anything more can. `sent` and `lookups` record what the client has sent and what the validator
was asked. -/
structure TcpInbound where
  now : Nat
  sent : Bytes
  socket : Bytes
  ended : Bool
  lookups : List Lookup
  stage : TcpStage

def TcpInbound.start (now : Nat) : TcpInbound :=
  ⟨now,[],[],false,[],.authenticating (now+authReadTimeout) []⟩

/-- A read of at most `max` bytes gives `k`. -/
def TcpInbound.Reads (st : TcpInbound) (max k : Nat) : Prop :=
  0<k ∧ k ≤ max ∧ k ≤ st.socket.length

instance (st : TcpInbound) (max k : Nat) : Decidable (st.Reads max k) :=
  inferInstanceAs (Decidable (_ ∧ _ ∧ _))

inductive TcpInboundAction where
  | send (bytes : Bytes)
  | finish
  | advance (d : Nat)
  | read (k : Nat)
  | eof
  | lookup (validator : Validator) (now : UInt64) (drainLen : Nat)
  | expire

/-- `handle_stream` and `drain_and_close`, the client and the timer. A failed read and a timeout
return at once; only an Auth ID that is not matched is drained, with one read. -/
def tcpInbound (c : Crypto) (late : Nat) (st : TcpInbound) : TcpInboundAction → Option TcpInbound
  | .send bytes =>
    if st.ended=false then some { st with sent := st.sent++bytes,socket := st.socket++bytes }
    else none
  | .finish => if st.ended=false then some { st with ended := true } else none
  | .advance d =>
    if ∀ deadline∈st.stage.deadline, st.now+d ≤ deadline+late then
      some { st with now := st.now+d }
    else none
  | .read k =>
    match st.stage with
    | .authenticating deadline read =>
      if st.Reads (authIdSize-read.length) k then
        some { st with
          socket := st.socket.drop k
          stage := .authenticating deadline (read++st.socket.take k) }
      else none
    | .draining _ drainLen =>
      if st.Reads drainLen k then some { st with socket := st.socket.drop k,stage := .closed }
      else none
    | _ => none
  | .eof =>
    match st.stage with
    | .authenticating _ read =>
      if read.length<authIdSize ∧ st.socket=[] ∧ st.ended=true then
        some { st with stage := .closed }
      else none
    | .draining _ _ =>
      if st.socket=[] ∧ st.ended=true then some { st with stage := .closed } else none
    | _ => none
  | .lookup validator now drainLen =>
    match st.stage with
    | .authenticating _ read =>
      if h : read.length=authIdSize then
        let q : Lookup := ⟨validator,now,read,h⟩
        let st := { st with lookups := st.lookups++[q] }
        match q.answer c with
        | some upstream => some { st with stage := .relaying upstream read }
        | none =>
          if DrainLen drainLen then
            some { st with stage := .draining (st.now+drainTimeout) drainLen }
          else none
      else none
    | _ => none
  | .expire =>
    match st.stage with
    | .authenticating deadline _ | .draining deadline _ =>
      if deadline ≤ st.now then some { st with stage := .closed } else none
    | _ => none

section Steps
variable {c : Crypto} {late t : Nat} {st st' : TcpInbound}

/-- What holds at each stage of a connection that came at time `t`. -/
def TcpGatedAt (c : Crypto) (late t : Nat) (st : TcpInbound) : TcpStage → Prop
  | .authenticating deadline read => st.lookups=[] ∧ deadline=t+authReadTimeout ∧
      st.now ≤ deadline+late ∧ read.length ≤ authIdSize ∧ st.sent=read++st.socket
  | .draining deadline len => (∃ q, st.lookups=[q] ∧ q.answer c=none) ∧ DrainLen len ∧
      deadline ≤ t+authReadTimeout+late+drainTimeout ∧ st.now ≤ deadline+late ∧
      st.sent.length=authIdSize+st.socket.length
  | .relaying upstream authId => (∃ q, st.lookups=[q] ∧ q.authId.1=authId ∧
      q.answer c=some upstream) ∧ st.sent=authId++st.socket
  | .closed => (st.lookups=[] ∨ ∃ q, st.lookups=[q] ∧ q.answer c=none) ∧
      st.sent.length<authIdSize+512+st.socket.length

theorem tcpGated_send {stage : TcpStage} (h : TcpGatedAt c late t st stage) (bytes : Bytes) :
    TcpGatedAt c late t { st with sent := st.sent++bytes,socket := st.socket++bytes } stage := by
  cases stage with
  | authenticating deadline read =>
    obtain ⟨h1,h2,h3,h4,h5⟩ := h
    refine ⟨h1,h2,h3,h4,?_⟩
    change st.sent++bytes=_
    rw [h5,List.append_assoc]
  | draining deadline len =>
    obtain ⟨h1,h2,h3,h4,h5⟩ := h
    refine ⟨h1,h2,h3,h4,?_⟩
    simp only [List.length_append,h5]
    omega
  | relaying upstream authId =>
    obtain ⟨h1,h2⟩ := h
    refine ⟨h1,?_⟩
    change st.sent++bytes=_
    rw [h2,List.append_assoc]
  | closed =>
    obtain ⟨h1,h2⟩ := h
    refine ⟨h1,?_⟩
    simp only [List.length_append]
    omega

theorem tcpGated_advance {stage : TcpStage} (h : TcpGatedAt c late t st stage) {d : Nat}
    (hd : ∀ deadline∈stage.deadline, st.now+d ≤ deadline+late) :
    TcpGatedAt c late t { st with now := st.now+d } stage := by
  cases stage with
  | authenticating deadline read =>
    obtain ⟨h1,h2,-,h4,h5⟩ := h
    exact ⟨h1,h2,hd deadline rfl,h4,h5⟩
  | draining deadline len =>
    obtain ⟨h1,h2,h3,-,h5⟩ := h
    exact ⟨h1,h2,h3,hd deadline rfl,h5⟩
  | relaying upstream authId => exact h
  | closed => exact h

/-- A connection that is given up while it waits. -/
theorem tcpGated_close {stage : TcpStage} (h : TcpGatedAt c late t st stage) {deadline : Nat}
    (hd : stage.deadline=some deadline) :
    TcpGatedAt c late t { st with stage := .closed } .closed := by
  cases stage with
  | authenticating deadline read =>
    obtain ⟨h1,h2,h3,h4,h5⟩ := h
    refine ⟨Or.inl h1,?_⟩
    change st.sent.length<authIdSize+512+st.socket.length
    rw [h5,List.length_append]
    omega
  | draining deadline len =>
    obtain ⟨h1,h2,h3,h4,h5⟩ := h
    refine ⟨Or.inr h1,?_⟩
    change st.sent.length<authIdSize+512+st.socket.length
    omega
  | relaying upstream authId => cases hd
  | closed => cases hd

theorem tcpGated_step {a : TcpInboundAction} (h : TcpGatedAt c late t st st.stage)
    (hs : tcpInbound c late st a=some st') : TcpGatedAt c late t st' st'.stage := by
  cases a with
  | send bytes =>
    simp only [tcpInbound] at hs
    split_ifs at hs
    cases hs
    exact tcpGated_send h bytes
  | finish =>
    simp only [tcpInbound] at hs
    split_ifs at hs
    cases hs
    cases hst : st.stage <;> rw [hst] at h <;> exact h
  | advance d =>
    simp only [tcpInbound] at hs
    split_ifs at hs with hd
    cases hs
    exact tcpGated_advance h hd
  | read k =>
    simp only [tcpInbound] at hs
    split at hs
    · rename_i deadline read hst
      rw [hst] at h
      obtain ⟨h1,h2,h3,h4,h5⟩ := h
      split_ifs at hs with hk
      cases hs
      refine ⟨h1,h2,h3,?_,?_⟩
      · have hk1 := hk.2.1
        simp only [List.length_append,List.length_take]
        omega
      · change st.sent=_
        rw [h5,List.append_assoc,List.take_append_drop]
    · rename_i deadline len hst
      rw [hst] at h
      obtain ⟨h1,h2,h3,h4,h5⟩ := h
      split_ifs at hs with hk
      cases hs
      refine ⟨Or.inr h1,?_⟩
      have hk1 := hk.2
      have hk2 := h2.2
      simp only [List.length_drop]
      omega
    · cases hs
  | eof =>
    simp only [tcpInbound] at hs
    split at hs
    · rename_i deadline read hst
      split_ifs at hs
      cases hs
      exact tcpGated_close h (by rw [hst]; rfl)
    · rename_i deadline len hst
      split_ifs at hs
      cases hs
      exact tcpGated_close h (by rw [hst]; rfl)
    · cases hs
  | lookup validator now n =>
    simp only [tcpInbound] at hs
    split at hs
    · rename_i deadline read hst
      rw [hst] at h
      obtain ⟨h1,h2,h3,h4,h5⟩ := h
      by_cases hl : read.length=authIdSize
      · rw [dif_pos hl] at hs
        split at hs
        · rename_i upstream ha
          cases hs
          exact ⟨⟨_,by rw [h1]; rfl,rfl,ha⟩,h5⟩
        · rename_i ha
          split_ifs at hs with hn
          cases hs
          refine ⟨⟨_,by rw [h1]; rfl,ha⟩,hn,?_,?_,?_⟩
          · omega
          · change st.now ≤ st.now+drainTimeout+late
            omega
          · change st.sent.length=authIdSize+st.socket.length
            rw [h5,List.length_append,hl]
      · rw [dif_neg hl] at hs
        cases hs
    · cases hs
  | expire =>
    simp only [tcpInbound] at hs
    split at hs
    · rename_i deadline read hst
      split_ifs at hs
      cases hs
      exact tcpGated_close h (by rw [hst]; rfl)
    · rename_i deadline len hst
      split_ifs at hs
      cases hs
      exact tcpGated_close h (by rw [hst]; rfl)
    · cases hs

theorem tcpGated_start : TcpGatedAt c late t (.start t) (TcpInbound.start t).stage := by
  refine ⟨rfl,rfl,?_,Nat.zero_le _,rfl⟩
  change t ≤ t+authReadTimeout+late
  omega

/-- What a step records: the client has only sent more, and a new question is about what was
read. -/
theorem tcpInbound_records {a : TcpInboundAction} (hs : tcpInbound c late st a=some st') :
    (∃ more, st'.sent=st.sent++more) ∧
    ∀ q∈st'.lookups, q∈st.lookups ∨ ∃ deadline, st.stage=.authenticating deadline q.authId.1 := by
  have same : ∀ {x : TcpInbound}, some x=some st' → x.sent=st.sent → x.lookups=st.lookups →
      (∃ more, st'.sent=st.sent++more) ∧ ∀ q∈st'.lookups, q∈st.lookups ∨
        ∃ deadline, st.stage=.authenticating deadline q.authId.1 := by
    rintro x hx hsent hlookups
    cases hx
    exact ⟨⟨[],by rw [hsent,List.append_nil]⟩,fun q hq => Or.inl (hlookups ▸ hq)⟩
  cases a with
  | send bytes =>
    simp only [tcpInbound] at hs
    split_ifs at hs
    cases hs
    exact ⟨⟨bytes,rfl⟩,fun q hq => Or.inl hq⟩
  | finish | advance d =>
    simp only [tcpInbound] at hs
    split_ifs at hs
    exact same hs rfl rfl
  | read k | eof | expire =>
    simp only [tcpInbound] at hs
    split at hs
    · split_ifs at hs
      exact same hs rfl rfl
    · split_ifs at hs
      exact same hs rfl rfl
    · cases hs
  | lookup validator now n =>
    simp only [tcpInbound] at hs
    split at hs
    · rename_i deadline read hst
      by_cases hl : read.length=authIdSize
      · rw [dif_pos hl] at hs
        have hasked : ∀ q∈st.lookups++[(⟨validator,now,read,hl⟩ : Lookup)], q∈st.lookups ∨
            ∃ deadline, st.stage=.authenticating deadline q.authId.1 := mem_asked ⟨deadline,hst⟩
        split at hs
        · cases hs
          exact ⟨⟨[],(List.append_nil _).symm⟩,hasked⟩
        · split_ifs at hs
          cases hs
          exact ⟨⟨[],(List.append_nil _).symm⟩,hasked⟩
      · rw [dif_neg hl] at hs
        cases hs
    · cases hs

/-- The question is about the first 16 bytes that were sent. -/
def AsksFirst (sent : Bytes) (q : Lookup) : Prop := q.authId.1=sent.take authIdSize

theorem AsksFirst.more {sent : Bytes} {q : Lookup} (h : AsksFirst sent q) (more : Bytes) :
    AsksFirst (sent++more) q := by
  have hlen : q.authId.1.length=authIdSize := q.authId.2
  rw [h,List.length_take] at hlen
  rw [AsksFirst,List.take_append_of_le_length (by omega)]
  exact h

theorem asksFirst_step {a : TcpInboundAction} (hg : TcpGatedAt c late t st st.stage)
    (h : ∀ q∈st.lookups, AsksFirst st.sent q) (hs : tcpInbound c late st a=some st') :
    ∀ q∈st'.lookups, AsksFirst st'.sent q := by
  obtain ⟨⟨more,hsent⟩,hnew⟩ := tcpInbound_records hs
  intro q hq
  rw [hsent]
  rcases hnew q hq with hold|⟨deadline,hst⟩
  · exact (h q hold).more more
  · rw [hst] at hg
    obtain ⟨-,-,-,-,hread⟩ := hg
    refine AsksFirst.more ?_ more
    have hlen : q.authId.1.length=authIdSize := q.authId.2
    rw [AsksFirst,hread,List.take_left' hlen]

theorem lookup_match {deadline n : Nat} {validator : Validator} {now : UInt64}
    {authId : ByteArr 16} {upstream : Upstream} (hs : st.stage=.authenticating deadline authId.1)
    (ha : validator.matchAuthId c now authId=some upstream) :
    tcpInbound c late st (.lookup validator now n)=some { st with
      lookups := st.lookups++[⟨validator,now,authId⟩],stage := .relaying upstream authId.1 } := by
  have hlen : authId.1.length=authIdSize := authId.2
  simp only [tcpInbound,hs,Lookup.answer]
  rw [dif_pos hlen,ha]

/-- What is missing of an Auth ID that has arrived can be read at once. -/
theorem read_missing {deadline : Nat} {read : Bytes} (h : TcpGatedAt c late t st st.stage)
    (hs : st.stage=.authenticating deadline read) (hl : authIdSize ≤ st.sent.length) :
    ∃ reads st', run (tcpInbound c late) st reads=some st' ∧
      st'.stage=.authenticating deadline (st.sent.take authIdSize) := by
  rw [hs] at h
  obtain ⟨-,-,-,h4,h5⟩ := h
  by_cases hr : read.length=authIdSize
  · refine ⟨[],st,rfl,?_⟩
    rw [hs,h5,List.take_left' hr]
  · have hlen : st.sent.length=read.length+st.socket.length := by rw [h5,List.length_append]
    have hk : st.Reads (authIdSize-read.length) (authIdSize-read.length) := by
      refine ⟨?_,?_,?_⟩ <;> omega
    refine ⟨[.read (authIdSize-read.length)],{ st with
      socket := st.socket.drop (authIdSize-read.length)
      stage := .authenticating deadline (read++st.socket.take (authIdSize-read.length)) },?_,?_⟩
    · simp only [run,tcpInbound,hs,if_pos hk,Option.bind_some]
    · simp only
      rw [h5,List.take_append,List.take_of_length_le h4]

/-- A TCP inbound lets in exactly whom the validator knows, and does not keep the others: whatever
a client sends and whenever, the validator is asked at most once, with the first 16 bytes; only
a client it has matched is relayed, and nothing else was read off its stream; of everyone else
fewer than 528 bytes are read, and the timeouts bound how long that takes; and a client whose
Auth ID has arrived in time is relayed. -/
theorem tcp_inbound_admits_exactly_matched {as : List TcpInboundAction}
    (h : run (tcpInbound c late) (.start t) as=some st) :
    (st.lookups.length ≤ 1 ∧ ∀ q∈st.lookups, AsksFirst st.sent q) ∧
    (∀ upstream authId, st.stage=.relaying upstream authId →
      (∃ q, st.lookups=[q] ∧ q.authId.1=authId ∧ q.answer c=some upstream) ∧
      st.sent=authId++st.socket) ∧
    ((∀ upstream authId, st.stage≠.relaying upstream authId) →
      (∀ q∈st.lookups, q.answer c=none) ∧
      st.sent.length<authIdSize+512+st.socket.length) ∧
    (∀ deadline, st.stage.deadline=some deadline →
      st.now ≤ t+authReadTimeout+drainTimeout+2*late ∧
      (st.lookups=[] → st.now ≤ t+authReadTimeout+late)) ∧
    ∀ deadline read, st.stage=.authenticating deadline read →
      ∀ (validator : Validator) (now : UInt64) (authId : ByteArr 16) (upstream : Upstream) (n : Nat),
        authIdSize ≤ st.sent.length → authId.1=st.sent.take authIdSize →
        validator.matchAuthId c now authId=some upstream →
        ∃ reads st', run (tcpInbound c late) st (reads++[.lookup validator now n])=some st' ∧
          st'.stage=.relaying upstream authId.1 := by
  obtain ⟨hg,hasks⟩ : TcpGatedAt c late t st st.stage ∧ ∀ q∈st.lookups, AsksFirst st.sent q :=
    run_invariant
      (I := fun x => TcpGatedAt c late t x x.stage ∧ ∀ q∈x.lookups, AsksFirst x.sent q)
      (fun _ _ _ hi hs => ⟨tcpGated_step hi.1 hs,asksFirst_step hi.1 hi.2 hs⟩)
      ⟨tcpGated_start,by simp [TcpInbound.start]⟩ h
  refine ⟨⟨?_,hasks⟩,?_,?_,?_,?_⟩
  · cases hst : st.stage <;> rw [hst] at hg
    · simp [hg.1]
    · obtain ⟨q,hq,-⟩ := hg.1
      simp [hq]
    · obtain ⟨q,hq,-⟩ := hg.1
      simp [hq]
    · rcases hg.1 with hq|⟨q,hq,-⟩ <;> simp [hq]
  · intro upstream authId hs
    rw [hs] at hg
    exact hg
  · intro hs
    cases hst : st.stage with
    | authenticating deadline read =>
      rw [hst] at hg
      obtain ⟨h1,-,-,h4,h5⟩ := hg
      refine ⟨by simp [h1],?_⟩
      rw [h5,List.length_append]
      omega
    | draining deadline len =>
      rw [hst] at hg
      obtain ⟨⟨q,hq,ha⟩,-,-,-,h5⟩ := hg
      exact ⟨by simp [hq,ha],by omega⟩
    | relaying upstream authId => exact absurd hst (hs upstream authId)
    | closed =>
      rw [hst] at hg
      refine ⟨?_,hg.2⟩
      rcases hg.1 with hq|⟨q,hq,ha⟩
      · simp [hq]
      · simp [hq,ha]
  · intro deadline hs
    cases hst : st.stage with
    | authenticating deadline' read =>
      rw [hst] at hg
      obtain ⟨-,h2,h3,-⟩ := hg
      exact ⟨by omega,fun _ => by omega⟩
    | draining deadline' len =>
      rw [hst] at hg
      obtain ⟨⟨q,hq,-⟩,-,h3,h4,-⟩ := hg
      refine ⟨by omega,?_⟩
      intro hnone
      rw [hnone] at hq
      cases hq
    | relaying upstream authId =>
      rw [hst] at hs
      cases hs
    | closed =>
      rw [hst] at hs
      cases hs
  · intro deadline read hs validator now authId upstream n hl hid ha
    obtain ⟨reads,mid,hr,hmid⟩ := read_missing hg hs hl
    rw [← hid] at hmid
    refine ⟨reads,{ mid with
      lookups := mid.lookups++[⟨validator,now,authId⟩],stage := .relaying upstream authId.1 },?_,rfl⟩
    rw [run_append hr,run,lookup_match hmid ha]
    rfl

end Steps

/-- An Auth ID in two reads, with two bytes behind it. -/
theorem tcp_inbound_admits_exactly_matched_zero : ∃ st upstream,
    run (tcpInbound tailCrypto 100) (.start 7) [.send (List.replicate 18 0),.read 5,.advance 3,
      .read 11,.lookup oneEntry 60 64]=some st ∧
    st.stage=.relaying upstream (List.replicate 16 0) ∧
    st.sent=List.replicate 16 0++st.socket ∧ ∀ q∈st.lookups, AsksFirst st.sent q := by
  have hsome : ((run (tcpInbound tailCrypto 100) (.start 7) [.send (List.replicate 18 0),.read 5,
      .advance 3,.read 11,.lookup oneEntry 60 64]).bind (fun st =>
        match st.stage with
        | .relaying _ authId => some authId
        | _ => none))=some (List.replicate 16 0) := by decide +kernel
  obtain ⟨st,hr,hst⟩ := Option.bind_eq_some_iff.mp hsome
  obtain ⟨⟨-,hasks⟩,hrelayed,-,-,-⟩ := tcp_inbound_admits_exactly_matched hr
  split at hst
  · rename_i upstream authId hs
    cases hst
    exact ⟨st,upstream,hr,hs,(hrelayed _ _ hs).2,hasks⟩
  · cases hst

end Tobira.Relay
