import Tobira.Transport.Codec

namespace Tobira.Transport

open Tobira.Framework

/-- The `h2::Error` kinds that `is_h2_connection_error` tells apart. -/
inductive H2Error where
  | io
  | goAway
  | reset (reason : Nat)
  deriving DecidableEq,Repr

def isH2ConnectionError : H2Error → Bool
  | .io => true
  | .goAway => true
  | .reset _ => false

inductive RelayError where
  | frameTooLarge (bytes : Nat)
  | recvData (cause : H2Error)
  | sendClosed
  | pollCapacity (cause : H2Error)
  | endedBeforeAuthId
  | io (cause : String)
  deriving DecidableEq,Repr

def RelayError.message : RelayError → String
  | .frameTooLarge bytes => s!"gRPC frame too large: {bytes} bytes"
  | .recvData _ => "recv grpc data"
  | .sendClosed => "gRPC send stream closed"
  | .pollCapacity _ => "poll grpc send capacity"
  | .endedBeforeAuthId => "gRPC stream ended before VMess auth id"
  | .io cause => cause

/-- Searches the error chain for a connection-level `h2::Error`. -/
def isGrpcConnectionError : RelayError → Bool
  | .recvData cause => isH2ConnectionError cause
  | .pollCapacity cause => isH2ConnectionError cause
  | _ => false

/-- Why a task makes no further progress; `pending` waits for send capacity or for a writer. -/
inductive Stop where
  | error (e : RelayError)
  | panic (p : Panic)
  | pending
  deriving DecidableEq,Repr

/-- The DATA chunks still to be received, then a clean end or a stream error. -/
structure RecvStream where
  chunks : List Bytes
  ending : Option H2Error
  deriving DecidableEq,Repr

structure GrpcFrameReader where
  recvStream : RecvStream
  buf : Bytes
  deriving DecidableEq,Repr

def GrpcFrameReader.new (recvStream : RecvStream) : GrpcFrameReader := ⟨recvStream,[]⟩

/-- Everything the reader has not handed out yet. -/
def GrpcFrameReader.bytes (r : GrpcFrameReader) : Bytes := r.buf++r.recvStream.chunks.flatten

inductive Peek where
  | more
  | tooLarge (len : Nat)
  | frame (frame rest : Bytes)

/-- The test at the head of the `next_frame` loop. -/
def peekFrame (buf : Bytes) : Peek :=
  if 5≤buf.length then
    if maxGrpcFrameSize<outerLen buf then .tooLarge (outerLen buf)
    else if 5+outerLen buf≤buf.length then
      .frame (buf.take (5+outerLen buf)) (buf.drop (5+outerLen buf))
    else .more
  else .more

def nextFrameFrom (ending : Option H2Error) :
    List Bytes → Bytes → Except RelayError (Option Bytes×GrpcFrameReader)
  | [],buf =>
      match peekFrame buf with
      | .tooLarge len => .error (.frameTooLarge len)
      | .frame frame rest => .ok (some frame,⟨⟨[],ending⟩,rest⟩)
      | .more =>
          match ending with
          | some e => .error (.recvData e)
          | none => .ok (none,⟨⟨[],none⟩,buf⟩)
  | chunk::chunks,buf =>
      match peekFrame buf with
      | .tooLarge len => .error (.frameTooLarge len)
      | .frame frame rest => .ok (some frame,⟨⟨chunk::chunks,ending⟩,rest⟩)
      | .more => nextFrameFrom ending chunks (buf++chunk)

def GrpcFrameReader.nextFrame (r : GrpcFrameReader) :
    Except RelayError (Option Bytes×GrpcFrameReader) :=
  nextFrameFrom r.recvStream.ending r.recvStream.chunks r.buf

/-- One complete gRPC frame and nothing else. -/
def ExactFrame (frame : Bytes) : Prop :=
  frame.length=5+outerLen frame ∧ outerLen frame ≤ maxGrpcFrameSize

/-- The start of a frame that is still missing bytes. -/
def Incomplete (bytes : Bytes) : Prop :=
  bytes.length<5 ∨ (outerLen bytes ≤ maxGrpcFrameSize ∧ bytes.length<5+outerLen bytes)

theorem peekFrame_more_iff (bytes : Bytes) : peekFrame bytes=.more ↔ Incomplete bytes := by
  simp only [peekFrame,Incomplete]
  split_ifs <;> simp <;> omega

theorem peekFrame_tooLarge_iff (bytes : Bytes) (len : Nat) :
    peekFrame bytes=.tooLarge len ↔
      5≤bytes.length ∧ maxGrpcFrameSize<outerLen bytes ∧ outerLen bytes=len := by
  simp only [peekFrame]
  split_ifs <;> simp <;> omega

/-- A frame is taken off the front of the buffer, header and payload together. -/
theorem peekFrame_frame {buf frame rest : Bytes} (h : peekFrame buf=.frame frame rest) :
    buf=frame++rest ∧ ExactFrame frame := by
  simp only [peekFrame] at h
  split_ifs at h with h5 hmax hlen
  simp only [Peek.frame.injEq] at h
  obtain ⟨rfl,rfl⟩ := h
  have hl : (buf.take (5+outerLen buf)).length=5+outerLen buf := by
    rw [List.length_take]
    omega
  have ho : outerLen (buf.take (5+outerLen buf))=outerLen buf := by
    simp only [outerLen]
    rw [List.drop_take,List.take_take]
    congr 2
    omega
  refine ⟨(List.take_append_drop _ _).symm,?_,?_⟩
  · rw [hl,ho]
  · rw [ho]
    omega

theorem outerLen_append {a b : Bytes} (h : 5≤a.length) : outerLen (a++b)=outerLen a := by
  simp only [outerLen]
  rw [List.drop_append_of_le_length (by omega),List.take_append_of_le_length]
  rw [List.length_drop]
  omega

theorem peekFrame_append_frame {a b frame rest : Bytes} (h : peekFrame a=.frame frame rest) :
    peekFrame (a++b)=.frame frame (rest++b) := by
  simp only [peekFrame] at h
  split_ifs at h with h5 hmax hlen
  simp only [Peek.frame.injEq] at h
  obtain ⟨rfl,rfl⟩ := h
  simp only [peekFrame]
  rw [List.length_append,outerLen_append h5,if_pos (by omega),if_neg hmax,if_pos (by omega),
    List.take_append_of_le_length hlen,List.drop_append_of_le_length hlen]

theorem peekFrame_append_tooLarge {a b : Bytes} {len : Nat} (h : peekFrame a=.tooLarge len) :
    peekFrame (a++b)=.tooLarge len := by
  simp only [peekFrame] at h
  split_ifs at h with h5 hmax hlen
  simp only [Peek.tooLarge.injEq] at h
  simp only [peekFrame]
  rw [List.length_append,outerLen_append h5,if_pos (by omega),if_pos hmax,h]

theorem nextFrameFrom_more {ending : Option H2Error} {chunk buf : Bytes} {chunks : List Bytes}
    (h : peekFrame buf=.more) :
    nextFrameFrom ending (chunk::chunks) buf=nextFrameFrom ending chunks (buf++chunk) := by
  simp only [nextFrameFrom,h]

/-- One call sees only the concatenation of what is buffered and what will arrive:
first when a whole frame is there, then when the header is too large, then when neither is. -/
theorem nextFrameFrom_frame {ending : Option H2Error} {chunks : List Bytes}
    {buf frame rest : Bytes} (h : peekFrame (buf++chunks.flatten)=.frame frame rest) :
    ∃ r, nextFrameFrom ending chunks buf=.ok (some frame,r) ∧ r.bytes=rest ∧
      r.recvStream.ending=ending := by
  induction chunks generalizing buf with
  | nil =>
    rw [List.flatten_nil,List.append_nil] at h
    exact ⟨⟨⟨[],ending⟩,rest⟩,by simp only [nextFrameFrom,h],
      by simp [GrpcFrameReader.bytes],rfl⟩
  | cons chunk chunks ih =>
    cases hp : peekFrame buf with
    | more =>
      rw [nextFrameFrom_more hp]
      exact ih (by simpa using h)
    | tooLarge len =>
      rw [peekFrame_append_tooLarge hp] at h
      cases h
    | frame f q =>
      rw [peekFrame_append_frame hp] at h
      cases h
      exact ⟨⟨⟨chunk::chunks,ending⟩,q⟩,by simp only [nextFrameFrom,hp],rfl,rfl⟩

theorem nextFrameFrom_tooLarge {ending : Option H2Error} {chunks : List Bytes} {buf : Bytes}
    {len : Nat} (h : peekFrame (buf++chunks.flatten)=.tooLarge len) :
    nextFrameFrom ending chunks buf=.error (.frameTooLarge len) := by
  induction chunks generalizing buf with
  | nil =>
    rw [List.flatten_nil,List.append_nil] at h
    simp only [nextFrameFrom,h]
  | cons chunk chunks ih =>
    cases hp : peekFrame buf with
    | more =>
      rw [nextFrameFrom_more hp]
      exact ih (by simpa using h)
    | tooLarge n =>
      rw [peekFrame_append_tooLarge hp] at h
      cases h
      simp only [nextFrameFrom,hp]
    | frame f q =>
      rw [peekFrame_append_frame hp] at h
      cases h

theorem nextFrameFrom_end {ending : Option H2Error} {chunks : List Bytes} {buf : Bytes}
    (h : peekFrame (buf++chunks.flatten)=.more) :
    nextFrameFrom ending chunks buf=nextFrameFrom ending [] (buf++chunks.flatten) := by
  induction chunks generalizing buf with
  | nil => rw [List.flatten_nil,List.append_nil]
  | cons chunk chunks ih =>
    cases hp : peekFrame buf with
    | more =>
      rw [nextFrameFrom_more hp,ih (by simpa using h)]
      simp
    | tooLarge n =>
      rw [peekFrame_append_tooLarge hp] at h
      cases h
    | frame f q =>
      rw [peekFrame_append_frame hp] at h
      cases h

theorem nextFrame_frame {r : GrpcFrameReader} {frame rest : Bytes}
    (h : peekFrame r.bytes=.frame frame rest) :
    ∃ q, r.nextFrame=.ok (some frame,q) ∧ q.bytes=rest ∧
      q.recvStream.ending=r.recvStream.ending :=
  nextFrameFrom_frame h

theorem nextFrame_tooLarge {r : GrpcFrameReader} {len : Nat}
    (h : peekFrame r.bytes=.tooLarge len) : r.nextFrame=.error (.frameTooLarge len) :=
  nextFrameFrom_tooLarge h

theorem nextFrame_clean {r : GrpcFrameReader} (h : peekFrame r.bytes=.more)
    (he : r.recvStream.ending=none) : r.nextFrame=.ok (none,⟨⟨[],none⟩,r.bytes⟩) := by
  simp only [GrpcFrameReader.nextFrame]
  rw [nextFrameFrom_end h,he]
  change peekFrame (r.buf++r.recvStream.chunks.flatten)=.more at h
  simp only [nextFrameFrom,h]
  rfl

theorem nextFrame_failed {r : GrpcFrameReader} {e : H2Error} (h : peekFrame r.bytes=.more)
    (he : r.recvStream.ending=some e) : r.nextFrame=.error (.recvData e) := by
  simp only [GrpcFrameReader.nextFrame]
  rw [nextFrameFrom_end h,he]
  change peekFrame (r.buf++r.recvStream.chunks.flatten)=.more at h
  simp only [nextFrameFrom,h]

/-- A frame that is handed out is the front of what was left. -/
theorem nextFrame_some {r q : GrpcFrameReader} {frame : Bytes}
    (h : r.nextFrame=.ok (some frame,q)) : peekFrame r.bytes=.frame frame q.bytes := by
  cases hp : peekFrame r.bytes with
  | more =>
    cases he : r.recvStream.ending with
    | none =>
      rw [nextFrame_clean hp he] at h
      cases h
    | some e =>
      rw [nextFrame_failed hp he] at h
      cases h
  | tooLarge len =>
    rw [nextFrame_tooLarge hp] at h
    cases h
  | frame f rest =>
    obtain ⟨q',hq,hb,-⟩ := nextFrame_frame hp
    rw [hq] at h
    cases h
    rw [hb]

theorem nextFrame_lt {r q : GrpcFrameReader} {frame : Bytes}
    (h : r.nextFrame=.ok (some frame,q)) : q.bytes.length<r.bytes.length := by
  obtain ⟨hcat,hlen,_⟩ := peekFrame_frame (nextFrame_some h)
  rw [hcat,List.length_append,hlen]
  omega

/-- Induction over the calls of `next_frame`: what it returns, by what is left of the stream. -/
@[elab_as_elim]
theorem calls_induction {P : GrpcFrameReader → Prop}
    (clean : ∀ r, peekFrame r.bytes=.more → r.recvStream.ending=none →
      r.nextFrame=.ok (none,⟨⟨[],none⟩,r.bytes⟩) → P r)
    (failed : ∀ r e, peekFrame r.bytes=.more → r.recvStream.ending=some e →
      r.nextFrame=.error (.recvData e) → P r)
    (tooLarge : ∀ r len, peekFrame r.bytes=.tooLarge len →
      r.nextFrame=.error (.frameTooLarge len) → P r)
    (frame : ∀ r q frame, peekFrame r.bytes=.frame frame q.bytes →
      q.recvStream.ending=r.recvStream.ending → r.nextFrame=.ok (some frame,q) → P q → P r)
    (r : GrpcFrameReader) : P r := by
  induction hn : r.bytes.length using Nat.strongRecOn generalizing r with
  | ind n ih =>
    cases hp : peekFrame r.bytes with
    | more =>
      cases he : r.recvStream.ending with
      | none => exact clean r hp he (nextFrame_clean hp he)
      | some e => exact failed r e hp he (nextFrame_failed hp he)
    | tooLarge len => exact tooLarge r len hp (nextFrame_tooLarge hp)
    | frame f rest =>
      obtain ⟨q,hq,rfl,he⟩ := nextFrame_frame hp
      have hlt := nextFrame_lt hq
      exact frame r q f hp he hq (ih _ (by omega) q rfl)

/-- `while let Some(frame) = reader.next_frame().await? { body }`. -/
def whileFrames {σ : Type} (body : σ → Bytes → Except Stop σ) (s : σ) (r : GrpcFrameReader) :
    Except Stop σ :=
  match _h : r.nextFrame with
  | .error e => .error (.error e)
  | .ok (none,_) => .ok s
  | .ok (some frame,q) =>
      match body s frame with
      | .error e => .error e
      | .ok s => whileFrames body s q
termination_by r.bytes.length
decreasing_by exact nextFrame_lt _h

inductive Tail where
  | rest (bytes : Bytes)
  | tooLarge (len : Nat)

/-- The plain recursive parse of a byte string into frames. -/
def parseFrames (bytes : Bytes) : List Bytes×Tail :=
  match _h : peekFrame bytes with
  | .more => ([],.rest bytes)
  | .tooLarge len => ([],.tooLarge len)
  | .frame frame rest =>
      let p := parseFrames rest
      (frame::p.1,p.2)
termination_by bytes.length
decreasing_by
  obtain ⟨hcat,hlen,_⟩ := peekFrame_frame _h
  rw [hcat,List.length_append,hlen]
  omega

theorem parseFrames_more {bytes : Bytes} (h : peekFrame bytes=.more) :
    parseFrames bytes=([],.rest bytes) := by
  rw [parseFrames]
  split <;> simp_all

theorem parseFrames_tooLarge {bytes : Bytes} {len : Nat} (h : peekFrame bytes=.tooLarge len) :
    parseFrames bytes=([],.tooLarge len) := by
  rw [parseFrames]
  split <;> simp_all

theorem parseFrames_frame {bytes frame rest : Bytes} (h : peekFrame bytes=.frame frame rest) :
    parseFrames bytes=(frame::(parseFrames rest).1,(parseFrames rest).2) := by
  rw [parseFrames]
  split <;> simp_all

/-- How a loop over the frames ends once they are used up. -/
def finish {σ : Type} (ending : Option H2Error) (s : σ) : Tail → Except Stop σ
  | .tooLarge len => .error (.error (.frameTooLarge len))
  | .rest _ =>
      match ending with
      | some e => .error (.error (.recvData e))
      | none => .ok s

/-- Every reading loop is a fold over the parsed frames, whatever the chunking. -/
theorem whileFrames_eq {σ : Type} (body : σ → Bytes → Except Stop σ) (s : σ)
    (r : GrpcFrameReader) :
    whileFrames body s r=((parseFrames r.bytes).1.foldlM body s).bind
      (fun t => finish r.recvStream.ending t (parseFrames r.bytes).2) := by
  induction r using calls_induction generalizing s with
  | clean r hp he hx =>
    rw [whileFrames,parseFrames_more hp]
    split <;> simp_all [finish,pure,Except.pure,Except.bind]
  | failed r e hp he hx =>
    rw [whileFrames,parseFrames_more hp]
    split <;> simp_all [finish,pure,Except.pure,Except.bind]
  | tooLarge r len hp hx =>
    rw [whileFrames,parseFrames_tooLarge hp]
    split <;> simp_all [finish,pure,Except.pure,Except.bind]
  | frame r q frame hp he hq ih =>
    rw [whileFrames,parseFrames_frame hp]
    split
    · simp_all
    · simp_all
    · rename_i f q' hq'
      rw [hq] at hq'
      cases hq'
      simp only [List.foldlM_cons]
      cases hs : body s frame with
      | error e => rfl
      | ok t =>
        have hi := ih t
        rw [he] at hi
        exact hi

/-- Induction over the frames at the front of a byte string. -/
@[elab_as_elim]
theorem frames_induction {P : Bytes → Prop} (more : ∀ bytes, peekFrame bytes=.more → P bytes)
    (tooLarge : ∀ bytes len, peekFrame bytes=.tooLarge len → P bytes)
    (frame : ∀ bytes frame rest, peekFrame bytes=.frame frame rest → bytes=frame++rest →
      ExactFrame frame → P rest → P bytes) (bytes : Bytes) : P bytes := by
  induction hn : bytes.length using Nat.strongRecOn generalizing bytes with
  | ind n ih =>
    cases hp : peekFrame bytes with
    | more => exact more bytes hp
    | tooLarge len => exact tooLarge bytes len hp
    | frame f rest =>
      obtain ⟨hcat,hexact⟩ := peekFrame_frame hp
      have hlt : rest.length<n := by
        rw [← hn,hcat,List.length_append,hexact.1]
        omega
      exact frame bytes f rest hp hcat hexact (ih _ hlt rest rfl)

/-- The parse loses nothing: frames and tail make up the input. -/
theorem parseFrames_rest {bytes rest : Bytes} (h : (parseFrames bytes).2=.rest rest) :
    bytes=(parseFrames bytes).1.flatten++rest ∧ peekFrame rest=.more := by
  induction bytes using frames_induction with
  | more bytes hp =>
    rw [parseFrames_more hp] at h ⊢
    cases h
    exact ⟨rfl,hp⟩
  | tooLarge bytes len hp =>
    rw [parseFrames_tooLarge hp] at h
    cases h
  | frame bytes frame q hp hcat _ ih =>
    rw [parseFrames_frame hp] at h ⊢
    obtain ⟨hi,hm⟩ := ih h
    refine ⟨?_,hm⟩
    rw [hcat,List.flatten_cons,List.append_assoc,← hi]

theorem parseFrames_exact (bytes : Bytes) :
    ∀ f∈(parseFrames bytes).1, ExactFrame f := by
  induction bytes using frames_induction with
  | more bytes hp => simp [parseFrames_more hp]
  | tooLarge bytes len hp => simp [parseFrames_tooLarge hp]
  | frame bytes frame q hp _ hexact ih =>
    intro f hf
    rw [parseFrames_frame hp] at hf
    rcases List.mem_cons.mp hf with rfl|hf
    · exact hexact
    · exact ih f hf

theorem peekFrame_exact {f : Bytes} (rest : Bytes) (h : ExactFrame f) :
    peekFrame (f++rest)=.frame f rest := by
  obtain ⟨hl,hm⟩ := h
  have ho : outerLen (f++rest)=outerLen f := outerLen_append (by omega)
  simp only [peekFrame]
  rw [ho,List.length_append,if_pos (by omega),if_neg (by omega),if_pos (by omega),← hl,
    List.take_left,List.drop_left]

/-- Whole frames laid end to end are parsed back one by one. -/
theorem parseFrames_flatten (fs : List Bytes) (rest : Bytes)
    (h : ∀ f∈fs, ExactFrame f) :
    parseFrames (fs.flatten++rest)=(fs++(parseFrames rest).1,(parseFrames rest).2) := by
  induction fs with
  | nil => simp
  | cons f fs ih =>
    have hp := peekFrame_exact (fs.flatten++rest) (h f (by simp))
    rw [List.flatten_cons,List.append_assoc,parseFrames_frame hp,
      ih (fun g hg => h g (by simp [hg]))]
    rfl

/-- Frames of any announced length are parsed back one by one up to the first one above the
limit. -/
theorem parseFrames_whole {fs : List Bytes} (h : ∀ f∈fs, f.length=5+outerLen f) :
    ((parseFrames fs.flatten).1=fs ∧ ∀ f∈fs, ExactFrame f) ∨
      ∃ len, (parseFrames fs.flatten).2=.tooLarge len := by
  induction fs with
  | nil => exact Or.inl ⟨by rw [List.flatten_nil,parseFrames_more rfl],by simp⟩
  | cons f fs ih =>
    have hf := h f (by simp)
    rw [List.flatten_cons]
    by_cases hmax : outerLen f ≤ maxGrpcFrameSize
    · rw [parseFrames_frame (peekFrame_exact fs.flatten ⟨hf,hmax⟩)]
      rcases ih (fun g hg => h g (by simp [hg])) with ⟨hp,hx⟩|hl
      · refine Or.inl ⟨by rw [hp],?_⟩
        intro g hg
        rcases List.mem_cons.mp hg with rfl|hg
        · exact ⟨hf,hmax⟩
        · exact hx g hg
      · exact Or.inr hl
    · right
      have h5 : 5≤f.length := by omega
      have hp : peekFrame (f++fs.flatten)=.tooLarge (outerLen f) := by
        rw [peekFrame_tooLarge_iff,outerLen_append h5,List.length_append]
        exact ⟨by omega,by omega,rfl⟩
      exact ⟨outerLen f,by rw [parseFrames_tooLarge hp]⟩

end Tobira.Transport
