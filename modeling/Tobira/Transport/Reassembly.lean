import Tobira.Transport.Reader

namespace Tobira.Transport

open Tobira.Framework

/-- The results of calling `next_frame` until it no longer returns a frame: the frames, then the
result that ends them. -/
def GrpcFrameReader.readAll (r : GrpcFrameReader) : List Bytes×Except RelayError Unit :=
  match _h : r.nextFrame with
  | .error e => ([],.error e)
  | .ok (none,_) => ([],.ok ())
  | .ok (some frame,q) =>
      let p := q.readAll
      (frame::p.1,p.2)
termination_by r.bytes.length
decreasing_by exact nextFrame_lt _h

/-- The result once the stream has nothing more to give. -/
def streamEnd : Option H2Error → Except RelayError Unit
  | some e => .error (.recvData e)
  | none => .ok ()

/-- What the reader is for, on the bytes of the whole stream: a frame is its header and as many
bytes as the header announces. -/
def splitFrames (ending : Option H2Error) (bytes : Bytes) : List Bytes×Except RelayError Unit :=
  let len := outerLen bytes
  if bytes.length<5 then ([],streamEnd ending)
  else if maxGrpcFrameSize<len then ([],.error (.frameTooLarge len))
  else if bytes.length<5+len then ([],streamEnd ending)
  else
    let p := splitFrames ending (bytes.drop (5+len))
    (bytes.take (5+len)::p.1,p.2)
termination_by bytes.length
decreasing_by
  rw [List.length_drop]
  omega

theorem splitFrames_more {ending : Option H2Error} {bytes : Bytes} (h : peekFrame bytes=.more) :
    splitFrames ending bytes=([],streamEnd ending) := by
  have hi := (peekFrame_more_iff bytes).mp h
  rw [splitFrames]
  rcases hi with hs|⟨hm,hl⟩
  · rw [if_pos hs]
  · split_ifs
    · rfl
    · omega
    · rfl

theorem splitFrames_tooLarge {ending : Option H2Error} {bytes : Bytes} {len : Nat}
    (h : peekFrame bytes=.tooLarge len) :
    splitFrames ending bytes=([],.error (.frameTooLarge len)) := by
  obtain ⟨h5,hm,rfl⟩ := (peekFrame_tooLarge_iff bytes len).mp h
  rw [splitFrames,if_neg (by omega),if_pos hm]

theorem splitFrames_frame {ending : Option H2Error} {bytes frame rest : Bytes}
    (h : peekFrame bytes=.frame frame rest) :
    splitFrames ending bytes=
      (frame::(splitFrames ending rest).1,(splitFrames ending rest).2) := by
  simp only [peekFrame] at h
  split_ifs at h with h5 hm hl
  simp only [Peek.frame.injEq] at h
  obtain ⟨rfl,rfl⟩ := h
  rw [splitFrames,if_neg (by omega),if_neg hm,if_neg (by omega)]

/-- From any state of the reader: the buffered bytes and the chunks to come count as one text. -/
theorem readAll_eq (r : GrpcFrameReader) :
    r.readAll=splitFrames r.recvStream.ending r.bytes := by
  induction r using calls_induction with
  | clean r hp he hx =>
    rw [GrpcFrameReader.readAll,splitFrames_more hp,he]
    split <;> simp_all [streamEnd]
  | failed r e hp he hx =>
    rw [GrpcFrameReader.readAll,splitFrames_more hp,he]
    split <;> simp_all [streamEnd]
  | tooLarge r len hp hx =>
    rw [GrpcFrameReader.readAll,splitFrames_tooLarge hp]
    split <;> simp_all
  | frame r q frame hp he hq ih =>
    rw [GrpcFrameReader.readAll,splitFrames_frame hp,← he,← ih]
    split
    · simp_all
    · simp_all
    · rename_i f q' hq'
      rw [hq] at hq'
      cases hq'
      rfl

/-- Frame reassembly depends only on the bytes and on how they end. -/
theorem readAll_reassembles (chunks : List Bytes) (ending : Option H2Error) :
    (GrpcFrameReader.new ⟨chunks,ending⟩).readAll=splitFrames ending chunks.flatten ∧
    ∀ others : List Bytes, others.flatten=chunks.flatten →
      (GrpcFrameReader.new ⟨others,ending⟩).readAll=
        (GrpcFrameReader.new ⟨chunks,ending⟩).readAll := by
  have hall : ∀ cs : List Bytes,
      (GrpcFrameReader.new ⟨cs,ending⟩).readAll=splitFrames ending cs.flatten :=
    fun cs => readAll_eq (GrpcFrameReader.new ⟨cs,ending⟩)
  refine ⟨hall chunks,?_⟩
  intro others ho
  rw [hall others,hall chunks,ho]

/-- A frame of one byte and an oversized header after it, in one chunk and byte by byte. -/
theorem readAll_reassembles_bytes :
    ([[0,0,0,0,1,7],[],[0,1,0,0,1]] : List Bytes).flatten=
      ([[0],[0],[0],[0],[1],[7],[0],[1],[0],[0],[1]] : List Bytes).flatten ∧
    (GrpcFrameReader.new ⟨[[0,0,0,0,1,7],[],[0,1,0,0,1]],none⟩).readAll=
      (GrpcFrameReader.new
        ⟨[[0],[0],[0],[0],[1],[7],[0],[1],[0],[0],[1]],none⟩).readAll :=
  ⟨by decide,(readAll_reassembles _ _).2 _ (by decide)⟩

end Tobira.Transport
