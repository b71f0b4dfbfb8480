import Tobira.Transport.Reader

namespace Tobira.Transport

open Tobira.Framework

/-- The writing half of a raw stream: the bytes accepted so far and its shutdown flag. -/
structure Writer where
  out : Bytes
  shutdown : Bool
  deriving DecidableEq,Repr

/-- The calls that `grpc_to_raw_with_activity` awaits on its writer. -/
inductive WriterCall where
  | writeAll (data : Bytes)
  | flush
  | shutdown
  deriving DecidableEq,Repr

/-- How such a call ends: well, with an `io::Error`, or not at all. -/
inductive WriterAnswer where
  | done
  | failed (cause : String)
  | pending
  deriving DecidableEq,Repr

/-- What a writer answers to its next call. -/
abbrev WriterAnswers := Writer → WriterCall → WriterAnswer

def WriterAnswers.reliable : WriterAnswers := fun _ _ => .done

/-- `writer.call().await?`; the writer is `next` where the call is done. -/
def Writer.call (io : WriterAnswers) (w : Writer) (call : WriterCall) (next : Writer) :
    Except Stop Writer :=
  match io w call with
  | .done => .ok next
  | .failed cause => .error (.error (.io cause))
  | .pending => .error .pending

/-- The body of the loop in `grpc_to_raw_with_activity`. -/
def writeFrame (m : Build) (io : WriterAnswers) (w : Writer) (frame : Bytes) :
    Except Stop Writer :=
  match decodeGrpcFrameData m frame with
  | .error p => .error (.panic p)
  | .ok none => .ok w
  | .ok (some data) =>
    if data=[] then .ok w else w.call io (.writeAll data) {w with out := w.out++data}

def grpcToRaw (m : Build) (io : WriterAnswers) (recvStream : RecvStream) (w : Writer) :
    Except Stop Writer := do
  let w ← whileFrames (writeFrame m io) w (GrpcFrameReader.new recvStream)
  let w ← w.call io .flush w
  w.call io .shutdown {w with shutdown := true}

/-- The data of a frame that `decode_grpc_frame_data` accepts. -/
def acceptedData (m : Build) (frame : Bytes) : Option Bytes :=
  match decodeGrpcFrameData m frame with
  | .ok r => r
  | .error _ => none

/-- `decode_grpc_frame_data` returns on this frame, with data or without. -/
def Decodes (m : Build) (frame : Bytes) : Prop := ∃ r, decodeGrpcFrameData m frame=.ok r

theorem decodes_of_fits (m : Build) {frame : Bytes} (h : FrameFits frame) : Decodes m frame :=
  ⟨_,decodeGrpcFrameData_fits m frame h⟩

theorem acceptedData_of_fits (m : Build) {frame : Bytes} (h : FrameFits frame) :
    acceptedData m frame=frameData frame := by
  rw [acceptedData,decodeGrpcFrameData_fits m frame h]

/-- It ended with the writer's own error, or waits for the writer. -/
def StoppedBy (io : WriterAnswers) (r : Except Stop Writer) : Prop :=
  ∃ w call, (∃ cause, io w call=.failed cause ∧ r=.error (.error (.io cause))) ∨
    (io w call=.pending ∧ r=.error .pending)

theorem reliable_not_stopped (r : Except Stop Writer) : ¬StoppedBy .reliable r := by
  rintro ⟨w,call,⟨cause,h,-⟩|⟨h,-⟩⟩
  · cases h
  · cases h

theorem StoppedBy.bind {io : WriterAnswers} {r : Except Stop Writer}
    (f : Writer → Except Stop Writer) (h : StoppedBy io r) : StoppedBy io (r.bind f) := by
  obtain ⟨w,call,⟨cause,hw,rfl⟩|⟨hw,rfl⟩⟩ := h
  · exact ⟨w,call,Or.inl ⟨cause,hw,rfl⟩⟩
  · exact ⟨w,call,Or.inr ⟨hw,rfl⟩⟩

theorem Writer.call_spec (io : WriterAnswers) (w : Writer) (call : WriterCall) (next : Writer) :
    w.call io call next=.ok next ∨ StoppedBy io (w.call io call next) := by
  cases h : io w call with
  | done => exact Or.inl (by rw [Writer.call,h])
  | failed cause => exact Or.inr ⟨w,call,Or.inl ⟨cause,h,by rw [Writer.call,h]⟩⟩
  | pending => exact Or.inr ⟨w,call,Or.inr ⟨h,by rw [Writer.call,h]⟩⟩

/-- Steps that each end well or are stopped by the writer. -/
theorem bind_spec {io : WriterAnswers} {r : Except Stop Writer} {f : Writer → Except Stop Writer}
    {mid next : Writer} (hr : r=.ok mid ∨ StoppedBy io r)
    (hf : f mid=.ok next ∨ StoppedBy io (f mid)) :
    r.bind f=.ok next ∨ StoppedBy io (r.bind f) := by
  rcases hr with rfl|hr
  · exact hf
  · exact Or.inr (hr.bind f)

theorem writeFrame_decodes {m : Build} {frame : Bytes} (io : WriterAnswers) (w : Writer)
    (h : Decodes m frame) :
    writeFrame m io w frame=.ok {w with out := w.out++((acceptedData m frame).getD [])} ∨
    StoppedBy io (writeFrame m io w frame) := by
  obtain ⟨r,hr⟩ := h
  simp only [writeFrame,acceptedData]
  rw [hr]
  cases r with
  | none => simp
  | some data =>
    dsimp only
    split_ifs with hd
    · simp [hd]
    · exact Writer.call_spec io w _ _

theorem foldlM_writeFrame {m : Build} (io : WriterAnswers) (fs : List Bytes) (w : Writer)
    (h : ∀ f∈fs, Decodes m f) :
    fs.foldlM (writeFrame m io) w=
      .ok {w with out := w.out++(fs.filterMap (acceptedData m)).flatten} ∨
    StoppedBy io (fs.foldlM (writeFrame m io) w) := by
  induction fs generalizing w with
  | nil => simp [pure,Except.pure]
  | cons f fs ih =>
    have hrest := ih {w with out := w.out++((acceptedData m f).getD [])}
      (fun g hg => h g (by simp [hg]))
    have hout : w.out++((f::fs).filterMap (acceptedData m)).flatten=
        w.out++(acceptedData m f).getD []++(fs.filterMap (acceptedData m)).flatten := by
      cases ha : acceptedData m f <;> simp [ha]
    rw [List.foldlM_cons,hout]
    exact bind_spec (writeFrame_decodes io w (h f (by simp))) hrest

/-- A frame that was written or skipped has been decoded. -/
theorem writeFrame_ok {m : Build} {io : WriterAnswers} {frame : Bytes} {w v : Writer}
    (h : writeFrame m io w frame=.ok v) : Decodes m frame := by
  cases hd : decodeGrpcFrameData m frame with
  | error p =>
    rw [writeFrame,hd] at h
    cases h
  | ok r => exact ⟨r,hd⟩

/-- A loop that came to its end decoded every frame it met. -/
theorem decodes_of_foldlM {m : Build} {io : WriterAnswers} (fs : List Bytes) (w w' : Writer)
    (h : fs.foldlM (writeFrame m io) w=.ok w') : ∀ f∈fs, Decodes m f := by
  induction fs generalizing w with
  | nil => simp
  | cons f fs ih =>
    rw [List.foldlM_cons] at h
    obtain ⟨v,hf,h⟩ := bind_ok h
    intro g hg
    rcases List.mem_cons.mp hg with rfl|hg
    · exact writeFrame_ok hf
    · exact ih v h g hg

/-- What follows the loop. -/
def closeWriter (io : WriterAnswers) (w : Writer) : Except Stop Writer :=
  (w.call io .flush w).bind (fun w => w.call io .shutdown {w with shutdown := true})

theorem closeWriter_spec (io : WriterAnswers) (w : Writer) :
    closeWriter io w=.ok {w with shutdown := true} ∨ StoppedBy io (closeWriter io w) :=
  bind_spec (Writer.call_spec io w _ _) (Writer.call_spec io w _ _)

theorem grpcToRaw_eq (m : Build) (io : WriterAnswers) (recvStream : RecvStream) (w : Writer) :
    grpcToRaw m io recvStream w=
      (((parseFrames recvStream.chunks.flatten).1.foldlM (writeFrame m io) w).bind (fun t =>
        finish recvStream.ending t (parseFrames recvStream.chunks.flatten).2)).bind
          (closeWriter io) := by
  change (whileFrames (writeFrame m io) w (GrpcFrameReader.new recvStream)).bind
    (closeWriter io)=_
  rw [whileFrames_eq]
  rfl

/-- The received bytes as a sequence of complete frames that decode without a panic,
followed by `rest`. -/
def Received (m : Build) (chunks fs : List Bytes) (rest : Bytes) : Prop :=
  chunks.flatten=fs.flatten++rest ∧ ∀ f∈fs, ExactFrame f ∧ Decodes m f

theorem parseFrames_received {m : Build} {chunks fs : List Bytes} {rest : Bytes}
    (h : Received m chunks fs rest) :
    parseFrames chunks.flatten=(fs++(parseFrames rest).1,(parseFrames rest).2) := by
  rw [h.1]
  exact parseFrames_flatten fs rest (fun f hf => (h.2 f hf).1)

theorem grpcToRaw_incomplete {m : Build} {chunks fs : List Bytes} {rest : Bytes}
    (h : Received m chunks fs rest) (hr : Incomplete rest) (io : WriterAnswers) (w : Writer) :
    grpcToRaw m io ⟨chunks,none⟩ w=.ok ⟨w.out++(fs.filterMap (acceptedData m)).flatten,true⟩ ∨
    StoppedBy io (grpcToRaw m io ⟨chunks,none⟩ w) := by
  rw [grpcToRaw_eq,parseFrames_received h,parseFrames_more ((peekFrame_more_iff rest).mpr hr),
    List.append_nil]
  have hloop := foldlM_writeFrame io fs w (fun f hf => (h.2 f hf).2)
  exact bind_spec (bind_spec hloop (Or.inl rfl)) (closeWriter_spec io _)

theorem grpcToRaw_tooLarge {m : Build} {chunks fs : List Bytes} {rest : Bytes}
    (h : Received m chunks fs rest) (h5 : 5 ≤ rest.length) (hr : maxGrpcFrameSize<outerLen rest)
    (io : WriterAnswers) (w : Writer) :
    grpcToRaw m io ⟨chunks,none⟩ w=.error (.error (.frameTooLarge (outerLen rest))) ∨
    StoppedBy io (grpcToRaw m io ⟨chunks,none⟩ w) := by
  have hp := (peekFrame_tooLarge_iff rest (outerLen rest)).mpr ⟨h5,hr,rfl⟩
  rw [grpcToRaw_eq,parseFrames_received h,parseFrames_tooLarge hp,List.append_nil]
  rcases foldlM_writeFrame io fs w (fun f hf => (h.2 f hf).2) with hloop|hloop
  · left
    rw [hloop]
    rfl
  · exact Or.inr ((hloop.bind _).bind _)

theorem parseFrames_tail {bytes : Bytes} {len : Nat} (h : (parseFrames bytes).2=.tooLarge len) :
    ∃ rest, bytes=(parseFrames bytes).1.flatten++rest ∧ peekFrame rest=.tooLarge len := by
  induction bytes using frames_induction with
  | more bytes hp =>
    rw [parseFrames_more hp] at h
    cases h
  | tooLarge bytes k hp =>
    rw [parseFrames_tooLarge hp] at h ⊢
    cases h
    exact ⟨bytes,rfl,hp⟩
  | frame bytes frame q hp hcat _ ih =>
    rw [parseFrames_frame hp] at h ⊢
    obtain ⟨rest,hi,hm⟩ := ih h
    refine ⟨rest,?_,hm⟩
    rw [hcat,List.flatten_cons,List.append_assoc,← hi]

/-- The frames of a stream, and what is left. -/
theorem parseFrames_split (bytes : Bytes) : ∃ rest, bytes=(parseFrames bytes).1.flatten++rest := by
  cases ht : (parseFrames bytes).2 with
  | rest rest => exact ⟨rest,(parseFrames_rest ht).1⟩
  | tooLarge len =>
    obtain ⟨rest,hb,-⟩ := parseFrames_tail ht
    exact ⟨rest,hb⟩

/-- Without a panic every received byte is accounted for: the stream is complete frames
up to an incomplete one or up to a header above the limit. -/
theorem received_of_decodes {m : Build} (chunks : List Bytes)
    (h : ∀ f∈(parseFrames chunks.flatten).1, Decodes m f) :
    ∃ fs rest, Received m chunks fs rest ∧
      (Incomplete rest ∨ (5 ≤ rest.length ∧ maxGrpcFrameSize<outerLen rest)) := by
  have hx := parseFrames_exact chunks.flatten
  cases ht : (parseFrames chunks.flatten).2 with
  | rest rest =>
    obtain ⟨hcat,hm⟩ := parseFrames_rest ht
    exact ⟨_,rest,⟨hcat,fun f hf => ⟨hx f hf,h f hf⟩⟩,Or.inl ((peekFrame_more_iff rest).mp hm)⟩
  | tooLarge len =>
    obtain ⟨rest,hcat,hm⟩ := parseFrames_tail ht
    obtain ⟨h5,hmax,-⟩ := (peekFrame_tooLarge_iff rest len).mp hm
    exact ⟨_,rest,⟨hcat,fun f hf => ⟨hx f hf,h f hf⟩⟩,Or.inr ⟨h5,hmax⟩⟩

theorem grpcToRaw_decodes {m : Build} {io : WriterAnswers} {chunks : List Bytes} {w w' : Writer}
    (h : grpcToRaw m io ⟨chunks,none⟩ w=.ok w') :
    ∀ f∈(parseFrames chunks.flatten).1, Decodes m f := by
  rw [grpcToRaw_eq] at h
  obtain ⟨t,ht,-⟩ := bind_ok h
  obtain ⟨s,hs,-⟩ := bind_ok ht
  exact decodes_of_foldlM _ w s hs

theorem StoppedBy.not_ok {io : WriterAnswers} {r : Except Stop Writer} {w : Writer}
    (h : StoppedBy io r) : r≠.ok w := by
  obtain ⟨v,call,⟨cause,-,rfl⟩|⟨-,rfl⟩⟩ := h
  · simp
  · simp

/-- On a cleanly ended stream, `Ok` only where the bytes are complete frames and then a possibly
empty incomplete one, with the data of the frames that decode delivered and the writer shut down.
Such a stream gives `Ok`, and one with a header above the limit the error for it, unless the
writer fails or waits before that. -/
theorem grpcToRaw_clean_end (m : Build) (io : WriterAnswers) (chunks : List Bytes) :
    (∀ w, grpcToRaw m io ⟨chunks,none⟩ ⟨[],false⟩=.ok w →
      ∃ fs rest, Received m chunks fs rest ∧ Incomplete rest ∧
        w=⟨(fs.filterMap (acceptedData m)).flatten,true⟩) ∧
    (∀ fs rest, Received m chunks fs rest → Incomplete rest →
      grpcToRaw m io ⟨chunks,none⟩ ⟨[],false⟩=
        .ok ⟨(fs.filterMap (acceptedData m)).flatten,true⟩ ∨
      StoppedBy io (grpcToRaw m io ⟨chunks,none⟩ ⟨[],false⟩)) ∧
    (∀ fs rest, Received m chunks fs rest → 5 ≤ rest.length → maxGrpcFrameSize<outerLen rest →
      grpcToRaw m io ⟨chunks,none⟩ ⟨[],false⟩=
        .error (.error (.frameTooLarge (outerLen rest))) ∨
      StoppedBy io (grpcToRaw m io ⟨chunks,none⟩ ⟨[],false⟩)) := by
  refine ⟨?_,?_,?_⟩
  · intro w h
    obtain ⟨fs,rest,hr,hi|⟨h5,hmax⟩⟩ := received_of_decodes chunks (grpcToRaw_decodes h)
    · rcases grpcToRaw_incomplete hr hi io ⟨[],false⟩ with hok|hs
      · rw [hok] at h
        cases h
        exact ⟨fs,rest,hr,hi,rfl⟩
      · exact absurd h hs.not_ok
    · rcases grpcToRaw_tooLarge hr h5 hmax io ⟨[],false⟩ with he|hs
      · rw [he] at h
        cases h
      · exact absurd h hs.not_ok
  · intro fs rest hr hi
    exact grpcToRaw_incomplete hr hi io ⟨[],false⟩
  · intro fs rest hr h5 hmax
    exact grpcToRaw_tooLarge hr h5 hmax io ⟨[],false⟩

/-- Success only on complete frames that all decode, with all of their data delivered;
an error on a stream that stops inside a frame or holds a frame that does not decode. -/
def NoSilentLoss (m : Build) (io : WriterAnswers) (chunks : List Bytes) : Prop :=
  (∀ w, grpcToRaw m io ⟨chunks,none⟩ ⟨[],false⟩=.ok w →
    ∃ fs : List Bytes, chunks.flatten=fs.flatten ∧
      (∀ f∈fs, ExactFrame f ∧ (acceptedData m f).isSome) ∧
      w.out=(fs.filterMap (acceptedData m)).flatten) ∧
  (∀ (fs : List Bytes) rest, chunks.flatten=fs.flatten++rest → (∀ f∈fs, ExactFrame f) → Incomplete rest →
    (rest≠[] ∨ ∃ f∈fs, acceptedData m f=none) →
    ∃ e, grpcToRaw m io ⟨chunks,none⟩ ⟨[],false⟩=.error e)

/-- A single header byte and a frame with a foreign tag are both dropped with success. -/
theorem grpcToRaw_drops_silently :
    grpcToRaw .release .reliable ⟨[[0]],none⟩ ⟨[],false⟩=.ok ⟨[],true⟩ ∧
    grpcToRaw .release .reliable ⟨[[0,0,0,0,1,0x0B]],none⟩ ⟨[],false⟩=.ok ⟨[],true⟩ ∧
    ¬NoSilentLoss .release .reliable [[0]] ∧
    ¬NoSilentLoss .release .reliable [[0,0,0,0,1,0x0B]] := by
  have exact : ExactFrame [0,0,0,0,1,0x0B] := by unfold ExactFrame; decide
  have cut : Incomplete [0] := Or.inl (by decide)
  have none' : Incomplete [] := Or.inl (by decide)
  have skipped : decodeGrpcFrameData .release [0,0,0,0,1,0x0B]=.ok none := by rfl
  have short : Received .release [[0]] [] [0] := ⟨rfl,by simp⟩
  have foreign : Received .release [[0,0,0,0,1,0x0B]] [[0,0,0,0,1,0x0B]] [] :=
    ⟨rfl,by simpa using ⟨exact,_,skipped⟩⟩
  have first := (grpcToRaw_incomplete short cut .reliable ⟨[],false⟩).resolve_right
    (reliable_not_stopped _)
  have second := (grpcToRaw_incomplete foreign none' .reliable ⟨[],false⟩).resolve_right
    (reliable_not_stopped _)
  have rejected : acceptedData .release [0,0,0,0,1,0x0B]=none := by rw [acceptedData,skipped]
  simp only [List.filterMap_nil,List.flatten_nil,List.append_nil] at first
  simp only [List.filterMap_cons,rejected,List.filterMap_nil,List.flatten_nil,
    List.append_nil] at second
  refine ⟨first,second,?_,?_⟩
  · rintro ⟨-,h⟩
    obtain ⟨e,he⟩ := h [] [0] rfl (by simp) cut (Or.inl (by simp))
    rw [first] at he
    cases he
  · rintro ⟨-,h⟩
    obtain ⟨e,he⟩ := h [[0,0,0,0,1,0x0B]] [] rfl (by simpa using exact) none'
      (Or.inr ⟨_,by simp,rejected⟩)
    rw [second] at he
    cases he

end Tobira.Transport
