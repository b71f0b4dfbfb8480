import Tobira.Transport.GrpcToRaw

namespace Tobira.Transport

open Tobira.Framework

def rawToGrpcReadBufSize : Nat := 16*1024

/-- What one `poll_capacity` resolves to. -/
inductive Capacity where
  | granted (n : Nat)
  | closed
  | failed (cause : H2Error)
  deriving DecidableEq,Repr

/-- One `send_data` call. -/
structure DataFrame where
  data : Bytes
  endStream : Bool
  deriving DecidableEq,Repr

/-- The bytes a sequence of DATA frames puts on the wire. -/
def wire (sent : List DataFrame) : Bytes := (sent.map DataFrame.data).flatten

@[simp] theorem wire_append (a b : List DataFrame) : wire (a++b)=wire a++wire b := by
  simp [wire]

/-- The `while !data.is_empty()` loop of `send_grpc_data`. -/
def sendChunks (endOfStream : Bool) :
    List Capacity → Bytes → Except Stop (List DataFrame×List Capacity)
  | caps,[] => .ok ([],caps)
  | [],_ => .error .pending
  | .closed::_,_ => .error (.error .sendClosed)
  | .failed e::_,_ => .error (.error (.pollCapacity e))
  | .granted capacity::caps,data =>
      if capacity=0 then sendChunks endOfStream caps data
      else
        let n := min capacity data.length
        let rest := data.drop n
        let isEnd := endOfStream && rest.isEmpty
        (sendChunks endOfStream caps rest).map
          (fun p => (⟨data.take n,isEnd⟩::p.1,p.2))

def sendGrpcData (caps : List Capacity) (data : Bytes) (endOfStream : Bool) :
    Except Stop (List DataFrame×List Capacity) :=
  if data=[] then .ok ([⟨[],endOfStream⟩],caps) else sendChunks endOfStream caps data

/-- `raw_to_grpc_with_activity`; the list holds what the successive reads return and a read
of zero bytes, or no further read, is the end of the input. -/
def rawToGrpc : List Bytes → List Capacity → Except Stop (List DataFrame×List Capacity)
  -- The result of this last call is dropped in the source; without data it waits for nothing.
  | [],caps => sendGrpcData caps [] true
  | d::ds,caps =>
      if d=[] then sendGrpcData caps [] true
      else do
        let (sent,caps) ← sendGrpcData caps (encodeGrpcFrame d) false
        let (rest,caps) ← rawToGrpc ds caps
        return (sent++rest,caps)

/-- The body of the loop in `grpc_frames_to_grpc_with_activity`. -/
def forwardFrame (p : List DataFrame×List Capacity) (frame : Bytes) :
    Except Stop (List DataFrame×List Capacity) :=
  (sendGrpcData p.2 frame false).map (fun q => (p.1++q.1,q.2))

def grpcFramesToGrpc (reader : GrpcFrameReader) (caps : List Capacity) :
    Except Stop (List DataFrame×List Capacity) := do
  let p ← whileFrames forwardFrame ([],caps) reader
  let (last,caps) ← sendGrpcData p.2 [] true
  return (p.1++last,caps)

/-- The DATA frames of one message: they make up the message, none is empty and none ends
the stream. -/
def Carries (message : Bytes) (sent : List DataFrame) : Prop :=
  wire sent=message ∧ ∀ f∈sent, f.data≠[] ∧ f.endStream=false

theorem sendChunks_carries {caps left : List Capacity} {data : Bytes} {sent : List DataFrame}
    (h : sendChunks false caps data=.ok (sent,left)) : Carries data sent := by
  induction caps generalizing data sent with
  | nil =>
    cases data with
    | nil =>
      simp only [sendChunks,Except.ok.injEq,Prod.mk.injEq] at h
      exact ⟨by simp [← h.1,wire],by simp [← h.1]⟩
    | cons b data => simp [sendChunks] at h
  | cons c caps ih =>
    cases data with
    | nil =>
      simp only [sendChunks,Except.ok.injEq,Prod.mk.injEq] at h
      exact ⟨by simp [← h.1,wire],by simp [← h.1]⟩
    | cons b data =>
      cases c with
      | closed => simp [sendChunks] at h
      | failed e => simp [sendChunks] at h
      | granted capacity =>
        simp only [sendChunks] at h
        split_ifs at h with hc
        · exact ih h
        · obtain ⟨⟨fs,l⟩,hs,h⟩ := map_ok h
          cases h
          obtain ⟨hw,hf⟩ := ih hs
          constructor
          · change (b::data).take _++wire fs=b::data
            rw [hw,List.take_append_drop]
          · intro f hmem
            rcases List.mem_cons.mp hmem with rfl|hmem
            · refine ⟨?_,by simp⟩
              have hp : 0 < min capacity (b::data).length := by
                rw [List.length_cons]
                omega
              intro hnil
              have hl := congrArg List.length hnil
              simp only [List.length_take,List.length_cons,List.length_nil] at hl hp
              omega
            · exact hf f hmem

theorem sendGrpcData_carries {caps left : List Capacity} {data : Bytes} {sent : List DataFrame}
    (hd : data≠[]) (h : sendGrpcData caps data false=.ok (sent,left)) : Carries data sent := by
  rw [sendGrpcData,if_neg hd] at h
  exact sendChunks_carries h

theorem sendGrpcData_wire {caps left : List Capacity} {data : Bytes} {sent : List DataFrame}
    (h : sendGrpcData caps data false=.ok (sent,left)) : wire sent=data := by
  by_cases hd : data=[]
  · rw [sendGrpcData,if_pos hd] at h
    cases h
    rw [hd]
    rfl
  · exact (sendGrpcData_carries hd h).1

/-- Forwarding puts the frames on the wire as they are. -/
theorem foldlM_forwardFrame {frames : List Bytes} {p q : List DataFrame×List Capacity}
    (h : frames.foldlM forwardFrame p=.ok q) : wire q.1=wire p.1++frames.flatten := by
  induction frames generalizing p with
  | nil =>
    cases h
    simp
  | cons frame frames ih =>
    rw [List.foldlM_cons] at h
    obtain ⟨r,hr,h⟩ := bind_ok h
    obtain ⟨s,hs,rfl⟩ := map_ok hr
    rw [ih h,wire_append,sendGrpcData_wire hs,List.flatten_cons,List.append_assoc]

/-- On a cleanly ended stream the forwarded frames are those of the parse, and nothing of the
stream was above the limit. -/
theorem grpcFramesToGrpc_wire {r : GrpcFrameReader} {caps left : List Capacity}
    {sent : List DataFrame} (he : r.recvStream.ending=none)
    (h : grpcFramesToGrpc r caps=.ok (sent,left)) :
    wire sent=(parseFrames r.bytes).1.flatten ∧ ∃ rest, (parseFrames r.bytes).2=.rest rest := by
  rw [grpcFramesToGrpc] at h
  obtain ⟨p,hp,h⟩ := bind_ok h
  rw [whileFrames_eq] at hp
  obtain ⟨q,hf,hq⟩ := bind_ok hp
  cases ht : (parseFrames r.bytes).2 with
  | tooLarge len =>
    rw [ht] at hq
    cases hq
  | rest rest =>
    simp only [ht,finish,he] at hq
    cases hq
    rw [sendGrpcData,if_pos rfl] at h
    cases h
    refine ⟨?_,rest,rfl⟩
    have hw : wire [⟨[],true⟩]=[] := rfl
    rw [wire_append,foldlM_forwardFrame hf,hw,List.append_nil]
    rfl

/-- Number of grants that let at least one byte through. -/
def positives : List Capacity → Nat
  | [] => 0
  | .granted n::caps => (if n=0 then 0 else 1)+positives caps
  | _::caps => positives caps

def AllGranted (caps : List Capacity) : Prop := ∀ c∈caps, ∃ n, c=.granted n

/-- Every positive grant moves a byte, so that many grants are enough. -/
theorem sendChunks_progress (eos : Bool) (caps : List Capacity) (data : Bytes)
    (hg : AllGranted caps) (hp : data.length≤positives caps) :
    ∃ sent left, sendChunks eos caps data=.ok (sent,left) ∧ AllGranted left ∧
      positives caps≤positives left+data.length := by
  induction caps generalizing data with
  | nil =>
    have hd : data=[] := List.eq_nil_of_length_eq_zero (by simpa [positives] using hp)
    subst data
    exact ⟨[],[],by simp [sendChunks],hg,by simp⟩
  | cons c caps ih =>
    obtain ⟨n,rfl⟩ := hg c (by simp)
    have hg' : AllGranted caps := fun c hc => hg c (by simp [hc])
    cases data with
    | nil => exact ⟨[],.granted n::caps,by simp [sendChunks],hg,by simp⟩
    | cons b data =>
      simp only [sendChunks,positives] at hp ⊢
      split_ifs at hp ⊢ with hn
      · obtain ⟨sent,left,hs,hl,hq⟩ := ih (b::data) hg' (by omega)
        exact ⟨sent,left,hs,hl,by omega⟩
      · have hlen : ((b::data).drop (min n (b::data).length)).length<(b::data).length := by
          rw [List.length_drop,List.length_cons]
          omega
        obtain ⟨sent,left,hs,hl,hq⟩ := ih ((b::data).drop (min n (b::data).length)) hg' (by omega)
        rw [hs]
        exact ⟨_,left,rfl,hl,by omega⟩

end Tobira.Transport
