import Tobira.Framework.Pump
import Tobira.Relay.Request

namespace Tobira.Relay

open Tobira.Framework Tobira.Transport

/-- How a relay task fails: a frame above the limit, an error of an HTTP/2 stream, an error of a
raw stream, or a panic. -/
inductive TaskError where
  | frameTooLarge (len : Nat)
  | recvData (cause : H2Error)
  | sendClosed
  | sendData (cause : H2Error)
  | raw
  | panic (p : Panic)
  deriving DecidableEq,Repr

/-- `is_grpc_connection_error`; a task that panics returns no error to look at. -/
def TaskError.isConnection : TaskError → Bool
  | .recvData cause => isH2ConnectionError cause
  | .sendData cause => isH2ConnectionError cause
  | _ => false

/-- The errors of reading from and writing to an HTTP/2 stream or a raw one. -/
def TaskError.isRecv : TaskError → Bool
  | .recvData _ => true
  | _ => false

def TaskError.isSend : TaskError → Bool
  | .sendClosed | .sendData _ => true
  | _ => false

def TaskError.isRaw : TaskError → Bool
  | .raw => true
  | _ => false

theorem encodeGrpcFrame_gain {d : Bytes} (h : 0<d.length) :
    (encodeGrpcFrame d).length≤17*d.length := by
  have hv := varintSize_le_ten (UInt64.ofNat d.length)
  rw [encodeGrpcFrame_length,encodedLen]
  omega

/-- `raw_to_grpc_with_activity`: each read becomes a frame. -/
def rawToGrpcCodec : Codec UInt8 UInt8 TaskError where
  limit := some rawToGrpcReadBufSize
  gain := 17
  next := fun buf => if buf=[] then .more else .unit (encodeGrpcFrame buf) []
  unit := fun inp out =>
    out=encodeGrpcFrame inp ∧ 0 < inp.length ∧ inp.length ≤ rawToGrpcReadBufSize
  limit_pos := by
    intro size hs
    cases hs
    decide
  whole := by
    intro size _ buf h
    by_contra hb
    rw [if_neg hb] at h
    cases h
  spec := by
    intro buf out rest hl h
    split_ifs at h with hb
    cases h
    have hpos := List.length_pos_iff.mpr hb
    exact ⟨buf,hpos,by simp,encodeGrpcFrame_gain hpos,rfl,hpos,hl _ rfl⟩

/-- `grpc_frames_to_grpc_with_activity`: each frame is passed on as it is. -/
def grpcFramesCodec : Codec UInt8 UInt8 TaskError where
  limit := none
  gain := 1
  next := fun buf =>
    match peekFrame buf with
    | .frame frame rest => .unit frame rest
    | .more => .more
    | .tooLarge len => .bad (.frameTooLarge len)
  unit := fun inp out => out=inp ∧ ExactFrame inp
  limit_pos := by
    intro size hs
    cases hs
  whole := by
    intro size hs
    cases hs
  spec := by
    intro buf out rest _ h
    split at h
    · rename_i frame rest' hp
      cases h
      obtain ⟨hb,hx⟩ := peekFrame_frame hp
      have hlen := hx.1
      exact ⟨out,by omega,hb,by omega,rfl,hx⟩
    · cases h
    · cases h

/-- The data of the next frame, none of a frame without. -/
def grpcToRawNext (m : Build) (buf : Bytes) : Next UInt8 UInt8 TaskError :=
  match peekFrame buf with
  | .frame frame rest =>
    match decodeGrpcFrameData m frame with
    | .error p => .bad (.panic p)
    | .ok data => .unit (data.getD []) rest
  | .more => .more
  | .tooLarge len => .bad (.frameTooLarge len)

theorem grpcToRawNext_unit {m : Build} {buf out rest : Bytes}
    (h : grpcToRawNext m buf=.unit out rest) :
    ∃ frame, peekFrame buf=.frame frame rest ∧ out.length≤frame.length ∧ Decodes m frame ∧
      out=(acceptedData m frame).getD [] := by
  rw [grpcToRawNext] at h
  split at h
  · rename_i frame rest' hp
    split at h
    · cases h
    · rename_i data hd
      cases h
      refine ⟨frame,hp,?_,⟨data,hd⟩,?_⟩
      · cases data with
        | none => exact Nat.zero_le _
        | some data =>
          have hl := decodeGrpcFrameData_length hd
          rw [Option.getD_some]
          omega
      · rw [acceptedData,hd]
  · cases h
  · cases h

/-- `grpc_to_raw_with_activity`. -/
def grpcToRawCodec (m : Build) : Codec UInt8 UInt8 TaskError where
  limit := none
  gain := 1
  next := grpcToRawNext m
  unit := fun inp out => ExactFrame inp ∧ Decodes m inp ∧ out=(acceptedData m inp).getD []
  limit_pos := by
    intro size hs
    cases hs
  whole := by
    intro size hs
    cases hs
  spec := by
    intro buf out rest _ h
    obtain ⟨frame,hp,hlen,hd,ho⟩ := grpcToRawNext_unit h
    obtain ⟨hb,hx⟩ := peekFrame_frame hp
    have hpos := hx.1
    exact ⟨frame,by omega,hb,by omega,hx,hd,ho⟩

/-- A codec that works on frames stops only where the reader of frames does. -/
theorem grpcFramesCodec_more {buf : Bytes} (h : grpcFramesCodec.next buf=.more) :
    peekFrame buf=.more := by
  simp only [grpcFramesCodec] at h
  split at h
  · cases h
  · assumption
  · cases h

theorem grpcToRawCodec_more {m : Build} {buf : Bytes} (h : (grpcToRawCodec m).next buf=.more) :
    peekFrame buf=.more := by
  simp only [grpcToRawCodec,grpcToRawNext] at h
  split at h
  · split at h <;> cases h
  · assumption
  · cases h

section Units
variable {units : List (Bytes×Bytes)}

theorem rawToGrpc_units (h : ∀ u∈units, rawToGrpcCodec.unit u.1 u.2) :
    units.map Prod.snd=(units.map Prod.fst).map encodeGrpcFrame := by
  rw [List.map_map]
  exact List.map_congr_left (fun u hu => (h u hu).1)

theorem grpcFrames_units (h : ∀ u∈units, grpcFramesCodec.unit u.1 u.2) :
    units.map Prod.snd=units.map Prod.fst :=
  List.map_congr_left (fun u hu => (h u hu).1)

theorem grpcToRaw_units {m : Build} (h : ∀ u∈units, (grpcToRawCodec m).unit u.1 u.2) :
    (units.map Prod.snd).flatten=framesData m (units.map Prod.fst) := by
  induction units with
  | nil => rfl
  | cons u units ih =>
    have htail := ih (fun v hv => h v (List.mem_cons_of_mem _ hv))
    have hu := (h u List.mem_cons_self).2.2
    rw [List.map_cons,List.map_cons,List.flatten_cons,framesData_cons,htail,hu]

end Units

end Tobira.Relay
