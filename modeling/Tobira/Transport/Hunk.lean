import Tobira.Framework.Protobuf
import Tobira.Transport.Codec

namespace Tobira.Transport

open Tobira.Framework

/-- The `Hunk` message of the tunnel, `bytes data = 1`. -/
def hunk (data : Bytes) : List Protobuf.Field := [⟨1,.bytes data⟩]

/-- The first byte of a varint below its continuation bit. -/
theorem writeVarint_byte (v : UInt64) :
    (v.toUInt8 &&& 0x7F ||| 0x80)=UInt8.ofNat (v.toNat%128+128) := by
  apply UInt8.toNat_inj.mp
  have hl : (v.toUInt8 &&& 0x7F).toNat=v.toNat%128 := by
    rw [UInt8.toNat_and,UInt64.toNat_toUInt8,show (0x7F : UInt8).toNat=2^7-1 from rfl,
      Nat.and_two_pow_sub_one_eq_mod]
    omega
  rw [UInt8.toNat_or,hl,show (0x80 : UInt8).toNat=2^7*1 from rfl,Nat.or_comm,
    ← Nat.two_pow_add_eq_or_of_lt (Nat.mod_lt _ (by decide)),UInt8.toNat_ofNat']
  omega

/-- `write_varint` writes the varint of the wire format. -/
theorem writeVarint_protobuf (v : UInt64) : writeVarint v=Protobuf.writeVarint v.toNat := by
  induction v using writeVarint.induct with
  | case1 v h =>
    have hv : v.toNat<128 := by simpa [UInt64.lt_iff_toNat_lt] using h
    rw [writeVarint,if_pos h,Protobuf.writeVarint,if_pos hv]
    congr 1
  | case2 v h ih =>
    have hv : ¬v.toNat<128 := by simpa [UInt64.lt_iff_toNat_lt] using h
    have hs : (v>>>7).toNat=v.toNat/128 := by
      simp [UInt64.toNat_shiftRight,Nat.shiftRight_eq_div_pow]
    rw [writeVarint,if_neg h,Protobuf.writeVarint,if_neg hv,ih,hs,writeVarint_byte]

theorem write_hunk (data : Bytes) (h : data.length<2^64) :
    Protobuf.write (hunk data)=[0x0A]++writeVarint (UInt64.ofNat data.length)++data := by
  have hl : (UInt64.ofNat data.length).toNat=data.length := by
    rw [UInt64.toNat_ofNat']
    omega
  have ht : Protobuf.writeVarint 10=[0x0A] := by
    rw [Protobuf.writeVarint]
    rfl
  simp only [Protobuf.write,hunk,List.flatMap_cons,List.flatMap_nil,List.append_nil,
    Protobuf.Field.write,Protobuf.Field.tag,Protobuf.Value.wireType,Protobuf.Value.write]
  rw [show 1*8+2=10 from rfl,ht,writeVarint_protobuf,hl,List.append_assoc]

/-- A gRPC message: the flag for compression, the length and the message. -/
def grpcMessage (flag : UInt8) (message : Bytes) : Bytes :=
  flag::(putU32 (UInt32.ofNat message.length)++message)

theorem encodeGrpcFrame_hunk (data : Bytes) (h : data.length<2^64) :
    encodeGrpcFrame data=grpcMessage 0 (Protobuf.write (hunk data)) := by
  have hw := write_hunk data h
  have hl : (Protobuf.write (hunk data)).length=
      1+varintSize (UInt64.ofNat data.length)+data.length := by
    rw [hw]
    simp only [List.length_append,List.length_cons,List.length_nil,writeVarint_length]
  rw [grpcMessage,hl,hw,encodeGrpcFrame]
  simp only [List.append_assoc,List.cons_append,List.nil_append]

/-- What `decode_gun_payload` makes of a message: it looks at the first field only. -/
def firstHunk : List Protobuf.Field → Option Bytes
  | [] => some []
  | f::_ =>
    match f.value with
    | .bytes data => if f.number=1 then some data else none
    | _ => none

/-- The tag byte of the data field starts no other field. -/
theorem tag_byte {n : Nat} {b : UInt8} {bs : Bytes} (h : Protobuf.writeVarint n=b::bs) :
    b=0x0A ↔ n=10 := by
  rw [Protobuf.writeVarint] at h
  split_ifs at h with hn
  · cases h
    rw [← UInt8.toNat_inj,UInt8.toNat_ofNat',show (0x0A : UInt8).toNat=10 from rfl]
    omega
  · cases h
    rw [← UInt8.toNat_inj,UInt8.toNat_ofNat',show (0x0A : UInt8).toNat=10 from rfl]
    omega

theorem tag_hunk {f : Protobuf.Field} :
    f.tag=10 ↔ f.number=1 ∧ ∃ data, f.value=.bytes data := by
  rw [Protobuf.Field.tag]
  cases hv : f.value with
  | bytes data =>
    simp only [Protobuf.Value.wireType,Protobuf.Value.bytes.injEq,exists_eq',and_true]
    omega
  | _ =>
    simp only [Protobuf.Value.wireType,reduceCtorEq,exists_false,and_false,iff_false]
    omega

theorem decodeGunPayload_other (m : Build) {tag : UInt8} (h : tag≠0x0A) (rest : Bytes) :
    decodeGunPayload m (tag::rest)=.ok none := by
  rw [decodeGunPayload,if_pos h]

theorem decodeGunPayload_data (m : Build) (data w : Bytes)
    (h : (Protobuf.write (hunk data)++w).length<2^64) :
    decodeGunPayload m (Protobuf.write (hunk data)++w)=.ok (some data) := by
  have hlen : data.length<2^64 := by
    rw [List.length_append] at h
    simp only [Protobuf.write,hunk,List.flatMap_cons,List.flatMap_nil,List.append_nil,
      Protobuf.Field.write,Protobuf.Value.write,List.length_append] at h
    omega
  have hword : (UInt64.ofNat data.length).toNat=data.length := by
    rw [UInt64.toNat_ofNat']
    omega
  have hp : Protobuf.write (hunk data)++w=
      0x0A::(writeVarint (UInt64.ofNat data.length)++(data++w)) := by
    rw [write_hunk data hlen]
    simp only [List.append_assoc,List.cons_append,List.nil_append]
  rw [hp] at h ⊢
  have hspan : gunSpan (0x0A::(writeVarint (UInt64.ofNat data.length)++(data++w)))=
      some (1+varintSize (UInt64.ofNat data.length),data.length) := by
    rw [gunSpan,if_neg (by simp),readVarint_write,Option.map_some,hword]
  have hsize : (0x0A::(writeVarint (UInt64.ofNat data.length)++(data++w))).length=
      1+varintSize (UInt64.ofNat data.length)+data.length+w.length := by
    simp only [List.length_cons,List.length_append,writeVarint_length]
    omega
  have hfits : GunFits (0x0A::(writeVarint (UInt64.ofNat data.length)++(data++w))) := by
    intro p hs
    rw [hspan] at hs
    cases hs
    rw [hsize] at h
    simp only [usizeBound]
    omega
  rw [decodeGunPayload_fits m _ hfits]
  simp only [gunData,hspan]
  rw [if_neg (by rw [hsize]; omega),Nat.add_comm 1,List.drop_succ_cons,← writeVarint_length,
    List.drop_left,List.take_left]

theorem decodeGunPayload_write (m : Build) {fields : List Protobuf.Field}
    (h : (Protobuf.write fields).length<2^64) :
    decodeGunPayload m (Protobuf.write fields)=.ok (firstHunk fields) := by
  cases fields with
  | nil => rfl
  | cons f fields =>
    have hw : Protobuf.write (f::fields)=f.write++Protobuf.write fields := by
      rw [Protobuf.write,List.flatMap_cons,Protobuf.write]
    by_cases ht : f.tag=10
    · obtain ⟨hn,data,hv⟩ := tag_hunk.mp ht
      have hf : f=⟨1,.bytes data⟩ := by
        cases f
        simp_all
      subst hf
      have hh : Protobuf.write (hunk data)=(⟨1,.bytes data⟩ : Protobuf.Field).write := by
        rw [Protobuf.write,hunk,List.flatMap_cons,List.flatMap_nil,List.append_nil]
      rw [hw,← hh] at h ⊢
      rw [decodeGunPayload_data m data _ h]
      rfl
    · obtain ⟨b,bs,hb⟩ := List.exists_cons_of_ne_nil (Protobuf.writeVarint_ne_nil f.tag)
      have hne : b≠0x0A := fun he => ht ((tag_byte hb).mp he)
      have hnone : firstHunk (f::fields)=none := by
        simp only [firstHunk]
        split
        · rename_i data hv
          rw [if_neg (fun hn => ht (tag_hunk.mpr ⟨hn,data,hv⟩))]
        · rfl
      rw [hw,Protobuf.Field.write,hb,List.cons_append,List.cons_append,
        decodeGunPayload_other m hne,hnone]

/-- A message in a gRPC frame is what the frame decoder hands on. -/
theorem decodeGrpcFrameData_message (m : Build) (flag : UInt8) {message : Bytes}
    (h : message.length ≤ maxGrpcFrameSize) :
    decodeGrpcFrameData m (grpcMessage flag message)=decodeGunPayload m message := by
  have hmax : maxGrpcFrameSize<2^32 := by decide
  have hputs : (putU32 (UInt32.ofNat message.length)).length=4 := rfl
  have hlen : outerLen (grpcMessage flag message)=message.length := by
    rw [outerLen,grpcMessage,List.drop_succ_cons,List.drop_zero,← hputs,List.take_left,
      fromBeBytes_putU32,UInt32.toNat_ofNat']
    omega
  have hpay : framePayload (grpcMessage flag message)=message := by
    rw [framePayload,hlen,grpcMessage,List.drop_succ_cons,← hputs,List.drop_left,
      List.take_length]
  have hsize : (grpcMessage flag message).length=5+message.length := by
    rw [grpcMessage,List.length_cons,List.length_append,hputs]
    omega
  have hwhole : FrameWhole (grpcMessage flag message) :=
    ⟨by omega,by rw [hlen]; exact h,by rw [hlen,hsize]⟩
  rw [decodeGrpcFrameData_eq,if_pos hwhole,hpay]

/-- The frames are gRPC messages of the protobuf type `Hunk`. Every frame that is written is one,
and any protobuf reader reads its data back; a frame with any fields, known or not, from any
protobuf writer is read by its first field, so that the data is that of the message exactly when
the message is empty or starts with the data field that counts. -/
theorem frames_are_hunks (m : Build) (flag : UInt8) (data : Bytes) (fields : List Protobuf.Field)
    (hd : data.length<2^64) (hf : (Protobuf.write fields).length ≤ maxGrpcFrameSize) :
    (encodeGrpcFrame data=grpcMessage 0 (Protobuf.write (hunk data)) ∧
      Protobuf.read (Protobuf.write (hunk data))=some (hunk data) ∧
      Protobuf.bytesField 1 (hunk data)=data) ∧
    decodeGrpcFrameData m (grpcMessage flag (Protobuf.write fields))=.ok (firstHunk fields) ∧
    (decodeGrpcFrameData m (grpcMessage flag (Protobuf.write fields))=
        .ok (some (Protobuf.bytesField 1 fields)) ↔
      fields=[] ∨ ∃ rest, fields=⟨1,.bytes (Protobuf.bytesField 1 fields)⟩::rest) := by
  have hmax : maxGrpcFrameSize<2^64 := by decide
  have hdecode : decodeGrpcFrameData m (grpcMessage flag (Protobuf.write fields))=
      .ok (firstHunk fields) := by
    rw [decodeGrpcFrameData_message m flag hf,decodeGunPayload_write m (by omega)]
  have hvalid : ∀ f∈hunk data, f.Valid := by
    intro f hm
    rw [List.mem_singleton.mp hm]
    exact ⟨show 1<2^29 by decide,hd⟩
  refine ⟨⟨encodeGrpcFrame_hunk data hd,Protobuf.read_write hvalid,rfl⟩,hdecode,?_⟩
  rw [hdecode,Except.ok.injEq]
  cases fields with
  | nil => simp [firstHunk,Protobuf.bytesField]
  | cons f fields =>
    generalize Protobuf.bytesField 1 (f::fields)=last
    obtain ⟨number,value⟩ := f
    cases value with
    | bytes new =>
      by_cases hn : number=1
      · simp [firstHunk,hn]
      · simp [firstHunk,hn]
    | _ => simp [firstHunk]

/-- A foreign field behind the data, and one before it. -/
theorem frames_are_hunks_foreign :
    decodeGrpcFrameData .release (grpcMessage 0
      (Protobuf.write [⟨1,.bytes [7,8]⟩,⟨2,.varint 300⟩]))=.ok (some [7,8]) ∧
    decodeGrpcFrameData .release (grpcMessage 0
      (Protobuf.write [⟨2,.varint 300⟩,⟨1,.bytes [7,8]⟩]))=.ok none := by
  have hlen : ∀ fields∈[[⟨1,.bytes [7,8]⟩,⟨2,.varint 300⟩],
      [⟨2,.varint 300⟩,(⟨1,.bytes [7,8]⟩ : Protobuf.Field)]],
      (Protobuf.write fields).length ≤ maxGrpcFrameSize := by decide +kernel
  exact ⟨(frames_are_hunks .release 0 [] _ (by decide) (hlen _ (by simp))).2.1,
    (frames_are_hunks .release 0 [] _ (by decide) (hlen _ (by simp))).2.1⟩

end Tobira.Transport
