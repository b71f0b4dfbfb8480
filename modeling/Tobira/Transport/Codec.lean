import Tobira.Transport.Frame

namespace Tobira.Transport

open Tobira.Framework

theorem fromBeBytes_putU32 (n : UInt32) : fromBeBytes (putU32 n)=n.toNat := by
  have h := n.toNat_lt
  simp only [putU32,fromBeBytes,List.foldl_cons,List.foldl_nil,UInt32.toNat_toUInt8,
    UInt32.toNat_shiftRight,Nat.shiftRight_eq_div_pow]
  simp only [UInt32.reduceToNat,Nat.reduceMod,Nat.reducePow]
  omega

/-- The length the header of an encoded frame announces. -/
def encodedLen (data : Bytes) : Nat := 1+varintSize (UInt64.ofNat data.length)+data.length

theorem encodeGrpcFrame_eq (data : Bytes) :
    encodeGrpcFrame data=0::(putU32 (UInt32.ofNat (encodedLen data))++
      (0x0A::(writeVarint (UInt64.ofNat data.length)++data))) := by
  simp [encodeGrpcFrame,encodedLen]

theorem encodeGrpcFrame_length (data : Bytes) :
    (encodeGrpcFrame data).length=5+encodedLen data := by
  rw [encodeGrpcFrame_eq]
  simp only [List.length_cons,List.length_append,putU32,List.length_nil,writeVarint_length,
    encodedLen]
  omega

theorem outerLen_encode (data w : Bytes) (h : encodedLen data<2^32) :
    outerLen (encodeGrpcFrame data++w)=encodedLen data := by
  have ht : ((encodeGrpcFrame data++w).drop 1).take 4=putU32 (UInt32.ofNat (encodedLen data)) := by
    rw [encodeGrpcFrame_eq]
    rfl
  rw [outerLen,ht,fromBeBytes_putU32,UInt32.toNat_ofNat']
  exact Nat.mod_eq_of_lt h

theorem framePayload_encode (data w : Bytes) (h : encodedLen data<2^32) :
    framePayload (encodeGrpcFrame data++w)=
      0x0A::(writeVarint (UInt64.ofNat data.length)++data) := by
  have hd : (encodeGrpcFrame data++w).drop 5=
      (0x0A::(writeVarint (UInt64.ofNat data.length)++data))++w := by
    rw [encodeGrpcFrame_eq]
    rfl
  have hl : (0x0A::(writeVarint (UInt64.ofNat data.length)++data)).length=encodedLen data := by
    simp only [List.length_cons,List.length_append,writeVarint_length,encodedLen]
    omega
  rw [framePayload,outerLen_encode data w h,hd,← hl,List.take_left]

theorem gunSpan_encode (data : Bytes) (h : data.length<usizeBound) :
    gunSpan (0x0A::(writeVarint (UInt64.ofNat data.length)++data))=
      some (1+varintSize (UInt64.ofNat data.length),data.length) := by
  have hn : (UInt64.ofNat data.length).toNat=data.length := by
    rw [UInt64.toNat_ofNat']
    exact Nat.mod_eq_of_lt h
  simp only [gunSpan,ne_eq,not_true_eq_false,if_false,readVarint_write,Option.map_some,hn]

theorem gunData_encode (data : Bytes) (h : data.length<usizeBound) :
    gunData (0x0A::(writeVarint (UInt64.ofNat data.length)++data))=some data := by
  have hl : (0x0A::writeVarint (UInt64.ofNat data.length)).length=
      1+varintSize (UInt64.ofNat data.length) := by
    rw [List.length_cons,writeVarint_length,Nat.add_comm]
  have hlen : ¬(0x0A::(writeVarint (UInt64.ofNat data.length)++data)).length<
      1+varintSize (UInt64.ofNat data.length)+data.length := by
    simp only [List.length_cons,List.length_append,writeVarint_length]
    omega
  simp only [gunData,gunSpan_encode data h]
  rw [if_neg hlen,← hl,← List.cons_append,List.drop_left,List.take_length]

theorem frameWhole_encode (data w : Bytes) (h : encodedLen data ≤ maxGrpcFrameSize) :
    FrameWhole (encodeGrpcFrame data++w) := by
  have h32 : encodedLen data<2^32 := by
    simp only [maxGrpcFrameSize] at h
    omega
  have hl : (encodeGrpcFrame data++w).length=5+encodedLen data+w.length := by
    rw [List.length_append,encodeGrpcFrame_length]
  refine ⟨by omega,?_,?_⟩
  · rw [outerLen_encode data w h32]
    exact h
  · rw [outerLen_encode data w h32]
    omega

/-- Decoding inverts encoding up to the size limit, whatever follows the frame. -/
theorem frameData_encode (data w : Bytes) (h : encodedLen data ≤ maxGrpcFrameSize) :
    frameData (encodeGrpcFrame data++w)=some data ∧ FrameFits (encodeGrpcFrame data++w) := by
  have h32 : encodedLen data<2^32 := by
    simp only [maxGrpcFrameSize] at h
    omega
  have hd : data.length<usizeBound := by
    simp only [encodedLen] at h32
    simp only [usizeBound]
    omega
  have hw := frameWhole_encode data w h
  constructor
  · rw [frameData,if_pos hw,framePayload_encode data w h32]
    exact gunData_encode data hd
  · intro _ p hp
    rw [framePayload_encode data w h32,gunSpan_encode data hd] at hp
    obtain rfl := Option.some.inj hp
    have hv := varintSize_le_ten (UInt64.ofNat data.length)
    simp only [encodedLen] at h32
    simp only [usizeBound]
    omega

theorem encodedLen_le (data : Bytes) : encodedLen data≤11+data.length := by
  have hv := varintSize_le_ten (UInt64.ofNat data.length)
  simp only [encodedLen]
  omega

/-- A header in full announces what it announces in any prefix that holds it. -/
theorem outerLen_front {p frame : Bytes} (h : p<+:frame) (h5 : 5≤p.length) :
    outerLen p=outerLen frame := by
  obtain ⟨rest,rfl⟩ := h
  have ht : (p++rest).drop 1=p.drop 1++rest := List.drop_append_of_le_length (by omega)
  rw [outerLen,outerLen,ht,List.take_append_of_le_length (by rw [List.length_drop]; omega)]

theorem decodeGrpcFrameData_none (m : Build) {frame : Bytes} (h : ¬FrameWhole frame) :
    decodeGrpcFrameData m frame=.ok none := by
  rw [decodeGrpcFrameData_eq,if_neg h]

/-- Encoding and decoding at the size limit: what follows a frame is ignored, and no part of a
frame is taken for one. -/
theorem codec_limits (m : Build) (data : Bytes) (h : encodedLen data<2^32) :
    (encodeGrpcFrame data).length=5+encodedLen data ∧
    outerLen (encodeGrpcFrame data)=encodedLen data ∧
    (∀ w, decodeGrpcFrameData m (encodeGrpcFrame data++w)=
      .ok (if encodedLen data ≤ maxGrpcFrameSize then some data else none)) ∧
    ∀ p, p<+:encodeGrpcFrame data → p≠encodeGrpcFrame data →
      decodeGrpcFrameData m p=.ok none := by
  have houter : outerLen (encodeGrpcFrame data)=encodedLen data := by
    have hw := outerLen_encode data [] h
    rwa [List.append_nil] at hw
  refine ⟨encodeGrpcFrame_length data,houter,?_,?_⟩
  · intro w
    split_ifs with hmax
    · obtain ⟨hdata,hfits⟩ := frameData_encode data w hmax
      rw [decodeGrpcFrameData_fits m _ hfits,hdata]
    · apply decodeGrpcFrameData_none
      intro hw
      have hle := hw.2.1
      rw [outerLen_encode data w h] at hle
      exact hmax hle
  · intro p hp hne
    have hlt : p.length<(encodeGrpcFrame data).length :=
      Nat.lt_of_le_of_ne hp.length_le (fun he => hne (hp.eq_of_length he))
    apply decodeGrpcFrameData_none
    intro hw
    have hlen := hw.2.2
    rw [outerLen_front hp hw.1,houter] at hlen
    rw [encodeGrpcFrame_length] at hlt
    omega

theorem codec_limits_byte : ∃ data : Bytes, encodedLen data<2^32 ∧ data≠[] ∧
    decodeGrpcFrameData .release (encodeGrpcFrame data++[0xFF])=.ok (some data) ∧
    decodeGrpcFrameData .release ((encodeGrpcFrame data).take 7)=.ok none := by
  have hle := encodedLen_le [0x2A]
  have hone : ([0x2A] : Bytes).length=1 := rfl
  have hfits : encodedLen [0x2A]<2^32 := by omega
  have hmax : encodedLen [0x2A] ≤ maxGrpcFrameSize := by
    rw [maxGrpcFrameSize]
    omega
  obtain ⟨hlen,-,hwhole,hpart⟩ := codec_limits .release [0x2A] hfits
  have hd := hwhole [0xFF]
  rw [if_pos hmax] at hd
  refine ⟨[0x2A],hfits,by simp,hd,hpart _ (List.take_prefix 7 _) ?_⟩
  intro he
  have hl := congrArg List.length he
  rw [List.length_take,hlen,encodedLen,hone] at hl
  have hpos : 0<varintSize (UInt64.ofNat 1) := (readVarint_bounds _ _ _ (readVarint_write _ [])).1
  omega

end Tobira.Transport
