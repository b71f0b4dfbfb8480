import Tobira.Framework.Machine
import Tobira.Transport.Varint
import Mathlib.Data.List.Induction

namespace Tobira.Transport

open Tobira.Framework

def maxGrpcFrameSize : Nat := 16*1024*1024

/-- `put_u32`: four bytes, most significant first. -/
def putU32 (n : UInt32) : Bytes :=
  [(n>>>24).toUInt8,(n>>>16).toUInt8,(n>>>8).toUInt8,n.toUInt8]

/-- `u32::from_be_bytes` read as an index. -/
def fromBeBytes (b : Bytes) : Nat := b.foldl (fun n x => 256*n+x.toNat) 0

/-- `[0x00][outer_len:4BE][0x0A][varint(inner_len)][data]`. -/
def encodeGrpcFrame (data : Bytes) : Bytes :=
  let innerLen := UInt64.ofNat data.length
  let outerLen := 1+varintSize innerLen+data.length
  [0]++putU32 (UInt32.ofNat outerLen)++[0x0A]++writeVarint innerLen++data

/-- `0x0A`, `varint(len)`, `data`. -/
def decodeGunPayload (m : Build) (payload : Bytes) : Except Panic (Option Bytes) :=
  match payload with
  | [] => .ok (some [])
  | tag::rest =>
      if tag≠0x0A then .ok none
      else match readVarint rest with
        | none => .ok none
        | some (innerLen,varintLen) => do
            let dataStart ← usizeAdd m 1 varintLen
            let stop ← usizeAdd m dataStart innerLen.toNat
            if payload.length<stop then return none
            let stop ← usizeAdd m dataStart innerLen.toNat
            return some (← slice payload dataStart stop)

/-- The length a frame header announces. -/
def outerLen (frame : Bytes) : Nat := fromBeBytes ((frame.drop 1).take 4)

def decodeGrpcFrameData (m : Build) (frame : Bytes) : Except Panic (Option Bytes) := do
  if frame.length<5 then return none
  let len := outerLen frame
  if maxGrpcFrameSize<len then return none
  let stop ← usizeAdd m 5 len
  if frame.length<stop then return none
  decodeGunPayload m (← slice frame 5 stop)

/-- Start and length of the data as a tagged payload announces them. -/
def gunSpan : Bytes → Option (Nat×Nat)
  | [] => none
  | tag::rest =>
      if tag≠0x0A then none else (readVarint rest).map (fun p => (1+p.2,p.1.toNat))

/-- The announced data ends below the word size. -/
def GunFits (payload : Bytes) : Prop :=
  ∀ p, gunSpan payload=some p → p.1+p.2<usizeBound

instance (payload : Bytes) : Decidable (GunFits payload) :=
  inferInstanceAs (Decidable (∀ p∈gunSpan payload, p.1+p.2<usizeBound))

/-- What `decode_gun_payload` means over exact integers. -/
def gunData (payload : Bytes) : Option Bytes :=
  match payload,gunSpan payload with
  | [],_ => some []
  | _,none => none
  | _,some (start,len) =>
      if payload.length<start+len then none else some ((payload.drop start).take len)

def framePayload (frame : Bytes) : Bytes := (frame.drop 5).take (outerLen frame)

/-- The frame is complete and not above the size limit. -/
def FrameWhole (frame : Bytes) : Prop :=
  5≤frame.length ∧ outerLen frame ≤ maxGrpcFrameSize ∧ 5+outerLen frame≤frame.length

instance (frame : Bytes) : Decidable (FrameWhole frame) :=
  inferInstanceAs (Decidable (_ ∧ _ ∧ _))

def FrameFits (frame : Bytes) : Prop := FrameWhole frame → GunFits (framePayload frame)

instance (frame : Bytes) : Decidable (FrameFits frame) := inferInstanceAs (Decidable (_ → _))

def frameData (frame : Bytes) : Option Bytes :=
  if FrameWhole frame then gunData (framePayload frame) else none

theorem fromBeBytes_lt (b : Bytes) : fromBeBytes b<256^b.length := by
  simp only [fromBeBytes]
  induction b using List.reverseRecOn with
  | nil => simp
  | append_singleton b x ih =>
    have hx := x.toNat_lt
    rw [List.foldl_append,List.length_append,List.length_singleton,pow_succ]
    simp only [List.foldl_cons,List.foldl_nil]
    omega

theorem outerLen_lt (frame : Bytes) : outerLen frame<2^32 := by
  have h := fromBeBytes_lt ((frame.drop 1).take 4)
  have hl : ((frame.drop 1).take 4).length≤4 := List.length_take_le _ _
  calc
    outerLen frame < 256^((frame.drop 1).take 4).length := h
    _ ≤ 256^4 := Nat.pow_le_pow_right (by decide) hl
    _ = 2^32 := by norm_num

/-- A span is announced by the tag and a varint behind it. -/
theorem gunSpan_some {payload : Bytes} {start len : Nat} (h : gunSpan payload=some (start,len)) :
    ∃ rest v n, payload=0x0A::rest ∧ readVarint rest=some (v,n) ∧ start=1+n ∧ len=v.toNat := by
  cases payload with
  | nil => cases h
  | cons tag rest =>
    simp only [gunSpan] at h
    split_ifs at h with ht
    obtain ⟨⟨v,n⟩,hr,he⟩ := Option.map_eq_some_iff.mp h
    cases he
    exact ⟨rest,v,n,by rw [not_not.mp ht],hr,rfl,rfl⟩

theorem gunSpan_bounds {payload : Bytes} {start len : Nat}
    (h : gunSpan payload=some (start,len)) :
    0<start ∧ start≤11 ∧ start≤payload.length ∧ len<usizeBound := by
  obtain ⟨rest,v,n,rfl,hr,rfl,rfl⟩ := gunSpan_some h
  have hb := readVarint_bounds rest v n hr
  have hv := v.toNat_lt
  simp only [List.length_cons,usizeBound]
  omega

/-- The announced span decides the decoder: its body after the tag and the varint. -/
theorem decodeGunPayload_span (m : Build) {payload : Bytes} {start len : Nat}
    (h : gunSpan payload=some (start,len)) :
    decodeGunPayload m payload=(do
      let stop ← usizeAdd m start len
      if payload.length<stop then return none
      return some (← slice payload start stop)) := by
  have hb := gunSpan_bounds h
  obtain ⟨rest,v,n,rfl,hr,rfl,rfl⟩ := gunSpan_some h
  have hs := usizeAdd_fits m (show 1+n<usizeBound by unfold usizeBound; omega)
  simp only [decodeGunPayload,ne_eq,not_true_eq_false,if_false,hr,hs,bind,Except.bind]
  cases hst : usizeAdd m (1+n) v.toNat <;> rfl

theorem decodeGunPayload_fits (m : Build) (payload : Bytes) (h : GunFits payload) :
    decodeGunPayload m payload=.ok (gunData payload) := by
  cases hs : gunSpan payload with
  | none =>
    cases payload with
    | nil => rfl
    | cons tag rest =>
      simp only [gunData,hs]
      simp only [gunSpan] at hs
      simp only [decodeGunPayload]
      split_ifs at hs ⊢ with ht
      · rfl
      · rw [Option.map_eq_none_iff.mp hs]
  | some p =>
    obtain ⟨start,len⟩ := p
    have hf := h _ hs
    rw [decodeGunPayload_span m hs,usizeAdd_fits m hf]
    cases payload with
    | nil => simp [gunSpan] at hs
    | cons tag rest =>
      simp only [gunData,hs,bind,Except.bind]
      split_ifs with hl
      · rfl
      · rw [slice_fits (by omega) (by omega),Nat.add_sub_cancel_left]
        rfl

/-- An overflowing span panics in both builds: at once, or at the inverted slice. -/
theorem decodeGunPayload_overflow (m : Build) (payload : Bytes) (h : ¬GunFits payload) :
    ∃ e, decodeGunPayload m payload=.error e := by
  simp only [GunFits] at h
  push Not at h
  obtain ⟨⟨start,len⟩,hs,hf⟩ := h
  obtain ⟨h0,h11,hp,hl⟩ := gunSpan_bounds hs
  have hst : start<usizeBound := by unfold usizeBound; omega
  rw [decodeGunPayload_span m hs]
  simp only [usizeAdd]
  rw [if_neg (Nat.not_lt.mpr hf)]
  cases m with
  | dev => exact ⟨.addOverflow,rfl⟩
  | release =>
    have hm : (start+len)%usizeBound<start := by
      rw [Nat.mod_eq_sub_mod hf,Nat.mod_eq_of_lt (by omega)]
      omega
    simp only [bind,Except.bind]
    rw [if_neg (by omega),slice_wrapped payload hl hf hst]
    exact ⟨_,rfl⟩

theorem decodeGrpcFrameData_eq (m : Build) (frame : Bytes) :
    decodeGrpcFrameData m frame=
      if FrameWhole frame then decodeGunPayload m (framePayload frame) else .ok none := by
  have ho := outerLen_lt frame
  have ha := usizeAdd_fits m (show 5+outerLen frame<usizeBound by unfold usizeBound; omega)
  simp only [decodeGrpcFrameData]
  by_cases h5 : frame.length<5
  · rw [if_pos h5,if_neg (fun hw : FrameWhole frame => Nat.not_le.mpr h5 hw.1)]
    rfl
  rw [if_neg h5]
  by_cases hmax : maxGrpcFrameSize<outerLen frame
  · rw [if_neg (fun hw : FrameWhole frame => Nat.not_le.mpr hmax hw.2.1)]
    simp only [hmax,if_true]
    rfl
  by_cases hlen : frame.length<5+outerLen frame
  · rw [if_neg (fun hw : FrameWhole frame => Nat.not_le.mpr hlen hw.2.2)]
    simp only [hmax,if_false,ha,bind,Except.bind,hlen,if_true]
    rfl
  · have hw : FrameWhole frame := ⟨by omega,by omega,by omega⟩
    rw [if_pos hw]
    simp only [hmax,if_false,ha,bind,Except.bind,hlen]
    rw [slice_fits (by omega) (by omega),Nat.add_sub_cancel_left]
    rfl

theorem decodeGunPayload_length {m : Build} {payload data : Bytes}
    (h : decodeGunPayload m payload=.ok (some data)) : data.length ≤ payload.length := by
  cases payload with
  | nil =>
    cases h
    exact Nat.le_refl _
  | cons tag rest =>
    simp only [decodeGunPayload] at h
    split_ifs at h
    · cases h
    · split at h
      · cases h
      · obtain ⟨start,-,h⟩ := bind_ok h
        obtain ⟨stop,-,h⟩ := bind_ok h
        split_ifs at h
        · cases h
        · obtain ⟨stop',-,h⟩ := bind_ok h
          obtain ⟨out,hs,ho⟩ := bind_ok h
          cases ho
          rw [slice] at hs
          split_ifs at hs
          cases hs
          rw [List.length_take,List.length_drop]
          omega

/-- The data is shorter than its frame by at least the header. -/
theorem decodeGrpcFrameData_length {m : Build} {frame data : Bytes}
    (h : decodeGrpcFrameData m frame=.ok (some data)) : 5+data.length ≤ frame.length := by
  rw [decodeGrpcFrameData_eq] at h
  split_ifs at h with hw
  · have hd := decodeGunPayload_length h
    rw [framePayload,List.length_take,List.length_drop] at hd
    have h5 := hw.1
    omega
  · cases h

theorem decodeGrpcFrameData_fits (m : Build) (frame : Bytes) (h : FrameFits frame) :
    decodeGrpcFrameData m frame=.ok (frameData frame) := by
  rw [decodeGrpcFrameData_eq]
  simp only [frameData]
  split_ifs with hw
  · exact decodeGunPayload_fits m _ (h hw)
  · rfl

theorem decodeGrpcFrameData_overflow (m : Build) (frame : Bytes) (h : ¬FrameFits frame) :
    ∃ e, decodeGrpcFrameData m frame=.error e := by
  simp only [FrameFits] at h
  push Not at h
  rw [decodeGrpcFrameData_eq,if_pos h.1]
  exact decodeGunPayload_overflow m _ h.2

/-- The data is the slice the varint announces, with its end inside the payload.
Only the empty payload has data without a varint. -/
def DataInside (payload data : Bytes) : Prop :=
  (payload=[] ∧ data=[]) ∨
  ∃ v n, readVarint (payload.drop 1)=some (v,n) ∧ 1+n+v.toNat≤payload.length ∧
    data=(payload.drop (1+n)).take v.toNat

def GunSafe (m : Build) (payload : Bytes) : Prop :=
  ∃ r, decodeGunPayload m payload=.ok r ∧ ∀ data, r=some data → DataInside payload data

def FrameSafe (m : Build) (frame : Bytes) : Prop :=
  ∃ r, decodeGrpcFrameData m frame=.ok r ∧
    ∀ data, r=some data → FrameWhole frame ∧ DataInside (framePayload frame) data

theorem gunData_inside {payload data : Bytes} (h : gunData payload=some data) :
    DataInside payload data := by
  cases payload with
  | nil => exact Or.inl ⟨rfl,by simpa [gunData] using h.symm⟩
  | cons tag rest =>
    cases hs : gunSpan (tag::rest) with
    | none => simp [gunData,hs] at h
    | some p =>
      obtain ⟨start,len⟩ := p
      simp only [gunData,hs] at h
      split_ifs at h with hl
      simp only [gunSpan] at hs
      split_ifs at hs with ht
      obtain ⟨⟨v,n⟩,hr,he⟩ := Option.map_eq_some_iff.mp hs
      simp only [Prod.mk.injEq] at he
      obtain ⟨rfl,rfl⟩ := he
      exact Or.inr ⟨v,n,hr,by omega,(Option.some.inj h).symm⟩

theorem gunSafe_iff (m : Build) (payload : Bytes) : GunSafe m payload ↔ GunFits payload := by
  constructor
  · rintro ⟨r,hr,-⟩
    by_contra hf
    obtain ⟨e,he⟩ := decodeGunPayload_overflow m payload hf
    rw [he] at hr
    cases hr
  · intro hf
    exact ⟨_,decodeGunPayload_fits m payload hf,fun data hd => gunData_inside hd⟩

theorem frameSafe_iff (m : Build) (frame : Bytes) : FrameSafe m frame ↔ FrameFits frame := by
  constructor
  · rintro ⟨r,hr,-⟩
    by_contra hf
    obtain ⟨e,he⟩ := decodeGrpcFrameData_overflow m frame hf
    rw [he] at hr
    cases hr
  · intro hf
    refine ⟨_,decodeGrpcFrameData_fits m frame hf,?_⟩
    intro data hd
    simp only [frameData] at hd
    split_ifs at hd with hw
    exact ⟨hw,gunData_inside hd⟩

/-- Neither decoder panics on a byte slice exactly when the announced end of the data
stays below the word size. -/
theorem decode_never_panics_iff (m : Build) (b : Bytes) :
    (GunSafe m b ↔ GunFits b) ∧ (FrameSafe m b ↔ FrameFits b) :=
  ⟨gunSafe_iff m b,frameSafe_iff m b⟩

/-- An inner length of `2^64-2` in eleven bytes: tag and a ten-byte varint. -/
def overflowPayload : Bytes := [0x0A,0xFE,0xFF,0xFF,0xFF,0xFF,0xFF,0xFF,0xFF,0xFF,0x01]

theorem overflowPayload_panics :
    decodeGunPayload .dev overflowPayload=.error .addOverflow ∧
    decodeGunPayload .release overflowPayload=.error (.sliceOrder 11 9) ∧
    decodeGrpcFrameData .release ([0,0,0,0,11]++overflowPayload)=.error (.sliceOrder 11 9) ∧
    (∀ m, ¬GunSafe m overflowPayload ∧ ¬FrameSafe m ([0,0,0,0,11]++overflowPayload)) := by
  have dev : decodeGunPayload .dev overflowPayload=.error .addOverflow := by rfl
  have rel : decodeGunPayload .release overflowPayload=.error (.sliceOrder 11 9) := by rfl
  have whole : FrameWhole ([0,0,0,0,11]++overflowPayload) := by decide
  have fdev : decodeGrpcFrameData .dev ([0,0,0,0,11]++overflowPayload)=.error .addOverflow := by
    rw [decodeGrpcFrameData_eq,if_pos whole]
    rfl
  have frel : decodeGrpcFrameData .release ([0,0,0,0,11]++overflowPayload)=
      .error (.sliceOrder 11 9) := by
    rw [decodeGrpcFrameData_eq,if_pos whole]
    rfl
  refine ⟨dev,rel,frel,?_⟩
  intro m
  cases m with
  | dev =>
    refine ⟨fun ⟨r,hr,_⟩ => ?_,fun ⟨r,hr,_⟩ => ?_⟩
    · rw [dev] at hr; cases hr
    · rw [fdev] at hr; cases hr
  | release =>
    refine ⟨fun ⟨r,hr,_⟩ => ?_,fun ⟨r,hr,_⟩ => ?_⟩
    · rw [rel] at hr; cases hr
    · rw [frel] at hr; cases hr

end Tobira.Transport
