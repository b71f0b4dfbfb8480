import Mathlib.Algebra.BigOperators.Group.Finset.Basic
import Mathlib.Algebra.BigOperators.Ring.Finset
import Mathlib.Data.Nat.Bitwise
import Mathlib.Tactic.Ring

namespace Tobira.Transport

abbrev Bytes := List UInt8

private theorem shift_toNat (v : UInt64) : (v>>>7).toNat=v.toNat/128 := by
  simp [UInt64.toNat_shiftRight,Nat.shiftRight_eq_div_pow]

private theorem large_toNat {v : UInt64} (h : ¬v<0x80) : 128≤v.toNat := by
  simpa [UInt64.lt_iff_toNat_lt] using h

/-- Number of bytes required to encode `v` as a protobuf varint. -/
def varintSize (v : UInt64) : Nat :=
  if v<0x80 then 1 else varintSize (v>>>7)+1
termination_by v.toNat
decreasing_by
  have h := large_toNat (v := v) (by assumption)
  rw [shift_toNat]
  omega

/-- The bytes `write_varint` appends, low seven bits first. -/
def writeVarint (v : UInt64) : Bytes :=
  if v<0x80 then [v.toUInt8]
  else ((v.toUInt8 &&& 0x7F) ||| 0x80)::writeVarint (v>>>7)
termination_by v.toNat
decreasing_by
  have h := large_toNat (v := v) (by assumption)
  rw [shift_toNat]
  omega

/-- The loop of `read_varint`; `i` is the index of the byte at hand. -/
def readVarintFrom : Bytes → UInt64 → Nat → Nat → Option (UInt64×Nat)
  | [],_,_,_ => none
  | b::bs,result,shift,i =>
      if 64 ≤ shift then none
      else
        let result := result ||| ((b &&& 0x7F).toUInt64<<<UInt64.ofNat shift)
        if b<0x80 then some (result,i+1) else readVarintFrom bs result (shift+7) (i+1)

def readVarint (bytes : Bytes) : Option (UInt64×Nat) := readVarintFrom bytes 0 0 0

theorem writeVarint_length (v : UInt64) : (writeVarint v).length=varintSize v := by
  induction v using writeVarint.induct with
  | case1 v h =>
    rw [writeVarint,varintSize,if_pos h,if_pos h]
    rfl
  | case2 v h ih =>
    rw [writeVarint,varintSize,if_neg h,if_neg h,List.length_cons,ih]

/-- Seven more bits shrink the value by a factor of 128, so `k` bytes hold `7*k` bits. -/
theorem varintSize_le (v : UInt64) (k : Nat) (h : v.toNat<2^(7*(k+1))) : varintSize v≤k+1 := by
  induction k generalizing v with
  | zero =>
    have hs : v<0x80 := by
      rw [UInt64.lt_iff_toNat_lt]
      simpa using h
    rw [varintSize,if_pos hs]
  | succ k ih =>
    rw [varintSize]
    split_ifs with hs
    · omega
    · have hd : (v>>>7).toNat<2^(7*(k+1)) := by
        rw [shift_toNat,Nat.div_lt_iff_lt_mul (by decide)]
        calc
          v.toNat < 2^(7*(k+1+1)) := h
          _ = 2^(7*(k+1))*128 := by rw [show 7*(k+1+1)=7*(k+1)+7 by ring,pow_add]; norm_num
      have hi := ih (v>>>7) hd
      omega

theorem varintSize_le_ten (v : UInt64) : varintSize v≤10 := by
  apply varintSize_le v 9
  have h := v.toNat_lt
  omega

private theorem low_bits (b : UInt8) : (b &&& 0x7F).toNat=b.toNat%128 := by
  rw [UInt8.toNat_and,show (0x7F : UInt8).toNat=2^7-1 from rfl,Nat.and_two_pow_sub_one_eq_mod]

private theorem toUInt8_low (v : UInt64) : v.toUInt8.toNat%128=v.toNat%128 := by
  rw [UInt64.toNat_toUInt8]
  omega

/-- Or-ing the next seven bits above `2^shift` is addition; what does not fit the word is lost. -/
private theorem accumulate_mod (r : UInt64) (b : UInt8) (shift : Nat) (hs : shift<64)
    (hr : r.toNat<2^shift) :
    (r ||| ((b &&& 0x7F).toUInt64<<<UInt64.ofNat shift)).toNat=
      r.toNat+b.toNat%128*2^shift%2^64 := by
  have hn : (UInt64.ofNat shift).toNat%64=shift := by
    rw [UInt64.toNat_ofNat']
    omega
  have hword : 2^64=2^(64-shift)*2^shift := by
    rw [← pow_add]
    congr 1
    omega
  rw [UInt64.toNat_or,UInt64.toNat_shiftLeft,hn,UInt8.toNat_toUInt64,low_bits,
    Nat.shiftLeft_eq,hword,Nat.mul_mod_mul_right,Nat.or_comm,Nat.mul_comm,
    ← Nat.two_pow_add_eq_or_of_lt hr]
  omega

private theorem accumulate_toNat (r : UInt64) (b : UInt8) (shift : Nat) (hs : shift<64)
    (hr : r.toNat<2^shift) (hf : b.toNat%128*2^shift<2^64) :
    (r ||| ((b &&& 0x7F).toUInt64<<<UInt64.ofNat shift)).toNat=
      r.toNat+b.toNat%128*2^shift := by
  rw [accumulate_mod r b shift hs hr,Nat.mod_eq_of_lt hf]

private theorem continued_byte (v : UInt64) :
    ¬(v.toUInt8 &&& 0x7F ||| 0x80)<0x80 ∧
      (v.toUInt8 &&& 0x7F ||| 0x80).toNat%128=v.toNat%128 := by
  have hl := low_bits v.toUInt8
  have ho : (v.toUInt8 &&& 0x7F ||| 0x80).toNat=v.toNat%128+128 := by
    rw [UInt8.toNat_or,hl,toUInt8_low,show (0x80 : UInt8).toNat=2^7*1 from rfl,Nat.or_comm,
      ← Nat.two_pow_add_eq_or_of_lt (Nat.mod_lt _ (by decide))]
    omega
  refine ⟨?_,by omega⟩
  rw [UInt8.lt_iff_toNat_lt,ho]
  simp

/-- Reading back a written varint in the middle of the loop: `r` holds the bits below `shift`. -/
theorem readVarintFrom_write (v r : UInt64) (shift i : Nat) (w : Bytes)
    (hs : shift<64) (hr : r.toNat<2^shift) (hf : r.toNat+v.toNat*2^shift<2^64) :
    readVarintFrom (writeVarint v++w) r shift i=
      some (UInt64.ofNat (r.toNat+v.toNat*2^shift),i+varintSize v) := by
  induction v using writeVarint.induct generalizing r shift i with
  | case1 v h =>
    have hv : v.toNat<128 := by simpa [UInt64.lt_iff_toNat_lt] using h
    have hb : v.toUInt8.toNat=v.toNat := by rw [UInt64.toNat_toUInt8]; omega
    have hlow : v.toUInt8<0x80 := by rw [UInt8.lt_iff_toNat_lt,hb]; exact hv
    have hm : v.toUInt8.toNat%128=v.toNat := by rw [hb,Nat.mod_eq_of_lt hv]
    have hacc := accumulate_toNat r v.toUInt8 shift hs hr (by rw [hm]; omega)
    rw [hm] at hacc
    rw [writeVarint,if_pos h,varintSize,if_pos h]
    simp only [List.cons_append,List.nil_append,readVarintFrom,if_neg (Nat.not_le.mpr hs),
      if_pos hlow]
    rw [← hacc,UInt64.ofNat_toNat]
  | case2 v h ih =>
    have hv := large_toNat h
    obtain ⟨hc,hm⟩ := continued_byte v
    have hp : 0<2^shift := Nat.two_pow_pos shift
    have hvs : v.toNat=v.toNat%128+128*(v.toNat/128) := by omega
    have hsum : v.toNat%128*2^shift+v.toNat/128*2^(shift+7)=v.toNat*2^shift := by
      conv_rhs => rw [hvs]
      rw [pow_add]
      ring
    have hacc := accumulate_toNat r (v.toUInt8 &&& 0x7F ||| 0x80) shift hs hr
      (by rw [hm]; omega)
    rw [hm] at hacc
    -- another byte follows, so the value still fits only if the next shift is below 64
    have hs' : shift+7<64 := by
      by_contra hbad
      have h64 : 2^64≤2^(shift+7) := Nat.pow_le_pow_right (by decide) (by omega)
      have hq : 1*2^(shift+7)≤v.toNat/128*2^(shift+7) := Nat.mul_le_mul_right _ (by omega)
      omega
    have hlow : v.toNat%128*2^shift+2^shift≤128*2^shift := by
      have := Nat.mul_le_mul_right (2^shift) (show v.toNat%128+1≤128 by omega)
      rwa [Nat.add_mul,Nat.one_mul] at this
    rw [writeVarint,if_neg h,varintSize,if_neg h]
    simp only [List.cons_append,readVarintFrom,if_neg (Nat.not_le.mpr hs),if_neg hc]
    rw [ih _ (shift+7) (i+1) hs' (by rw [hacc,pow_add]; omega)
      (by rw [hacc,shift_toNat]; omega),hacc,shift_toNat,Nat.add_assoc,hsum]
    congr 2
    omega

/-- The reader inverts the writer for every value and ignores what follows. -/
theorem readVarint_write (v : UInt64) (w : Bytes) :
    readVarint (writeVarint v++w)=some (v,varintSize v) := by
  have h := readVarintFrom_write v 0 0 0 w (by decide) (by simp) (by simpa using v.toNat_lt)
  simpa [readVarint] using h

theorem readVarintFrom_bounds (bs : Bytes) (r v : UInt64) (shift i n : Nat)
    (h : readVarintFrom bs r shift i=some (v,n)) :
    i<n ∧ n ≤ i+bs.length ∧ shift+7*(n-i-1)<64 := by
  induction bs generalizing r shift i with
  | nil => simp [readVarintFrom] at h
  | cons b bs ih =>
    simp only [readVarintFrom] at h
    split_ifs at h with hs hb
    · simp only [Option.some.injEq,Prod.mk.injEq] at h
      simp only [List.length_cons]
      omega
    · have hi := ih _ _ _ h
      simp only [List.length_cons]
      omega

/-- A varint that is read takes one to ten bytes, all of them present. -/
theorem readVarint_bounds (bs : Bytes) (v : UInt64) (n : Nat) (h : readVarint bs=some (v,n)) :
    0<n ∧ n≤10 ∧ n≤bs.length := by
  have hb := readVarintFrom_bounds bs 0 v 0 0 n h
  omega

/-- The bytes that continue a varint stop at its last one, the `n`-th. -/
def EndsAt : Bytes → Nat → Prop
  | b::bs,n+1 => (b<0x80 ∧ n=0) ∨ (¬b<0x80 ∧ EndsAt bs n)
  | _,_ => False

/-- The groups of seven bits, lowest first. -/
def groupsValue : Bytes → Nat
  | [] => 0
  | b::bs => b.toNat%128+128*groupsValue bs

theorem groupsValue_cons (b : UInt8) (bs : Bytes) (i : Nat) :
    groupsValue (b::bs)*2^(7*i)=b.toNat%128*2^(7*i)+groupsValue bs*2^(7*(i+1)) := by
  rw [groupsValue,Nat.mul_add 7,pow_add]
  ring

/-- The bits read so far stay below the next group. -/
theorem accumulate_lt {r g i : Nat} (hr : r<2^(7*i)) :
    (r+g%128*2^(7*i))%2^64<2^(7*(i+1)) := by
  have hg : (g%128+1)*2^(7*i)≤128*2^(7*i) := Nat.mul_le_mul_right _ (by omega)
  have hp : 2^(7*(i+1))=128*2^(7*i) := by
    rw [Nat.mul_add,pow_add]
    ring
  have hle := Nat.mod_le (r+g%128*2^(7*i)) (2^64)
  rw [Nat.add_mul,Nat.one_mul] at hg
  omega

/-- What the loop gives at the `i`-th byte; `r` holds the bits of those before it. -/
theorem readVarintFrom_iff (bs : Bytes) (r v : UInt64) (i n : Nat) (hr : r.toNat<2^(7*i)) :
    readVarintFrom bs r (7*i) i=some (v,i+n) ↔
      EndsAt bs n ∧ i+n≤10 ∧ v.toNat=(r.toNat+groupsValue (bs.take n)*2^(7*i))%2^64 := by
  induction bs generalizing r i n with
  | nil => simp [readVarintFrom,EndsAt]
  | cons b bs ih =>
    cases n with
    | zero =>
      refine iff_of_false ?_ (fun h => h.1)
      intro h
      have hb := readVarintFrom_bounds _ _ _ _ _ _ h
      omega
    | succ n =>
      by_cases hs : 64≤7*i
      · rw [readVarintFrom,if_pos hs]
        refine iff_of_false (by simp) ?_
        intro h
        omega
      have hacc := accumulate_mod r b (7*i) (Nat.not_le.mp hs) hr
      rw [readVarintFrom,if_neg hs]
      generalize r ||| ((b &&& 0x7F).toUInt64<<<UInt64.ofNat (7*i))=r' at hacc
      have hval : r'.toNat=(r.toNat+b.toNat%128*2^(7*i))%2^64 := by
        rw [← Nat.add_mod_mod,← hacc,Nat.mod_eq_of_lt r'.toNat_lt]
      by_cases hb : b<0x80
      · rw [if_pos hb,Option.some.injEq,Prod.mk.injEq]
        constructor
        · rintro ⟨rfl,hn⟩
          obtain rfl : n=0 := by omega
          refine ⟨Or.inl ⟨hb,rfl⟩,by omega,?_⟩
          simpa [groupsValue] using hval
        · rintro ⟨⟨-,rfl⟩|⟨hc,-⟩,-,hv⟩
          · refine ⟨?_,rfl⟩
            rw [← UInt64.toNat_inj,hval,hv]
            simp [groupsValue]
          · exact absurd hb hc
      · have hr' : r'.toNat<2^(7*(i+1)) := by
          rw [hval]
          exact accumulate_lt hr
        have hi := ih r' (i+1) n hr'
        have hgroups := groupsValue_cons b (bs.take n) i
        rw [← List.take_succ_cons] at hgroups
        rw [hval,Nat.mod_add_mod,Nat.add_assoc r.toNat,← hgroups,Nat.mul_add 7,
          Nat.add_assoc i 1 n,Nat.add_comm 1 n] at hi
        simp only [if_neg hb]
        rw [hi,EndsAt]
        simp only [hb,false_and,not_false_eq_true,true_and,false_or]

theorem endsAt_iff (b : Bytes) (n : Nat) : EndsAt b n ↔
    (∃ last, 0<n ∧ b[n-1]?=some last ∧ last<0x80) ∧
      ∀ i, i+1<n → ∃ byte, b[i]?=some byte ∧ 0x80 ≤ byte := by
  induction b generalizing n with
  | nil => simp [EndsAt]
  | cons b bs ih =>
    cases n with
    | zero => simp [EndsAt]
    | succ n =>
      rw [EndsAt,ih]
      constructor
      · rintro (⟨hb,rfl⟩|⟨hb,⟨last,hn,hl,hlast⟩,hcont⟩)
        · exact ⟨⟨b,Nat.one_pos,rfl,hb⟩,fun i hi => absurd hi (by omega)⟩
        · refine ⟨⟨last,Nat.succ_pos n,?_,hlast⟩,?_⟩
          · obtain ⟨k,rfl⟩ := Nat.exists_eq_add_of_lt hn
            simpa using hl
          · intro i hi
            cases i with
            | zero => exact ⟨b,rfl,UInt8.not_lt.mp hb⟩
            | succ i => exact hcont i (by omega)
      · rintro ⟨⟨last,-,hl,hlast⟩,hcont⟩
        cases n with
        | zero =>
          cases hl
          exact Or.inl ⟨hlast,rfl⟩
        | succ n =>
          obtain ⟨byte,hbyte,hge⟩ := hcont 0 (by omega)
          cases hbyte
          refine Or.inr ⟨UInt8.not_lt.mpr hge,⟨last,Nat.succ_pos n,hl,hlast⟩,?_⟩
          intro i hi
          exact hcont (i+1) (by omega)

theorem groupsValue_take (b : Bytes) (n : Nat) :
    groupsValue (b.take n)=∑ i∈Finset.range n, (b.getD i 0).toNat%128*2^(7*i) := by
  induction b generalizing n with
  | nil => simp [groupsValue]
  | cons b bs ih =>
    cases n with
    | zero => simp [groupsValue]
    | succ n =>
      rw [List.take_succ_cons,groupsValue,ih,Finset.sum_range_succ',Nat.add_comm,Finset.mul_sum]
      congr 1
      · apply Finset.sum_congr rfl
        intro i _
        rw [List.getD_cons_succ,Nat.mul_add 7,pow_add]
        ring
      · simp

/-- The varint of `n` bytes at the front of `b`: all of them but the last continue it, and their
groups of seven bits make the value. -/
structure Spells (b : Bytes) (v : UInt64) (n : Nat) : Prop where
  size : n≤10
  continued : ∀ i, i+1<n → ∃ byte, b[i]?=some byte ∧ 0x80 ≤ byte
  last : ∃ byte, 0<n ∧ b[n-1]?=some byte ∧ byte<0x80
  value : v.toNat=(∑ i∈Finset.range n, (b.getD i 0).toNat%128*2^(7*i))%2^64

theorem readVarint_iff (b : Bytes) (v : UInt64) (n : Nat) :
    readVarint b=some (v,n) ↔ Spells b v n := by
  have h := readVarintFrom_iff b 0 v 0 n (by simp)
  rw [endsAt_iff,groupsValue_take] at h
  simp only [Nat.mul_zero,Nat.zero_add,UInt64.toNat_zero,pow_zero,Nat.mul_one] at h
  rw [readVarint,h]
  constructor
  · rintro ⟨⟨hl,hc⟩,hn,hv⟩
    exact ⟨hn,hc,hl,hv⟩
  · rintro ⟨hn,hc,hl,hv⟩
    exact ⟨⟨hl,hc⟩,hn,hv⟩

/-- `<<` on a `u64`; `none` where the amount overflows. -/
def checkedShl (x : UInt64) (shift : Nat) : Option UInt64 :=
  if shift<64 then some (x<<<UInt64.ofNat shift) else none

/-- The loop of `read_varint` with its shift checked. -/
def readVarintChecked : Bytes → UInt64 → Nat → Nat → Option (Option (UInt64×Nat))
  | [],_,_,_ => some none
  | b::bs,result,shift,i =>
      if 64 ≤ shift then some none
      else do
        let group ← checkedShl (b &&& 0x7F).toUInt64 shift
        let result := result ||| group
        if b<0x80 then some (some (result,i+1))
        else readVarintChecked bs result (shift+7) (i+1)

theorem readVarintChecked_eq (bs : Bytes) (r : UInt64) (shift i : Nat) :
    readVarintChecked bs r shift i=some (readVarintFrom bs r shift i) := by
  induction bs generalizing r shift i with
  | nil => rfl
  | cons b bs ih =>
    rw [readVarintChecked,readVarintFrom]
    split_ifs with hs hb
    · rfl
    · rw [checkedShl,if_pos (Nat.not_le.mp hs)]
      rfl
    · rw [checkedShl,if_pos (Nat.not_le.mp hs)]
      exact ih _ _ _

/-- The three loops over one representation agree for every value, and the reader takes exactly
the varints of at most ten bytes, without a shift that overflows. -/
theorem varint_codec :
    (∀ v w, (writeVarint v).length=varintSize v ∧ 1≤varintSize v ∧ varintSize v≤10 ∧
      readVarint (writeVarint v++w)=some (v,varintSize v)) ∧
    (∀ b v n, readVarint b=some (v,n) ↔ Spells b v n) ∧
    ∀ b, readVarintChecked b 0 0 0=some (readVarint b) := by
  refine ⟨?_,readVarint_iff,fun b => readVarintChecked_eq b 0 0 0⟩
  intro v w
  have hread := readVarint_write v w
  obtain ⟨hpos,hten,-⟩ := readVarint_bounds _ _ _ hread
  exact ⟨writeVarint_length v,hpos,hten,hread⟩

end Tobira.Transport
