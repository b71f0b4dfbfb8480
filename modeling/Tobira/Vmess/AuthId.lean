import Mathlib.Logic.Equiv.Basic
import Tobira.Vmess.Identity

namespace Tobira.Vmess

open Tobira.Framework Tobira.Transport

/-- `to_be_bytes`: the last `k` digits of a number to the base 256, most significant first. -/
def beBytes : Nat → Nat → Bytes
  | 0,_ => []
  | k+1,n => beBytes k (n/256)++[UInt8.ofNat n]

theorem beBytes_length (k n : Nat) : (beBytes k n).length=k := by
  induction k generalizing n with
  | zero => rfl
  | succ k ih => rw [beBytes,List.length_append,ih,List.length_singleton]

theorem fromBeBytes_concat (b : Bytes) (x : UInt8) :
    fromBeBytes (b++[x])=256*fromBeBytes b+x.toNat := by
  rw [fromBeBytes,List.foldl_append]
  rfl

theorem fromBeBytes_beBytes {k n : Nat} (h : n<256^k) : fromBeBytes (beBytes k n)=n := by
  induction k generalizing n with
  | zero =>
    have hn : n=0 := by
      rw [pow_zero] at h
      omega
    rw [hn]
    rfl
  | succ k ih =>
    have hdiv : n/256<256^k := by
      rw [pow_succ] at h
      exact Nat.div_lt_of_lt_mul (by rw [Nat.mul_comm]; exact h)
    rw [beBytes,fromBeBytes_concat,ih hdiv,UInt8.toNat_ofNat']
    omega

theorem beBytes_fromBeBytes {b : Bytes} {k : Nat} (h : b.length=k) :
    beBytes k (fromBeBytes b)=b := by
  induction b using List.reverseRecOn generalizing k with
  | nil =>
    cases h
    rfl
  | append_singleton b x ih =>
    rw [List.length_append,List.length_singleton] at h
    subst h
    have hx : x.toNat<256 := x.toNat_lt
    have hdiv : (256*fromBeBytes b+x.toNat)/256=fromBeBytes b := by omega
    have hlast : UInt8.ofNat (256*fromBeBytes b+x.toNat)=x := by
      apply UInt8.toNat_inj.mp
      rw [UInt8.toNat_ofNat']
      omega
    rw [beBytes,fromBeBytes_concat,hdiv,hlast,ih rfl]

/-- The plain text of an Auth ID: the time, four random bytes, and the checksum of both. -/
def authBlock (c : Crypto) (t : UInt64) (r : ByteArr 4) : ByteArr 16 :=
  ⟨beBytes 8 t.toNat++r.1++beBytes 4 (c.crc32 (beBytes 8 t.toNat++r.1)).toNat,by
    simp only [List.length_append,beBytes_length,r.2]⟩

theorem authBlock_val (c : Crypto) (t : UInt64) (r : ByteArr 4) :
    (authBlock c t r).1=
      beBytes 8 t.toNat++r.1++beBytes 4 (c.crc32 (beBytes 8 t.toNat++r.1)).toNat := rfl

theorem authBlock_checked (c : Crypto) (t : UInt64) (r : ByteArr 4) :
    (authBlock c t r).1.take 12=beBytes 8 t.toNat++r.1 ∧
    (authBlock c t r).1.drop 12=beBytes 4 (c.crc32 (beBytes 8 t.toNat++r.1)).toNat := by
  have hl : (beBytes 8 t.toNat++r.1).length=12 := by
    rw [List.length_append,beBytes_length,r.2]
  exact ⟨List.take_left' hl,List.drop_left' hl⟩

theorem authBlock_time (c : Crypto) (t : UInt64) (r : ByteArr 4) :
    (authBlock c t r).1.take 8=beBytes 8 t.toNat := by
  rw [authBlock_val,List.append_assoc]
  exact List.take_left' (beBytes_length 8 _)

/-- A block whose checksum is right is the block of the time and the bytes that stand in it. -/
theorem authBlock_of_checksum {c : Crypto} {block : ByteArr 16}
    (h : (c.crc32 (block.1.take 12)).toNat=fromBeBytes (block.1.drop 12)) :
    ∃ t r, block=authBlock c t r ∧ t.toNat=fromBeBytes (block.1.take 8) := by
  have h8 : (block.1.take 8).length=8 := by
    rw [List.length_take,block.2]
    rfl
  have h4 : ((block.1.drop 8).take 4).length=4 := by
    rw [List.length_take,List.length_drop,block.2]
    rfl
  have hdrop : (block.1.drop 12).length=4 := by rw [List.length_drop,block.2]
  have htime : (UInt64.ofNat (fromBeBytes (block.1.take 8))).toNat=fromBeBytes (block.1.take 8) := by
    have hlt := fromBeBytes_lt (block.1.take 8)
    rw [h8,show (256 : Nat)^8=2^64 by norm_num] at hlt
    rw [UInt64.toNat_ofNat',Nat.mod_eq_of_lt hlt]
  have hfront : block.1.take 8++(block.1.drop 8).take 4=block.1.take 12 :=
    (List.take_add (i := 8) (j := 4)).symm
  refine ⟨UInt64.ofNat (fromBeBytes (block.1.take 8)),⟨(block.1.drop 8).take 4,h4⟩,?_,htime⟩
  apply Subtype.ext
  rw [authBlock_val,htime,beBytes_fromBeBytes h8,hfront,h,beBytes_fromBeBytes hdrop,
    List.take_append_drop]

theorem verify_block (c : Crypto) (now : UInt64) (v : AuthVerifier) (authId : ByteArr 16) :
    v.verify c now authId=true ↔ ∃ t r, c.aesDecrypt v.ecbKey authId=authBlock c t r ∧
      ((now.toNat : Int)-t.toNat).natAbs≤120 := by
  simp only [AuthVerifier.verify]
  constructor
  · intro h
    split_ifs at h with hsum
    have hdiff := of_decide_eq_true h
    obtain ⟨t,r,hb,ht⟩ := authBlock_of_checksum (not_not.mp hsum)
    refine ⟨t,r,hb,?_⟩
    rw [← ht] at hdiff
    omega
  · rintro ⟨t,r,hb,hdiff⟩
    have hlt : (c.crc32 (beBytes 8 t.toNat++r.1)).toNat<256^4 := by
      rw [show (256 : Nat)^4=2^32 by norm_num]
      exact UInt32.toNat_lt _
    have ht : t.toNat<256^8 := by
      rw [show (256 : Nat)^8=2^64 by norm_num]
      exact t.toNat_lt
    rw [hb,(authBlock_checked c t r).1,(authBlock_checked c t r).2,authBlock_time,
      fromBeBytes_beBytes hlt,fromBeBytes_beBytes ht,
      if_neg (not_not.mpr rfl)]
    apply decide_eq_true
    omega

/-- A verifier accepts exactly the encryptions of well-formed blocks whose time is close. -/
theorem verify_iff (c : Crypto) (aesEncrypt : ByteArr 16 → ByteArr 16 → ByteArr 16)
    (hdec : ∀ key block, c.aesDecrypt key (aesEncrypt key block)=block)
    (henc : ∀ key block, aesEncrypt key (c.aesDecrypt key block)=block)
    (now : UInt64) (v : AuthVerifier) (authId : ByteArr 16) :
    v.verify c now authId=true ↔ ∃ t r, authId=aesEncrypt v.ecbKey (authBlock c t r) ∧
      ((now.toNat : Int)-t.toNat).natAbs≤120 := by
  rw [verify_block]
  constructor
  · rintro ⟨t,r,hb,hdiff⟩
    refine ⟨t,r,?_,hdiff⟩
    rw [← hb,henc]
  · rintro ⟨t,r,rfl,hdiff⟩
    exact ⟨t,r,hdec _ _,hdiff⟩

/-- The time 1700000000, the bytes 1 to 4 and their checksum. -/
def sampleBlock : ByteArr 16 := ⟨[0,0,0,0,101,83,241,0,1,2,3,4,184,85,117,247],rfl⟩

/-- AES-128 of `sampleBlock` under the key of `sampleVerifier`. -/
def sampleAuthId : ByteArr 16 :=
  ⟨[124,6,135,237,18,6,20,56,47,34,223,155,210,111,234,60],rfl⟩

def sampleVerifier : AuthVerifier := ⟨⟨[0,1,2,3,4,5,6,7,8,9,10,11,12,13,14,15],rfl⟩⟩

/-- The crates on the sample; other blocks are left as they are. -/
def sampleCrypto : Crypto :=
  { tailCrypto with
    aesDecrypt := fun _ => Equiv.swap sampleBlock sampleAuthId
    crc32 := fun _ => 0xb85575f7 }

theorem verify_sample : sampleVerifier.verify sampleCrypto 1700000060 sampleAuthId=true ∧
    sampleVerifier.verify sampleCrypto 1700000121 sampleAuthId=false := by
  have hswap : ∀ key block : ByteArr 16, sampleCrypto.aesDecrypt key
      (Equiv.swap sampleBlock sampleAuthId block)=block :=
    fun _ block => Equiv.swap_apply_self sampleBlock sampleAuthId block
  constructor
  · apply (verify_iff sampleCrypto (fun _ => Equiv.swap sampleBlock sampleAuthId) hswap hswap
      _ _ _).mpr
    exact ⟨1700000000,⟨[1,2,3,4],rfl⟩,by decide,by decide⟩
  · decide

end Tobira.Vmess
