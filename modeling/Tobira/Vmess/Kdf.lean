import Tobira.Vmess.Auth

namespace Tobira.Vmess

open Tobira.Framework Tobira.Transport

/-- A key zero-padded to a block of 64 bytes, each XORed with the same byte. -/
def xorBlock (fill : UInt8) (key : Bytes) : Bytes :=
  (key++List.replicate (64-key.length) 0).map (· ^^^ fill)

/-- HMAC under a key of at most one block, over any hash function. -/
def hmac (hash : Bytes → ByteArr 32) (key message : Bytes) : ByteArr 32 :=
  hash (xorBlock 0x5c key++(hash (xorBlock 0x36 key++message)).1)

/-- What the KDF is for: HMAC under the salt, then HMAC over that under each item of the path. -/
def nestedHmac (sha256 : Bytes → ByteArr 32) (path : List Bytes) : Bytes → ByteArr 32 :=
  path.foldl hmac (hmac sha256 (literal "VMess AEAD KDF"))

namespace VmessHash

theorem pad_eq (fill : UInt8) (key : Bytes) : pad fill key=xorBlock fill key := by
  rw [pad,xorBlock,List.map_append,List.map_replicate,UInt8.zero_xor]
  congr 1
  apply List.map_congr_left
  intro b _
  exact UInt8.xor_comm fill b

theorem update_nil (hash : VmessHash) : hash.update []=hash := by
  induction hash with
  | sha256 absorbed => rw [update,List.append_nil]
  | recursive inner outer di dout hi _ => rw [update,hi]

theorem update_update (hash : VmessHash) (a b : Bytes) :
    (hash.update a).update b=hash.update (a++b) := by
  induction hash with
  | sha256 absorbed => simp only [update,List.append_assoc]
  | recursive inner outer di dout hi _ => simp only [update,hi]

/-- Only the bytes count, not the calls they come in. -/
theorem update_pieces (hash : VmessHash) (pieces : List Bytes) :
    pieces.foldl update hash=hash.update pieces.flatten := by
  induction pieces generalizing hash with
  | nil => exact (update_nil hash).symm
  | cons piece pieces ih => rw [List.foldl_cons,ih,List.flatten_cons,update_update]

/-- The state answers every message with the digest of one function. -/
def Computes (c : Crypto) (hash : VmessHash) (f : Bytes → ByteArr 32) : Prop :=
  ∀ message, (hash.update message).finalize c=f message

theorem computes_sha256 (c : Crypto) : Computes c (.sha256 []) c.sha256 := by
  intro message
  rw [update,finalize,List.nil_append]

/-- `create` puts one HMAC around what the state computes: its `inner` is a copy that has absorbed
the inner pad, its `outer` the state itself. -/
theorem create_computes {c : Crypto} {hash : VmessHash} {f : Bytes → ByteArr 32}
    (h : Computes c hash f) {key : Bytes} (hk : key.length≤64) :
    ∃ next, create key hash=.ok next ∧ Computes c next (hmac f key) := by
  refine ⟨_,by rw [create,if_neg (Nat.not_lt.mpr hk)],?_⟩
  intro message
  rw [update,finalize,update_update,update_update,h,h,pad_eq,pad_eq]
  rfl

theorem foldlM_computes {c : Crypto} {path : List Bytes} (hp : ∀ item∈path, item.length≤64)
    {hash : VmessHash} {f : Bytes → ByteArr 32} (h : Computes c hash f) :
    ∃ next, path.foldlM (fun current item => create item current) hash=.ok next ∧
      Computes c next (path.foldl hmac f) := by
  induction path generalizing hash f with
  | nil => exact ⟨hash,rfl,h⟩
  | cons item path ih =>
    obtain ⟨mid,hm,hc⟩ := create_computes h (hp item (by simp))
    obtain ⟨next,hn,hf⟩ := ih (fun x hx => hp x (by simp [hx])) hc
    refine ⟨next,?_,hf⟩
    rw [List.foldlM_cons,hm]
    exact hn

end VmessHash

/-- The object that `kdf` builds from its path before it absorbs the key. -/
def kdfHash (path : List Bytes) : Except Panic VmessHash := do
  let current ← VmessHash.create (literal "VMess AEAD KDF") (.sha256 [])
  path.foldlM (fun current item => VmessHash.create item current) current

theorem kdf_eq (c : Crypto) (key : Bytes) (path : List Bytes) :
    kdf c key path=(kdfHash path).map (fun hash => (hash.update key).finalize c) := by
  rw [kdf,kdfHash]
  cases VmessHash.create (literal "VMess AEAD KDF") (.sha256 []) with
  | error p => rfl
  | ok current =>
    simp only [bind,Except.bind]
    cases path.foldlM (fun current item => VmessHash.create item current) current <;> rfl

theorem kdfHash_computes (c : Crypto) {path : List Bytes} (h : ∀ item∈path, item.length≤64) :
    ∃ hash, kdfHash path=.ok hash ∧ hash.Computes c (nestedHmac c.sha256 path) := by
  have hsalt : (literal "VMess AEAD KDF").length≤64 := by decide
  obtain ⟨first,hf,hc⟩ := VmessHash.create_computes (VmessHash.computes_sha256 c) hsalt
  obtain ⟨hash,hh,hn⟩ := VmessHash.foldlM_computes h hc
  refine ⟨hash,?_,hn⟩
  rw [kdfHash,hf]
  exact hh

/-- A short path never reaches the assertion on the key length. -/
theorem kdf_eq_nestedHmac (c : Crypto) (key : Bytes) {path : List Bytes}
    (h : ∀ item∈path, item.length≤64) : kdf c key path=.ok (nestedHmac c.sha256 path key) := by
  obtain ⟨hash,hh,hn⟩ := kdfHash_computes c h
  rw [kdf_eq,hh]
  exact congrArg Except.ok (hn key)

/-- A verifier is built exactly for the texts with 32 hexadecimal digits. -/
theorem fromUuid_spec (c : Crypto) (uuid : Text) :
    (∀ e, parseUuid uuid=.error e → AuthVerifier.fromUuid c uuid=.error (.error e)) ∧
    (∀ bytes, parseUuid uuid=.ok bytes → ∃ v, AuthVerifier.fromUuid c uuid=.ok v) := by
  constructor
  · intro e he
    rw [AuthVerifier.fromUuid,he]
  · intro bytes hb
    have hshort : ∀ item∈[literal "AES Auth ID Encryption"], item.length≤64 := by decide
    have hd := kdf_eq_nestedHmac c (instructionKey c bytes).1 hshort
    rw [AuthVerifier.fromUuid,hb]
    simp only [hd]
    exact ⟨_,rfl⟩

/-- The KDF is nested HMAC, in however many pieces the object absorbs the key. -/
theorem kdf_nestedHmac (c : Crypto) (key : Bytes) (path : List Bytes)
    (h : ∀ item∈path, item.length≤64) :
    kdf c key path=.ok (nestedHmac c.sha256 path key) ∧
    ∃ hash, kdfHash path=.ok hash ∧ ∀ pieces : List Bytes, pieces.flatten=key →
      (pieces.foldl VmessHash.update hash).finalize c=nestedHmac c.sha256 path key := by
  refine ⟨kdf_eq_nestedHmac c key h,?_⟩
  obtain ⟨hash,hh,hn⟩ := kdfHash_computes c h
  refine ⟨hash,hh,?_⟩
  rintro pieces rfl
  rw [VmessHash.update_pieces]
  exact hn pieces.flatten

/-- Digests that keep the end of what they are given, so that UUIDs do not collide. -/
def tailCrypto : Crypto where
  md5 data := ⟨(data++List.replicate 16 0).take 16,by simp⟩
  sha256 data :=
    let tail := (data.reverse++List.replicate 16 0).take 16
    ⟨tail.reverse++tail.reverse,by simp [tail]⟩
  aesDecrypt _ block := block
  crc32 _ := 0

/-- The path of the Auth ID key, and one more level. -/
theorem kdf_nestedHmac_authId :
    (∀ item∈[literal "AES Auth ID Encryption",literal "level"], item.length≤64) ∧
    kdf tailCrypto (literal "test-key") [literal "AES Auth ID Encryption",literal "level"]=
      .ok (nestedHmac tailCrypto.sha256 [literal "AES Auth ID Encryption",literal "level"]
        (literal "test-key")) :=
  ⟨by decide,(kdf_nestedHmac tailCrypto _ _ (by decide)).1⟩

end Tobira.Vmess
