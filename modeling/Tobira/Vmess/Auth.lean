import Tobira.Framework.Text
import Tobira.Transport.Frame

namespace Tobira.Vmess

open Tobira.Framework Tobira.Transport

/-- `[u8; n]`. -/
abbrev ByteArr (n : Nat) := {b : Bytes // b.length=n}

/-- What the `md5`, `sha2`, `aes` and `crc32fast` crates compute. -/
structure Crypto where
  md5 : Bytes → ByteArr 16
  sha256 : Bytes → ByteArr 32
  aesDecrypt : ByteArr 16 → ByteArr 16 → ByteArr 16
  crc32 : Bytes → UInt32

inductive VmessError where
  | invalidUuid (got : Nat)
  | duplicateUuid (uuid : Text)
  deriving DecidableEq,Repr

def VmessError.message : VmessError → Text
  | .invalidUuid got => "invalid UUID: expected 32 hex chars, got ".toList++decimal got
  | .duplicateUuid uuid => "duplicate UUID: ".toList++uuid

/-- The implementations of the `VmessHash` trait: `Sha256Hash` with the bytes it has absorbed,
and `RecursiveHash`. -/
inductive VmessHash where
  | sha256 (absorbed : Bytes)
  | recursive (inner outer : VmessHash) (defaultInner defaultOuter : Bytes)

namespace VmessHash

def update : VmessHash → Bytes → VmessHash
  | sha256 absorbed,data => sha256 (absorbed++data)
  | recursive inner outer di dout,data => recursive (inner.update data) outer di dout

def depth : VmessHash → Nat
  | sha256 _ => 0
  | recursive inner outer _ _ => inner.depth+outer.depth+1

theorem depth_update (h : VmessHash) (data : Bytes) : (h.update data).depth=h.depth := by
  induction h with
  | sha256 absorbed => rfl
  | recursive inner outer di dout hi _ => simp only [update,depth,hi]

/-- The digest; nothing looks at the state that `finalize` leaves behind. -/
def finalize (c : Crypto) : VmessHash → ByteArr 32
  | sha256 absorbed => c.sha256 absorbed
  | recursive inner outer _ dout =>
    ((outer.update dout).update (inner.finalize c).1).finalize c
termination_by h => h.depth
decreasing_by
  all_goals simp only [depth_update,depth]; omega

/-- The key XORed into a block of 64 equal bytes. -/
def pad (fill : UInt8) (key : Bytes) : Bytes :=
  key.map (fill ^^^ ·)++List.replicate (64-key.length) fill

/-- `RecursiveHash::create`. -/
def create (key : Bytes) (hash : VmessHash) : Except Panic VmessHash :=
  if 64<key.length then .error (.assertion "KDF key must be ≤ 64 bytes")
  else .ok (recursive (hash.update (pad 0x36 key)) hash (pad 0x36 key) (pad 0x5c key))

end VmessHash

/-- The bytes of a string literal. -/
def literal (s : String) : Bytes := utf8 s.toList

def kdf (c : Crypto) (key : Bytes) (path : List Bytes) : Except Panic (ByteArr 32) := do
  let current ← VmessHash.create (literal "VMess AEAD KDF") (.sha256 [])
  let current ← path.foldlM (fun current item => VmessHash.create item current) current
  return (current.update key).finalize c

/-- Two hexadecimal digits to a byte. -/
def hexBytes : Text → Bytes
  | a::b::rest => UInt8.ofNat (digitsValue 16 [a,b])::hexBytes rest
  | _ => []

theorem hexBytes_length (text : Text) : (hexBytes text).length=text.length/2 := by
  induction text using hexBytes.induct with
  | case1 a b rest ih =>
    rw [hexBytes,List.length_cons,ih]
    simp only [List.length_cons]
    omega
  | case2 text h =>
    match text,h with
    | [],_ => rfl
    | [a],_ => simp [hexBytes]
    | a::b::rest,h => exact absurd rfl (h a b rest)

def parseUuid (uuid : Text) : Except VmessError (ByteArr 16) :=
  let hex := uuid.filter (isDigit 16)
  if h : hex.length=32 then .ok ⟨hexBytes hex,by rw [hexBytes_length,h]⟩
  else .error (.invalidUuid hex.length)

def instructionKey (c : Crypto) (uuid : ByteArr 16) : ByteArr 16 :=
  c.md5 (uuid.1++literal "c48619fe-8f02-49e0-b9e9-edf763e17e21")

/-- The cipher of a verifier is AES-128 under its key. -/
structure AuthVerifier where
  ecbKey : ByteArr 16

def AuthVerifier.fromUuid (c : Crypto) (uuid : Text) : Except (Fault VmessError) AuthVerifier :=
  match parseUuid uuid with
  | .error e => .error (.error e)
  | .ok bytes =>
    match kdf c (instructionKey c bytes).1 [literal "AES Auth ID Encryption"] with
    | .error p => .error (.panic p)
    | .ok derived => .ok ⟨⟨derived.1.take 16,by rw [List.length_take,derived.2]; rfl⟩⟩

/-- `now` is the clock in seconds. -/
def AuthVerifier.verify (c : Crypto) (now : UInt64) (v : AuthVerifier) (authId : ByteArr 16) :
    Bool :=
  let decrypted := (c.aesDecrypt v.ecbKey authId).1
  if (c.crc32 (decrypted.take 12)).toNat≠fromBeBytes (decrypted.drop 12) then false
  else
    let timestamp := fromBeBytes (decrypted.take 8)
    decide (max now.toNat timestamp-min now.toNat timestamp≤120)

end Tobira.Vmess
