import Mathlib.Algebra.Group.Nat.Defs
import Mathlib.Data.List.Basic
import Mathlib.Data.Nat.Basic

namespace Tobira.Framework.Protobuf

/-- The base 128 varint of a number. -/
def writeVarint (n : Nat) : List UInt8 :=
  if n<128 then [UInt8.ofNat n] else UInt8.ofNat (n%128+128)::writeVarint (n/128)

/-- A varint of at most `k` bytes. -/
def readVarint : Nat → List UInt8 → Option (Nat×List UInt8)
  | k+1,b::bs =>
    if b.toNat<128 then some (b.toNat,bs)
    else (readVarint k bs).map (fun p => (b.toNat-128+128*p.1,p.2))
  | _,_ => none

/-- What a field of a message holds, without the schema. -/
inductive Value where
  | varint (n : Nat)
  | fixed64 (raw : List UInt8)
  | bytes (data : List UInt8)
  | fixed32 (raw : List UInt8)
  deriving DecidableEq,Repr

structure Field where
  number : Nat
  value : Value
  deriving DecidableEq,Repr

def Value.wireType : Value → Nat
  | .varint _ => 0
  | .fixed64 _ => 1
  | .bytes _ => 2
  | .fixed32 _ => 5

def Value.write : Value → List UInt8
  | .varint n => writeVarint n
  | .fixed64 raw => raw
  | .bytes data => writeVarint data.length++data
  | .fixed32 raw => raw

def Field.tag (f : Field) : Nat := f.number*8+f.value.wireType

def Field.write (f : Field) : List UInt8 := writeVarint f.tag++f.value.write

/-- A message as a writer puts it on the wire, field after field. -/
def write (fields : List Field) : List UInt8 := fields.flatMap Field.write

/-- A value of a width that the wire type gives. -/
def readFixed (width : Nat) (bytes : List UInt8) : Option (List UInt8×List UInt8) :=
  if width≤bytes.length then some (bytes.take width,bytes.drop width) else none

def readValue (wireType : Nat) (bytes : List UInt8) : Option (Value×List UInt8) :=
  match wireType with
  | 0 => (readVarint 10 bytes).map (fun p => (.varint p.1,p.2))
  | 1 => (readFixed 8 bytes).map (fun p => (.fixed64 p.1,p.2))
  | 2 => (readVarint 10 bytes).bind (fun p => (readFixed p.1 p.2).map (fun q => (.bytes q.1,q.2)))
  | 5 => (readFixed 4 bytes).map (fun p => (.fixed32 p.1,p.2))
  | _ => none

def readField (bytes : List UInt8) : Option (Field×List UInt8) :=
  (readVarint 10 bytes).bind (fun p => (readValue (p.1%8) p.2).map (fun q => (⟨p.1/8,q.1⟩,q.2)))

/-- The fields of a message; each takes a byte at least, so `fuel` is the length. -/
def readFields : Nat → List UInt8 → Option (List Field)
  | _,[] => some []
  | 0,_::_ => none
  | fuel+1,b::bs => (readField (b::bs)).bind (fun p => (readFields fuel p.2).map (p.1::·))

def read (bytes : List UInt8) : Option (List Field) := readFields bytes.length bytes

/-- A field of type `bytes` in a message: the last one on the wire, empty if there is none. -/
def bytesField (number : Nat) (fields : List Field) : List UInt8 :=
  fields.foldl (fun data f =>
    match f.value with
    | .bytes new => if f.number=number then new else data
    | _ => data) []

/-- The values a writer has for each wire type. -/
def Value.Valid : Value → Prop
  | .varint n => n<2^64
  | .fixed64 raw => raw.length=8
  | .bytes data => data.length<2^64
  | .fixed32 raw => raw.length=4

structure Field.Valid (f : Field) : Prop where
  number : f.number<2^29
  value : f.value.Valid

theorem writeVarint_ne_nil (n : Nat) : writeVarint n≠[] := by
  rw [writeVarint]
  split_ifs <;> simp

theorem readVarint_write {k n : Nat} (h : n<128^(k+1)) (w : List UInt8) :
    readVarint (k+1) (writeVarint n++w)=some (n,w) := by
  induction k generalizing n with
  | zero =>
    have hn : n<128 := by simpa using h
    have hb : (UInt8.ofNat n).toNat=n := by
      rw [UInt8.toNat_ofNat']
      omega
    rw [writeVarint,if_pos hn,List.singleton_append,readVarint,hb,if_pos hn]
  | succ k ih =>
    rw [writeVarint]
    split_ifs with hn
    · have hb : (UInt8.ofNat n).toNat=n := by
        rw [UInt8.toNat_ofNat']
        omega
      rw [List.singleton_append,readVarint,hb,if_pos hn]
    · have hb : (UInt8.ofNat (n%128+128)).toNat=n%128+128 := by
        rw [UInt8.toNat_ofNat']
        omega
      have hlt : n/128<128^(k+1) := by
        rw [Nat.div_lt_iff_lt_mul (by decide),← Nat.pow_succ]
        exact h
      rw [List.cons_append,readVarint,hb,if_neg (by omega),ih hlt,Option.map_some]
      congr 2
      omega

/-- What fits a word fits ten bytes. -/
theorem readVarint_word {n : Nat} (h : n<2^64) (w : List UInt8) :
    readVarint 10 (writeVarint n++w)=some (n,w) :=
  readVarint_write (Nat.lt_trans h (by decide)) w

theorem readFixed_append {width : Nat} {bytes : List UInt8} (h : bytes.length=width)
    (w : List UInt8) : readFixed width (bytes++w)=some (bytes,w) := by
  subst h
  simp [readFixed]

theorem readValue_write {v : Value} (h : v.Valid) (w : List UInt8) :
    readValue v.wireType (v.write++w)=some (v,w) := by
  cases v with
  | varint n => simp only [Value.wireType,Value.write,readValue,readVarint_word h,Option.map_some]
  | fixed64 raw =>
    simp only [Value.wireType,Value.write,readValue,readFixed_append h,Option.map_some]
  | bytes data =>
    simp only [Value.wireType,Value.write,readValue,List.append_assoc,readVarint_word h,
      Option.bind_some,readFixed_append rfl,Option.map_some]
  | fixed32 raw =>
    simp only [Value.wireType,Value.write,readValue,readFixed_append h,Option.map_some]

theorem wireType_lt (v : Value) : v.wireType<8 := by cases v <;> simp [Value.wireType]

theorem readField_write {f : Field} (h : f.Valid) (w : List UInt8) :
    readField (f.write++w)=some (f,w) := by
  have hlt := wireType_lt f.value
  have hn := h.number
  have hm : f.tag%8=f.value.wireType := by
    rw [Field.tag]
    omega
  have hd : f.tag/8=f.number := by
    rw [Field.tag]
    omega
  have ht : f.tag<2^64 := by
    rw [Field.tag]
    omega
  rw [readField,Field.write,List.append_assoc,readVarint_word ht,Option.bind_some,hm,hd,
    readValue_write h.value,Option.map_some]

theorem readFields_write {fields : List Field} (h : ∀ f∈fields, f.Valid) {fuel : Nat}
    (hf : (write fields).length≤fuel) : readFields fuel (write fields)=some fields := by
  induction fields generalizing fuel with
  | nil => cases fuel <;> rfl
  | cons f fields ih =>
    have hw : write (f::fields)=f.write++write fields := by rw [write,List.flatMap_cons,write]
    obtain ⟨b,bs,hb⟩ := List.exists_cons_of_ne_nil (writeVarint_ne_nil f.tag)
    have hcons : f.write=b::(bs++f.value.write) := by rw [Field.write,hb,List.cons_append]
    rw [hw,List.length_append,hcons,List.length_cons] at hf
    cases fuel with
    | zero => omega
    | succ fuel =>
      have hread := readField_write (h f (by simp)) (write fields)
      rw [hcons,List.cons_append] at hread
      rw [hw,hcons,List.cons_append,readFields,hread,Option.bind_some,
        ih (fun g hg => h g (by simp [hg])) (by omega),Option.map_some]

/-- What a writer puts on the wire, a reader takes off it. -/
theorem read_write {fields : List Field} (h : ∀ f∈fields, f.Valid) :
    read (write fields)=some fields := readFields_write h (Nat.le_refl _)

end Tobira.Framework.Protobuf
