import Tobira.Framework.Encodings
import Tobira.Framework.Str
import Tobira.Framework.Url

namespace Tobira.Framework.Url

def hexDigit (n : Nat) : Char := "0123456789ABCDEF".toList.getD n '0'

def percentByte (byte : UInt8) : Text := ['%',hexDigit (byte.toNat/16),hexDigit (byte.toNat%16)]

/-- UTF-8 percent-encoding of the characters of a set. -/
def percentEncode (set : Char → Bool) (text : Text) : Text :=
  text.flatMap (fun c => if set c then (utf8 [c]).flatMap percentByte else [c])

def controlSet (c : Char) : Bool := decide (c.toNat<0x20) || decide (0x7E<c.toNat)

def fragmentSet (c : Char) : Bool := controlSet c || [' ','"','<','>','`'].contains c

def querySet (c : Char) : Bool := controlSet c || [' ','"','#','<','>'].contains c

def userinfoSet (c : Char) : Bool :=
  fragmentSet c || ['#','?','^','\x7b','\x7d','/',':',';','=','@','[','\\',']','|'].contains c

/-- What stands before the first `c`, and after it. -/
def cut (c : Char) (text : Text) : Text×Option Text :=
  match splitOnce c text with
  | none => (text,none)
  | some (before,rest) => (before,some rest)

/-! The parts of a URL whose scheme is not special, from what follows the `//`. -/

def withoutFragment (input : Text) : Text := (cut '#' (removeTabs input)).1

def fragmentPart (input : Text) : Option Text :=
  (cut '#' (removeTabs input)).2.map (percentEncode fragmentSet)

def queryPart (input : Text) : Option Text :=
  (cut '?' (withoutFragment input)).2.map (percentEncode querySet)

/-- What stands before the last at sign of the authority. -/
def userinfo (authority : Text) : Text :=
  match afterLast '@' authority with
  | none => []
  | some rest => authority.take (authority.length-rest.length-1)

def usernamePart (input : Text) : Text :=
  percentEncode userinfoSet ((userinfo (authority (removeTabs input))).takeWhile (· ≠ ':'))

/-- The host as it is written. -/
def hostText (input : Text) : Text :=
  (splitPort false (hostAndPort (authority (removeTabs input)))).1

/-- An opaque host; an empty one is none. -/
def hostPart (input : Text) : Option Text :=
  if hostText input=[] then none else some (percentEncode controlSet (hostText input))

def portPart (input : Text) : Option UInt16 :=
  match (splitPort false (hostAndPort (authority (removeTabs input)))).2 with
  | none => none
  | some [] => none
  | some digits => some (UInt16.ofNat (digitsValue 10 digits))

example : usernamePart "a b:c@h:80/p?q=1#f".toList="a%20b".toList ∧
    hostPart "a b:c@h:80/p?q=1#f".toList=some "h".toList ∧
    portPart "a b:c@h:80/p?q=1#f".toList=some 80 ∧
    queryPart "a b:c@h:80/p?q=1#f".toList=some "q=1".toList ∧
    fragmentPart "h#a b".toList=some "a%20b".toList := by decide

/-! `application/x-www-form-urlencoded`. -/

def hexValue (byte : UInt8) : Option Nat := toDigit 16 (Char.ofUInt8 byte)

/-- A percent sign stands for itself unless two digits follow it. -/
def percentDecode : List UInt8 → List UInt8
  | [] => []
  | [a] => [a]
  | [a,b] => [a,b]
  | a::b::c::rest =>
    if a=0x25 then
      match hexValue b,hexValue c with
      | some high,some low => UInt8.ofNat (16*high+low)::percentDecode rest
      | _,_ => a::percentDecode (b::c::rest)
    else a::percentDecode (b::c::rest)

def plusToSpace (c : Char) : Char := if c = '+' then ' ' else c

/-- A name or value; `none` where the bytes are not UTF-8. -/
def formComponent (text : Text) : Option Text :=
  utf8Decode (percentDecode (utf8 (text.map plusToSpace)))

def formPair (piece : Text) : Option (Text×Text) :=
  let p := cut '=' piece
  (formComponent p.1).bind (fun key => (formComponent (p.2.getD [])).map (fun value => (key,value)))

def formDecode (query : Text) : Option (List (Text×Text)) :=
  ((query.splitOn '&').filter (· ≠ [])).mapM formPair

/-- The bytes that the serializer writes as they are; a space becomes a plus sign. -/
def formByte (byte : UInt8) : Text :=
  if (Char.ofUInt8 byte).isAlphanum || "*-._".toList.contains (Char.ofUInt8 byte) then
    [Char.ofUInt8 byte]
  else if byte=0x20 then ['+']
  else percentByte byte

def formEncode (pairs : List (Text×Text)) : Text :=
  ['&'].intercalate (pairs.map (fun p => (utf8 p.1).flatMap formByte ++
    '='::(utf8 p.2).flatMap formByte))

example : formEncode [("a b".toList,"1&é".toList)]="a+b=1%26%C3%A9".toList := by decide

end Tobira.Framework.Url
