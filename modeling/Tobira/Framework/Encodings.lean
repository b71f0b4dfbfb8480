import Tobira.Framework.Text

namespace Tobira.Framework

namespace Base64

def alphabet (urlSafe : Bool) : Text :=
  "ABCDEFGHIJKLMNOPQRSTUVWXYZabcdefghijklmnopqrstuvwxyz0123456789".toList++
    (if urlSafe then "-_".toList else "+/".toList)

def symbol (urlSafe : Bool) (n : Nat) : Char := (alphabet urlSafe).getD n '='

/-- Three bytes to four symbols; the last group may be short. -/
def encode (urlSafe pad : Bool) : List UInt8 → Text
  | a::b::c::rest =>
    let n := a.toNat*65536+b.toNat*256+c.toNat
    [symbol urlSafe (n/262144),symbol urlSafe (n/4096%64),symbol urlSafe (n/64%64),
      symbol urlSafe (n%64)]++encode urlSafe pad rest
  | [a,b] =>
    let n := a.toNat*1024+b.toNat*4
    [symbol urlSafe (n/4096),symbol urlSafe (n/64%64),symbol urlSafe (n%64)]++
      (if pad then "=".toList else [])
  | [a] =>
    let n := a.toNat*16
    [symbol urlSafe (n/64),symbol urlSafe (n%64)]++(if pad then "==".toList else [])
  | [] => []

example : encode false true (utf8 "Many!".toList)="TWFueSE=".toList := by decide

end Base64

namespace Json

/-- A JSON text as a deserializer sees it: the members of an object in their order, integers
that fit 64 bits, and other numbers as floats. -/
inductive Value where
  | null
  | bool (b : Bool)
  | int (n : Int)
  | float
  | str (s : Text)
  | arr (values : List Value)
  | obj (members : List (Text×Value))

def hexLower (n : Nat) : Char := "0123456789abcdef".toList.getD n '0'

def escapeChar (c : Char) : Text :=
  if c = '"' then "\\\"".toList
  else if c = '\\' then "\\\\".toList
  else if c = '\n' then "\\n".toList
  else if c = '\r' then "\\r".toList
  else if c = '\t' then "\\t".toList
  else if c = '\x08' then "\\b".toList
  else if c = '\x0c' then "\\f".toList
  else if c.toNat<32 then "\\u00".toList++[hexLower (c.toNat/16),hexLower (c.toNat%16)]
  else [c]

def quote (text : Text) : Text := '"'::(text.flatMap escapeChar++['"'])

/-- Puts a member in its place among members sorted by their keys. -/
def insertMember (p : Text×Text) : List (Text×Text) → List (Text×Text)
  | [] => [p]
  | q::members => if p.1<q.1 then p::q::members else q::insertMember p members

/-- An object of strings, its members sorted by their keys. -/
def object (members : List (Text×Text)) : Text :=
  let sorted := members.foldr insertMember []
  ['\x7b']++[','].intercalate (sorted.map (fun p => quote p.1 ++ ':'::quote p.2))++['\x7d']

example : object [("v".toList,"2".toList),("id".toList,"a\n".toList)]=
    "\x7b\"id\":\"a\\n\",\"v\":\"2\"\x7d".toList := by decide

end Json

end Tobira.Framework
