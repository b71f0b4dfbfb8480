import Mathlib.Algebra.Group.Nat.Defs
import Tobira.Framework.Text

namespace Tobira.Framework.Net

structure Ipv4Addr where
  a : UInt8
  b : UInt8
  c : UInt8
  d : UInt8
  deriving DecidableEq,Repr

structure Ipv6Addr where
  segments : List UInt16
  eight : segments.length=8
  deriving DecidableEq,Repr

inductive SocketAddr where
  | v4 (ip : Ipv4Addr) (port : Nat)
  | v6 (ip : Ipv6Addr) (port scopeId : Nat)
  deriving DecidableEq,Repr

def SocketAddr.port : SocketAddr → Nat
  | .v4 _ port => port
  | .v6 _ port _ => port

/-- `read_number`: the digits at the front of the text as a number below `bound`. -/
def readNumber (radix bound : Nat) (maxDigits : Option Nat) (allowZeroPrefix : Bool)
    (text : Text) : Option (Nat×Text) :=
  let digits := text.takeWhile (isDigit radix)
  if digits=[] ∨ (∃ limit∈maxDigits, limit<digits.length) ∨ bound≤digitsValue radix digits ∨
      (allowZeroPrefix=false ∧ digits.head?=some '0' ∧ 1<digits.length) then none
  else some (digitsValue radix digits,text.dropWhile (isDigit radix))

/-- `read_separator`: the separator stands before every item but the first. -/
def readSeparator {α : Type} (sep : Char) (index : Nat) (inner : Text → Option (α×Text))
    (text : Text) : Option (α×Text) :=
  if index=0 then inner text else (readGivenChar sep text).bind inner

def readOctet (text : Text) : Option (UInt8×Text) :=
  (readNumber 10 256 (some 3) false text).map (fun p => (UInt8.ofNat p.1,p.2))

def readGroup (text : Text) : Option (UInt16×Text) :=
  (readNumber 16 65536 (some 4) true text).map (fun p => (UInt16.ofNat p.1,p.2))

def readIpv4Addr (text : Text) : Option (Ipv4Addr×Text) := do
  let (a,text) ← readSeparator '.' 0 readOctet text
  let (b,text) ← readSeparator '.' 1 readOctet text
  let (c,text) ← readSeparator '.' 2 readOctet text
  let (d,text) ← readSeparator '.' 3 readOctet text
  return (⟨a,b,c,d⟩,text)

/-- The two groups an embedded IPv4 address fills. -/
def Ipv4Addr.groups (ip : Ipv4Addr) : List UInt16 :=
  [ip.a.toUInt16<<<8 ||| ip.b.toUInt16,ip.c.toUInt16<<<8 ||| ip.d.toUInt16]

/-- `read_groups` with `left` groups still to fill, the next one the `i`-th: the groups read,
whether an IPv4 address ended them, and the rest. -/
def readGroups : Nat → Nat → Text → List UInt16×Bool×Text
  | 0,_,text => ([],false,text)
  | left+1,i,text =>
    match if 0<left then readSeparator ':' i readIpv4Addr text else none with
    | some (ip,rest) => (ip.groups,true,rest)
    | none =>
      match readSeparator ':' i readGroup text with
      | none => ([],false,text)
      | some (group,rest) =>
        let p := readGroups left (i+1) rest
        (group::p.1,p.2)

theorem readGroups_length_le (left i : Nat) (text : Text) :
    (readGroups left i text).1.length≤left := by
  induction left generalizing i text with
  | zero => exact le_refl _
  | succ left ih =>
    rw [readGroups]
    split
    · rename_i ip rest h
      split_ifs at h with hl
      change 2≤left+1
      omega
    · split
      · exact Nat.zero_le _
      · rename_i group rest h
        exact Nat.succ_le_succ (ih (i+1) rest)

def readIpv6Addr (text : Text) : Option (Ipv6Addr×Text) :=
  let head := readGroups 8 0 text
  if h : head.1.length=8 then some (⟨head.1,h⟩,head.2.2)
  else if head.2.1 then none
  else do
    let text ← readGivenChar ':' head.2.2
    let text ← readGivenChar ':' text
    let tail := readGroups (8-(head.1.length+1)) 0 text
    have eight : (head.1++List.replicate (8-head.1.length-tail.1.length) 0++tail.1).length=8 := by
      have hh : head.1.length≤8 := readGroups_length_le 8 0 _
      have ht : tail.1.length≤8-(head.1.length+1) := readGroups_length_le _ 0 _
      simp only [List.length_append,List.length_replicate]
      omega
    return (⟨_,eight⟩,tail.2.2)

def readPort (text : Text) : Option (Nat×Text) := do
  readNumber 10 65536 none true (← readGivenChar ':' text)

def readScopeId (text : Text) : Option (Nat×Text) := do
  readNumber 10 (2^32) none true (← readGivenChar '%' text)

def readSocketAddrV4 (text : Text) : Option (SocketAddr×Text) := do
  let (ip,text) ← readIpv4Addr text
  let (port,text) ← readPort text
  return (.v4 ip port,text)

def readSocketAddrV6 (text : Text) : Option (SocketAddr×Text) := do
  let text ← readGivenChar '[' text
  let (ip,text) ← readIpv6Addr text
  let (scopeId,text) := (readScopeId text).getD (0,text)
  let text ← readGivenChar ']' text
  let (port,text) ← readPort text
  return (.v6 ip port scopeId,text)

/-- `parse_with`: the whole text must be used up. -/
def parseWith {α : Type} (inner : Text → Option (α×Text)) (text : Text) : Option α :=
  match inner text with
  | some (a,[]) => some a
  | _ => none

def parseIpv4Addr (text : Text) : Option Ipv4Addr :=
  if 15<text.length then none else parseWith readIpv4Addr text

def parseIpv6Addr : Text → Option Ipv6Addr := parseWith readIpv6Addr

def parseSocketAddr : Text → Option SocketAddr :=
  parseWith (fun text => (readSocketAddrV4 text).or (readSocketAddrV6 text))

example : parseIpv6Addr "::ffff:1.2.3.4".toList=some ⟨[0,0,0,0,0,65535,258,772],rfl⟩ := by
  decide

example : parseSocketAddr "1.2.3.4:443".toList=some (.v4 ⟨1,2,3,4⟩ 443) := by decide

/-- What has been read off the front of a text is made of certain characters. -/
def Reads (p : Char → Prop) (text rest : Text) : Prop :=
  ∃ read, text=read++rest ∧ ∀ c∈read, p c

theorem Reads.refl (p : Char → Prop) (text : Text) : Reads p text text := ⟨[],rfl,by simp⟩

theorem Reads.trans {p : Char → Prop} {text mid rest : Text} (h : Reads p text mid)
    (h' : Reads p mid rest) : Reads p text rest := by
  obtain ⟨a,rfl,ha⟩ := h
  obtain ⟨b,rfl,hb⟩ := h'
  refine ⟨a++b,by simp,?_⟩
  intro c hc
  rcases List.mem_append.mp hc with hc|hc
  · exact ha c hc
  · exact hb c hc

theorem Reads.mono {p q : Char → Prop} {text rest : Text} (h : Reads p text rest)
    (hpq : ∀ c, p c → q c) : Reads q text rest := by
  obtain ⟨a,ha,hp⟩ := h
  exact ⟨a,ha,fun c hc => hpq c (hp c hc)⟩

theorem readGivenChar_reads {p : Char → Prop} {c : Char} (hc : p c) {text rest : Text}
    (h : readGivenChar c text=some rest) : Reads p text rest := by
  cases text with
  | nil => cases h
  | cons d text =>
    rw [readGivenChar] at h
    split_ifs at h with hd
    cases h
    exact ⟨[d],rfl,by simpa [hd] using hc⟩

theorem readNumber_reads {radix bound : Nat} {maxDigits : Option Nat} {allowZeroPrefix : Bool}
    {text rest : Text} {n : Nat} (h : readNumber radix bound maxDigits allowZeroPrefix text=
      some (n,rest)) : Reads (fun c => isDigit radix c=true) text rest := by
  simp only [readNumber] at h
  split_ifs at h
  cases h
  exact ⟨_,List.takeWhile_append_dropWhile.symm,fun c hc => List.mem_takeWhile_imp hc⟩

theorem readSeparator_reads {α : Type} {p : Char → Prop} {sep : Char} {index : Nat}
    {inner : Text → Option (α×Text)} (hs : p sep)
    (hi : ∀ text a rest, inner text=some (a,rest) → Reads p text rest) {text rest : Text} {a : α}
    (h : readSeparator sep index inner text=some (a,rest)) : Reads p text rest := by
  rw [readSeparator] at h
  split_ifs at h
  · exact hi _ _ _ h
  · obtain ⟨mid,hm,hr⟩ := Option.bind_eq_some_iff.mp h
    exact (readGivenChar_reads hs hm).trans (hi _ _ _ hr)

/-- The characters of an IPv6 address. -/
def Ipv6Char (c : Char) : Prop := isDigit 16 c=true ∨ c = ':' ∨ c = '.'

theorem isDigit_mono {c : Char} (h : isDigit 10 c=true) : isDigit 16 c=true := by
  rw [isDigit,Option.isSome_iff_exists] at h ⊢
  obtain ⟨n,hn⟩ := h
  rw [toDigit,Option.filter_eq_some_iff] at hn
  refine ⟨n,?_⟩
  rw [toDigit,Option.filter_eq_some_iff]
  refine ⟨hn.1,?_⟩
  have hlt := hn.2
  simp only [decide_eq_true_eq] at hlt ⊢
  omega

/-- The characters of an IPv4 address. -/
def Ipv4Char (c : Char) : Prop := isDigit 10 c=true ∨ c = '.'

theorem Ipv4Char.ipv6 {c : Char} (h : Ipv4Char c) : Ipv6Char c := by
  rcases h with h|h
  · exact Or.inl (isDigit_mono h)
  · exact Or.inr (Or.inr h)

theorem readIpv4Addr_reads {text rest : Text} {ip : Ipv4Addr}
    (h : readIpv4Addr text=some (ip,rest)) : Reads Ipv4Char text rest := by
  have octet : ∀ text a rest, readOctet text=some (a,rest) → Reads Ipv4Char text rest := by
    intro text a rest h
    obtain ⟨p,hp,hq⟩ := Option.map_eq_some_iff.mp h
    cases hq
    exact (readNumber_reads hp).mono (fun c hc => Or.inl hc)
  have sep : Ipv4Char '.' := Or.inr rfl
  simp only [readIpv4Addr,bind,Option.bind_eq_some_iff,Prod.exists,pure,Option.some.injEq] at h
  obtain ⟨a,ta,ha,b,tb,hb,c,tc,hc,d,td,hd,he⟩ := h
  cases he
  exact (readSeparator_reads sep octet ha).trans ((readSeparator_reads sep octet hb).trans
    ((readSeparator_reads sep octet hc).trans (readSeparator_reads sep octet hd)))

theorem readGroups_reads (left i : Nat) (text : Text) :
    Reads Ipv6Char text (readGroups left i text).2.2 := by
  have sep : Ipv6Char ':' := Or.inr (Or.inl rfl)
  have group : ∀ text a rest, readGroup text=some (a,rest) → Reads Ipv6Char text rest := by
    intro text a rest h
    obtain ⟨p,hp,hq⟩ := Option.map_eq_some_iff.mp h
    cases hq
    exact (readNumber_reads hp).mono (fun c hc => Or.inl hc)
  induction left generalizing i text with
  | zero => exact Reads.refl _ _
  | succ left ih =>
    rw [readGroups]
    split
    · rename_i ip rest h
      split_ifs at h
      exact readSeparator_reads sep
        (fun _ _ _ hr => (readIpv4Addr_reads hr).mono (fun _ => Ipv4Char.ipv6)) h
    · split
      · exact Reads.refl _ _
      · rename_i g rest h
        exact (readSeparator_reads sep group h).trans (ih (i+1) rest)

theorem readIpv6Addr_reads {text rest : Text} {ip : Ipv6Addr}
    (h : readIpv6Addr text=some (ip,rest)) : Reads Ipv6Char text rest := by
  have colon : Ipv6Char ':' := Or.inr (Or.inl rfl)
  simp only [readIpv6Addr] at h
  split_ifs at h
  · cases h
    exact readGroups_reads 8 0 text
  · simp only [bind,Option.bind_eq_some_iff,pure,Option.some.injEq] at h
    obtain ⟨a,ha,b,hb,he⟩ := h
    cases he
    exact (readGroups_reads 8 0 text).trans ((readGivenChar_reads colon ha).trans
      ((readGivenChar_reads colon hb).trans (readGroups_reads _ 0 b)))

/-- An IPv6 address is hexadecimal digits, colons and dots. -/
theorem parseIpv6Addr_chars {text : Text} {ip : Ipv6Addr} (h : parseIpv6Addr text=some ip) :
    ∀ c∈text, Ipv6Char c := by
  rw [parseIpv6Addr,parseWith] at h
  split at h
  · rename_i a ha
    obtain ⟨read,ht,hr⟩ := readIpv6Addr_reads ha
    rw [ht,List.append_nil]
    exact hr
  · cases h

/-- An IPv4 address is digits and dots. -/
theorem parseIpv4Addr_chars {text : Text} {ip : Ipv4Addr} (h : parseIpv4Addr text=some ip) :
    ∀ c∈text, Ipv4Char c := by
  rw [parseIpv4Addr] at h
  split_ifs at h
  rw [parseWith] at h
  split at h
  · rename_i a ha
    obtain ⟨read,ht,hr⟩ := readIpv4Addr_reads ha
    rw [ht,List.append_nil]
    exact hr
  · cases h

theorem readGivenChar_none {c : Char} {text : Text} (h : c∉text) : readGivenChar c text=none := by
  cases text with
  | nil => rfl
  | cons d text =>
    have hd : d≠c := fun he => h (by simp [he])
    rw [readGivenChar,if_neg hd]

/-- Without a colon there is at most one group, or the two of an IPv4 address. -/
theorem readIpv6Addr_none {text : Text} (h : ':'∉text) : readIpv6Addr text=none := by
  have hstop : ∀ left rest, ':'∉rest → readGroups left 1 rest=([],false,rest) := by
    intro left rest hr
    cases left with
    | zero => rfl
    | succ left => simp [readGroups,readSeparator,readGivenChar_none hr]
  have hsuffix : ∀ {p : Char → Prop} {rest}, Reads p text rest → ':'∉rest := by
    rintro p rest ⟨read,ht,-⟩ hm
    rw [ht] at h
    exact h (List.mem_append_right _ hm)
  have hlen : (readGroups 8 0 text).1.length≠8 := by
    rw [readGroups]
    split
    · simp [Ipv4Addr.groups]
    · split
      · simp
      · rename_i g rest hg
        obtain ⟨p,hp,hq⟩ := Option.map_eq_some_iff.mp hg
        cases hq
        simp [hstop 7 p.2 (hsuffix (readNumber_reads hp))]
  have hcolon := readGivenChar_none (hsuffix (readGroups_reads 8 0 text))
  simp only [readIpv6Addr,dif_neg hlen,hcolon,Option.bind_eq_bind,Option.bind_none,ite_self]

/-- An IPv6 address has a colon in it. -/
theorem parseIpv6Addr_none {text : Text} (h : ':'∉text) : parseIpv6Addr text=none := by
  rw [parseIpv6Addr,parseWith,readIpv6Addr_none h]

end Tobira.Framework.Net
