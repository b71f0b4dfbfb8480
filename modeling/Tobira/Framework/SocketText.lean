import Tobira.Framework.Net
import Tobira.Framework.Str

namespace Tobira.Framework.Net

/-- What follows a text does not change what is read off its front. -/
def Ignores {α : Type} (inner : Text → Option (α×Text)) (tail : Text) : Prop :=
  ∀ text, inner (text++tail)=(inner text).map (fun p => (p.1,p.2++tail))

section
variable {tail : Text}

theorem readGivenChar_append {c : Char} (h : tail.head?≠some c) (text : Text) :
    readGivenChar c (text++tail)=(readGivenChar c text).map (·++tail) := by
  cases text with
  | nil =>
    rw [List.nil_append]
    cases tail with
    | nil => rfl
    | cons d tail =>
      have hd : d≠c := fun he => h (congrArg some he)
      exact if_neg hd
  | cons d text =>
    rw [List.cons_append,readGivenChar,readGivenChar]
    split_ifs <;> rfl

theorem takeWhile_append_stop {p : Char → Bool} (h : ∀ c∈tail.head?, p c=false) (text : Text) :
    (text++tail).takeWhile p=text.takeWhile p ∧
      (text++tail).dropWhile p=text.dropWhile p++tail := by
  induction text with
  | nil =>
    cases tail with
    | nil => exact ⟨rfl,rfl⟩
    | cons c tail =>
      have hc := h c rfl
      simp [hc]
  | cons c text ih =>
    cases hc : p c <;> simp [hc,ih.1,ih.2]

theorem readNumber_ignores {radix bound : Nat} {maxDigits : Option Nat} {allowZeroPrefix : Bool}
    (h : ∀ c∈tail.head?, isDigit radix c=false) :
    Ignores (readNumber radix bound maxDigits allowZeroPrefix) tail := by
  intro text
  obtain ⟨ht,hd⟩ := takeWhile_append_stop h text
  simp only [readNumber,ht,hd]
  split_ifs <;> rfl

theorem Ignores.map {α β : Type} {inner : Text → Option (α×Text)} (h : Ignores inner tail)
    (f : α → β) : Ignores (fun text => (inner text).map (fun p => (f p.1,p.2))) tail := by
  intro text
  simp only [h text,Option.map_map]
  rfl

theorem Ignores.bind {α β : Type} {inner : Text → Option (α×Text)} (h : Ignores inner tail)
    {next : α → Text → Option (β×Text)} (hn : ∀ a, Ignores (next a) tail) :
    Ignores (fun text => (inner text).bind (fun p => next p.1 p.2)) tail := by
  intro text
  simp only [h text]
  cases inner text with
  | none => rfl
  | some p => exact hn p.1 p.2

theorem Ignores.separator {α : Type} {inner : Text → Option (α×Text)} (h : Ignores inner tail)
    {sep : Char} (hs : tail.head?≠some sep) (index : Nat) :
    Ignores (readSeparator sep index inner) tail := by
  intro text
  rw [readSeparator,readSeparator]
  split_ifs
  · exact h text
  · rw [readGivenChar_append hs]
    cases readGivenChar sep text with
    | none => rfl
    | some rest => exact h rest

end

section
variable {tail : Text} (hd : ∀ c∈tail.head?, isDigit 16 c=false) (hp : tail.head? ≠ some '.')
include hd

theorem readOctet_ignores : Ignores readOctet tail := by
  have hten : ∀ c∈tail.head?, isDigit 10 c=false := by
    intro c hc
    rw [← Bool.not_eq_true]
    intro h
    have hsixteen := hd c hc
    rw [isDigit_mono h] at hsixteen
    cases hsixteen
  exact (readNumber_ignores hten).map UInt8.ofNat

theorem readGroup_ignores : Ignores readGroup tail := (readNumber_ignores hd).map UInt16.ofNat

include hp

theorem readIpv4Addr_ignores : Ignores readIpv4Addr tail := by
  have hsep := fun index => (readOctet_ignores hd).separator hp index
  have hpure : ∀ ip : Ipv4Addr, Ignores (fun text => some (ip,text)) tail := fun _ _ => rfl
  exact (hsep 0).bind (fun a => (hsep 1).bind (fun b => (hsep 2).bind (fun c => (hsep 3).bind
    (fun d => hpure ⟨a,b,c,d⟩))))

variable (hc : tail.head? ≠ some ':')
include hc

theorem readGroups_ignores (left i : Nat) (text : Text) :
    readGroups left i (text++tail)=((readGroups left i text).1,(readGroups left i text).2.1,
      (readGroups left i text).2.2++tail) := by
  induction left generalizing i text with
  | zero => rfl
  | succ left ih =>
    have hv4 := ((readIpv4Addr_ignores hd hp).separator hc i) text
    have hgroup := ((readGroup_ignores hd).separator hc i) text
    have hif : (if 0<left then readSeparator ':' i readIpv4Addr (text++tail) else none)=
        (if 0<left then readSeparator ':' i readIpv4Addr text else none).map
          (fun p => (p.1,p.2++tail)) := by
      split_ifs
      · exact hv4
      · rfl
    rw [readGroups,readGroups,hif,hgroup]
    cases (if 0<left then readSeparator ':' i readIpv4Addr text else none) with
    | some p => rfl
    | none =>
      cases readSeparator ':' i readGroup text with
      | none => rfl
      | some p =>
        simp only [Option.map_some,Option.map_none,ih]

theorem readIpv6Addr_ignores : Ignores readIpv6Addr tail := by
  intro text
  have hhead := readGroups_ignores hd hp hc 8 0 text
  simp only [readIpv6Addr,hhead]
  split_ifs with h hv
  · rfl
  · rfl
  · rw [readGivenChar_append hc]
    cases readGivenChar ':' (readGroups 8 0 text).2.2 with
    | none => rfl
    | some rest =>
      simp only [Option.map_some,bind,Option.bind_some]
      rw [readGivenChar_append hc]
      cases readGivenChar ':' rest with
      | none => rfl
      | some rest =>
        have htail := readGroups_ignores hd hp hc (8-((readGroups 8 0 text).1.length+1)) 0 rest
        simp only [Option.map_some,Option.bind_some,htail]
        rfl

end

theorem parseWith_iff {α : Type} {inner : Text → Option (α×Text)} {text : Text} {a : α} :
    parseWith inner text=some a ↔ inner text=some (a,[]) := by
  rw [parseWith]
  cases inner text with
  | none => simp
  | some p =>
    obtain ⟨b,rest⟩ := p
    cases rest <;> simp

/-- The whole text is used up and nothing of the tail. -/
theorem Ignores.whole {α : Type} {inner : Text → Option (α×Text)} {tail : Text}
    (h : Ignores inner tail) {text : Text} {a : α} :
    inner (text++tail)=some (a,tail) ↔ parseWith inner text=some a := by
  rw [parseWith_iff,h text]
  cases inner text with
  | none => simp
  | some p => simp [Prod.ext_iff]

theorem isDigit_decimal {n : Nat} {c : Char} (h : c∈decimal n) : isDigit 10 c=true := by
  rw [isDigit,toDigit_ten (decimal_isDigit h)]
  rfl

theorem readNumber_decimal {n bound : Nat} (h : n<bound) :
    readNumber 10 bound none true (decimal n)=some (n,[]) := by
  have hall : ∀ c∈decimal n, isDigit 10 c=true := fun c hc => isDigit_decimal hc
  have ht : (decimal n).takeWhile (isDigit 10)=decimal n :=
    List.takeWhile_eq_self_iff.mpr hall
  have hdrop : (decimal n).dropWhile (isDigit 10)=[] := List.dropWhile_eq_nil_iff.mpr hall
  have hne : decimal n≠[] := Nat.toDigits_ne_nil
  simp only [readNumber,ht,hdrop,digitsValue_decimal]
  rw [if_neg]
  simp [hne,h]

theorem readPort_decimal {port : Nat} (h : port<65536) :
    readPort (':'::decimal port)=some (port,[]) :=
  readNumber_decimal h

/-- A port to the end of the text is a colon and digits. -/
theorem readPort_whole {text : Text} {port : Nat} (h : readPort text=some (port,[])) :
    ∃ digits, text = ':'::digits ∧ ':'∉digits := by
  cases text with
  | nil => cases h
  | cons c digits =>
    obtain ⟨rest,hr,hn⟩ := Option.bind_eq_some_iff.mp h
    rw [readGivenChar] at hr
    split_ifs at hr with hc
    cases hr
    obtain ⟨read,ht,hall⟩ := readNumber_reads hn
    refine ⟨digits,by rw [hc],?_⟩
    intro hm
    rw [ht,List.append_nil] at hm
    have hcolon := hall _ hm
    revert hcolon
    decide

/-- The address and the scope that a host in square brackets spells. -/
def Bracketed (host : Text) (ip : Ipv6Addr) (scope : Nat) : Prop :=
  ∃ addr suffix, host = '['::(addr++suffix++[']']) ∧ parseIpv6Addr addr=some ip ∧
    ((suffix=[] ∧ scope=0) ∨ parseWith readScopeId suffix=some scope)

theorem readOctet_length {text rest : Text} {a : UInt8} (h : readOctet text=some (a,rest)) :
    text.length≤rest.length+3 := by
  obtain ⟨p,hp,he⟩ := Option.map_eq_some_iff.mp h
  cases he
  simp only [readNumber] at hp
  split_ifs at hp with hbad
  cases hp
  have hcat := congrArg List.length
    (List.takeWhile_append_dropWhile (p := isDigit 10) (l := text))
  have hthree : (text.takeWhile (isDigit 10)).length≤3 := by
    by_contra hlong
    exact hbad (Or.inr (Or.inl ⟨3,rfl,by omega⟩))
  rw [List.length_append] at hcat
  dsimp only
  omega

theorem readIpv4Addr_length {text : Text} {ip : Ipv4Addr} (h : readIpv4Addr text=some (ip,[])) :
    text.length≤15 := by
  have hsep : ∀ {index text a rest}, index≠0 →
      readSeparator '.' index readOctet text=some (a,rest) → text.length≤rest.length+4 := by
    intro index text a rest hi hs
    rw [readSeparator,if_neg hi] at hs
    obtain ⟨mid,hm,ho⟩ := Option.bind_eq_some_iff.mp hs
    have hl := readOctet_length ho
    cases text with
    | nil => cases hm
    | cons c text =>
      rw [readGivenChar] at hm
      split_ifs at hm
      cases hm
      rw [List.length_cons]
      omega
  simp only [readIpv4Addr,bind,Option.bind_eq_some_iff,Prod.exists,pure,Option.some.injEq] at h
  obtain ⟨a,ta,ha,b,tb,hb,c,tc,hc,d,td,hd,he⟩ := h
  cases he
  have h0 : text.length≤ta.length+3 := readOctet_length ha
  have h1 := hsep (by decide) hb
  have h2 := hsep (by decide) hc
  have h3 := hsep (by decide) hd
  rw [List.length_nil] at h3
  omega

/-- The limit on the length takes nothing away. -/
theorem parseIpv4Addr_iff {text : Text} {ip : Ipv4Addr} :
    parseIpv4Addr text=some ip ↔ parseWith readIpv4Addr text=some ip := by
  rw [parseIpv4Addr]
  split_ifs with hlong
  · rw [parseWith_iff]
    constructor
    · intro h
      cases h
    · intro h
      have hl := readIpv4Addr_length h
      omega
  · rfl

theorem colon_notMem_decimal (n : Nat) : ':'∉decimal n := by
  intro hm
  have hc := decimal_isDigit hm
  revert hc
  decide

theorem readGivenChar_some {c : Char} {text rest : Text} (h : readGivenChar c text=some rest) :
    text=c::rest := by
  cases text with
  | nil => cases h
  | cons d text =>
    rw [readGivenChar] at h
    split_ifs at h with hd
    cases h
    rw [hd]

/-- An IPv6 address ends at its scope or at the closing bracket, -/
theorem readIpv6Addr_stops {c : Char} (hc : c = '%' ∨ c = ']') (tail : Text) :
    Ignores readIpv6Addr (c::tail) := by
  apply readIpv6Addr_ignores
  · intro d hd
    cases hd
    rcases hc with rfl|rfl <;> decide
  · rintro ⟨rfl⟩
    rcases hc with hc|hc <;> cases hc
  · rintro ⟨rfl⟩
    rcases hc with hc|hc <;> cases hc

/-- and the scope at the closing bracket. -/
theorem readScopeId_stops (tail : Text) : Ignores readScopeId (']'::tail) := by
  intro text
  have hnumber : Ignores (readNumber 10 (2^32) none true) (']'::tail) := by
    apply readNumber_ignores
    intro d hd
    cases hd
    decide
  simp only [readScopeId,bind]
  rw [readGivenChar_append (by simp)]
  cases readGivenChar '%' text with
  | none => rfl
  | some rest => exact hnumber rest

section
variable {host : Text} {port : Nat} (hport : port<65536)
include hport

theorem readSocketAddrV4_host {ip : Ipv4Addr} {p : Nat} :
    readSocketAddrV4 (host ++ ':'::decimal port)=some (.v4 ip p,[]) ↔
      parseIpv4Addr host=some ip ∧ p=port := by
  have hignore : Ignores readIpv4Addr (':'::decimal port) := by
    apply readIpv4Addr_ignores
    · intro c hc
      cases hc
      decide
    · intro hc
      cases hc
  rw [parseIpv4Addr_iff]
  constructor
  · intro h
    simp only [readSocketAddrV4,bind,Option.bind_eq_some_iff,Prod.exists,pure,Option.some.injEq]
      at h
    obtain ⟨ip',rest,hip,p',rest',hp,he⟩ := h
    cases he
    rw [hignore host] at hip
    obtain ⟨q,hq,he⟩ := Option.map_eq_some_iff.mp hip
    cases he
    -- What is left of the host before the colon is empty, as the port has no colon in it.
    obtain ⟨digits,hd,hcolon⟩ := readPort_whole hp
    obtain ⟨hnil,-⟩ := append_cons_inj_last (colon_notMem_decimal port) hcolon
      (hd.trans (List.nil_append _).symm)
    rw [hnil,List.nil_append,readPort_decimal hport] at hp
    cases hp
    refine ⟨?_,rfl⟩
    rw [parseWith_iff,hq,← hnil]
  · rintro ⟨h,rfl⟩
    rw [readSocketAddrV4,hignore.whole.mpr h]
    simp only [bind,Option.bind_some,readPort_decimal hport]
    rfl

theorem readSocketAddrV6_host {ip : Ipv6Addr} {p scope : Nat} :
    readSocketAddrV6 (host ++ ':'::decimal port)=some (.v6 ip p scope,[]) ↔
      Bracketed host ip scope ∧ p=port := by
  constructor
  · intro h
    simp only [readSocketAddrV6,bind,Option.bind_eq_some_iff,pure,Option.some.injEq] at h
    obtain ⟨t1,h1,⟨ip',t2⟩,h2,t4,h4,⟨p',t5⟩,h5,he⟩ := h
    cases he
    have hopen := readGivenChar_some h1
    obtain ⟨addr,rfl,-⟩ := readIpv6Addr_reads h2
    have hclose := readGivenChar_some h4
    obtain ⟨digits,rfl,hcolon⟩ := readPort_whole h5
    have hfinish : ∀ suffix, t2=suffix ++ ']':: ':'::digits → host = '['::(addr++suffix++[']']) ∧
        p'=port := by
      rintro suffix rfl
      have hcut : host ++ ':'::decimal port=('['::(addr++suffix++[']'])) ++ ':'::digits := by
        rw [hopen]
        simp
      obtain ⟨hh,rfl⟩ := append_cons_inj_last (colon_notMem_decimal port) hcolon hcut
      rw [readPort_decimal hport] at h5
      cases h5
      exact ⟨hh,rfl⟩
    cases hr : readScopeId t2 with
    | none =>
      rw [hr] at hclose
      have ht2 : t2 = ']':: ':'::digits := hclose
      obtain ⟨hh,hp⟩ := hfinish [] ht2
      rw [ht2] at h2
      exact ⟨⟨addr,[],hh,(readIpv6Addr_stops (Or.inr rfl) _).whole.mp h2,Or.inl ⟨rfl,rfl⟩⟩,hp⟩
    | some q =>
      obtain ⟨sc,t3⟩ := q
      rw [hr] at hclose
      have ht3 : t3 = ']':: ':'::digits := hclose
      subst ht3
      obtain ⟨u,hu,hn⟩ := Option.bind_eq_some_iff.mp hr
      have ht2 := readGivenChar_some hu
      obtain ⟨ds,rfl,-⟩ := readNumber_reads hn
      obtain ⟨hh,hp⟩ := hfinish ('%'::ds) (by rw [ht2,List.cons_append])
      refine ⟨⟨addr,'%'::ds,hh,?_,Or.inr ?_⟩,hp⟩
      · rw [ht2] at h2
        exact (readIpv6Addr_stops (Or.inl rfl) _).whole.mp h2
      · rw [ht2,← List.cons_append] at hr
        exact (readScopeId_stops _).whole.mp hr
  · rintro ⟨⟨addr,suffix,rfl,hip,hs⟩,rfl⟩
    have htext : '['::(addr++suffix++[']']) ++ ':'::decimal p=
        '['::(addr++(suffix ++ ']':: ':'::decimal p)) := by simp
    have hread : readIpv6Addr (addr++(suffix ++ ']':: ':'::decimal p))=
          some (ip,suffix ++ ']':: ':'::decimal p) ∧
        (readScopeId (suffix ++ ']':: ':'::decimal p)).getD (0,suffix ++ ']':: ':'::decimal p)=
          (scope,']':: ':'::decimal p) := by
      rcases hs with ⟨rfl,rfl⟩|hs
      · exact ⟨(readIpv6Addr_stops (Or.inr rfl) _).whole.mpr hip,rfl⟩
      · obtain ⟨u,hu,-⟩ := Option.bind_eq_some_iff.mp (parseWith_iff.mp hs)
        have hsuffix := readGivenChar_some hu
        rw [(readScopeId_stops _).whole.mpr hs,Option.getD_some]
        rw [hsuffix,List.cons_append]
        exact ⟨(readIpv6Addr_stops (Or.inl rfl) _).whole.mpr hip,rfl⟩
    rw [htext]
    simp only [readSocketAddrV6,readGivenChar,if_true,bind,Option.bind_some,hread.1,hread.2,
      readPort_decimal hport]
    rfl

/-- A host and a port are a socket address exactly when the host is an IPv4 address or an IPv6
address in square brackets. -/
theorem parseSocketAddr_host {addr : SocketAddr} :
    parseSocketAddr (host ++ ':'::decimal port)=some addr ↔
      (∃ ip, parseIpv4Addr host=some ip ∧ addr=.v4 ip port) ∨
      (∃ ip scope, Bracketed host ip scope ∧ addr=.v6 ip port scope) := by
  rw [parseSocketAddr,parseWith_iff,Option.or_eq_some_iff]
  constructor
  · rintro (h|⟨-,h⟩)
    · cases addr with
      | v4 ip p =>
        obtain ⟨hip,rfl⟩ := (readSocketAddrV4_host hport).mp h
        exact Or.inl ⟨ip,hip,rfl⟩
      | v6 ip p scope =>
        obtain ⟨q,-,hq⟩ := Option.bind_eq_some_iff.mp h
        obtain ⟨r,-,hr⟩ := Option.bind_eq_some_iff.mp hq
        cases hr
    · cases addr with
      | v4 ip p =>
        simp only [readSocketAddrV6,bind,Option.bind_eq_some_iff,pure,Option.some.injEq] at h
        obtain ⟨t1,-,q,-,t4,-,r,-,he⟩ := h
        cases he
      | v6 ip p scope =>
        obtain ⟨hb,rfl⟩ := (readSocketAddrV6_host hport).mp h
        exact Or.inr ⟨ip,scope,hb,rfl⟩
  · rintro (⟨ip,hip,rfl⟩|⟨ip,scope,hb,rfl⟩)
    · exact Or.inl ((readSocketAddrV4_host hport).mpr ⟨hip,rfl⟩)
    · refine Or.inr ⟨?_,(readSocketAddrV6_host hport).mpr ⟨hb,rfl⟩⟩
      obtain ⟨a,suffix,rfl,-⟩ := hb
      -- An address in brackets does not begin with an octet.
      rfl

end

/-- A scope is a percent sign and digits. -/
theorem readScopeId_reads {text : Text} {q : Nat×Text} (h : readScopeId text=some q) :
    ∃ scope, text=scope++q.2 ∧ '['∉scope := by
  obtain ⟨u,hu,hn⟩ := Option.bind_eq_some_iff.mp h
  obtain ⟨digits,rfl,hdigits⟩ := readNumber_reads hn
  refine ⟨'%'::digits,readGivenChar_some hu,?_⟩
  intro hm
  rcases List.mem_cons.mp hm with hm|hm
  · cases hm
  · exact absurd (hdigits _ hm) (by decide)

/-- The text of a socket address: a port behind the last colon, and before it the characters of an
IPv4 address or a text in one pair of square brackets. -/
theorem parseSocketAddr_shape {text : Text} {addr : SocketAddr}
    (h : parseSocketAddr text=some addr) :
    ∃ host port, text=host ++ ':'::port ∧ ':'∉port ∧
      ((∀ c∈host, Ipv4Char c) ∨ ∃ inner, host = '['::(inner++[']']) ∧ '['∉inner) := by
  rw [parseSocketAddr,parseWith_iff,Option.or_eq_some_iff] at h
  rcases h with h|⟨-,h⟩
  · simp only [readSocketAddrV4,bind,Option.bind_eq_some_iff,Prod.exists,pure,Option.some.injEq] at h
    obtain ⟨ip,rest,hip,p,rest',hp,he⟩ := h
    cases he
    obtain ⟨host,rfl,hhost⟩ := readIpv4Addr_reads hip
    obtain ⟨port,rfl,hcolon⟩ := readPort_whole hp
    exact ⟨host,port,rfl,hcolon,Or.inl hhost⟩
  · simp only [readSocketAddrV6,bind,Option.bind_eq_some_iff,pure,Option.some.injEq] at h
    obtain ⟨t1,h1,⟨ip,t2⟩,h2,t4,h4,⟨p,t5⟩,h5,he⟩ := h
    cases he
    obtain ⟨ip6,rfl,hip6⟩ := readIpv6Addr_reads h2
    obtain ⟨port,rfl,hcolon⟩ := readPort_whole h5
    have hno : '['∉ip6 := by
      intro hm
      have hc := hip6 _ hm
      rw [Ipv6Char] at hc
      revert hc
      decide
    have hscope : ∃ suffix, t2=suffix ++ ']':: ':'::port ∧ '['∉suffix := by
      have hclose := readGivenChar_some h4
      cases hr : readScopeId t2 with
      | none =>
        rw [hr] at hclose
        exact ⟨[],hclose,List.not_mem_nil⟩
      | some q =>
        rw [hr] at hclose
        have hrest : q.2 = ']':: ':'::port := hclose
        rw [← hrest]
        exact readScopeId_reads hr
    obtain ⟨suffix,rfl,hs⟩ := hscope
    refine ⟨'['::((ip6++suffix)++[']']),port,?_,hcolon,Or.inr ⟨ip6++suffix,rfl,?_⟩⟩
    · rw [readGivenChar_some h1]
      simp
    · intro hm
      exact (List.mem_append.mp hm).elim hno hs

end Tobira.Framework.Net
