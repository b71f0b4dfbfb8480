import Tobira.Framework.Net

namespace Tobira.Framework.Url

open Net

/-- Tabs and newlines are removed from the input before it is parsed. -/
def isTabOrNewline (c : Char) : Bool := ['\t','\n','\r'].contains c

def removeTabs (input : Text) : Text := input.filter (fun c => !isTabOrNewline c)

def endsAuthority (c : Char) : Bool := ['/','?','#'].contains c

def authority (input : Text) : Text := input.takeWhile (fun c => !endsAuthority c)

/-- What follows the userinfo. -/
def hostAndPort (authority : Text) : Text := (afterLast '@' authority).getD authority

/-- The host state: a colon outside square brackets ends the host and starts the port. -/
def splitPort : Bool → Text → Text×Option Text
  | _,[] => ([],none)
  | inside,c::rest =>
    if c = ':' ∧ inside=false then ([],some rest)
    else
      let p := splitPort (if c = '[' then true else if c = ']' then false else inside) rest
      (c::p.1,p.2)

def forbiddenHostChar (c : Char) : Bool :=
  ['\x00','\t','\n','\r',' ','#','/',':','<','>','?','@','[','\\',']','^','|'].contains c

/-- The text between the square brackets it stands in. -/
def stripBrackets (host : Text) : Option Text :=
  (readGivenChar '[' host).bind
    (fun rest => (readGivenChar ']' rest.reverse).map List.reverse)

/-- The opaque-host parser of a scheme that is not special. -/
def validHost (host : Text) : Bool :=
  match readGivenChar '[' host with
  | some _ => (stripBrackets host).any (fun inner => (parseIpv6Addr inner).isSome)
  | none => host.all (fun c => !forbiddenHostChar c)

def validPort (port : Text) : Bool :=
  port.all (isDigit 10) && decide (digitsValue 10 port≤65535)

/-- Whether the authority at the front of the input can be parsed. A host may be missing only
when neither userinfo nor port is there. -/
def validAuthority (input : Text) : Bool :=
  let a := authority (removeTabs input)
  let p := splitPort false (hostAndPort a)
  validHost p.1 && p.2.all validPort && (p.1≠[] || (p.2=none && '@'∉a))

example : validAuthority "uuid@[::1]:443".toList=true ∧ validAuthority "host:x/".toList=false := by
  decide

theorem removeTabs_append (a b : Text) : removeTabs (a++b)=removeTabs a++removeTabs b := by
  simp [removeTabs]

theorem removeTabs_plain {a : Text} (h : ∀ c∈a, isTabOrNewline c=false) : removeTabs a=a := by
  rw [removeTabs,List.filter_eq_self]
  intro c hc
  rw [h c hc]
  rfl

theorem contains_false {p : Char → Prop} [DecidablePred p] {cs : Text} {c : Char} (h : p c)
    (hp : cs.any (fun d => decide (p d))=false) : cs.contains c=false := by
  rw [List.contains_eq_mem,decide_eq_false_iff_not]
  intro hc
  exact List.any_eq_false.mp hp c hc (decide_eq_true h)

theorem endsAuthority_plain {c : Char} (h : endsAuthority c=true) : isTabOrNewline c=false :=
  contains_false (p := fun c => endsAuthority c=true) h (by decide)

/-- Where a text ends the authority itself, what follows it is not looked at. -/
theorem validAuthority_ended {input : Text} (rest : Text) (h : ∃ c∈input, endsAuthority c=true) :
    validAuthority (input++rest)=validAuthority input := by
  have ha : authority (removeTabs (input++rest))=authority (removeTabs input) := by
    rw [removeTabs_append,authority,authority,takeWhile_append_some]
    obtain ⟨c,hc,he⟩ := h
    refine ⟨c,?_,by simp [he]⟩
    rw [removeTabs,List.mem_filter]
    exact ⟨hc,by simp [endsAuthority_plain he]⟩
  rw [validAuthority,validAuthority,ha]

/-- A host that the parser reads back as it is written, whatever port follows. -/
structure PlainHost (host : Text) : Prop where
  valid : validHost host=true
  nonempty : host≠[]
  chars : ∀ c∈host, isTabOrNewline c=false ∧ endsAuthority c=false ∧ c ≠ '@'
  split : ∀ port, splitPort false (host ++ ':'::port)=(host,some port)

theorem isDigit_of_isDigit {c : Char} (h : c.isDigit=true) : isDigit 10 c=true := by
  rw [isDigit,toDigit_ten h]
  rfl

theorem digit_plain {c : Char} (h : c.isDigit=true) :
    isTabOrNewline c=false ∧ endsAuthority c=false ∧ c ≠ '@' := by
  have hno {cs : Text} := @contains_false (fun c => c.isDigit=true) _ cs c h
  refine ⟨hno (by decide),hno (by decide),?_⟩
  rintro rfl
  revert h
  decide

theorem validPort_decimal {port : Nat} (h : port≤65535) : validPort (decimal port)=true := by
  rw [validPort,digitsValue_decimal,Bool.and_eq_true]
  refine ⟨?_,by simpa using h⟩
  rw [List.all_eq_true]
  intro c hc
  exact isDigit_of_isDigit (decimal_isDigit hc)

theorem hostPort_plain {host : Text} (hh : PlainHost host) (port : Nat) :
    ∀ c∈host ++ ':'::decimal port, isTabOrNewline c=false ∧ endsAuthority c=false ∧ c ≠ '@' := by
  intro c hc
  rcases List.mem_append.mp hc with hc|hc
  · exact hh.chars c hc
  · rcases List.mem_cons.mp hc with rfl|hc
    · decide
    · exact digit_plain (decimal_isDigit hc)

/-- Whatever stands before the last at sign is userinfo. -/
theorem validAuthority_userinfo {userinfo host : Text} {port : Nat}
    (hu : ∀ c∈userinfo, endsAuthority c=false) (hh : PlainHost host) (hp : port≤65535) :
    validAuthority (userinfo ++ '@'::(host ++ ':'::decimal port))=true := by
  have htail := hostPort_plain hh port
  have hclean : removeTabs (userinfo ++ '@'::(host ++ ':'::decimal port))=
      removeTabs userinfo ++ '@'::(host ++ ':'::decimal port) := by
    rw [removeTabs_append]
    congr 1
    apply removeTabs_plain
    intro c hc
    rcases List.mem_cons.mp hc with rfl|hc
    · decide
    · exact (htail c hc).1
  have hauth : authority (removeTabs userinfo ++ '@'::(host ++ ':'::decimal port))=
      removeTabs userinfo ++ '@'::(host ++ ':'::decimal port) := by
    rw [authority,List.takeWhile_eq_self_iff]
    intro c hc
    rcases List.mem_append.mp hc with hc|hc
    · rw [hu c (List.mem_of_mem_filter hc)]
      rfl
    · rcases List.mem_cons.mp hc with rfl|hc
      · decide
      · rw [(htail c hc).2.1]
        rfl
  have hafter : hostAndPort (removeTabs userinfo ++ '@'::(host ++ ':'::decimal port))=
      host ++ ':'::decimal port := by
    rw [hostAndPort,afterLast_append _ (fun hc => (htail _ hc).2.2 rfl)]
    rfl
  simp only [validAuthority,hclean,hauth,hafter,hh.split,hh.valid,Option.all_some,
    validPort_decimal hp,Bool.and_self,Bool.true_and,Bool.or_eq_true]
  exact Or.inl (by simpa using hh.nonempty)

theorem splitPort_plain {host : Text} (port : Text) (h : ∀ c∈host, c ≠ ':' ∧ c ≠ '[') :
    splitPort false (host ++ ':'::port)=(host,some port) := by
  induction host with
  | nil => rfl
  | cons c host ih =>
    obtain ⟨hc,hb⟩ := h c (by simp)
    have hi := ih (fun d hd => h d (by simp [hd]))
    rw [List.cons_append,splitPort,if_neg (fun he => hc he.1),if_neg hb,ite_self,hi]

/-- Inside square brackets a colon does not end the host. -/
theorem splitPort_bracketed {inner : Text} (port : Text) (h : ∀ c∈inner, c ≠ ']') :
    splitPort true (inner ++ ']':: ':'::port)=(inner++[']'],some port) := by
  induction inner with
  | nil => rfl
  | cons c inner ih =>
    have hc := h c (by simp)
    have hi := ih (fun d hd => h d (by simp [hd]))
    rw [List.cons_append,splitPort,if_neg (by simp),if_neg hc,ite_self,hi]
    rfl

/-- The characters of a DNS name; an IPv4 address has no others. -/
def NameChar (c : Char) : Prop := c.isAlphanum=true ∨ c = '-' ∨ c = '.' ∨ c = '_'

instance (c : Char) : Decidable (NameChar c) := inferInstanceAs (Decidable (_ ∨ _ ∨ _ ∨ _))

theorem nameChar_plain {c : Char} (h : NameChar c) :
    isTabOrNewline c=false ∧ endsAuthority c=false ∧ forbiddenHostChar c=false :=
  ⟨contains_false h (by decide),contains_false h (by decide),contains_false h (by decide)⟩

theorem nameChar_ne {c d : Char} (h : NameChar c) (hd : ¬NameChar d) : c≠d :=
  fun he => hd (he ▸ h)

theorem plainHost_name {host : Text} (hn : host≠[]) (h : ∀ c∈host, NameChar c) :
    PlainHost host := by
  have hv : validHost host=true := by
    cases host with
    | nil => exact absurd rfl hn
    | cons c host =>
      have hc : c ≠ '[' := nameChar_ne (h c (by simp)) (by decide)
      rw [validHost,readGivenChar,if_neg hc]
      rw [List.all_eq_true]
      intro d hd
      rw [(nameChar_plain (h d hd)).2.2]
      rfl
  refine ⟨hv,hn,?_,?_⟩
  · intro c hc
    obtain ⟨ht,he,-⟩ := nameChar_plain (h c hc)
    exact ⟨ht,he,nameChar_ne (h c hc) (by decide)⟩
  · intro port
    apply splitPort_plain
    intro c hc
    exact ⟨nameChar_ne (h c hc) (by decide),nameChar_ne (h c hc) (by decide)⟩

theorem stripBrackets_bracketed (inner : Text) :
    stripBrackets ('['::(inner++[']']))=some inner := by
  simp [stripBrackets,readGivenChar]

instance (c : Char) : Decidable (Ipv6Char c) := inferInstanceAs (Decidable (_ ∨ _ ∨ _))

theorem ipv6Char_plain {c : Char} (h : Ipv6Char c) :
    isTabOrNewline c=false ∧ endsAuthority c=false ∧ c ≠ '@' ∧ c ≠ ']' := by
  have hne {d : Char} (hd : ¬Ipv6Char d) : c≠d := fun he => hd (he ▸ h)
  exact ⟨contains_false h (by decide),contains_false h (by decide),hne (by decide),
    hne (by decide)⟩

theorem plainHost_ipv6 {inner : Text} {ip : Ipv6Addr} (h : parseIpv6Addr inner=some ip) :
    PlainHost ('['::(inner++[']'])) := by
  have hc := parseIpv6Addr_chars h
  have hv : validHost ('['::(inner++[']']))=true := by
    rw [validHost,readGivenChar,if_pos rfl]
    simp only [stripBrackets_bracketed,Option.any_some,h,Option.isSome_some]
  refine ⟨hv,by simp,?_,?_⟩
  · intro c hm
    rcases List.mem_cons.mp hm with rfl|hm
    · decide
    · rcases List.mem_append.mp hm with hm|hm
      · obtain ⟨ht,he,ha,-⟩ := ipv6Char_plain (hc c hm)
        exact ⟨ht,he,ha⟩
      · rw [List.mem_singleton.mp hm]
        decide
  · intro port
    have hs := splitPort_bracketed port (fun c hm => (ipv6Char_plain (hc c hm)).2.2.2)
    rw [List.cons_append,List.append_assoc,splitPort,if_neg (by simp),if_pos rfl,
      List.singleton_append,hs]

end Tobira.Framework.Url
