import Tobira.Framework.Whatwg

namespace Tobira.Framework.Url

theorem cut_append {c : Char} {before : Text} (h : c∉before) (rest : Text) :
    cut c (before++c::rest)=(before,some rest) := by
  rw [cut,splitOnce_append h]

theorem cut_none {c : Char} {text : Text} (h : c∉text) : cut c text=(text,none) := by
  have hd : text.dropWhile (· ≠ c)=[] := by
    rw [List.dropWhile_eq_nil_iff]
    intro d hd
    simp only [decide_eq_true_eq]
    rintro rfl
    exact h hd
  rw [cut,splitOnce,hd]

theorem percentEncode_eq {set : Char → Bool} {text : Text} (h : ∀ c∈text, set c=false) :
    percentEncode set text=text := by
  induction text with
  | nil => rfl
  | cons c text ih =>
    have hc := h c (by simp)
    have ht := ih (fun d hd => h d (by simp [hd]))
    rw [percentEncode] at ht ⊢
    rw [List.flatMap_cons,hc,ht]
    rfl

/-- Whatever a set with the control characters leaves alone is no tab and no newline. -/
theorem control_tab {c : Char} (h : controlSet c=false) : isTabOrNewline c=false :=
  contains_false (p := fun c => controlSet c=false) h (by decide)

theorem querySet_plain {c : Char} (h : querySet c=false) : isTabOrNewline c=false ∧ c ≠ '#' := by
  constructor
  · exact control_tab (Bool.or_eq_false_iff.mp h).1
  · rintro rfl
    revert h
    decide

theorem fragmentSet_plain {c : Char} (h : fragmentSet c=false) : isTabOrNewline c=false :=
  control_tab (Bool.or_eq_false_iff.mp h).1

/-- A URL put together from its authority, its query and its fragment; the path is empty. -/
def assemble (authority : Text) (query fragment : Option Text) : Text :=
  authority++(query.elim [] (fun q => '?'::q)++fragment.elim [] (fun f => '#'::f))

/-- Nothing in a part ends it, and nothing needs to be encoded. -/
structure Plain (authority : Text) (query fragment : Option Text) : Prop where
  authority : ∀ c∈authority, isTabOrNewline c=false ∧ endsAuthority c=false
  query : ∀ q∈query, ∀ c∈q, querySet c=false
  fragment : ∀ f∈fragment, ∀ c∈f, fragmentSet c=false

/-- A part that is missing has no characters. -/
theorem no_part (set : Char → Bool) : ∀ part∈(none : Option Text), ∀ c∈part, set c=false := by
  simp

theorem assemble_none (authority : Text) : assemble authority none none=authority := by
  simp [assemble]

section
variable {a : Text} {query fragment : Option Text}

theorem removeTabs_assemble (h : Plain a query fragment) :
    removeTabs (assemble a query fragment)=assemble a query fragment := by
  apply removeTabs_plain
  intro c hc
  rcases List.mem_append.mp hc with hc|hc
  · exact (h.authority c hc).1
  · rcases List.mem_append.mp hc with hc|hc
    · cases query with
      | none => cases hc
      | some q =>
        rcases List.mem_cons.mp hc with rfl|hc
        · decide
        · exact (querySet_plain (h.query q rfl c hc)).1
    · cases fragment with
      | none => cases hc
      | some f =>
        rcases List.mem_cons.mp hc with rfl|hc
        · decide
        · exact fragmentSet_plain (h.fragment f rfl c hc)

theorem authority_no {c : Char} (h : Plain a query fragment) (hc : endsAuthority c=true) : c∉a := by
  intro hm
  rw [(h.authority c hm).2] at hc
  cases hc

/-- The first `#` starts the fragment. -/
theorem cut_fragment (h : Plain a query fragment) :
    cut '#' (assemble a query fragment)=(a++query.elim [] (fun q => '?'::q),fragment) := by
  have hbefore : '#'∉a++query.elim [] (fun q => '?'::q) := by
    intro hm
    rcases List.mem_append.mp hm with hm|hm
    · exact authority_no h (by decide) hm
    · cases query with
      | none => cases hm
      | some q =>
        rcases List.mem_cons.mp hm with hm|hm
        · revert hm
          decide
        · exact (querySet_plain (h.query q rfl _ hm)).2 rfl
  rw [assemble,← List.append_assoc]
  cases fragment with
  | none =>
    rw [Option.elim_none,List.append_nil]
    exact cut_none hbefore
  | some f => exact cut_append hbefore f

theorem fragmentPart_assemble (h : Plain a query fragment) :
    fragmentPart (assemble a query fragment)=fragment := by
  rw [fragmentPart,removeTabs_assemble h,cut_fragment h]
  cases fragment with
  | none => rfl
  | some f => rw [Option.map_some,percentEncode_eq (h.fragment f rfl)]

theorem queryPart_assemble (h : Plain a query fragment) :
    queryPart (assemble a query fragment)=query := by
  have ha : '?'∉a := authority_no h (by decide)
  rw [queryPart,withoutFragment,removeTabs_assemble h,cut_fragment h]
  cases query with
  | none =>
    rw [Option.elim_none,List.append_nil,cut_none ha]
    rfl
  | some q =>
    rw [Option.elim_some,cut_append ha,Option.map_some,percentEncode_eq (h.query q rfl)]

theorem authority_assemble (h : Plain a query fragment) :
    authority (removeTabs (assemble a query fragment))=a := by
  have ha : ∀ c∈a, (!endsAuthority c)=true := by
    intro c hc
    rw [(h.authority c hc).2]
    rfl
  rw [removeTabs_assemble h,authority,assemble,List.takeWhile_append_of_pos ha]
  cases query with
  | some q => exact List.append_nil a
  | none =>
    cases fragment with
    | some f => exact List.append_nil a
    | none => exact List.append_nil a

end

/-! An authority with userinfo, host and port. -/

def located (user host : Text) (port : Nat) : Text := user ++ '@'::(host ++ ':'::decimal port)

theorem userinfoSet_plain {c : Char} (h : userinfoSet c=false) :
    isTabOrNewline c=false ∧ endsAuthority c=false ∧ c ≠ ':' := by
  refine ⟨fragmentSet_plain (Bool.or_eq_false_iff.mp h).1,?_,?_⟩
  · exact contains_false (p := fun c => userinfoSet c=false) h (by decide)
  · rintro rfl
    revert h
    decide

section
variable {user host : Text} {port : Nat} {query fragment : Option Text}

theorem located_plain (port : Nat) (hu : ∀ c∈user, userinfoSet c=false) (hh : PlainHost host)
    (hq : ∀ q∈query, ∀ c∈q, querySet c=false)
    (hf : ∀ f∈fragment, ∀ c∈f, fragmentSet c=false) :
    Plain (located user host port) query fragment := by
  refine ⟨?_,hq,hf⟩
  intro c hc
  rcases List.mem_append.mp hc with hc|hc
  · obtain ⟨ht,he,-⟩ := userinfoSet_plain (hu c hc)
    exact ⟨ht,he⟩
  · rcases List.mem_cons.mp hc with rfl|hc
    · decide
    · obtain ⟨ht,he,-⟩ := hostPort_plain hh port c hc
      exact ⟨ht,he⟩

theorem hostAndPort_located (hh : PlainHost host) :
    hostAndPort (located user host port)=host ++ ':'::decimal port := by
  rw [hostAndPort,located,afterLast_append _ (fun hc => (hostPort_plain hh port _ hc).2.2 rfl)]
  rfl

theorem userinfo_located (hh : PlainHost host) : userinfo (located user host port)=user := by
  rw [userinfo,located,afterLast_append _ (fun hc => (hostPort_plain hh port _ hc).2.2 rfl)]
  have hlen : (user ++ '@'::(host ++ ':'::decimal port)).length-
      (host ++ ':'::decimal port).length-1=user.length := by
    simp only [List.length_append,List.length_cons]
    omega
  simp only [hlen,List.take_left]

/-- What is in the authority does not depend on what follows it. -/
theorem validAuthority_assemble {a : Text} (h : Plain a query fragment) :
    validAuthority (assemble a query fragment)=validAuthority a := by
  have ha : Plain a none none := ⟨h.authority,no_part querySet,no_part fragmentSet⟩
  have hauth := authority_assemble ha
  rw [assemble_none] at hauth
  rw [validAuthority,validAuthority,authority_assemble h,hauth]

theorem validAuthority_located (hu : ∀ c∈user, userinfoSet c=false) (hh : PlainHost host)
    (hp : port≤65535) (h : Plain (located user host port) query fragment) :
    validAuthority (assemble (located user host port) query fragment)=true := by
  rw [validAuthority_assemble h]
  exact validAuthority_userinfo (fun c hc => (userinfoSet_plain (hu c hc)).2.1) hh hp

theorem usernamePart_located (hu : ∀ c∈user, userinfoSet c=false) (hh : PlainHost host)
    (h : Plain (located user host port) query fragment) :
    usernamePart (assemble (located user host port) query fragment)=user := by
  have hcolon : user.takeWhile (· ≠ ':')=user := by
    rw [List.takeWhile_eq_self_iff]
    intro c hc
    simpa using (userinfoSet_plain (hu c hc)).2.2
  rw [usernamePart,authority_assemble h,userinfo_located hh,hcolon,percentEncode_eq hu]

theorem hostText_located (hh : PlainHost host)
    (h : Plain (located user host port) query fragment) :
    hostText (assemble (located user host port) query fragment)=host := by
  rw [hostText,authority_assemble h,hostAndPort_located hh,hh.split]

theorem hostPart_located (hh : PlainHost host) (hc : ∀ c∈host, controlSet c=false)
    (h : Plain (located user host port) query fragment) :
    hostPart (assemble (located user host port) query fragment)=some host := by
  rw [hostPart,hostText_located hh h,if_neg hh.nonempty,percentEncode_eq hc]

theorem portPart_located (hh : PlainHost host)
    (h : Plain (located user host port) query fragment) :
    portPart (assemble (located user host port) query fragment)=some (UInt16.ofNat port) := by
  obtain ⟨c,text,hd,-⟩ := decimal_cons port
  have hv := digitsValue_decimal port
  rw [portPart,authority_assemble h,hostAndPort_located hh,hh.split]
  rw [hd] at hv ⊢
  simp only [hv]

end

/-! An authority that is a host alone. -/

theorem splitPort_none (inside : Bool) {host : Text} (h : ∀ c∈host, c ≠ ':') :
    splitPort inside host=(host,none) := by
  induction host generalizing inside with
  | nil => rfl
  | cons c host ih =>
    have hc := h c (by simp)
    rw [splitPort,if_neg (fun he => hc he.1),ih _ (fun d hd => h d (by simp [hd]))]

section
variable {input : Text} (h : ∀ c∈authority (removeTabs input), forbiddenHostChar c=false)
include h

theorem authority_ne {d : Char} (hd : forbiddenHostChar d=true) :
    ∀ c∈authority (removeTabs input), c≠d := by
  rintro c hc rfl
  rw [h c hc] at hd
  cases hd

theorem afterLast_hostOnly : afterLast '@' (authority (removeTabs input))=none :=
  afterLast_none (fun hm => authority_ne h (by decide) _ hm rfl)

theorem usernamePart_hostOnly : usernamePart input=[] := by
  rw [usernamePart,userinfo,afterLast_hostOnly h]
  rfl

theorem validAuthority_hostOnly : validAuthority input=true := by
  have ha : '@'∉authority (removeTabs input) := fun hm => authority_ne h (by decide) _ hm rfl
  have hhost : hostAndPort (authority (removeTabs input))=authority (removeTabs input) := by
    rw [hostAndPort,afterLast_hostOnly h]
    rfl
  have hsplit := splitPort_none false (authority_ne h (by decide))
  have hvalid : validHost (authority (removeTabs input))=true := by
    have hb : readGivenChar '[' (authority (removeTabs input))=none := by
      cases hi : authority (removeTabs input) with
      | nil => rfl
      | cons c rest =>
        have hc := authority_ne h (d := '[') (by decide) c (by simp [hi])
        rw [readGivenChar,if_neg hc]
    rw [validHost,hb]
    rw [List.all_eq_true]
    intro c hc
    rw [h c hc]
    rfl
  rw [validAuthority]
  simp only [hhost,hsplit,hvalid,ha,Option.all_none,decide_true,not_false_eq_true,Bool.and_self,
    Bool.or_true]

end

end Tobira.Framework.Url
