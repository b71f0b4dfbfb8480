import Tobira.Framework.Machine
import Tobira.Subscription.Reader

namespace Tobira.Subscription

open Tobira.Framework Tobira.Framework.Json Tobira.Framework.Url

/-- The integer that a decimal text spells, however large it is. -/
def spelledInt (text : Text) : Option Int :=
  let negative := decide (text.head? = some '-')
  let digits := if text.head? = some '-' ∨ text.head? = some '+' then text.tail else text
  if digits=[] ∨ digits.any (fun c => !isDigit 10 c) then none
  else
    let n : Int := digitsValue 10 digits
    some (if negative then -n else n)

/-- The integer that a field of a JSON object gives. -/
def writtenInt : Value → Option Int
  | .int n => some n
  | .str s => spelledInt s
  | _ => none

/-- The fields of a link in the JSON format, by their names. -/
def jsonFields : Value → List (Text×Value)
  | .obj members => members
  | .arr values => V2rayNJson.fieldNames.zip values
  | _ => []

def givenInt (fields : List (Text×Value)) (name : String) : Option Int :=
  ((fields.find? (fun m => m.1=name.toList)).map Prod.snd).bind writtenInt

/-- `Url::parse` takes no account of control characters and spaces at the end. -/
def isControl (c : Char) : Bool := decide (c ≤ ' ')

/-- The number behind the host of a URL, from what follows the `//`. -/
def urlPort (rest : Text) : Option Int :=
  match (splitPort false (hostAndPort (authority (removeTabs (trimEnd isControl rest))))).2 with
  | none => none
  | some [] => none
  | some digits => some (digitsValue 10 digits)

/-- The port and the alter id as a link writes them. -/
structure Numbers where
  port : Option Int
  alterId : Option Int

def jsonNumbers (crates : ParserCrates) (link : Text) : Numbers :=
  let fields := (((tryBase64Decode crates (afterScheme link)).bind crates.json).map jsonFields).getD []
  ⟨givenInt fields "port",givenInt fields "aid"⟩

def urlNumbers (crates : ParserCrates) (link : Text) (u : crates.url.Url) : Numbers :=
  ⟨urlPort (afterScheme link),(queryGet (crates.url.queryPairs u) "aid").bind spelledInt⟩

def shadowrocketNumbers (crates : ParserCrates) (link : Text) (u : crates.url.Url) : Numbers :=
  let encoded := ((splitOnce '?' (afterScheme link)).map Prod.fst).getD (crates.url.path u)
  let query := queryGet (crates.url.queryPairs u)
  ⟨((tryBase64Decode crates encoded).bind (splitOnce ':')).bind (fun p => urlPort p.2),
    ((query "alterId").or (query "aid")).bind spelledInt⟩

/-- What is written in a link of any of the three formats. -/
def writtenNumbers (crates : ParserCrates) (link : Text) : Numbers :=
  let link := trim link
  match crates.url.parse link with
  | .error _ => ⟨none,none⟩
  | .ok u =>
    if crates.url.username u=[] then
      if (crates.url.query u).isSome then shadowrocketNumbers crates link u
      else jsonNumbers crates link
    else urlNumbers crates link u

/-- The node has the numbers of the link. -/
structure ExactNumbers (written : Numbers) (node : VMessNode) : Prop where
  port : ∃ p, written.port=some p ∧ (node.port.toNat : Int)=p ∧ 1≤p ∧ p≤65535
  alterId : ∀ k, written.alterId=some k → 0 ≤ k → (node.alterId.toNat : Int)=k

/-- `serde_json` reads an integer as an `i64` or a `u64`; a number beyond these is a float. -/
def JsonIntegers (json : Text → Option Value) : Prop :=
  ∀ text v, json text=some v → ∀ m∈jsonFields v, ∀ n, m.2=.int n → -(2^63)≤n ∧ n<2^64

/-- What is behind the last character that is neither a control character nor a space does not
matter to `Url::parse`. -/
def UrlReader.Trims (r : UrlReader) : Prop := ∀ text, r.parse text=r.parse (trimEnd isControl text)

/-- How a number that is written ends up in the options: as it is, or as one that is not positive
where it is negative or beyond an `i64`. -/
def Took (written : Option Int) (x : Int) : Prop :=
  (written=none ∧ x=0) ∨
    ∃ k, written=some k ∧ (x=k ∨ (x≤0 ∧ (k<0 ∨ 2^63≤k)))

theorem parseI64_eq (text : Text) :
    parseI64 text=(spelledInt text).bind
      (fun n => if -(2^63) ≤ n ∧ n<2^63 then some n else none) := by
  simp only [parseI64,spelledInt]
  generalize (if text.head? = some '-' ∨ text.head? = some '+' then text.tail else text)=digits
  by_cases h : digits=[] ∨ digits.any (fun c => !isDigit 10 c)
  · rw [if_pos h,if_pos h]
    rfl
  · rw [if_neg h,if_neg h]
    rfl

/-- A number in the text of a query; another text is taken for zero. -/
theorem took_query (value : Option Text) :
    Took (value.bind spelledInt) ((value.bind parseI64).getD 0) := by
  cases value with
  | none => exact Or.inl ⟨rfl,rfl⟩
  | some text =>
    rw [Option.bind_some,Option.bind_some,parseI64_eq]
    cases hs : spelledInt text with
    | none => exact Or.inl ⟨rfl,rfl⟩
    | some k =>
      refine Or.inr ⟨k,rfl,?_⟩
      rw [Option.bind_some]
      split_ifs with hk
      · exact Or.inl rfl
      · right
        rw [Option.getD_none]
        omega

theorem took_json {v : Value} {x : Int} (hr : ∀ n, v=.int n → -(2^63)≤n ∧ n<2^64)
    (h : stringOrInt v=some x) : Took (writtenInt v) x := by
  cases v with
  | int n =>
    have hn := hr n rfl
    refine Or.inr ⟨n,rfl,?_⟩
    simp only [stringOrInt,Option.some.injEq] at h
    split_ifs at h with hbig
    · right
      omega
    · exact Or.inl h.symm
  | str s =>
    simp only [stringOrInt] at h
    split_ifs at h with hs
    · rw [hs]
      exact Or.inl ⟨rfl,(Option.some.inj h).symm⟩
    · rw [parseI64_eq] at h
      obtain ⟨k,hk,he⟩ := Option.bind_eq_some_iff.mp h
      split_ifs at he
      cases he
      exact Or.inr ⟨x,hk,Or.inl rfl⟩
  | null => cases h
  | bool b => cases h
  | float => cases h
  | arr values => cases h
  | obj members => cases h

/-- A field of a link is missing, or the one member of its name is decoded. -/
theorem took_field {fields : List (Text×Value)} {name : String} {x : Int}
    (hr : ∀ m∈fields, ∀ n, m.2=.int n → -(2^63)≤n ∧ n<2^64)
    (h : field fields [name.toList] stringOrInt 0=some x) : Took (givenInt fields name) x := by
  have hone : (fun m : Text×Value => [name.toList].contains m.1)=
      fun m => decide (m.1=name.toList) := by
    funext m
    simp
  rw [givenInt,← List.head?_filter]
  rw [field,hone] at h
  split at h
  · rename_i hf
    cases h
    rw [hf]
    exact Or.inl ⟨rfl,rfl⟩
  · rename_i m hf
    have hm : m∈fields := by
      have hmem : m∈fields.filter (fun m => decide (m.1=name.toList)) := by
        rw [hf]
        exact List.mem_singleton_self m
      exact (List.mem_filter.mp hmem).1
    rw [hf]
    exact took_json (hr m hm) h
  · cases h

theorem deserialize_took {v : Value} {opts : V2rayNJson}
    (hr : ∀ m∈jsonFields v, ∀ n, m.2=.int n → -(2^63)≤n ∧ n<2^64)
    (h : V2rayNJson.deserialize v=some opts) :
    Took (givenInt (jsonFields v) "port") opts.port ∧
      Took (givenInt (jsonFields v) "aid") opts.aid := by
  have hmembers : V2rayNJson.ofMembers (jsonFields v)=some opts := by
    cases v with
    | obj members => exact h
    | arr values =>
      simp only [V2rayNJson.deserialize] at h
      split_ifs at h
      exact h
    | null => cases h
    | bool b => cases h
    | int n => cases h
    | float => cases h
    | str s => cases h
  rw [V2rayNJson.ofMembers] at hmembers
  obtain ⟨v,-,hmembers⟩ := Option.bind_eq_some_iff.mp hmembers
  obtain ⟨ps,-,hmembers⟩ := Option.bind_eq_some_iff.mp hmembers
  obtain ⟨add,-,hmembers⟩ := Option.bind_eq_some_iff.mp hmembers
  obtain ⟨port,hport,hmembers⟩ := Option.bind_eq_some_iff.mp hmembers
  obtain ⟨id,-,hmembers⟩ := Option.bind_eq_some_iff.mp hmembers
  obtain ⟨aid,haid,hmembers⟩ := Option.bind_eq_some_iff.mp hmembers
  have hopts : opts.port=port ∧ opts.aid=aid := by
    iterate 8 obtain ⟨x,-,hmembers⟩ := Option.bind_eq_some_iff.mp hmembers
    cases hmembers
    exact ⟨rfl,rfl⟩
  rw [hopts.1,hopts.2]
  exact ⟨took_field hr hport,took_field hr haid⟩

theorem untrimmed_trimEnd (text : Text) : Untrimmed (trimEnd isControl text) := by
  intro c hc
  rw [trimEnd,List.getLast?_reverse] at hc
  have hno := List.head?_dropWhile_not isControl text.reverse
  rw [hc] at hno
  have hle : ¬c ≤ ' ' := of_decide_eq_false hno
  exact Char.not_le.mp hle

theorem trimEnd_scheme (rest : Text) :
    trimEnd isControl ("vmess://".toList++rest)="vmess://".toList++trimEnd isControl rest := by
  rw [trimEnd,trimEnd,List.reverse_append,List.dropWhile_append]
  split_ifs with he
  · rw [List.isEmpty_iff.mp he]
    decide
  · rw [List.reverse_append,List.reverse_reverse]

/-- The port of a URL is the number that is written, as the parser refuses one that is too large. -/
theorem took_port {r : UrlReader} (hr : r.Whatwg) (ht : r.Trims) {rest : Text} {u : r.Url}
    (h : r.parse ("vmess://".toList++rest)=.ok u) : Took (urlPort rest) (portValue (r.port u)) := by
  rw [ht,trimEnd_scheme] at h
  have hs := untrimmed_trimEnd rest
  have hvalid := (hr.accepts _ hs).mp ⟨u,h⟩
  rw [hr.port _ u hs h,urlPort,portPart]
  rw [validAuthority] at hvalid
  cases hp : (splitPort false (hostAndPort (authority (removeTabs (trimEnd isControl rest))))).2 with
  | none => exact Or.inl ⟨rfl,rfl⟩
  | some digits =>
    cases digits with
    | nil => exact Or.inl ⟨rfl,rfl⟩
    | cons d digits =>
      simp only [hp,Option.all_some,Bool.and_eq_true] at hvalid
      have hle : digitsValue 10 (d::digits)≤65535 :=
        of_decide_eq_true (Bool.and_eq_true_iff.mp hvalid.1.2).2
      have hval : (UInt16.ofNat (digitsValue 10 (d::digits))).toNat=digitsValue 10 (d::digits) := by
        rw [UInt16.toNat_ofNat']
        exact Nat.mod_eq_of_lt (by omega)
      refine Or.inr ⟨_,rfl,Or.inl ?_⟩
      simp only [portValue,Option.map_some,Option.getD_some,hval]

/-- The two casts of `build_node`: the port was checked, the alter id was not. -/
theorem buildNode_exact_iff {written : Numbers} {lower : Text → Text} {opts : V2rayNJson} {node : VMessNode}
    (hp : Took written.port opts.port) (ha : Took written.alterId opts.aid)
    (h : buildNode lower opts=.ok node) (encoding : PacketEncoding) :
    ExactNumbers written { node with packetEncoding := encoding } ↔
      ∀ k, written.alterId=some k → k<2^32 := by
  obtain ⟨⟨hpos,hmax⟩,-,-,rfl⟩ := buildNode_ok_iff.mp h
  have hport : ∃ p, written.port=some p ∧
      ((builtNode lower opts).port.toNat : Int)=p ∧ 1≤p ∧ p≤65535 := by
    rcases hp with ⟨-,hz⟩|⟨k,hk,rfl|⟨hneg,-⟩⟩
    · omega
    · refine ⟨_,hk,?_,by omega,hmax⟩
      have hcast : (builtNode lower opts).port.toNat=opts.port.toNat%2^16 := UInt16.toNat_ofNat'
      omega
    · omega
  have hcast : (builtNode lower opts).alterId.toNat=(max opts.aid 0).toNat%2^32 :=
    UInt32.toNat_ofNat'
  constructor
  · intro hex k hk
    by_cases hneg : k<0
    · omega
    have hval : ((builtNode lower opts).alterId.toNat : Int)=k := hex.alterId k hk (by omega)
    have hlt := (builtNode lower opts).alterId.toNat_lt
    omega
  · intro hlt
    refine ⟨hport,?_⟩
    intro k hk hnn
    have hk32 := hlt k hk
    change ((builtNode lower opts).alterId.toNat : Int)=k
    rcases ha with ⟨hnone,-⟩|⟨k',hk',hx⟩
    · rw [hnone] at hk
      cases hk
    · rw [hk'] at hk
      cases hk
      omega

theorem isVmess_scheme {link : Text} (h : isVmess link=true) :
    link="vmess://".toList++afterScheme link := by
  obtain ⟨rest,rfl⟩ := List.isPrefixOf_iff_prefix.mp h
  rfl

section
variable {crates : ParserCrates} {link : Text} {node : VMessNode}

theorem parseBase64Json_exact_iff (hj : JsonIntegers crates.json) (h : parseBase64Json crates link=.ok node) :
    ExactNumbers (jsonNumbers crates link) node ↔
      ∀ k, (jsonNumbers crates link).alterId=some k → k<2^32 := by
  rw [parseBase64Json] at h
  cases hd : tryBase64Decode crates (afterScheme link) with
  | none =>
    rw [hd] at h
    cases h
  | some json =>
    simp only [hd] at h
    cases hv : crates.json json with
    | none =>
      rw [hv] at h
      cases h
    | some v =>
      rw [hv,Option.bind_some] at h
      cases ho : V2rayNJson.deserialize v with
      | none =>
        rw [ho] at h
        cases h
      | some opts =>
        simp only [ho] at h
        obtain ⟨hp,ha⟩ := deserialize_took (hj json v hv) ho
        have hfields : (((tryBase64Decode crates (afterScheme link)).bind crates.json).map jsonFields).getD
            []=jsonFields v := by
          rw [hd,Option.bind_some,hv]
          rfl
        rw [jsonNumbers,hfields]
        exact buildNode_exact_iff hp ha h node.packetEncoding

variable (hw : crates.url.Whatwg) (ht : crates.url.Trims) {u : crates.url.Url}
include hw ht

theorem parseUrlFormat_exact_iff (hv : isVmess link=true) (hu : crates.url.parse link=.ok u)
    (h : parseUrlFormat crates u=.ok node) :
    ExactNumbers (urlNumbers crates link u) node ↔
      ∀ k, (urlNumbers crates link u).alterId=some k → k<2^32 := by
  rw [isVmess_scheme hv] at hu
  exact buildNode_exact_iff (took_port hw ht hu) (took_query _) h node.packetEncoding

theorem parseShadowrocketFormat_exact_iff (h : parseShadowrocketFormat crates link u=.ok node) :
    ExactNumbers (shadowrocketNumbers crates link u) node ↔
      ∀ k, (shadowrocketNumbers crates link u).alterId=some k → k<2^32 := by
  rw [parseShadowrocketFormat] at h
  simp only at h
  cases hd : tryBase64Decode crates (((splitOnce '?' (afterScheme link)).map Prod.fst).getD
      (crates.url.path u)) with
  | none =>
    rw [hd] at h
    cases h
  | some decoded =>
    simp only [hd] at h
    cases hc : splitOnce ':' decoded with
    | none =>
      rw [hc] at h
      cases h
    | some p =>
      obtain ⟨security,authority⟩ := p
      simp only [hc] at h
      cases hp : crates.url.parse ("vmess://".toList++authority) with
      | error e =>
        rw [hp] at h
        cases h
      | ok parsed =>
        simp only [hp] at h
        obtain ⟨built,hb,rfl⟩ := map_ok h
        have hport : ((tryBase64Decode crates (((splitOnce '?' (afterScheme link)).map Prod.fst).getD
            (crates.url.path u))).bind (splitOnce ':')).bind (fun p => urlPort p.2)=
            urlPort authority := by
          rw [hd,Option.bind_some,hc,Option.bind_some]
        rw [shadowrocketNumbers,hport]
        exact buildNode_exact_iff (took_port hw ht hp) (took_query _) hb _

end

/-- For every link that is accepted: the numbers of its node are those that it writes exactly when
the alter id that it writes is below `2^32`. -/
theorem exactNumbers_iff (crates : ParserCrates) (hw : crates.url.Whatwg) (ht : crates.url.Trims)
    (hj : JsonIntegers crates.json) (link : Text) (node : VMessNode)
    (h : parseVmessLink crates link=.ok node) :
    ExactNumbers (writtenNumbers crates link) node ↔
      ∀ k, (writtenNumbers crates link).alterId=some k → k<2^32 := by
  simp only [parseVmessLink] at h
  split_ifs at h with hv
  rw [Bool.not_eq_false] at hv
  cases hu : crates.url.parse (trim link) with
  | error e =>
    rw [hu] at h
    cases h
  | ok u =>
    simp only [hu] at h
    simp only [writtenNumbers,hu]
    split_ifs at h ⊢
    · exact parseShadowrocketFormat_exact_iff hw ht h
    · exact parseBase64Json_exact_iff hj h
    · exact parseUrlFormat_exact_iff hw ht hv hu h

/-- The reader of a URL that leaves out what is behind its last printable character. -/
def trimmedReader : UrlReader :=
  { plainReader with parse := fun text => plainReader.parse (trimEnd isControl text) }

theorem trimmedReader_trims : trimmedReader.Trims := by
  intro text
  have htwice : trimEnd isControl (trimEnd isControl text)=trimEnd isControl text := by
    apply trimEnd_eq
    intro c hc
    exact decide_eq_false (Char.not_le.mpr (untrimmed_trimEnd text c hc))
  change plainReader.parse _=plainReader.parse _
  rw [htwice]

theorem trimmedReader_parse {rest : Text} (h : Untrimmed rest) :
    trimmedReader.parse ("vmess://".toList++rest)=plainReader.parse ("vmess://".toList++rest) := by
  have hrest : trimEnd isControl rest=rest :=
    trimEnd_eq (fun c hc => decide_eq_false (Char.not_le.mpr (h c hc)))
  change plainReader.parse (trimEnd isControl ("vmess://".toList++rest))=_
  rw [trimEnd_scheme,hrest]

theorem trimmedReader_whatwg : trimmedReader.Whatwg where
  accepts := by
    intro rest hs
    rw [trimmedReader_parse hs]
    exact plainReader_whatwg.accepts rest hs
  username := by
    intro rest u hs h
    rw [trimmedReader_parse hs] at h
    exact plainReader_whatwg.username rest u hs h
  hostStr := by
    intro rest u hs h
    rw [trimmedReader_parse hs] at h
    exact plainReader_whatwg.hostStr rest u hs h
  port := by
    intro rest u hs h
    rw [trimmedReader_parse hs] at h
    exact plainReader_whatwg.port rest u hs h
  query := by
    intro rest u hs h
    rw [trimmedReader_parse hs] at h
    exact plainReader_whatwg.query rest u hs h
  fragment := by
    intro rest u hs h
    rw [trimmedReader_parse hs] at h
    exact plainReader_whatwg.fragment rest u hs h
  queryPairs := plainReader_whatwg.queryPairs

/-- An integer beyond an `i64` and a `u64` is read as a float. -/
def boundedValue : Value → Value
  | .int n => if -(2^63) ≤ n ∧ n<2^64 then .int n else .float
  | v => v

def boundedJson (text : Text) : Option Value :=
  (Json.read text).map (fun v => match v with
    | .obj members => .obj (members.map (fun m => (m.1,boundedValue m.2)))
    | .arr values => .arr (values.map boundedValue)
    | v => v)

theorem boundedValue_int {v : Value} {n : Int} (h : boundedValue v=.int n) :
    -(2^63)≤n ∧ n<2^64 := by
  cases v with
  | int k =>
    rw [boundedValue] at h
    split_ifs at h with hk
    cases h
    exact hk
  | null => cases h
  | bool b => cases h
  | float => cases h
  | str s => cases h
  | arr values => cases h
  | obj members => cases h

theorem boundedJson_integers : JsonIntegers boundedJson := by
  intro text v hv m hm n hn
  obtain ⟨w,-,rfl⟩ := Option.map_eq_some_iff.mp hv
  cases w with
  | obj members =>
    obtain ⟨q,-,rfl⟩ := List.mem_map.mp hm
    exact boundedValue_int hn
  | arr values =>
    obtain ⟨x,-,hx⟩ := List.mem_map.mp (List.of_mem_zip hm).2
    rw [← hx] at hn
    exact boundedValue_int hn
  | null => cases hm
  | bool b => cases hm
  | int k => cases hm
  | float => cases hm
  | str s => cases hm

def boundedParser : ParserCrates :=
  { plainParser with url := trimmedReader,json := boundedJson }

def alterIdLink (aid : String) : Text :=
  ("vmess://550e8400-e29b-41d4-a716-446655440000@192.0.2.1:443?aid="++aid).toList

theorem alterIdLink_small : ∃ node, parseVmessLink boundedParser (alterIdLink "64")=.ok node ∧
    ExactNumbers (writtenNumbers boundedParser (alterIdLink "64")) node := by
  have hparse : (parseVmessLink boundedParser (alterIdLink "64")).toOption.isSome=true := by
    decide +kernel
  obtain ⟨node,hnode⟩ := Option.isSome_iff_exists.mp hparse
  have haid : (writtenNumbers boundedParser (alterIdLink "64")).alterId=some 64 := by
    decide +kernel
  refine ⟨node,ok_of_toOption hnode,?_⟩
  apply (exactNumbers_iff boundedParser trimmedReader_whatwg trimmedReader_trims
    boundedJson_integers _ node (ok_of_toOption hnode)).mpr
  intro k hk
  rw [haid] at hk
  cases hk
  decide

/-- `2^32` is stored as zero. -/
theorem large_alterId_wraps : ∃ node,
    parseVmessLink boundedParser (alterIdLink "4294967296")=.ok node ∧
      (writtenNumbers boundedParser (alterIdLink "4294967296")).alterId=some (2^32) ∧
      node.alterId=0 ∧
      ¬ExactNumbers (writtenNumbers boundedParser (alterIdLink "4294967296")) node := by
  have hparse : ((parseVmessLink boundedParser (alterIdLink "4294967296")).toOption.map
      (fun node => node.alterId))=some 0 := by
    decide +kernel
  obtain ⟨node,hnode,hzero⟩ := Option.map_eq_some_iff.mp hparse
  have haid : (writtenNumbers boundedParser (alterIdLink "4294967296")).alterId=some (2^32) := by
    decide +kernel
  refine ⟨node,ok_of_toOption hnode,haid,hzero,?_⟩
  intro hexact
  have hval := hexact.alterId _ haid (by decide)
  rw [hzero] at hval
  exact absurd hval (by decide)

end Tobira.Subscription
