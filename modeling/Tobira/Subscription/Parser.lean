import Tobira.Framework.Base64
import Tobira.Framework.Str
import Tobira.Subscription.Process

namespace Tobira.Subscription

open Tobira.Framework Tobira.Framework.Json

/-- What the `url` crate reads from a text: `Url::parse`, with the text of its error, and the
accessors of a `Url`. -/
structure UrlReader where
  Url : Type
  parse : Text → Except Text Url
  username : Url → Text
  hostStr : Url → Option Text
  port : Url → Option UInt16
  path : Url → Text
  query : Url → Option Text
  queryPairs : Url → List (Text×Text)
  fragment : Url → Option Text

/-- What the parser calls: `base64` are the engines of `general_purpose`, by whether they are URL
safe and padded; `json` is `serde_json` as far as the text is JSON at all, `jsonError` the text of
its error, and `toLowercase` maps by the Unicode tables. -/
structure ParserCrates where
  url : UrlReader
  base64 : Bool → Bool → Text → Option (List UInt8)
  json : Text → Option Value
  jsonError : Text → Text
  toLowercase : Text → Text

inductive LinkError where
  | notVmess
  | url (cause : Text)
  | payload
  | json (cause : Text)
  | shadowrocketPayload
  | shadowrocketInvalid
  | shadowrocketUrl (cause : Text)
  | invalidPort (port : Int)
  | missingServer
  | missingUuid
  deriving DecidableEq,Repr

/-- What `Display` prints for a signed integer. -/
def decimalInt (n : Int) : Text := if n<0 then '-'::decimal n.natAbs else decimal n.natAbs

def LinkError.message : LinkError → Text
  | .notVmess => "not a vmess link".toList
  | .url cause => "url parse: ".toList++cause
  | .payload => "failed to base64-decode vmess payload".toList
  | .json cause => "parse vmess json: ".toList++cause
  | .shadowrocketPayload => "failed to base64-decode shadowrocket payload".toList
  | .shadowrocketInvalid => "invalid shadowrocket payload".toList
  | .shadowrocketUrl cause => "shadowrocket payload url parse: ".toList++cause
  | .invalidPort port => "invalid port: ".toList++decimalInt port
  | .missingServer => "missing server address".toList
  | .missingUuid => "missing UUID".toList

/-- `StringOrInt::deserialize`; an unsigned integer is cast to `i64`. -/
def stringOrInt : Value → Option Int
  | .int n => some (if 2^63 ≤ n then n-2^64 else n)
  | .str s => if s=[] then some 0 else parseI64 s
  | _ => none

def stringValue : Value → Option Text
  | .str s => some s
  | _ => none

def packetEncodingValue (v : Value) : Option PacketEncoding :=
  (stringValue v).bind PacketEncoding.parse

structure V2rayNJson where
  v : Int
  ps : Text
  add : Text
  port : Int
  id : Text
  aid : Int
  net : Text
  type : Text
  host : Text
  path : Text
  tls : Text
  sni : Text
  scy : Text
  packetEncoding : PacketEncoding

def V2rayNJson.default : V2rayNJson where
  v := 0
  ps := []
  add := []
  port := 0
  id := []
  aid := 0
  net := []
  type := []
  host := []
  path := []
  tls := []
  sni := []
  scy := []
  packetEncoding := .default

/-- A field of a derived `Deserialize`: it may be missing, and there may not be two of it. -/
def field {α : Type} (members : List (Text×Value)) (names : List Text)
    (decode : Value → Option α) (missing : α) : Option α :=
  match members.filter (fun m => names.contains m.1) with
  | [] => some missing
  | [m] => decode m.2
  | _ => none

def V2rayNJson.ofMembers (members : List (Text×Value)) : Option V2rayNJson := do
  let v ← field members ["v".toList] stringOrInt 0
  let ps ← field members ["ps".toList] stringValue []
  let add ← field members ["add".toList] stringValue []
  let port ← field members ["port".toList] stringOrInt 0
  let id ← field members ["id".toList] stringValue []
  let aid ← field members ["aid".toList] stringOrInt 0
  let net ← field members ["net".toList] stringValue []
  let type ← field members ["type".toList] stringValue []
  let host ← field members ["host".toList] stringValue []
  let path ← field members ["path".toList] stringValue []
  let tls ← field members ["tls".toList] stringValue []
  let sni ← field members ["sni".toList] stringValue []
  let scy ← field members ["scy".toList] stringValue []
  let packetEncoding ← field members ["packetEncoding".toList,"packetencoding".toList]
    packetEncodingValue .default
  return ⟨v,ps,add,port,id,aid,net,type,host,path,tls,sni,scy,packetEncoding⟩

/-- The names of the fields in the order of their declaration. -/
def V2rayNJson.fieldNames : List Text :=
  ["v","ps","add","port","id","aid","net","type","host","path","tls","sni","scy",
    "packetEncoding"].map String.toList

/-- A derived `Deserialize` also takes the fields of a structure from an array. -/
def V2rayNJson.deserialize : Value → Option V2rayNJson
  | .obj members => ofMembers members
  | .arr values =>
    if values.length ≤ fieldNames.length then ofMembers (fieldNames.zip values) else none
  | _ => none

/-- The engines in the order they are tried; the unpadded ones get the text without its `=`. -/
def tryBase64Decode (crates : ParserCrates) (s : Text) : Option Text :=
  let stripped := trimEnd (· = '=') s
  (((crates.base64 false true s).bind utf8Decode).or
    ((crates.base64 false false stripped).bind utf8Decode)).or
  (((crates.base64 true true s).bind utf8Decode).or
    ((crates.base64 true false stripped).bind utf8Decode))

/-- The node that `build_node` puts together when nothing is missing. -/
def builtNode (toLowercase : Text → Text) (opts : V2rayNJson) : VMessNode :=
  let network := if opts.net=[] then "tcp".toList else toLowercase opts.net
  { name := opts.ps
    source := []
    server := opts.add
    port := UInt16.ofNat opts.port.toNat
    uuid := opts.id
    alterId := UInt32.ofNat (max opts.aid 0).toNat
    security := if opts.scy=[] then "auto".toList else opts.scy
    network := network
    tls := decide (opts.tls="tls".toList ∨ opts.tls="true".toList ∨ opts.tls="1".toList)
    sni := if opts.sni≠[] then opts.sni else if opts.host≠[] then opts.host else opts.add
    grpcServiceName := if network="grpc".toList then some opts.path else none
    wsPath := if network="ws".toList then some opts.path else none
    wsHost := if network="ws".toList ∧ opts.host≠[] then some opts.host else none
    packetEncoding := opts.packetEncoding }

def buildNode (toLowercase : Text → Text) (opts : V2rayNJson) : Except LinkError VMessNode :=
  if opts.port ≤ 0 ∨ 65535<opts.port then .error (.invalidPort opts.port)
  else if opts.add=[] then .error .missingServer
  else if opts.id=[] then .error .missingUuid
  else .ok (builtNode toLowercase opts)

/-- `&link["vmess://".len()..]`. -/
def afterScheme (link : Text) : Text := link.drop 8

def parseBase64Json (crates : ParserCrates) (link : Text) : Except LinkError VMessNode :=
  match tryBase64Decode crates (afterScheme link) with
  | none => .error .payload
  | some json =>
    match (crates.json json).bind V2rayNJson.deserialize with
    | none => .error (.json (crates.jsonError json))
    | some opts => buildNode crates.toLowercase opts

/-- `get` on the map that the query pairs are collected into: a later pair replaces an earlier. -/
def queryGet (pairs : List (Text×Text)) (key : String) : Option Text :=
  (pairs.reverse.find? (fun p => p.1=key.toList)).map Prod.snd

/-- The number of the port, or the default of `StringOrInt`. -/
def portValue (port : Option UInt16) : Int := (port.map (fun p => (p.toNat : Int))).getD 0

def parseUrlFormat (crates : ParserCrates) (u : crates.url.Url) : Except LinkError VMessNode :=
  let query := queryGet (crates.url.queryPairs u)
  buildNode crates.toLowercase { V2rayNJson.default with
    id := crates.url.username u
    add := (crates.url.hostStr u).getD []
    port := portValue (crates.url.port u)
    ps := ((query "remarks").or (query "ps")).getD ((crates.url.fragment u).getD [])
    aid := ((query "aid").bind parseI64).getD 0
    net := ((query "type").or (query "net")).getD "tcp".toList
    host := (query "host").getD []
    path := ((query "path").or (query "serviceName")).getD []
    tls := ((query "security").or (query "tls")).getD []
    sni := (query "sni").getD []
    scy := ((query "encryption").or (query "scy")).getD []
    packetEncoding :=
      (((query "packetEncoding").or (query "packetencoding")).bind PacketEncoding.parse).getD
        .default }

def parseShadowrocketUdp (value : Option Text) : PacketEncoding :=
  if value=some "2".toList then .packetAddr
  else if value=some "3".toList then .xudp
  else .default

def parseShadowrocketFormat (crates : ParserCrates) (link : Text) (u : crates.url.Url) :
    Except LinkError VMessNode :=
  let encoded := ((splitOnce '?' (afterScheme link)).map Prod.fst).getD (crates.url.path u)
  match tryBase64Decode crates encoded with
  | none => .error .shadowrocketPayload
  | some decoded =>
    match splitOnce ':' decoded with
    | none => .error .shadowrocketInvalid
    | some (security,authority) =>
      match crates.url.parse ("vmess://".toList++authority) with
      | .error cause => .error (.shadowrocketUrl cause)
      | .ok parsed =>
        let query := queryGet (crates.url.queryPairs u)
        let opts := { V2rayNJson.default with
          id := crates.url.username parsed
          add := (crates.url.hostStr parsed).getD []
          port := portValue (crates.url.port parsed)
          ps := ((query "remarks").or (query "ps")).getD ((crates.url.fragment u).getD [])
          aid := (((query "alterId").or (query "aid")).bind parseI64).getD 0
          net := ((query "obfs").or (query "type")).getD "tcp".toList
          path := ((query "path").or (query "serviceName")).getD []
          tls := ((query "tls").or (query "security")).getD []
          sni := (((query "peer").or (query "obfsParam")).or (query "sni")).getD []
          scy := security }
        (buildNode crates.toLowercase opts).map
          (fun node => { node with packetEncoding := parseShadowrocketUdp (query "udp") })

def isVmess (link : Text) : Bool := "vmess://".toList.isPrefixOf link

def parseVmessLink (crates : ParserCrates) (link : Text) : Except LinkError VMessNode :=
  let link := trim link
  if isVmess link=false then .error .notVmess
  else
    match crates.url.parse link with
    | .error cause => .error (.url cause)
    | .ok parsed =>
      if crates.url.username parsed=[] then
        if (crates.url.query parsed).isSome then parseShadowrocketFormat crates link parsed
        else parseBase64Json crates link
      else parseUrlFormat crates parsed

/-- The node of one line; other protocols and bad links are skipped. -/
def parseLine (crates : ParserCrates) (line : Text) : Option VMessNode :=
  let line := trim line
  if isVmess line then (parseVmessLink crates line).toOption else none

def parseSubscription (crates : ParserCrates) (body : Text) : List VMessNode :=
  let text := (tryBase64Decode crates (trim body)).getD body
  (lines text).filterMap (parseLine crates)

/-- The engines do what the crate documents. -/
def ParserCrates.Engines (crates : ParserCrates) : Prop :=
  ∀ urlSafe pad, Base64.Strict urlSafe pad (crates.base64 urlSafe pad)

theorem ParserCrates.Engines.eq_decode {crates : ParserCrates} (h : crates.Engines) :
    crates.base64=Base64.decode := by
  funext urlSafe pad
  exact (h urlSafe pad).eq_decode

/-- One attempt at a text with these symbols fails or gives the text they stand for. -/
theorem attempt_padded (urlSafe urlSafe' pad' : Bool) (text : Text) (k : Nat) :
    (Base64.decode urlSafe' pad' (Base64.encode urlSafe false (utf8 text)++
      List.replicate k '=')).bind utf8Decode=none ∨
    (Base64.decode urlSafe' pad' (Base64.encode urlSafe false (utf8 text)++
      List.replicate k '=')).bind utf8Decode=some text := by
  cases h : Base64.decode urlSafe' pad'
      (Base64.encode urlSafe false (utf8 text)++List.replicate k '=') with
  | none => exact Or.inl rfl
  | some bytes =>
    rw [Base64.decode_symbols_eq (Base64.takeWhile_padded urlSafe (utf8 text) k) h]
    exact Or.inr (utf8Decode_utf8 text)

theorem attempt_self (urlSafe : Bool) (text : Text) :
    (Base64.decode urlSafe false (Base64.encode urlSafe false (utf8 text))).bind utf8Decode=
      some text := by
  rw [Base64.decode_encode]
  exact utf8Decode_utf8 text

/-- Whatever alphabet a text was encoded with, and however many `=` follow, one of the four
engines reads it, and those before it do not read another text. -/
theorem tryBase64Decode_padded {crates : ParserCrates} (hb : crates.Engines) (urlSafe : Bool)
    (text : Text) (k : Nat) :
    tryBase64Decode crates (Base64.encode urlSafe false (utf8 text)++List.replicate k '=')=
      some text := by
  have hone : ∀ {a b : Option Text}, (a=none ∨ a=some text) → (b=none ∨ b=some text) →
      (a.or b=none ∨ a.or b=some text) ∧ (a=some text ∨ b=some text → a.or b=some text) := by
    rintro a b (rfl|rfl) (rfl|rfl) <;> simp
  have hstrip : ∀ u, (Base64.decode u false (Base64.encode urlSafe false (utf8 text))).bind
      utf8Decode=none ∨ (Base64.decode u false (Base64.encode urlSafe false (utf8 text))).bind
      utf8Decode=some text := by
    intro u
    have ha := attempt_padded urlSafe u false text 0
    rwa [List.replicate_zero,List.append_nil] at ha
  obtain ⟨h,hs⟩ := hone (attempt_padded urlSafe false true text k) (hstrip false)
  obtain ⟨h',hs'⟩ := hone (attempt_padded urlSafe true true text k) (hstrip true)
  simp only [tryBase64Decode,hb.eq_decode,Base64.trimEnd_padded]
  apply (hone h h').2
  cases urlSafe with
  | false => exact Or.inl (hs (Or.inr (attempt_self false text)))
  | true => exact Or.inr (hs' (Or.inr (attempt_self true text)))

theorem tryBase64Decode_encode {crates : ParserCrates} (hb : crates.Engines) (urlSafe pad : Bool)
    (text : Text) : tryBase64Decode crates (Base64.encode urlSafe pad (utf8 text))=some text := by
  obtain ⟨k,hk⟩ := Base64.encode_padded urlSafe pad (utf8 text)
  rw [hk]
  exact tryBase64Decode_padded hb urlSafe text k

theorem buildNode_ok_iff {lower : Text → Text} {opts : V2rayNJson} {node : VMessNode} :
    buildNode lower opts=.ok node ↔
      (0<opts.port ∧ opts.port≤65535) ∧ opts.add≠[] ∧ opts.id≠[] ∧ node=builtNode lower opts := by
  rw [buildNode]
  split_ifs with hp ha hi
  · simp only [false_iff]
    omega
  · simp [ha]
  · simp [hi]
  · rw [Except.ok.injEq,eq_comm]
    simp only [ha,hi,ne_eq,not_false_eq_true,true_and,iff_and_self]
    intro _
    omega

/-- With distinct keys, the members of one key are the one member. -/
theorem filter_key {members : List (Text×Value)} (hn : (members.map Prod.fst).Nodup)
    {name : Text} {v : Value} (hm : (name,v)∈members) :
    members.filter (fun m => decide (m.1=name))=[(name,v)] := by
  induction members with
  | nil => cases hm
  | cons m members ih =>
    rw [List.map_cons,List.nodup_cons] at hn
    rcases List.mem_cons.mp hm with rfl|hm
    · have hrest : members.filter (fun m => decide (m.1=name))=[] := by
        rw [List.filter_eq_nil_iff]
        intro m hm he
        have hk : m.1=name := of_decide_eq_true he
        exact hn.1 (List.mem_map.mpr ⟨m,hm,hk⟩)
      rw [List.filter_cons,hrest]
      simp
    · have hne : m.1≠name := by
        rintro rfl
        exact hn.1 (List.mem_map.mpr ⟨(m.1,v),hm,rfl⟩)
      rw [List.filter_cons,ih hn.2 hm]
      simp [hne]

theorem field_mem {members : List (Text×Value)} (hn : (members.map Prod.fst).Nodup)
    {name : Text} {v : Value} (hm : (name,v)∈members) {α : Type} (decode : Value → Option α)
    (missing : α) : field members [name] decode missing=decode v := by
  have hone : (fun m : Text×Value => [name].contains m.1)=fun m => decide (m.1=name) := by
    funext m
    simp
  rw [field,hone,filter_key hn hm]

theorem field_missing {members : List (Text×Value)} {names : List Text}
    (h : ∀ m∈members, m.1∉names) {α : Type} (decode : Value → Option α) (missing : α) :
    field members names decode missing=some missing := by
  have hnone : members.filter (fun m => names.contains m.1)=[] := by
    rw [List.filter_eq_nil_iff]
    intro m hm
    simpa using h m hm
  rw [field,hnone]

end Tobira.Subscription
