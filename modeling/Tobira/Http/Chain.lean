import Tobira.Framework.Parts
import Tobira.Http.Server
import Tobira.Subscription.Reader

namespace Tobira.Http

open Tobira.Framework Tobira.Framework.Url Tobira.Subscription

/-- What the two ends rely on: the engines of `base64`, an object of `serde_json` with the
members that were put in, the URL parser, and lower case as far as it is ASCII. -/
structure Documented (crates : Crates) (parser : ParserCrates) : Prop where
  base64Standard : ∀ bytes, crates.base64Standard bytes=Base64.encode false true bytes
  base64UrlSafeNoPad : ∀ bytes, crates.base64UrlSafeNoPad bytes=Base64.encode true false bytes
  engines : parser.Engines
  json : ∀ members, (members.map Prod.fst).Nodup →
    ∃ l, parser.json (crates.jsonObject members)=some (.obj l) ∧
      l.Perm (members.map (fun p => (p.1,.str p.2)))
  writer : crates.url.Whatwg
  reader : parser.url.Whatwg
  toLowercase : ∀ text, (∀ c∈text, c.toNat<128) → parser.toLowercase text=text.map Char.toLower

/-- 8-4-4-4-12 hexadecimal digits, in either case. -/
def CanonicalUuid (uuid : Text) : Prop :=
  (uuid.splitOn '-').map List.length=[8,4,4,4,12] ∧ ∀ c∈uuid, isDigit 16 c=true ∨ c = '-'

instance (uuid : Text) : Decidable (CanonicalUuid uuid) :=
  have : Decidable (∀ c∈uuid, isDigit 16 c=true ∨ c = '-') := List.decidableBAll _ _
  inferInstanceAs (Decidable (_ ∧ _))

theorem CanonicalUuid.nonempty {uuid : Text} (h : CanonicalUuid uuid) : uuid≠[] := by
  rintro rfl
  have hlen := h.1
  revert hlen
  decide

theorem CanonicalUuid.userinfo {uuid : Text} (h : CanonicalUuid uuid) :
    ∀ c∈uuid, userinfoSet c=false := by
  intro c hc
  rcases h.2 c hc with hd|rfl
  · have hall : ∀ n<128, isDigit 16 (Char.ofNat n)=true → userinfoSet (Char.ofNat n)=false := by
      decide +kernel
    exact of_ascii (p := fun c => isDigit 16 c=true → userinfoSet c=false) (isDigit_ascii hd) hall hd
  · decide

theorem CanonicalUuid.safe {uuid : Text} (h : CanonicalUuid uuid) : UuidSafe uuid :=
  Or.inl (fun c hc => (userinfoSet_plain (h.userinfo c hc)).2.1)

/-- A node as a client of the relay sees it. -/
def relayed (network : RelayNetwork) (serviceName : Text) (output : OutputConfig)
    (node : VMessNode) : VMessNode where
  name := node.name
  source := []
  server := output.host
  port := output.port
  uuid := node.uuid
  alterId := node.alterId
  security := if node.security=[] then "auto".toList else node.security
  network := match network with
    | .tcp => "tcp".toList
    | .grpc => "grpc".toList
  tls := decide (network=.grpc)
  sni := match network with
    | .tcp => output.host
    | .grpc => if output.sni.getD []=[] then output.host else output.sni.getD []
  grpcServiceName := match network with
    | .tcp => none
    | .grpc => some serviceName
  wsPath := none
  wsHost := none
  packetEncoding := .default

/-- The options that a JSON link carries. -/
def linkOptions (network : RelayNetwork) (serviceName : Text) (output : OutputConfig)
    (node : VMessNode) : V2rayNJson where
  v := 2
  ps := node.name
  add := output.host
  port := output.port.toNat
  id := node.uuid
  aid := node.alterId.toNat
  net := match network with
    | .tcp => "tcp".toList
    | .grpc => "grpc".toList
  type := "none".toList
  host := []
  path := match network with
    | .tcp => []
    | .grpc => serviceName
  tls := match network with
    | .tcp => []
    | .grpc => "tls".toList
  sni := match network with
    | .tcp => []
    | .grpc => output.sni.getD []
  scy := node.security
  packetEncoding := .default

/-- The members that options are written as, all of them strings. -/
def written (opts : V2rayNJson) : List (Text×Text) :=
  [("v".toList,decimal opts.v.toNat),
    ("ps".toList,opts.ps),
    ("add".toList,opts.add),
    ("port".toList,decimal opts.port.toNat),
    ("id".toList,opts.id),
    ("aid".toList,decimal opts.aid.toNat),
    ("net".toList,opts.net),
    ("type".toList,opts.type),
    ("host".toList,opts.host),
    ("path".toList,opts.path),
    ("tls".toList,opts.tls),
    ("sni".toList,opts.sni),
    ("scy".toList,opts.scy)]

/-- The member that a link of a relay with an unverified certificate has besides. -/
def insecure (network : RelayNetwork) (output : OutputConfig) : List (Text×Text) :=
  if network=.grpc ∧ output.skipCertVerify=true then [("insecure".toList,"1".toList)] else []

theorem buildVmessJsonLink_eq (crates : Crates) (node : VMessNode) (output : OutputConfig)
    (network : RelayNetwork) (serviceName : Text) :
    buildVmessJsonLink crates node output network serviceName=
      "vmess://".toList++crates.base64Standard (utf8 (crates.jsonObject
        (written (linkOptions network serviceName output node)++insecure network output))) := by
  have hv : decimal (2 : Int).toNat="2".toList := by decide
  -- The equation of this definition takes too long to generate.
  delta buildVmessJsonLink
  cases network with
  | tcp =>
    simp only [written,linkOptions,insecure,hv,Int.toNat_natCast,reduceCtorEq,if_false,false_and,
      List.append_nil]
  | grpc =>
    simp only [written,linkOptions,insecure,hv,Int.toNat_natCast,if_true,true_and]
    split_ifs
    · rfl
    · rw [List.append_nil]

theorem insecure_cases (network : RelayNetwork) (output : OutputConfig) :
    insecure network output=[] ∨ insecure network output=[("insecure".toList,"1".toList)] := by
  rw [insecure]
  split_ifs
  · exact Or.inr rfl
  · exact Or.inl rfl

theorem stringOrInt_decimal {n : Int} (h : 0 ≤ n ∧ n<2^63) :
    stringOrInt (.str (decimal n.toNat))=some n := by
  have hne : decimal n.toNat≠[] := Nat.toDigits_ne_nil
  rw [stringOrInt,if_neg hne,parseI64_decimal (by omega),Int.toNat_of_nonneg h.1]

theorem written_keys (opts : V2rayNJson) {extra : List (Text×Text)}
    (hx : extra=[] ∨ extra=[("insecure".toList,"1".toList)]) :
    ((written opts++extra).map Prod.fst).Nodup ∧
    ∀ k∈(written opts++extra).map Prod.fst, k∉["packetEncoding".toList,"packetencoding".toList] := by
  have hk : (written opts).map Prod.fst=["v","ps","add","port","id","aid","net","type","host","path",
      "tls","sni","scy"].map String.toList := rfl
  rw [List.map_append,hk]
  rcases hx with rfl|rfl
  · decide
  · decide

/-- Options that are written as an object of strings are read back, in whatever order the members
come. -/
theorem ofMembers_written {opts : V2rayNJson} (hv : 0 ≤ opts.v ∧ opts.v<2^63)
    (hp : 0 ≤ opts.port ∧ opts.port<2^63) (ha : 0 ≤ opts.aid ∧ opts.aid<2^63)
    (he : opts.packetEncoding=.default) {extra : List (Text×Text)}
    (hx : extra=[] ∨ extra=[("insecure".toList,"1".toList)]) {l : List (Text×Json.Value)}
    (hl : l.Perm ((written opts++extra).map (fun p => (p.1,.str p.2)))) :
    V2rayNJson.ofMembers l=some opts := by
  obtain ⟨hnodup,hother⟩ := written_keys opts hx
  have hkeys : (l.map Prod.fst).Perm ((written opts++extra).map Prod.fst) := by
    have hm := hl.map Prod.fst
    rwa [List.map_map] at hm
  have hk : (l.map Prod.fst).Nodup := hkeys.nodup_iff.mpr hnodup
  have hf (name : String) (s : Text) (hm : (name.toList,s)∈written opts) {α : Type}
      (decode : Json.Value → Option α) (missing : α) :
      field l [name.toList] decode missing=decode (.str s) := by
    apply field_mem hk
    apply hl.mem_iff.mpr
    exact List.mem_map.mpr ⟨_,List.mem_append_left _ hm,rfl⟩
  have hencoding : field l ["packetEncoding".toList,"packetencoding".toList] packetEncodingValue
      .default=some .default := by
    apply field_missing
    intro m hm
    exact hother m.1 (hkeys.mem_iff.mp (List.mem_map.mpr ⟨m,hm,rfl⟩))
  rw [V2rayNJson.ofMembers]
  simp only [hf "v" (decimal opts.v.toNat) (by simp [written]),
    hf "ps" opts.ps (by simp [written]),
    hf "add" opts.add (by simp [written]),
    hf "port" (decimal opts.port.toNat) (by simp [written]),
    hf "id" opts.id (by simp [written]),
    hf "aid" (decimal opts.aid.toNat) (by simp [written]),
    hf "net" opts.net (by simp [written]),
    hf "type" opts.type (by simp [written]),
    hf "host" opts.host (by simp [written]),
    hf "path" opts.path (by simp [written]),
    hf "tls" opts.tls (by simp [written]),
    hf "sni" opts.sni (by simp [written]),
    hf "scy" opts.scy (by simp [written]),
    hencoding,stringOrInt_decimal hv,stringOrInt_decimal hp,stringOrInt_decimal ha,stringValue,
    Option.bind_eq_bind,Option.bind_some,Option.pure_def]
  rw [← he]

/-- The port of an output passes the checks when it is not 0. -/
theorem buildNode_port {lower : Text → Text} {opts : V2rayNJson} {port : UInt16}
    (hp : 1 ≤ port.toNat) (hport : opts.port=port.toNat) (ha : opts.add≠[]) (hi : opts.id≠[]) :
    buildNode lower opts=.ok (builtNode lower opts) := by
  have hlt := port.toNat_lt
  rw [buildNode_ok_iff]
  exact ⟨by omega,ha,hi,rfl⟩

theorem portValue_some (port : UInt16) :
    portValue (some (UInt16.ofNat port.toNat))=(port.toNat : Int) := by
  rw [UInt16.ofNat_toNat]
  rfl

theorem builtNode_linkOptions {lower : Text → Text}
    (hlower : ∀ text, (∀ c∈text, c.toNat<128) → lower text=text.map Char.toLower)
    (network : RelayNetwork) (serviceName : Text) (output : OutputConfig) (node : VMessNode) :
    builtNode lower (linkOptions network serviceName output node)=
      relayed network serviceName output node := by
  have htcp : lower ['t','c','p']=['t','c','p'] :=
    (hlower _ (all_chars (by decide))).trans (by decide)
  have hgrpc : lower ['g','r','p','c']=['g','r','p','c'] :=
    (hlower _ (all_chars (by decide))).trans (by decide)
  cases network with
  | tcp =>
    by_cases hs : node.security=[]
    · simp [builtNode,linkOptions,relayed,htcp,hs]
    · simp [builtNode,linkOptions,relayed,htcp,hs]
  | grpc =>
    by_cases hs : node.security=[]
    · simp [builtNode,linkOptions,relayed,hgrpc,hs]
    · simp [builtNode,linkOptions,relayed,hgrpc,hs]

theorem isVmess_append (rest : Text) : isVmess ("vmess://".toList++rest)=true := by
  rw [isVmess,List.isPrefixOf_iff_prefix]
  exact List.prefix_append _ _

/-- The formats are told apart by the username and the query. -/
theorem parseVmessLink_solid {parser : ParserCrates} {rest : Text} (h : Solid rest)
    {u : parser.url.Url} (hp : parser.url.parse ("vmess://".toList++rest)=.ok u) :
    parseVmessLink parser ("vmess://".toList++rest)=
      if parser.url.username u=[] then
        if (parser.url.query u).isSome then
          parseShadowrocketFormat parser ("vmess://".toList++rest) u
        else parseBase64Json parser ("vmess://".toList++rest)
      else parseUrlFormat parser u := by
  have htrim := (solid_append solid_scheme h).trim
  simp only [parseVmessLink,htrim,isVmess_append,Bool.true_eq_false,if_false,hp]

/-- What is known of the characters of an encoded text. -/
theorem base64_chars {urlSafe pad : Bool} {bytes : List UInt8} :
    ∀ c∈Base64.encode urlSafe pad bytes, (isWhitespace c=false ∧ ' '<c) ∧
      (isTabOrNewline c=false ∧ c ≠ '?' ∧ c ≠ '#') ∧
      (c = '/' ∨ forbiddenHostChar c=false) := by
  cases urlSafe with
  | false => exact Base64.encode_forall (by decide +kernel)
  | true => exact Base64.encode_forall (by decide +kernel)

theorem solid_base64 (urlSafe pad : Bool) (bytes : List UInt8) :
    Solid (Base64.encode urlSafe pad bytes) := fun c hc => (base64_chars c hc).1

/-- A base64 text is a host and a path to the URL parser. -/
theorem parse_base64 {reader : UrlReader} (hr : reader.Whatwg) (pad : Bool) (bytes : List UInt8) :
    ∃ u, reader.parse ("vmess://".toList++Base64.encode false pad bytes)=.ok u ∧
      reader.username u=[] ∧ reader.query u=none := by
  have hs := (solid_base64 false pad bytes).untrimmed
  have htabs : removeTabs (Base64.encode false pad bytes)=Base64.encode false pad bytes :=
    removeTabs_plain (fun c hc => (base64_chars c hc).2.1.1)
  have hauth : ∀ c∈authority (removeTabs (Base64.encode false pad bytes)),
      forbiddenHostChar c=false := by
    intro c hc
    rw [htabs] at hc
    have hend : endsAuthority c=false := by simpa using List.mem_takeWhile_imp hc
    rcases (base64_chars c ((List.takeWhile_prefix _).subset hc)).2.2 with rfl|hf
    · cases hend
    · exact hf
  obtain ⟨u,hu⟩ := (hr.accepts _ hs).mpr (validAuthority_hostOnly hauth)
  refine ⟨u,hu,?_,?_⟩
  · rw [hr.username _ u hs hu,usernamePart_hostOnly hauth]
  · have hfragment : '#'∉Base64.encode false pad bytes :=
      fun hm => (base64_chars _ hm).2.1.2.2 rfl
    have hquery : '?'∉Base64.encode false pad bytes := fun hm => (base64_chars _ hm).2.1.2.1 rfl
    rw [hr.query _ u hs hu,queryPart,withoutFragment,htabs,cut_none hfragment,cut_none hquery]
    rfl

section
variable {crates : Crates} {parser : ParserCrates} (h : Documented crates parser)
include h

theorem parse_jsonLink {node : VMessNode} {output : OutputConfig} (hu : node.uuid≠[])
    (hh : output.host≠[]) (hp : 1 ≤ output.port.toNat) (network : RelayNetwork)
    (serviceName : Text) :
    parseVmessLink parser (buildVmessJsonLink crates node output network serviceName)=
      .ok (relayed network serviceName output node) := by
  have hport := output.port.toNat_lt
  have halter := node.alterId.toNat_lt
  have hx := insecure_cases network output
  have hv : (0 : Int) ≤ 2 ∧ (2 : Int)<2^63 := by decide
  have hp' : 0 ≤ (output.port.toNat : Int) ∧ (output.port.toNat : Int)<2^63 := by omega
  have ha : 0 ≤ (node.alterId.toNat : Int) ∧ (node.alterId.toNat : Int)<2^63 := by omega
  obtain ⟨l,hjson,hl⟩ := h.json _ (written_keys (linkOptions network serviceName output node) hx).1
  have hread : V2rayNJson.ofMembers l=some (linkOptions network serviceName output node) :=
    ofMembers_written hv hp' ha rfl hx hl
  have hbuild : buildNode parser.toLowercase (linkOptions network serviceName output node)=
      .ok (relayed network serviceName output node) := by
    rw [buildNode_port hp rfl hh hu,builtNode_linkOptions h.toLowercase]
  rw [buildVmessJsonLink_eq,h.base64Standard]
  obtain ⟨u,hparse,hname,hquery⟩ := parse_base64 h.reader true (utf8 (crates.jsonObject
    (written (linkOptions network serviceName output node)++insecure network output)))
  have hafter : ∀ text, afterScheme ("vmess://".toList++text)=text := fun _ => rfl
  rw [parseVmessLink_solid (solid_base64 false true _) hparse,if_pos hname,hquery,parseBase64Json,
    hafter,tryBase64Decode_encode h.engines]
  simp only [Option.isSome_none,Bool.false_eq_true,if_false,hjson,Option.bind_some,
    V2rayNJson.deserialize,hread,hbuild]

theorem jsonLink_encoded (node : VMessNode) (output : OutputConfig) (network : RelayNetwork)
    (serviceName : Text) : ∃ bytes, buildVmessJsonLink crates node output network serviceName=
      "vmess://".toList++Base64.encode false true bytes := by
  have heq := buildVmessJsonLink_eq crates node output network serviceName
  rw [h.base64Standard] at heq
  exact ⟨_,heq⟩

/-- A JSON link is one line that is read as the node behind the relay. -/
theorem parseLine_jsonLink {node : VMessNode} {output : OutputConfig} (hu : node.uuid≠[])
    (hh : output.host≠[]) (hp : 1 ≤ output.port.toNat) (network : RelayNetwork)
    (serviceName : Text) :
    parseLine parser (buildVmessJsonLink crates node output network serviceName)=
      some (relayed network serviceName output node) := by
  have hlink := parse_jsonLink h hu hh hp network serviceName
  obtain ⟨bytes,heq⟩ := jsonLink_encoded h node output network serviceName
  have hsolid := solid_append solid_scheme (solid_base64 false true bytes)
  rw [heq] at hlink ⊢
  rw [parseLine,hsolid.trim,isVmess_append]
  simp only [if_true,hlink,Except.toOption]

/-- Links are lines: they are not empty and no character ends a line. -/
theorem jsonLink_line (node : VMessNode) (output : OutputConfig) (network : RelayNetwork)
    (serviceName : Text) : buildVmessJsonLink crates node output network serviceName≠[] ∧
      '\n'∉buildVmessJsonLink crates node output network serviceName ∧
      '\r'∉buildVmessJsonLink crates node output network serviceName := by
  obtain ⟨bytes,heq⟩ := jsonLink_encoded h node output network serviceName
  have hsolid := solid_append solid_scheme (solid_base64 false true bytes)
  rw [heq]
  refine ⟨by simp,?_,?_⟩
  · intro hm
    exact absurd (hsolid _ hm).1 (by decide)
  · intro hm
    exact absurd (hsolid _ hm).1 (by decide)

/-- A body of encoded lines is read line by line. -/
theorem parseSubscription_encoded {links : List Text} {nodes : List VMessNode}
    (hlines : ∀ link∈links, link≠[] ∧ '\n'∉link ∧ '\r'∉link)
    (hnodes : links.map (parseLine parser)=nodes.map some) :
    parseSubscription parser (crates.base64Standard (utf8 (['\n'].intercalate links)))=nodes := by
  have hsolid := solid_base64 false true (utf8 (['\n'].intercalate links))
  have hmap : ∀ ls : List Text, ls.filterMap (parseLine parser)=
      (ls.map (parseLine parser)).filterMap id := by
    intro ls
    rw [List.filterMap_map]
    rfl
  rw [parseSubscription,h.base64Standard,hsolid.trim,tryBase64Decode_encode h.engines]
  simp only [Option.getD_some,lines_intercalate hlines,hmap,hnodes,List.filterMap_map]
  exact List.filterMap_some

end

/-- The user may see the output, and it is the one that was asked for. -/
def mayRead (user : HttpUser) (outputName : Option Text) (name : Text) : Bool :=
  outputName.all (fun asked => decide (name=asked)) &&
    user.outputs.all (fun names => names.contains name)

theorem allowed_eq (user : HttpUser) (outputName : Option Text) (output : RenderedOutput) :
    allowed user outputName output=mayRead user outputName output.name := by
  rw [Bool.eq_iff_iff]
  cases hu : user.outputs with
  | none => cases outputName <;> simp [allowed,mayRead,hu]
  | some names => cases outputName <;> simp [allowed,mayRead,hu]

/-- The names and the JSON links of a state come from the outputs one by one. -/
theorem new_v2rayn {crates : Crates} {users : List HttpUser} {outputs : List OutputConfig}
    {nodes : List VMessNode} {network : RelayNetwork} {serviceName : Text} {state : HttpState}
    (hs : HttpState.new crates users outputs nodes network serviceName=.ok state) :
    state.outputs.map (fun out => (out.name,out.v2raynLinks))=outputs.map (fun output =>
      (output.name,(applyPipeline crates.regex nodes output.process).map
        (fun node => buildVmessJsonLink crates node output network serviceName))) := by
  obtain ⟨out,hout,rfl⟩ := map_ok hs
  apply mapM_ok_map _ hout
  intro output rendered hr
  obtain ⟨links,-,hr⟩ := bind_ok hr
  cases hr
  rfl

/-- The body that a user gets, from the outputs as they are configured. -/
theorem v2rayn_body {crates : Crates} {users : List HttpUser} {outputs : List OutputConfig}
    {nodes : List VMessNode} {network : RelayNetwork} {serviceName : Text} {state : HttpState}
    (hs : HttpState.new crates users outputs nodes network serviceName=.ok state)
    (user : HttpUser) (outputName : Option Text) :
    (buildSubscriptionResponse crates state user outputName .v2rayN).body=
      let readable := outputs.filter (fun output => mayRead user outputName output.name)
      if readable=[] then "no matching outputs".toList
      else crates.base64Standard (utf8 (['\n'].intercalate (readable.flatMap (fun output =>
        (applyPipeline crates.regex nodes output.process).map
          (fun node => buildVmessJsonLink crates node output network serviceName))))) := by
  have hfilter : state.outputs.filter (allowed user outputName)=
      state.outputs.filter (fun out => mayRead user outputName out.name) := by
    apply List.filter_congr
    intro out _
    exact allowed_eq user outputName out
  have hviews := congrArg (List.filter (fun p => mayRead user outputName p.1)) (new_v2rayn hs)
  rw [List.filter_map,List.filter_map] at hviews
  have hempty := congrArg (· = []) hviews
  simp only [List.map_eq_nil_iff,Function.comp_def] at hempty
  have hlinks := congrArg (List.flatMap Prod.snd) hviews
  simp only [List.flatMap_map,Function.comp_def] at hlinks
  simp only [buildSubscriptionResponse,hfilter,hempty,RenderedOutput.links,hlinks]
  split_ifs
  · rfl
  · rfl

theorem parse_noMatching {parser : ParserCrates} (he : parser.Engines) :
    parseSubscription parser "no matching outputs".toList=[] := by
  have hdecode : tryBase64Decode parser (trim "no matching outputs".toList)=none := by
    simp only [tryBase64Decode,he.eq_decode]
    decide +kernel
  have hlines : lines "no matching outputs".toList=["no matching outputs".toList] := by decide
  have hvmess : isVmess (trim "no matching outputs".toList)=false := by decide
  simp only [parseSubscription,hdecode,Option.getD_none,hlines,List.filterMap_cons,
    List.filterMap_nil,parseLine,hvmess,Bool.false_eq_true,if_false]

theorem ValidHost.nonempty {host : Text} (h : ValidHost host) : host≠[] := by
  rintro rfl
  revert h
  decide

/-- What is served for the outputs a user may read, is read back as the nodes of their pipelines
behind the relay. -/
theorem chained_relays {crates : Crates} {parser : ParserCrates} (h : Documented crates parser)
    {nodes : List VMessNode} (hu : ∀ node∈nodes, CanonicalUuid node.uuid)
    {outputs : List OutputConfig}
    (ho : ∀ output∈outputs, ValidHost output.host ∧ 1 ≤ output.port.toNat)
    (users : List HttpUser) (network : RelayNetwork) (serviceName : Text) :
    ∃ state, HttpState.new crates users outputs nodes network serviceName=.ok state ∧
      ∀ user outputName, parseSubscription parser
          (buildSubscriptionResponse crates state user outputName .v2rayN).body=
        (outputs.filter (fun output => mayRead user outputName output.name)).flatMap
          (fun output => (applyPipeline crates.regex nodes output.process).map
            (relayed network serviceName output)) := by
  have hhosts : ∀ output∈outputs, ValidHost output.host := fun output hm => (ho output hm).1
  obtain ⟨state,hs⟩ := (render_never_panics_iff h.writer hhosts users nodes network serviceName).mpr
    (fun output _ node hn _ => (hu node hn).safe)
  refine ⟨state,hs,?_⟩
  intro user outputName
  have huuid : ∀ output : OutputConfig, ∀ node∈applyPipeline crates.regex nodes output.process,
      node.uuid≠[] := by
    intro output node hm
    rw [applyPipeline_eq] at hm
    obtain ⟨node',hn,hk⟩ := List.mem_filterMap.mp hm
    rw [(onNode_route hk).uuid]
    exact (hu node' hn).nonempty
  rw [v2rayn_body hs]
  simp only
  split_ifs with hnone
  · rw [hnone,parse_noMatching h.engines]
    rfl
  · apply parseSubscription_encoded h
    · intro link hl
      obtain ⟨output,-,hl⟩ := List.mem_flatMap.mp hl
      obtain ⟨node,-,rfl⟩ := List.mem_map.mp hl
      exact jsonLink_line h node output network serviceName
    · rw [List.map_flatMap,List.map_flatMap]
      apply List.flatMap_congr
      intro output hm
      obtain ⟨hhost,hport⟩ := ho output (List.mem_of_mem_filter hm)
      rw [List.map_map,List.map_map]
      apply List.map_congr_left
      intro node hn
      exact parseLine_jsonLink h (huuid output node hn) hhost.nonempty hport network serviceName

theorem plain_documented : Documented plainCrates plainParser where
  base64Standard := fun _ => rfl
  base64UrlSafeNoPad := fun _ => rfl
  engines := plainParser_engines
  json := fun members _ => Json.read_object members
  writer := plainUrl_whatwg
  reader := plainReader_whatwg
  toLowercase := fun _ _ => rfl

/-- Two relays in a row: the second one reads the nodes of the first behind each of its outputs. -/
theorem chained_relays_plain : ∃ state,
    HttpState.new plainCrates [] [plainOutput,spareOutput] plainNodes .grpc "GunService".toList=
      .ok state ∧
    parseSubscription plainParser
        (buildSubscriptionResponse plainCrates state anonymous none .v2rayN).body=
      plainNodes.map (relayed .grpc "GunService".toList plainOutput)++
        plainNodes.map (relayed .grpc "GunService".toList spareOutput) := by
  have hu : ∀ node∈plainNodes, CanonicalUuid node.uuid := by decide
  have ho : ∀ output∈[plainOutput,spareOutput],
      ValidHost output.host ∧ 1 ≤ output.port.toNat := by decide
  obtain ⟨state,hs,hread⟩ := chained_relays plain_documented hu ho [] .grpc "GunService".toList
  exact ⟨state,hs,hread anonymous none⟩

end Tobira.Http
