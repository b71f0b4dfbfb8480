import Tobira.Http.Shadowrocket

namespace Tobira.Http

open Tobira.Framework Tobira.Framework.Url Tobira.Subscription

/-- What the serializer puts before the next pair of a query. -/
def pairSeparator (text : Text) : Text :=
  match (cut '?' text).2 with
  | none => ['?']
  | some [] => []
  | some _ => ['&']

/-- The text of a `vmess` URL: a URL of plain parts is kept as it is written, a pair is form
encoded and put to the end of the query, and a fragment is percent-encoded. -/
structure UrlCrate.Serializes (u : UrlCrate) : Prop where
  parse : ∀ user host port url, user≠[] → (∀ c∈user, userinfoSet c=false) → host≠[] →
    (∀ c∈host, NameChar c) → port≤65535 →
    u.parse ("vmess://".toList++located user host port)=some url →
    u.toText url="vmess://".toList++located user host port
  appendPair : ∀ url key value, '#'∉u.toText url →
    u.toText (u.appendPair url key value)=
      u.toText url++(pairSeparator (u.toText url)++formEncode [(key,value)])
  setFragment : ∀ url fragment, '#'∉u.toText url →
    u.toText (u.setFragment url fragment)=
      u.toText url ++ '#'::percentEncode fragmentSet (removeTabs fragment)

def formQuery (pairs : List (Text×Text)) : Option Text :=
  if pairs=[] then none else some (escapePairs formByte pairs)

theorem formQuery_set {pairs : List (Text×Text)} :
    ∀ q∈formQuery pairs, ∀ c∈q, querySet c=false := by
  intro q hq
  rw [formQuery] at hq
  split_ifs at hq
  · cases hq
  · cases hq
    exact escapePairs_query formByte_escapes pairs

theorem percentByte_fragment (b : UInt8) : ∀ c∈percentByte b, fragmentSet c=false := by
  have hall : ∀ n<16, fragmentSet (hexDigit n)=false := by decide
  have hb := b.toNat_lt
  intro c hc
  simp only [percentByte,List.mem_cons,List.not_mem_nil,or_false] at hc
  rcases hc with rfl|rfl|rfl
  · decide
  · exact hall _ (by omega)
  · exact hall _ (by omega)

/-- What a fragment is written as needs no encoding any more. -/
theorem percentEncode_fragment (text : Text) :
    ∀ c∈percentEncode fragmentSet text, fragmentSet c=false := by
  intro c hc
  obtain ⟨d,-,hd⟩ := List.mem_flatMap.mp hc
  split_ifs at hd with hset
  · obtain ⟨b,-,hb⟩ := List.mem_flatMap.mp hd
    exact percentByte_fragment b c hb
  · rw [List.mem_singleton.mp hd]
    exact Bool.eq_false_iff.mpr hset

theorem percentEncode_eq_iff (name : Text) :
    percentEncode fragmentSet (removeTabs name)=name ↔ ∀ c∈name, fragmentSet c=false := by
  constructor
  · intro h
    rw [← h]
    exact percentEncode_fragment _
  · intro h
    rw [removeTabs_plain (fun c hc => fragmentSet_plain (h c hc)),percentEncode_eq h]

/-- What a name is written as; there is no fragment without a name. -/
def nameFragment (name : Text) : Option Text :=
  if name=[] then none else some (percentEncode fragmentSet (removeTabs name))

theorem nameFragment_set {name : Text} : ∀ f∈nameFragment name, ∀ c∈f, fragmentSet c=false := by
  intro f hf
  rw [nameFragment] at hf
  split_ifs at hf
  · cases hf
  · cases hf
    exact percentEncode_fragment _

theorem nameFragment_getD (name : Text) :
    (nameFragment name).getD []=percentEncode fragmentSet (removeTabs name) := by
  rw [nameFragment]
  split_ifs with hn
  · rw [hn]
    rfl
  · rfl

section
variable {u : UrlCrate} (hw : u.Serializes) {base : Text} (hb : '#'∉base ∧ '?'∉base)
include hw hb

omit hw in
theorem assemble_query (done : List (Text×Text)) : '#'∉assemble base (formQuery done) none := by
  intro hm
  rcases List.mem_append.mp hm with hm|hm
  · exact hb.1 hm
  · rw [Option.elim_none,List.append_nil] at hm
    cases hq : formQuery done with
    | none =>
      rw [hq] at hm
      cases hm
    | some q =>
      rw [hq] at hm
      rcases List.mem_cons.mp hm with hm|hm
      · revert hm
        decide
      · exact (querySet_plain (formQuery_set q hq _ hm)).2 rfl

theorem appendPair_text {url : u.Url} {done : List (Text×Text)}
    (h : u.toText url=assemble base (formQuery done) none) (key value : Text) :
    u.toText (u.appendPair url key value)=assemble base (formQuery (done++[(key,value)])) none := by
  have hone : formEncode [(key,value)]=escapePair formByte (key,value) := by
    simp [formEncode_eq,escapePairs,List.intercalate]
  have hno : '#'∉u.toText url := by
    rw [h]
    exact assemble_query hb done
  have hquery : formQuery (done++[(key,value)])=
      some (escapePairs formByte (done++[(key,value)])) := if_neg (by simp)
  rw [hw.appendPair url key value hno,h,hone,hquery,escapePairs_concat]
  by_cases hd : done=[]
  · simp [hd,formQuery,pairSeparator,assemble,cut_none hb.2]
  · have hcut : cut '?' (assemble base (some (escapePairs formByte done)) none)=
        (base,some (escapePairs formByte done)) := by
      rw [assemble,Option.elim_none,List.append_nil,Option.elim_some,cut_append hb.2]
    have hne : escapePairs formByte done≠[] := fun he => hd (escapePairs_eq_nil.mp he)
    simp only [formQuery,if_neg hd,pairSeparator,hcut]
    cases hp : escapePairs formByte done with
    | nil => exact absurd hp hne
    | cons c rest => simp [assemble]

/-- Appending pairs one after the other writes the query as a whole. -/
theorem appendPairs_text {url : u.Url} {done : List (Text×Text)}
    (h : u.toText url=assemble base (formQuery done) none) (pairs : List (Text×Text)) :
    u.toText (pairs.foldl (fun url p => u.appendPair url p.1 p.2) url)=
      assemble base (formQuery (done++pairs)) none := by
  induction pairs generalizing url done with
  | nil => rw [List.append_nil,List.foldl_nil,h]
  | cons p pairs ih =>
    have hp := appendPair_text hw hb h p.1 p.2
    rw [List.foldl_cons,ih hp,List.append_assoc]
    rfl

/-- The name goes to the end, and only when there is one. -/
theorem name_text {url : u.Url} {pairs : List (Text×Text)}
    (h : u.toText url=assemble base (formQuery pairs) none) (name : Text) :
    u.toText (if name=[] then url else u.setFragment url name)=
      assemble base (formQuery pairs) (nameFragment name) := by
  rw [nameFragment]
  split_ifs
  · exact h
  · have hno : '#'∉u.toText url := by
      rw [h]
      exact assemble_query hb pairs
    rw [hw.setFragment url name hno,h]
    simp [assemble]

end

theorem vmessBase_located (node : VMessNode) {output : OutputConfig}
    (hh : ∀ c∈output.host, NameChar c) : vmessBase node output=
      "vmess://".toList++located node.uuid output.host output.port.toNat := by
  delta vmessBase located
  rw [formatUrlHost_name hh]

theorem buildVmessUrlLink_eq {crates : Crates} (hw : crates.url.Whatwg)
    (hs : crates.url.Serializes) {node : VMessNode} (hu : CanonicalUuid node.uuid)
    {output : OutputConfig} (hn : output.host≠[]) (hh : ∀ c∈output.host, NameChar c)
    (network : RelayNetwork) (serviceName : Text) :
    buildVmessUrlLink crates node output network serviceName=
      .ok ("vmess://".toList++assemble (located node.uuid output.host output.port.toNat)
        (formQuery (urlPairs node output network serviceName)) (nameFragment node.name)) := by
  have hport : output.port.toNat≤65535 := by
    have hlt := output.port.toNat_lt
    omega
  have hplain := located_plain output.port.toNat hu.userinfo (plainHost_name hn hh)
    (no_part querySet) (no_part fragmentSet)
  have hends : ∀ c : Char, endsAuthority c=true → c∉"vmess://".toList →
      c∉"vmess://".toList++located node.uuid output.host output.port.toNat := by
    intro c hc hscheme hm
    rcases List.mem_append.mp hm with hm|hm
    · exact hscheme hm
    · exact authority_no hplain hc hm
  have hb := And.intro (hends '#' (by decide) (by decide)) (hends '?' (by decide) (by decide))
  have hvalid : (crates.url.parse (vmessBase node output)).isSome=true := by
    rw [hw.parse_vmessBase,vmessBase_authority node (Or.inl ⟨hn,hh⟩)]
    exact hu.safe
  obtain ⟨url,hurl⟩ := Option.isSome_iff_exists.mp hvalid
  have hstart : crates.url.toText url=assemble
      ("vmess://".toList++located node.uuid output.host output.port.toNat) (formQuery []) none := by
    rw [vmessBase_located node hh] at hurl
    rw [hs.parse _ _ _ url hu.nonempty hu.userinfo hn hh hport hurl,formQuery,if_pos rfl,
      assemble_none]
  have hpairs := appendPairs_text hs hb hstart (urlPairs node output network serviceName)
  rw [List.nil_append] at hpairs
  rw [buildVmessUrlLink,hurl]
  simp only [name_text hs hb hpairs node.name]
  rw [assemble,assemble,List.append_assoc]

/-- The options that the parser finds in a link: the name as it is encoded, and no `aid`. -/
def urlOptions (network : RelayNetwork) (serviceName : Text) (output : OutputConfig)
    (node : VMessNode) : V2rayNJson :=
  { linkOptions network serviceName output node with
    v := 0
    ps := percentEncode fragmentSet (removeTabs node.name)
    aid := 0
    type := []
    tls := match network with
      | .tcp => "none".toList
      | .grpc => "tls".toList }

/-- What the pairs of a link say under the names that the parser looks for. -/
theorem urlPairs_get (node : VMessNode) (output : OutputConfig) (network : RelayNetwork)
    (serviceName : Text) :
    let query := queryGet (urlPairs node output network serviceName)
    let opts := urlOptions network serviceName output node
    (query "remarks").or (query "ps")=none ∧ query "aid"=none ∧
    ((query "type").or (query "net")).getD "tcp".toList=opts.net ∧
    (query "host").getD []=[] ∧
    ((query "path").or (query "serviceName")).getD []=opts.path ∧
    ((query "security").or (query "tls")).getD []=opts.tls ∧
    (query "sni").getD []=opts.sni ∧
    ((query "encryption").or (query "scy")).getD []=node.security ∧
    (query "packetEncoding").or (query "packetencoding")=none := by
  delta urlPairs urlOptions linkOptions
  dsimp only
  cases network with
  | tcp => exact ⟨rfl,rfl,rfl,rfl,rfl,rfl,rfl,rfl,rfl⟩
  | grpc => cases output.sni <;> exact ⟨rfl,rfl,rfl,rfl,rfl,rfl,rfl,rfl,rfl⟩

theorem builtNode_urlOptions {lower : Text → Text}
    (hlower : ∀ text, (∀ c∈text, c.toNat<128) → lower text=text.map Char.toLower)
    (network : RelayNetwork) (serviceName : Text) (output : OutputConfig) (node : VMessNode) :
    builtNode lower (urlOptions network serviceName output node)=
      { relayed network serviceName output node with
        name := percentEncode fragmentSet (removeTabs node.name)
        alterId := 0 } := by
  have heq : builtNode lower (urlOptions network serviceName output node)=
      { builtNode lower (linkOptions network serviceName output node) with
        name := percentEncode fragmentSet (removeTabs node.name)
        alterId := 0 } := by
    cases network with
    | tcp => rfl
    | grpc => rfl
  rw [heq,builtNode_linkOptions hlower]

theorem formQuery_urlPairs (node : VMessNode) (output : OutputConfig) (network : RelayNetwork)
    (serviceName : Text) : formQuery (urlPairs node output network serviceName)=
      some (escapePairs formByte (urlPairs node output network serviceName)) := by
  cases network with
  | tcp => rfl
  | grpc => rfl

/-- The node that a URL link is read as. -/
theorem parse_urlLink {crates : Crates} {parser : ParserCrates} (h : Documented crates parser)
    (hs : crates.url.Serializes) {node : VMessNode} (hu : CanonicalUuid node.uuid)
    {output : OutputConfig} (hn : output.host≠[]) (hh : ∀ c∈output.host, NameChar c)
    (hp : 1 ≤ output.port.toNat) (network : RelayNetwork) (serviceName : Text) :
    ∃ link, buildVmessUrlLink crates node output network serviceName=.ok link ∧
      parseVmessLink parser link=.ok { relayed network serviceName output node with
        name := percentEncode fragmentSet (removeTabs node.name)
        alterId := 0 } := by
  have hport : output.port.toNat≤65535 := by
    have hlt := output.port.toNat_lt
    omega
  refine ⟨_,buildVmessUrlLink_eq h.writer hs hu hn hh network serviceName,?_⟩
  obtain ⟨hsolid,u,hparse,hname,hhost,hnumber,hquery,hfragment⟩ := h.reader.parse_located hu.userinfo
    hn hh output.port.toNat hport formQuery_set nameFragment_set
  have hpairs : parser.url.queryPairs u=urlPairs node output network serviceName := by
    apply h.reader.queryPairs
    rw [hquery,formQuery_urlPairs]
    exact formDecode_escape formByte_escapes _
  have hbuild : buildNode parser.toLowercase (urlOptions network serviceName output node)=
      .ok { relayed network serviceName output node with
        name := percentEncode fragmentSet (removeTabs node.name)
        alterId := 0 } := by
    rw [buildNode_port hp rfl hn hu.nonempty,builtNode_urlOptions h.toLowercase]
  obtain ⟨hps,haid,hnet,hhostPair,hpath,htls,hsni,hscy,hencoding⟩ :=
    urlPairs_get node output network serviceName
  rw [parseVmessLink_solid hsolid hparse,if_neg (by rw [hname]; exact hu.nonempty),parseUrlFormat]
  simp only [hpairs,hname,hhost,hnumber,hfragment,hps,haid,hnet,hhostPair,hpath,htls,hsni,hscy,
    hencoding,portValue_some,nameFragment_getD,Option.getD_some,Option.getD_none,Option.bind_none]
  exact hbuild

/-- The link is read back as the node behind the output, and otherwise like the JSON link of the
same node. -/
def StandardRoundTrip (crates : Crates) (parser : ParserCrates) (node : VMessNode)
    (output : OutputConfig) (network : RelayNetwork) (serviceName : Text) : Prop :=
  ∃ link read json, buildVmessUrlLink crates node output network serviceName=.ok link ∧
    parseVmessLink parser link=.ok read ∧
    parseVmessLink parser (buildVmessJsonLink crates node output network serviceName)=.ok json ∧
    (read.name=node.name ∧ read.uuid=node.uuid ∧ read.alterId=node.alterId ∧
      read.security=node.security) ∧
    (read.server=output.host ∧ read.port=output.port) ∧
    read.network=json.network ∧ read.tls=json.tls ∧ read.sni=json.sni ∧
    read.grpcServiceName=json.grpcServiceName

section
variable {crates : Crates} {parser : ParserCrates} (h : Documented crates parser)
  (hw : crates.url.Serializes) {node : VMessNode} (hu : CanonicalUuid node.uuid)
  {output : OutputConfig} (hh : output.host≠[] ∧ ∀ c∈output.host, NameChar c)
  (hp : 1 ≤ output.port.toNat) {network : RelayNetwork} {serviceName : Text}
include h hw hu hh hp

theorem roundTrip_lossless
    (hround : StandardRoundTrip crates parser node output network serviceName) :
    node.alterId=0 ∧ percentEncode fragmentSet (removeTabs node.name)=node.name := by
  obtain ⟨link,hlink,hread⟩ := parse_urlLink h hw hu hh.1 hh.2 hp network serviceName
  obtain ⟨link',read,json,hlink',hread',-,⟨hname,-,halter,-⟩,-⟩ := hround
  rw [hlink] at hlink'
  cases hlink'
  rw [hread] at hread'
  cases hread'
  exact ⟨halter.symm,hname⟩

theorem lossless_roundTrip (hs : node.security≠[]) (halter : node.alterId=0)
    (hname : percentEncode fragmentSet (removeTabs node.name)=node.name) :
    StandardRoundTrip crates parser node output network serviceName := by
  obtain ⟨link,hlink,hread⟩ := parse_urlLink h hw hu hh.1 hh.2 hp network serviceName
  have hjson := parse_jsonLink h hu.nonempty hh.1 hp network serviceName
  exact ⟨link,_,_,hlink,hread,hjson,⟨hname,rfl,halter.symm,if_neg hs⟩,⟨rfl,rfl⟩,rfl,rfl,rfl,rfl⟩

end

/-- The writer leaves out the alter id, and the reader does not decode the name: a link is read
back exactly when there is nothing to lose. -/
theorem standard_round_trip_iff {crates : Crates} {parser : ParserCrates}
    (h : Documented crates parser) (hw : crates.url.Serializes) {node : VMessNode}
    (hu : CanonicalUuid node.uuid) (hs : node.security≠[]) {output : OutputConfig}
    (hh : output.host≠[] ∧ ∀ c∈output.host, NameChar c) (hp : 1 ≤ output.port.toNat)
    (network : RelayNetwork) (serviceName : Text) :
    StandardRoundTrip crates parser node output network serviceName ↔
      node.alterId=0 ∧ ∀ c∈node.name, fragmentSet c=false := by
  rw [← percentEncode_eq_iff]
  constructor
  · intro hround
    exact roundTrip_lossless h hw hu hh hp hround
  · rintro ⟨halter,hname⟩
    exact lossless_roundTrip h hw hu hh hp hs halter hname

/-- A URL as its text. -/
def textUrl : UrlCrate where
  Url := Text
  parse text := (plainUrl.parse text).map Prod.fst
  appendPair url key value := url++(pairSeparator url++formEncode [(key,value)])
  setFragment url fragment :=
    (cut '#' url).1 ++ '#'::percentEncode fragmentSet (removeTabs fragment)
  toText url := url

theorem textUrl_serializes : textUrl.Serializes where
  parse := by
    intro user host port url _ _ _ _ _ hparse
    obtain ⟨p,hp,hurl⟩ := Option.map_eq_some_iff.mp hparse
    simp only [plainUrl] at hp
    split_ifs at hp
    cases hp
    exact hurl.symm
  appendPair := fun _ _ _ _ => rfl
  setFragment := by
    intro url fragment hno
    have hcut : (cut '#' (textUrl.toText url)).1=textUrl.toText url := by rw [cut_none hno]
    exact congrArg (· ++ '#'::percentEncode fragmentSet (removeTabs fragment)) hcut

def textCrates : Crates := { plainCrates with url := textUrl }

theorem text_documented : Documented textCrates plainParser where
  base64Standard := fun _ => rfl
  base64UrlSafeNoPad := fun _ => rfl
  engines := plainParser_engines
  json := fun members _ => Json.read_object members
  writer := by
    constructor
    intro rest hrest
    have hparse := plainUrl_whatwg.parse rest hrest
    rw [← hparse]
    exact Option.isSome_map
  reader := plainReader_whatwg
  toLowercase := fun _ _ => rfl

theorem standard_round_trip_plain : StandardRoundTrip textCrates plainParser
    (plainNode "550e8400-e29b-41d4-a716-446655440000") frontOutput .grpc "GunService".toList := by
  have hu : CanonicalUuid (plainNode "550e8400-e29b-41d4-a716-446655440000").uuid := by decide
  apply (standard_round_trip_iff text_documented textUrl_serializes hu (by decide)
    ⟨by decide,all_chars (by decide)⟩ (by decide) .grpc "GunService".toList).mpr
  exact ⟨by decide,all_chars (by decide)⟩

/-- A node with a space in its name. -/
def spacedNode : VMessNode :=
  { plainNode "550e8400-e29b-41d4-a716-446655440000" with name := "My Node".toList }

theorem spaced_name_lost : Documented textCrates plainParser ∧ textCrates.url.Serializes ∧
    CanonicalUuid spacedNode.uuid ∧
    ¬StandardRoundTrip textCrates plainParser spacedNode frontOutput .tcp "GunService".toList := by
  have hu : CanonicalUuid spacedNode.uuid := by decide
  refine ⟨text_documented,textUrl_serializes,hu,?_⟩
  intro hround
  have hh : frontOutput.host≠[] ∧ ∀ c∈frontOutput.host, NameChar c :=
    ⟨by decide,all_chars (by decide)⟩
  have hname := (roundTrip_lossless text_documented textUrl_serializes hu hh (by decide) hround).2
  revert hname
  decide

end Tobira.Http
