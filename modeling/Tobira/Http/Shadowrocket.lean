import Tobira.Framework.Form
import Tobira.Http.Chain

namespace Tobira.Http

open Tobira.Framework Tobira.Framework.Net Tobira.Framework.Url Tobira.Subscription

/-- How one byte of a component is written. -/
def componentByte (byte : UInt8) : Text :=
  if isUnreserved byte then [Char.ofUInt8 byte]
  else ['%',hexUpper (byte>>>4).toNat,hexUpper (byte &&& 0x0F).toNat]

theorem percentEncodeQueryComponent_eq (value : Text) :
    percentEncodeQueryComponent value=escapeComponent componentByte value := rfl

theorem componentByte_escapes : Escapes componentByte := escapes_of_bytes (by decide +kernel)

theorem pushQueryPair_eq (pairs : List (Text×Text)) (key value : Text) :
    pushQueryPair (escapePairs componentByte pairs) key value=
      escapePairs componentByte (pairs++[(key,value)]) := by
  rw [escapePairs_concat,pushQueryPair]
  simp only [escapePairs_eq_nil,percentEncodeQueryComponent_eq]
  split_ifs
  · simp [escapePair]
  · simp [escapePair]

/-- Pushing the pairs one after the other writes the query as a whole. -/
theorem pushQueryPairs_eq (done pairs : List (Text×Text)) :
    pairs.foldl (fun query p => pushQueryPair query p.1 p.2) (escapePairs componentByte done)=
      escapePairs componentByte (done++pairs) := by
  induction pairs generalizing done with
  | nil => rw [List.append_nil,List.foldl_nil]
  | cons p pairs ih =>
    rw [List.foldl_cons,pushQueryPair_eq,ih,List.append_assoc]
    rfl

/-- The characters of a query: data that is not escaped, and what separates and escapes. -/
def QueryText (c : Char) : Prop := c.isAlphanum=true ∨ c∈"._~%=&-".toList

instance (c : Char) : Decidable (QueryText c) := inferInstanceAs (Decidable (_ ∨ _))

theorem componentByte_text (b : UInt8) : ∀ c∈componentByte b, QueryText c := by
  have hall : ∀ n<256, (componentByte (UInt8.ofNat n)).all (fun c => decide (QueryText c))=true := by
    decide +kernel
  have hb := hall b.toNat b.toNat_lt
  rw [UInt8.ofNat_toNat,List.all_eq_true] at hb
  exact fun c hc => of_decide_eq_true (hb c hc)

theorem escapePairs_text (pairs : List (Text×Text)) :
    ∀ c∈escapePairs componentByte pairs, QueryText c := by
  have hcomponent : ∀ text : Text, ∀ c∈escapeComponent componentByte text, QueryText c := by
    intro text c hc
    obtain ⟨b,-,hb⟩ := List.mem_flatMap.mp hc
    exact componentByte_text b c hb
  have hpair : ∀ p : Text×Text, ∀ c∈escapePair componentByte p, QueryText c := by
    intro p c hc
    rcases List.mem_append.mp hc with hc|hc
    · exact hcomponent p.1 c hc
    · rcases List.mem_cons.mp hc with rfl|hc
      · decide
      · exact hcomponent p.2 c hc
  induction pairs using List.reverseRecOn with
  | nil => exact fun c hc => nomatch hc
  | append_singleton pairs p ih =>
    intro c hc
    rw [escapePairs_concat] at hc
    split_ifs at hc with hn
    · exact hpair p c hc
    · rcases List.mem_append.mp hc with hc|hc
      · exact ih c hc
      · rcases List.mem_cons.mp hc with rfl|hc
        · decide
        · exact hpair p c hc

/-- Whatever the pairs are, the query that is built of them is read back as these pairs. -/
theorem query_recovered (pairs : List (Text×Text)) :
    (∀ c∈pairs.foldl (fun query p => pushQueryPair query p.1 p.2) [], QueryText c) ∧
    formDecode (pairs.foldl (fun query p => pushQueryPair query p.1 p.2) [])=some pairs := by
  have hquery := pushQueryPairs_eq [] pairs
  have hnil : escapePairs componentByte []=[] := rfl
  rw [hnil,List.nil_append] at hquery
  rw [hquery]
  exact ⟨escapePairs_text pairs,formDecode_escape componentByte_escapes pairs⟩

theorem formatUrlHost_name {host : Text} (h : ∀ c∈host, NameChar c) : formatUrlHost host=host := by
  have hne {d : Char} (hd : ¬NameChar d) : d∉host := fun hm => hd (h d hm)
  have hstrip : stripBrackets host=none := by
    rw [stripBrackets,readGivenChar_none (hne (by decide))]
    rfl
  rw [formatUrlHost,hstrip]
  simp only [Option.getD_none,parseIpv6Addr_none (hne (by decide)),Option.isSome_none,
    Bool.false_eq_true,if_false]

def shadowrocketPayload (node : VMessNode) (output : OutputConfig) : Text :=
  node.security ++ ':'::located node.uuid output.host output.port.toNat

theorem buildShadowrocketLink_eq {crates : Crates} {parser : ParserCrates}
    (h : Documented crates parser) (node : VMessNode) {output : OutputConfig}
    (hh : ∀ c∈output.host, NameChar c) (network : RelayNetwork) (serviceName : Text) :
    buildShadowrocketLink crates node output network serviceName=
      "vmess://".toList++assemble (Base64.encode true false (utf8 (shadowrocketPayload node output)))
        (some (escapePairs componentByte (shadowrocketPairs node output network serviceName)))
        none := by
  have hquery := pushQueryPairs_eq [] (shadowrocketPairs node output network serviceName)
  have hnil : escapePairs componentByte []=[] := rfl
  rw [hnil,List.nil_append] at hquery
  -- The equation of this definition takes too long to generate.
  delta buildShadowrocketLink
  simp only [formatUrlHost_name hh,hquery,h.base64UrlSafeNoPad,assemble,Option.elim_some,
    Option.elim_none,List.append_nil,List.append_assoc]
  rfl

/-- An encoded text without `/` is a host to the URL parser, and what follows is a query. -/
theorem parse_urlSafe {reader : UrlReader} (hr : reader.Whatwg) (bytes : List UInt8)
    {query : Text} (hq : ∀ c∈query, querySet c=false) :
    Solid (assemble (Base64.encode true false bytes) (some query) none) ∧
    ∃ u, reader.parse ("vmess://".toList++
        assemble (Base64.encode true false bytes) (some query) none)=.ok u ∧
      reader.username u=[] ∧ reader.query u=some query ∧ reader.fragment u=none := by
  have hchars : ∀ c∈Base64.encode true false bytes,
      endsAuthority c=false ∧ forbiddenHostChar c=false :=
    Base64.encode_forall (by decide +kernel)
  have hplain : Plain (Base64.encode true false bytes) (some query) none := by
    refine ⟨fun c hc => ⟨(base64_chars c hc).2.1.1,(hchars c hc).1⟩,?_,no_part fragmentSet⟩
    intro q hm
    cases hm
    exact hq
  have hsolid : Solid (assemble (Base64.encode true false bytes) (some query) none) := by
    apply solid_append (solid_base64 true false bytes)
    apply solid_append (solid_cons (by decide) (solid_querySet hq))
    exact fun c hc => nomatch hc
  have hs := hsolid.untrimmed
  have hauth : ∀ c∈authority (removeTabs
      (assemble (Base64.encode true false bytes) (some query) none)), forbiddenHostChar c=false := by
    rw [authority_assemble hplain]
    exact fun c hc => (hchars c hc).2
  obtain ⟨u,hu⟩ := (hr.accepts _ hs).mpr (validAuthority_hostOnly hauth)
  refine ⟨hsolid,u,hu,?_,?_,?_⟩
  · rw [hr.username _ u hs hu,usernamePart_hostOnly hauth]
  · rw [hr.query _ u hs hu,queryPart_assemble hplain]
  · rw [hr.fragment _ u hs hu,fragmentPart_assemble hplain]

/-- The characters of the name of an encryption. -/
def SecurityChar (c : Char) : Prop := c.isLower=true ∨ c.isDigit=true ∨ c = '-'

instance (c : Char) : Decidable (SecurityChar c) := inferInstanceAs (Decidable (_ ∨ _ ∨ _))

theorem splitOnce_payload {node : VMessNode} (hs : ∀ c∈node.security, SecurityChar c)
    (output : OutputConfig) : splitOnce ':' (shadowrocketPayload node output)=
      some (node.security,located node.uuid output.host output.port.toNat) := by
  apply splitOnce_append
  intro hm
  exact absurd (hs _ hm) (by decide)

theorem parseShadowrocketUdp_shadowrocketUdp (encoding : PacketEncoding) :
    parseShadowrocketUdp (some (shadowrocketUdp encoding))=encoding := by
  cases encoding <;> decide

/-- The options that the parser finds in a link, the payload and the query together. -/
def shadowrocketOptions (network : RelayNetwork) (serviceName : Text) (output : OutputConfig)
    (node : VMessNode) : V2rayNJson :=
  { linkOptions network serviceName output node with
    v := 0
    type := []
    tls := match network with
      | .tcp => "0".toList
      | .grpc => "1".toList }

/-- What the pairs of a link say under the names that the parser looks for. -/
theorem shadowrocketPairs_get (node : VMessNode) (output : OutputConfig) (network : RelayNetwork)
    (serviceName : Text) :
    let query := queryGet (shadowrocketPairs node output network serviceName)
    let opts := shadowrocketOptions network serviceName output node
    ((query "remarks").or (query "ps")).getD []=opts.ps ∧
    (query "alterId").or (query "aid")=some (decimal node.alterId.toNat) ∧
    ((query "obfs").or (query "type")).getD "tcp".toList=opts.net ∧
    ((query "path").or (query "serviceName")).getD []=opts.path ∧
    ((query "tls").or (query "security")).getD []=opts.tls ∧
    (((query "peer").or (query "obfsParam")).or (query "sni")).getD []=opts.sni ∧
    query "udp"=some (shadowrocketUdp node.packetEncoding) := by
  delta shadowrocketPairs shadowrocketOptions linkOptions
  dsimp only
  cases node.name with
  | nil =>
    cases network with
    | tcp => exact ⟨rfl,rfl,rfl,rfl,rfl,rfl,rfl⟩
    | grpc => cases output.sni <;> exact ⟨rfl,rfl,rfl,rfl,rfl,rfl,rfl⟩
  | cons c name =>
    cases network with
    | tcp => exact ⟨rfl,rfl,rfl,rfl,rfl,rfl,rfl⟩
    | grpc => cases output.sni <;> exact ⟨rfl,rfl,rfl,rfl,rfl,rfl,rfl⟩

theorem builtNode_shadowrocketOptions {lower : Text → Text}
    (hlower : ∀ text, (∀ c∈text, c.toNat<128) → lower text=text.map Char.toLower)
    (network : RelayNetwork) (serviceName : Text) (output : OutputConfig) (node : VMessNode) :
    builtNode lower (shadowrocketOptions network serviceName output node)=
      relayed network serviceName output node := by
  have heq : builtNode lower (shadowrocketOptions network serviceName output node)=
      builtNode lower (linkOptions network serviceName output node) := by
    cases network with
    | tcp => rfl
    | grpc => rfl
  rw [heq,builtNode_linkOptions hlower]

theorem parse_shadowrocketLink {crates : Crates} {parser : ParserCrates}
    (h : Documented crates parser) {node : VMessNode} (hu : CanonicalUuid node.uuid)
    (hs : ∀ c∈node.security, SecurityChar c) {output : OutputConfig} (hn : output.host≠[])
    (hh : ∀ c∈output.host, NameChar c) (hp : 1 ≤ output.port.toNat) (network : RelayNetwork)
    (serviceName : Text) :
    parseVmessLink parser (buildShadowrocketLink crates node output network serviceName)=
      .ok { relayed network serviceName output node with
        packetEncoding := node.packetEncoding } := by
  have hport := output.port.toNat_lt
  have hquery := escapePairs_query componentByte_escapes
    (shadowrocketPairs node output network serviceName)
  obtain ⟨hsolid,u,hparse,hname,hq,hfragment⟩ := parse_urlSafe h.reader
    (utf8 (shadowrocketPayload node output)) hquery
  have hpairs : parser.url.queryPairs u=shadowrocketPairs node output network serviceName := by
    apply h.reader.queryPairs
    rw [hq]
    exact formDecode_escape componentByte_escapes _
  obtain ⟨-,u',hparse',hname',hhost',hport',-,-⟩ := h.reader.parse_located hu.userinfo hn hh
    output.port.toNat (by omega) (no_part querySet) (no_part fragmentSet)
  rw [assemble_none] at hparse'
  have hencoded : splitOnce '?' (afterScheme ("vmess://".toList++assemble
      (Base64.encode true false (utf8 (shadowrocketPayload node output)))
      (some (escapePairs componentByte (shadowrocketPairs node output network serviceName))) none))=
      some (Base64.encode true false (utf8 (shadowrocketPayload node output)),
        escapePairs componentByte (shadowrocketPairs node output network serviceName)++[]) := by
    apply splitOnce_append
    exact fun hm => (base64_chars _ hm).2.1.2.1 rfl
  obtain ⟨hps,haid,hnet,hpath,htls,hsni,hudp⟩ :=
    shadowrocketPairs_get node output network serviceName
  have halter : ((some (decimal node.alterId.toNat)).bind parseI64).getD 0=
      (node.alterId.toNat : Int) := by
    have hlt := node.alterId.toNat_lt
    rw [Option.bind_some,parseI64_decimal (by omega)]
    rfl
  have hbuild : buildNode parser.toLowercase (shadowrocketOptions network serviceName output node)=
      .ok (relayed network serviceName output node) := by
    rw [buildNode_port hp rfl hn hu.nonempty,builtNode_shadowrocketOptions h.toLowercase]
  rw [buildShadowrocketLink_eq h node hh,parseVmessLink_solid hsolid hparse,if_pos hname,hq,
    parseShadowrocketFormat]
  simp only [Option.isSome_some,if_true,hencoded,Option.map_some,Option.getD_some,
    tryBase64Decode_encode h.engines,splitOnce_payload hs,hparse',hpairs,hfragment,Option.getD_none,hname',
    hhost',hport',hps,haid,hnet,hpath,htls,hsni,hudp,halter,portValue_some,
    parseShadowrocketUdp_shadowrocketUdp]
  exact congrArg (Except.map (fun built : VMessNode =>
    { built with packetEncoding := node.packetEncoding })) hbuild

/-- Shadowrocket links are read back: the node, the address of the output and the transport of
the relay. -/
theorem shadowrocket_round_trip {crates : Crates} {parser : ParserCrates}
    (h : Documented crates parser) {node : VMessNode} (hu : CanonicalUuid node.uuid)
    (hs : node.security≠[] ∧ ∀ c∈node.security, SecurityChar c) {output : OutputConfig}
    (hh : output.host≠[] ∧ ∀ c∈output.host, NameChar c) (hp : 1 ≤ output.port.toNat)
    (network : RelayNetwork) (serviceName : Text) :
    ∃ read, parseVmessLink parser (buildShadowrocketLink crates node output network serviceName)=
        .ok read ∧
      read.name=node.name ∧ read.uuid=node.uuid ∧ read.alterId=node.alterId ∧
      read.security=node.security ∧ read.packetEncoding=node.packetEncoding ∧
      read.server=output.host ∧ read.port=output.port ∧
      match network with
      | .tcp => read.network="tcp".toList ∧ read.tls=false ∧ read.sni=output.host ∧
          read.grpcServiceName=none
      | .grpc => read.network="grpc".toList ∧ read.tls=true ∧
          (∀ sni, output.sni=some sni → sni≠[] → read.sni=sni) ∧
          (output.sni=none ∨ output.sni=some [] → read.sni=output.host) ∧
          read.grpcServiceName=some serviceName := by
  refine ⟨_,parse_shadowrocketLink h hu hs.2 hh.1 hh.2 hp network serviceName,rfl,rfl,rfl,
    if_neg hs.1,rfl,rfl,rfl,?_⟩
  cases network with
  | tcp => exact ⟨rfl,rfl,rfl,rfl⟩
  | grpc =>
    refine ⟨rfl,rfl,?_,?_,rfl⟩
    · intro sni hsni hne
      simp [relayed,hsni,hne]
    · rintro (hsni|hsni)
      · simp [relayed,hsni]
      · simp [relayed,hsni]

/-- A relay over gRPC that is reached under another name. -/
def frontOutput : OutputConfig where
  name := "main".toList
  host := "relay.example.com".toList
  port := 443
  sni := some "front.example.com".toList
  skipCertVerify := false
  process := []

theorem shadowrocket_round_trip_front : ∃ read,
    parseVmessLink plainParser (buildShadowrocketLink plainCrates
        (plainNode "550e8400-e29b-41d4-a716-446655440000") frontOutput .grpc "GunService".toList)=
      .ok read ∧
    read.name="node".toList ∧ read.sni="front.example.com".toList ∧
    read.grpcServiceName=some "GunService".toList := by
  have hu : CanonicalUuid (plainNode "550e8400-e29b-41d4-a716-446655440000").uuid := by decide
  have hs : ∀ c∈(plainNode "550e8400-e29b-41d4-a716-446655440000").security, SecurityChar c :=
    all_chars (by decide)
  have hh : ∀ c∈frontOutput.host, NameChar c := all_chars (by decide)
  obtain ⟨read,hread,hname,-,-,-,-,-,-,-,-,hsni,-,hservice⟩ := shadowrocket_round_trip
    plain_documented hu ⟨by decide,hs⟩ ⟨by decide,hh⟩ (by decide) .grpc "GunService".toList
  exact ⟨read,hread,hname,hsni _ rfl (by decide),hservice⟩

/-- A relay without TLS has no use for a server name, and its links carry none. -/
theorem tcp_link_without_sni : Documented plainCrates plainParser ∧
    ∃ read, parseVmessLink plainParser (buildShadowrocketLink plainCrates
        (plainNode "550e8400-e29b-41d4-a716-446655440000") frontOutput .tcp "GunService".toList)=
      .ok read ∧ frontOutput.sni=some "front.example.com".toList ∧
      read.sni≠"front.example.com".toList := by
  have hu : CanonicalUuid (plainNode "550e8400-e29b-41d4-a716-446655440000").uuid := by decide
  refine ⟨plain_documented,_,parse_shadowrocketLink plain_documented hu (all_chars (by decide)) (by decide)
    (all_chars (by decide)) (by decide) .tcp "GunService".toList,rfl,?_⟩
  decide

end Tobira.Http
