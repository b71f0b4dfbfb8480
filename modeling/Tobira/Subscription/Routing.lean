import Mathlib.Data.List.Forall2
import Tobira.Framework.Url
import Tobira.Subscription.Family
import Tobira.Subscription.Manager
import Tobira.Vmess.Identity

namespace Tobira.Subscription

open Tobira.Framework Tobira.Framework.Net Tobira.Framework.Url Tobira.Vmess

def DnsName (text : Text) : Prop := text≠[] ∧ ∀ c∈text, NameChar c

/-- A DNS name, an IPv4 address, or an IPv6 address with or without brackets. -/
def ValidServer (server : Text) : Prop :=
  DnsName server ∨ (∃ ip, parseIpv4Addr server=some ip) ∨ Ipv6Text server

/-- The text that `node_transport` parses as the request URI. -/
def requestUriText (sni : Text) (port : Nat) (serviceName : Text) : Text :=
  "https://".toList++sni++":".toList++decimal port++"/".toList++serviceName++"/Tun".toList

/-- `str::parse::<http::Uri>` takes a DNS name, a port and a path of letters, digits and slashes;
only the length is limited, to 65534 bytes. -/
def HttpUri (uriParse : Text → Except Text Uri) : Prop :=
  ∀ sni port serviceName, DnsName sni → port<65536 → (∀ c∈serviceName, c.isAlphanum=true) →
    ((∃ uri, uriParse (requestUriText sni port serviceName)=.ok uri) ↔
      (requestUriText sni port serviceName).length≤65534)

/-- A node as the three parsers make it, with the fields that are to be expected. -/
structure Usual (crates : ParserCrates) (node : VMessNode) : Prop where
  parsed : ∃ link, parseVmessLink crates link=.ok node
  server : ValidServer node.server
  network : node.network="tcp".toList ∨ node.network="grpc".toList
  sni : DnsName node.sni
  serviceName : ∀ c∈node.grpcServiceName.getD [], c.isAlphanum=true
  uuid : (hexDigits node.uuid).length=32

/-- The socket address is that of the server and the port. -/
def Denotes (addr : SocketAddr) (server : Text) (port : UInt16) : Prop :=
  match addr with
  | .v4 ip p => parseIpv4Addr server=some ip ∧ p=port.toNat
  | .v6 ip p scope =>
    ((parseIpv6Addr server=some ip ∧ scope=0) ∨ Bracketed server ip scope) ∧ p=port.toNat

/-- One entry for each node, in order, that leads to its server. -/
def RoutesAll (c : Crypto) (uriParse : Text → Except Text Uri) (nodes : List VMessNode) : Prop :=
  ∃ v, buildValidator c uriParse nodes=.ok v ∧
    List.Forall₂ (fun node entry => entry.uuid=node.uuid ∧
      Denotes entry.upstream.parsedAddr node.server node.port) nodes v.entries

/-- The server is an IPv4 address, or an IPv6 address in brackets, and the request URI is not too
long. -/
def Addressable (node : VMessNode) : Prop :=
  ((∃ ip, parseIpv4Addr node.server=some ip) ∨ ∃ ip scope, Bracketed node.server ip scope) ∧
  (node.network="grpc".toList →
    (requestUriText node.sni node.port.toNat (node.grpcServiceName.getD [])).length≤65534)

theorem parseSocketAddr_denotes {server : Text} {port : UInt16} {addr : SocketAddr}
    (h : parseSocketAddr (addressText server port)=some addr) :
    Denotes addr server port ∧ addr.port=port.toNat := by
  rcases parseSocketAddr_address.mp h with ⟨ip,hip,rfl⟩|⟨ip,scope,hb,rfl⟩
  · exact ⟨⟨hip,rfl⟩,rfl⟩
  · exact ⟨⟨Or.inr hb,rfl⟩,rfl⟩

theorem addressable_socket {server : Text} (port : UInt16) :
    (∃ addr, parseSocketAddr (addressText server port)=some addr) ↔
      (∃ ip, parseIpv4Addr server=some ip) ∨ ∃ ip scope, Bracketed server ip scope := by
  simp only [parseSocketAddr_address]
  constructor
  · rintro ⟨addr,⟨ip,hip,-⟩|⟨ip,scope,hb,-⟩⟩
    · exact Or.inl ⟨ip,hip⟩
    · exact Or.inr ⟨ip,scope,hb⟩
  · rintro (⟨ip,hip⟩|⟨ip,scope,hb⟩)
    · exact ⟨_,Or.inl ⟨ip,hip,rfl⟩⟩
    · exact ⟨_,Or.inr ⟨ip,scope,hb,rfl⟩⟩

section
variable {uriParse : Text → Except Text Uri} {node : VMessNode}

theorem nodeTransport_grpc (port : Nat) (h : node.network="grpc".toList) :
    (∃ transport, nodeTransport uriParse node port=.ok transport) ↔
      ∃ uri, uriParse (requestUriText node.sni port (node.grpcServiceName.getD []))=.ok uri := by
  have htext : "https://".toList++node.sni++":".toList++decimal port++"/".toList++
      node.grpcServiceName.getD []++"/Tun".toList=
      requestUriText node.sni port (node.grpcServiceName.getD []) := rfl
  simp only [nodeTransport,if_pos h,htext]
  cases uriParse (requestUriText node.sni port (node.grpcServiceName.getD [])) <;> simp

/-- One round of the loop: the address is parsed, then the transport is built for its port. -/
theorem nodePair_iff {pair : Text×Upstream} : nodePair uriParse node=.ok pair ↔
    ∃ addr transport, parseSocketAddr (addressText node.server node.port)=some addr ∧
      nodeTransport uriParse node node.port.toNat=.ok transport ∧
      pair=(node.uuid,⟨addressText node.server node.port,addr,transport,false⟩) := by
  have haddr : node.server++":".toList++decimal node.port.toNat=
      addressText node.server node.port := rfl
  simp only [nodePair,haddr]
  cases ha : parseSocketAddr (addressText node.server node.port) with
  | none => simp
  | some addr =>
    simp only [(parseSocketAddr_denotes ha).2]
    cases ht : nodeTransport uriParse node node.port.toNat with
    | error e => simp
    | ok transport => simp [eq_comm]

theorem nodePair_spec {pair : Text×Upstream} (h : nodePair uriParse node=.ok pair) :
    pair.1=node.uuid ∧ Denotes pair.2.parsedAddr node.server node.port := by
  obtain ⟨addr,transport,ha,-,rfl⟩ := nodePair_iff.mp h
  exact ⟨rfl,(parseSocketAddr_denotes ha).1⟩

theorem nodePair_ok_iff (hu : HttpUri uriParse) {crates : ParserCrates} (hn : Usual crates node) :
    (∃ pair, nodePair uriParse node=.ok pair) ↔ Addressable node := by
  have htransport : (∃ transport, nodeTransport uriParse node node.port.toNat=.ok transport) ↔
      (node.network="grpc".toList →
        (requestUriText node.sni node.port.toNat (node.grpcServiceName.getD [])).length≤65534) := by
    rcases hn.network with ht|hg
    · have hne : node.network≠"grpc".toList := by
        rw [ht]
        decide
      rw [nodeTransport,if_neg hne]
      exact iff_of_true ⟨_,rfl⟩ (fun h => absurd h hne)
    · rw [nodeTransport_grpc _ hg,hu _ _ _ hn.sni node.port.toNat_lt hn.serviceName]
      exact ⟨fun hl _ => hl,fun hl => hl hg⟩
  rw [Addressable,← addressable_socket node.port,← htransport]
  simp only [nodePair_iff]
  constructor
  · rintro ⟨pair,addr,transport,ha,ht,-⟩
    exact ⟨⟨addr,ha⟩,transport,ht⟩
  · rintro ⟨⟨addr,ha⟩,transport,ht⟩
    exact ⟨_,addr,transport,ha,ht,rfl⟩

end

/-- Every node is routed exactly when each has a server that is an address the socket parser
takes: one that has not takes the table of all others with it. -/
theorem routesAll_iff (c : Crypto) (uriParse : Text → Except Text Uri) (hu : HttpUri uriParse)
    (crates : ParserCrates) (nodes : List VMessNode) (hn : ∀ node∈nodes, Usual crates node)
    (hd : (nodes.map VMessNode.uuid).Nodup) :
    RoutesAll c uriParse nodes ↔ ∀ node∈nodes, Addressable node := by
  constructor
  · rintro ⟨v,hv,-⟩ node hm
    obtain ⟨pairs,hp,-⟩ := bind_ok hv
    obtain ⟨pair,-,hpair⟩ := mapM_ok_mem hp hm
    exact (nodePair_ok_iff hu (hn node hm)).mp ⟨pair,hpair⟩
  · intro h
    obtain ⟨pairs,hp⟩ := (mapM_ok_iff (nodePair uriParse) nodes).mpr
      (fun node hm => (nodePair_ok_iff hu (hn node hm)).mpr (h node hm))
    have huuids : pairs.map Prod.fst=nodes.map VMessNode.uuid :=
      mapM_ok_map (fun _ _ hpair => (nodePair_spec hpair).1) hp
    have hnew : ∃ v, Validator.new c pairs=.ok v := by
      rw [new_ok_iff,huuids]
      refine ⟨?_,hd⟩
      intro p hm
      have hu : p.1∈nodes.map VMessNode.uuid := by
        rw [← huuids]
        exact List.mem_map_of_mem hm
      obtain ⟨node,hm,he⟩ := List.mem_map.mp hu
      rw [← he]
      exact (hn node hm).uuid
    obtain ⟨v,hv⟩ := hnew
    refine ⟨v,?_,?_⟩
    · rw [buildValidator,hp]
      simp only [bind,Except.bind,hv]
      rfl
    · have hentries := (new_spec hv).1
      have hall := mapM_ok_forall₂ hp
      rw [← hentries,List.forall₂_map_right_iff] at hall
      exact hall.imp (fun _ _ hpair => nodePair_spec hpair)

/-- The parts of a request URI that is not too long. -/
def plainUri (text : Text) : Except Text Uri :=
  if text.length ≤ 65534 then
    .ok ⟨"https".toList,(text.drop 8).takeWhile (· ≠ '/'),(text.drop 8).dropWhile (· ≠ '/'),none⟩
  else .error "uri too long".toList

theorem plainUri_http : HttpUri plainUri := by
  intro sni port serviceName _ _ _
  rw [plainUri]
  split_ifs with h
  · exact iff_of_true ⟨_,rfl⟩ h
  · exact iff_of_false (fun ⟨_,he⟩ => nomatch he) h

/-- The node of a link in the URL format, by its server. -/
def urlNode (server : String) : VMessNode where
  name := "local-node".toList
  source := []
  server := server.toList
  port := 443
  uuid := "550e8400-e29b-41d4-a716-446655440000".toList
  alterId := 0
  security := "auto".toList
  network := "grpc".toList
  tls := true
  sni := "example.com".toList
  grpcServiceName := some "GunService".toList
  wsPath := none
  wsHost := none
  packetEncoding := .default

theorem urlNode_usual {server : String} {link : Text}
    (hp : (parseVmessLink plainParser link).toOption=some (urlNode server))
    (hs : ValidServer server.toList) : Usual plainParser (urlNode server) := by
  have hsni : ∀ c∈"example.com".toList, NameChar c := all_chars (by decide)
  have hservice : ∀ c∈"GunService".toList, c.isAlphanum=true := all_chars (by decide)
  have huuid : (hexDigits "550e8400-e29b-41d4-a716-446655440000".toList).length=32 := by decide
  exact ⟨⟨link,ok_of_toOption hp⟩,hs,Or.inr rfl,⟨List.cons_ne_nil _ _,hsni⟩,hservice,huuid⟩

/-- A node over plain TCP whose server is an IPv6 address. -/
def ipv6Node : VMessNode where
  name := "v6-node".toList
  source := []
  server := "[2001:db8::1]".toList
  port := 8443
  uuid := "6ba7b810-9dad-11d1-80b4-00c04fd430c8".toList
  alterId := 0
  security := "auto".toList
  network := "tcp".toList
  tls := false
  sni := "example.com".toList
  grpcServiceName := none
  wsPath := none
  wsHost := none
  packetEncoding := .default

theorem ipv6Node_bracketed : ∃ ip scope, Bracketed ipv6Node.server ip scope :=
  ⟨⟨[0x2001,0xdb8,0,0,0,0,0,1],rfl⟩,0,"2001:db8::1".toList,[],rfl,by decide,Or.inl ⟨rfl,rfl⟩⟩

theorem ipv6Node_usual : Usual plainParser ipv6Node := by
  have hparse : (parseVmessLink plainParser ("vmess://6ba7b810-9dad-11d1-80b4-00c04fd430c8" ++
      "@[2001:db8::1]:8443?sni=example.com#v6-node").toList).toOption=some ipv6Node := by
    decide +kernel
  have hsni : ∀ c∈"example.com".toList, NameChar c := all_chars (by decide)
  have huuid : (hexDigits "6ba7b810-9dad-11d1-80b4-00c04fd430c8".toList).length=32 := by decide
  exact ⟨⟨_,ok_of_toOption hparse⟩,Or.inr (Or.inr (Or.inr ipv6Node_bracketed)),Or.inl rfl,
    ⟨List.cons_ne_nil _ _,hsni⟩,fun _ hc => absurd hc List.not_mem_nil,huuid⟩

/-- A node with an IPv4 address and one with an IPv6 address. -/
theorem ipv4_node_routed : ∃ node, Usual plainParser node ∧ Usual plainParser ipv6Node ∧
    RoutesAll tailCrypto plainUri [node,ipv6Node] := by
  have hparse : (parseVmessLink plainParser ("vmess://550e8400-e29b-41d4-a716-446655440000" ++
      "@192.0.2.1:443?type=grpc&security=tls&serviceName=GunService&sni=example.com" ++
      "#local-node").toList).toOption=some (urlNode "192.0.2.1") := by decide +kernel
  have hip : ∃ ip, parseIpv4Addr (urlNode "192.0.2.1").server=some ip := ⟨_,rfl⟩
  have husual := urlNode_usual hparse (Or.inr (Or.inl hip))
  refine ⟨urlNode "192.0.2.1",husual,ipv6Node_usual,?_⟩
  apply (routesAll_iff tailCrypto plainUri plainUri_http plainParser [urlNode "192.0.2.1",ipv6Node]
    ?_ (by decide)).mpr
  · intro node hm
    rcases List.mem_cons.mp hm with rfl|hm
    · exact ⟨Or.inl hip,fun _ => by decide⟩
    · rw [List.mem_singleton.mp hm]
      exact ⟨Or.inr ipv6Node_bracketed,fun _ => by decide⟩
  · intro node hm
    rcases List.mem_cons.mp hm with rfl|hm
    · exact husual
    · rw [List.mem_singleton.mp hm]
      exact ipv6Node_usual

/-- The link of the test `reload_loads_local_file_source`, whose server is a DNS name. -/
theorem domain_node_fails : ∃ node, Usual plainParser node ∧
    ∀ c uriParse others, ¬RoutesAll c uriParse (node::others) := by
  have hparse : (parseVmessLink plainParser ("vmess://550e8400-e29b-41d4-a716-446655440000" ++
      "@example.com:443?type=grpc&security=tls&serviceName=GunService#local-node").toList).toOption=
      some (urlNode "example.com") := by decide +kernel
  have hname : DnsName "example.com".toList := ⟨List.cons_ne_nil _ _,all_chars (by decide)⟩
  refine ⟨urlNode "example.com",urlNode_usual hparse (Or.inl hname),?_⟩
  rintro c uriParse others ⟨v,hv,-⟩
  obtain ⟨pairs,hp,-⟩ := bind_ok hv
  obtain ⟨pair,-,hpair⟩ := mapM_ok_mem hp (List.mem_cons_self ..)
  obtain ⟨addr,transport,ha,-⟩ := nodePair_iff.mp hpair
  have hnone : parseSocketAddr (addressText (urlNode "example.com").server
      (urlNode "example.com").port)=none := by decide
  rw [hnone] at ha
  cases ha

end Tobira.Subscription
