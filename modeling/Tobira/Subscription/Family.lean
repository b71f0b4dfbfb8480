import Tobira.Framework.Machine
import Tobira.Framework.SocketText
import Tobira.Subscription.Dedup
import Tobira.Subscription.Reader

namespace Tobira.Subscription

open Tobira.Framework Tobira.Framework.Net

/-- The text that `build_validator` parses: `format!("{}:{}", node.server, node.port)`. -/
def addressText (server : Text) (port : UInt16) : Text :=
  server++":".toList++decimal port.toNat

/-- The server is an IPv6 address, bare or in square brackets. -/
def Ipv6Text (server : Text) : Prop :=
  (∃ ip, parseIpv6Addr server=some ip) ∨ ∃ ip scope, Bracketed server ip scope

/-- Deduplication and routing take the server for an address of the same family. -/
structure SameFamily (server : Text) : Prop where
  ipv6 : ∀ port, getAddressType server=.ipv6 ↔
    ∃ ip p scope, parseSocketAddr (addressText server port)=some (.v6 ip p scope)
  ipv4 : ∀ port, getAddressType server=.ipv4 ↔
    ∃ ip p, parseSocketAddr (addressText server port)=some (.v4 ip p)

theorem parseSocketAddr_address {server : Text} {port : UInt16} {addr : SocketAddr} :
    parseSocketAddr (addressText server port)=some addr ↔
      (∃ ip, parseIpv4Addr server=some ip ∧ addr=.v4 ip port.toNat) ∨
      (∃ ip scope, Bracketed server ip scope ∧ addr=.v6 ip port.toNat scope) := by
  have htext : addressText server port=server ++ ':'::decimal port.toNat := by
    rw [addressText,List.append_assoc]
    rfl
  rw [htext]
  exact parseSocketAddr_host port.toNat_lt

theorem parseIpv6Addr_colon {text : Text} {ip : Ipv6Addr} (h : parseIpv6Addr text=some ip) :
    ':'∈text := by
  by_contra hn
  rw [parseIpv6Addr_none hn] at h
  cases h

/-- The three ways to write an address exclude each other. -/
theorem parseIpv4Addr_none_of_ipv6 {text : Text} {ip : Ipv6Addr}
    (h : parseIpv6Addr text=some ip) : parseIpv4Addr text=none := by
  cases h4 : parseIpv4Addr text with
  | none => rfl
  | some ip' =>
    have hc := parseIpv4Addr_chars h4 ':' (parseIpv6Addr_colon h)
    rcases hc with hc|hc
    · exact absurd hc (by decide)
    · cases hc

theorem bracketed_not_bare {text : Text} {ip : Ipv6Addr} {scope : Nat}
    (h : Bracketed text ip scope) : parseIpv4Addr text=none ∧ parseIpv6Addr text=none := by
  obtain ⟨addr,suffix,rfl,-⟩ := h
  have hbracket : ¬Ipv6Char '[' := by
    rintro (h|h|h)
    · revert h
      decide
    · cases h
    · cases h
  constructor
  · cases h4 : parseIpv4Addr ('['::(addr++suffix++[']'])) with
    | none => rfl
    | some ip' => exact absurd (parseIpv4Addr_chars h4 '[' (by simp)).ipv6 hbracket
  · cases h6 : parseIpv6Addr ('['::(addr++suffix++[']'])) with
    | none => rfl
    | some ip' => exact absurd (parseIpv6Addr_chars h6 '[' (by simp)) hbracket

theorem getAddressType_ipv4 (server : Text) :
    getAddressType server=.ipv4 ↔ ∃ ip, parseIpv4Addr server=some ip := by
  rw [← Option.isSome_iff_exists,getAddressType]
  split_ifs with hnil h4 h6
  · rw [hnil]
    decide
  · simp [h4]
  · simp [h4]
  · simp [h4]

theorem getAddressType_ipv6 (server : Text) :
    getAddressType server=.ipv6 ↔ ∃ ip, parseIpv6Addr server=some ip := by
  have hexcl : (parseIpv6Addr server).isSome=true → (parseIpv4Addr server).isSome=false := by
    intro h
    obtain ⟨ip,hip⟩ := Option.isSome_iff_exists.mp h
    rw [parseIpv4Addr_none_of_ipv6 hip]
    rfl
  rw [← Option.isSome_iff_exists,getAddressType]
  split_ifs with hnil h4 h6
  · rw [hnil]
    decide
  · cases h6 : (parseIpv6Addr server).isSome with
    | false => simp
    | true =>
      rw [hexcl h6] at h4
      cases h4
  · simp [h6]
  · simp [h6]

/-- The two agree on a server exactly when it is no IPv6 address in either spelling: a bare one is
ranked as IPv6 and cannot be routed, one in brackets is routed and ranked as a domain. -/
theorem sameFamily_iff (server : Text) : SameFamily server ↔ ¬Ipv6Text server := by
  have hv6 : ∀ port, (∃ ip p scope, parseSocketAddr (addressText server port)=
      some (.v6 ip p scope)) ↔ ∃ ip scope, Bracketed server ip scope := by
    intro port
    simp only [parseSocketAddr_address]
    constructor
    · rintro ⟨ip,p,scope,⟨ip',-,he⟩|⟨ip',scope',hb,-⟩⟩
      · cases he
      · exact ⟨ip',scope',hb⟩
    · rintro ⟨ip,scope,hb⟩
      exact ⟨ip,port.toNat,scope,Or.inr ⟨ip,scope,hb,rfl⟩⟩
  constructor
  · rintro h (hbare|⟨ip,scope,hb⟩)
    · obtain ⟨ip,scope,hb⟩ := (hv6 0).mp ((h.ipv6 0).mp ((getAddressType_ipv6 server).mpr hbare))
      obtain ⟨ip',hip⟩ := hbare
      rw [(bracketed_not_bare hb).2] at hip
      cases hip
    · have ht := (h.ipv6 0).mpr ((hv6 0).mpr ⟨ip,scope,hb⟩)
      obtain ⟨ip',hip⟩ := (getAddressType_ipv6 server).mp ht
      rw [(bracketed_not_bare hb).2] at hip
      cases hip
  · intro h
    constructor
    · intro port
      rw [getAddressType_ipv6,hv6]
      exact iff_of_false (fun hb => h (Or.inl hb)) (fun hb => h (Or.inr hb))
    · intro port
      simp only [getAddressType_ipv4,parseSocketAddr_address]
      constructor
      · rintro ⟨ip,hip⟩
        exact ⟨ip,port.toNat,Or.inl ⟨ip,hip,rfl⟩⟩
      · rintro ⟨ip,p,⟨ip',hip,-⟩|⟨ip',scope,-,he⟩⟩
        · exact ⟨ip',hip⟩
        · cases he

/-- A link in the JSON format with the address `::1`. -/
def bareLink : Text := ("vmess://eyJ2IjoiMiIsInBzIjoiYSIsImFkZCI6Ijo6MSIsInBvcnQiOiI0NDMiLCJpZCI6" ++
  "IjU1MGU4NDAwLWUyOWItNDFkNC1hNzE2LTQ0NjY1NTQ0MDAwMCIsImFpZCI6IjAiLCJuZXQiOiJ0Y3AifQ==").toList

/-- A link in the URL format with the same address. -/
def bracketLink : Text := "vmess://550e8400-e29b-41d4-a716-446655440000@[::1]:443".toList

theorem ipv6_families_differ :
    (∃ node, parseVmessLink plainParser bareLink=.ok node ∧ getAddressType node.server=.ipv6 ∧
      parseSocketAddr (addressText node.server node.port)=none ∧ ¬SameFamily node.server) ∧
    (∃ node, parseVmessLink plainParser bracketLink=.ok node ∧
      getAddressType node.server=.domain ∧
      (parseSocketAddr (addressText node.server node.port)).isSome=true ∧
      ¬SameFamily node.server) := by
  have hread : ∀ {link : Text} {server : Text},
      (parseVmessLink plainParser link).toOption.map (fun node => (node.server,node.port))=
        some (server,443) →
      ∃ node, parseVmessLink plainParser link=.ok node ∧ node.server=server ∧ node.port=443 := by
    intro link server h
    obtain ⟨node,hn,he⟩ := Option.map_eq_some_iff.mp h
    exact ⟨node,ok_of_toOption hn,(Prod.mk.inj he).1,(Prod.mk.inj he).2⟩
  constructor
  · have hlink : (parseVmessLink plainParser bareLink).toOption.map
        (fun node => (node.server,node.port))=some ("::1".toList,443) := by decide +kernel
    obtain ⟨node,hn,hs,hp⟩ := hread hlink
    have ht : getAddressType node.server=.ipv6 := by
      rw [hs]
      decide
    have hsock : parseSocketAddr (addressText node.server node.port)=none := by
      rw [hs,hp]
      decide
    refine ⟨node,hn,ht,hsock,?_⟩
    intro h
    obtain ⟨ip,p,scope,he⟩ := (h.ipv6 node.port).mp ht
    rw [hsock] at he
    cases he
  · have hlink : (parseVmessLink plainParser bracketLink).toOption.map
        (fun node => (node.server,node.port))=some ("[::1]".toList,443) := by decide +kernel
    obtain ⟨node,hn,hs,hp⟩ := hread hlink
    have ht : getAddressType node.server=.domain := by
      rw [hs]
      decide
    have hsock : parseSocketAddr (addressText node.server node.port)=
        some (.v6 ⟨[0,0,0,0,0,0,0,1],rfl⟩ 443 0) := by
      rw [hs,hp]
      decide
    refine ⟨node,hn,ht,by rw [hsock]; rfl,?_⟩
    intro h
    have ht' := (h.ipv6 node.port).mpr ⟨_,_,_,hsock⟩
    rw [ht] at ht'
    cases ht'

end Tobira.Subscription
