import Tobira.Framework.Machine
import Tobira.Framework.Url
import Tobira.Subscription.Process

namespace Tobira.Http

open Tobira.Framework Tobira.Framework.Net Tobira.Framework.Url Tobira.Subscription

/-- What the `url` crate provides: `Url::parse`, `query_pairs_mut().append_pair`,
`set_fragment` and `to_string`. -/
structure UrlCrate where
  Url : Type
  parse : Text → Option Url
  appendPair : Url → Text → Text → Url
  setFragment : Url → Text → Url
  toText : Url → Text

/-- The crates the link builders call; `jsonObject` is `serde_json` on an object of strings
in the order they were put in. The server reads the credentials with `base64StandardDecode`. -/
structure Crates where
  url : UrlCrate
  regex : RegexCrate
  base64Standard : List UInt8 → Text
  base64StandardDecode : Text → Option (List UInt8)
  base64UrlSafeNoPad : List UInt8 → Text
  jsonObject : List (Text×Text) → Text

def formatUrlHost (host : Text) : Text :=
  let trimmed := (stripBrackets host).getD host
  if (parseIpv6Addr trimmed).isSome then "[".toList++trimmed++"]".toList else host

def buildVmessJsonLink (crates : Crates) (node : VMessNode) (output : OutputConfig)
    (network : RelayNetwork) (serviceName : Text) : Text :=
  let isGrpc := network=.grpc
  let json : List (Text×Text) :=
    [("v".toList,"2".toList),
      ("ps".toList,node.name),
      ("add".toList,output.host),
      ("port".toList,decimal output.port.toNat),
      ("id".toList,node.uuid),
      ("aid".toList,decimal node.alterId.toNat),
      ("net".toList,if isGrpc then "grpc".toList else "tcp".toList),
      ("type".toList,"none".toList),
      ("host".toList,[]),
      ("path".toList,if isGrpc then serviceName else []),
      ("tls".toList,if isGrpc then "tls".toList else []),
      ("sni".toList,if isGrpc then output.sni.getD [] else []),
      ("scy".toList,node.security)]
  let json :=
    if isGrpc ∧ output.skipCertVerify=true then json++[("insecure".toList,"1".toList)] else json
  "vmess://".toList++crates.base64Standard (utf8 (crates.jsonObject json))

/-- The string handed to `Url::parse`. -/
def vmessBase (node : VMessNode) (output : OutputConfig) : Text :=
  "vmess://".toList++(node.uuid ++ '@'::(formatUrlHost output.host ++ ':'::decimal output.port.toNat))

def urlPairs (node : VMessNode) (output : OutputConfig) (network : RelayNetwork)
    (serviceName : Text) : List (Text×Text) :=
  match network with
  | .grpc =>
    [("type".toList,"grpc".toList),("serviceName".toList,serviceName),
      ("security".toList,"tls".toList)]++
      (output.sni.map (fun sni => ("sni".toList,sni))).toList++[("encryption".toList,node.security)]
  | .tcp =>
    [("type".toList,"tcp".toList),("security".toList,"none".toList),
      ("encryption".toList,node.security)]

def buildVmessUrlLink (crates : Crates) (node : VMessNode) (output : OutputConfig)
    (network : RelayNetwork) (serviceName : Text) : Except Panic Text :=
  match crates.url.parse (vmessBase node output) with
  | none => .error (.expect "vmess URL is always valid")
  | some url =>
    let url := (urlPairs node output network serviceName).foldl
      (fun url p => crates.url.appendPair url p.1 p.2) url
    let url := if node.name=[] then url else crates.url.setFragment url node.name
    .ok (crates.url.toText url)

def hexUpper (n : Nat) : Char := "0123456789ABCDEF".toList.getD n '0'

def isUnreserved (byte : UInt8) : Bool :=
  (Char.ofUInt8 byte).isAlphanum || "-._~".toList.contains (Char.ofUInt8 byte)

def percentEncodeQueryComponent (value : Text) : Text :=
  (utf8 value).flatMap (fun byte =>
    if isUnreserved byte then [Char.ofUInt8 byte]
    else ['%',hexUpper (byte>>>4).toNat,hexUpper (byte &&& 0x0F).toNat])

def pushQueryPair (query : Text) (key value : Text) : Text :=
  (if query=[] then [] else query++"&".toList)++percentEncodeQueryComponent key++"=".toList++
    percentEncodeQueryComponent value

def shadowrocketUdp : PacketEncoding → Text
  | .default => "1".toList
  | .packetAddr => "2".toList
  | .xudp => "3".toList

def shadowrocketPairs (node : VMessNode) (output : OutputConfig) (network : RelayNetwork)
    (serviceName : Text) : List (Text×Text) :=
  let isGrpc := network=.grpc
  (if isGrpc then [("path".toList,serviceName)] else [])++
  (if node.name=[] then [] else [("remarks".toList,node.name)])++
  (if isGrpc then
    [("obfs".toList,"grpc".toList),("tls".toList,"1".toList)]++
      (match output.sni with
        | some sni => [("obfsParam".toList,sni),("peer".toList,sni)]
        | none => [])
  else [("obfs".toList,"tcp".toList),("tls".toList,"0".toList)])++
  [("udp".toList,shadowrocketUdp node.packetEncoding),
    ("alterId".toList,decimal node.alterId.toNat)]

def buildShadowrocketLink (crates : Crates) (node : VMessNode) (output : OutputConfig)
    (network : RelayNetwork) (serviceName : Text) : Text :=
  let host := formatUrlHost output.host
  let payload := node.security++":".toList++node.uuid++"@".toList++host++":".toList++
    decimal output.port.toNat
  let query := (shadowrocketPairs node output network serviceName).foldl
    (fun query p => pushQueryPair query p.1 p.2) []
  "vmess://".toList++crates.base64UrlSafeNoPad (utf8 payload)++"?".toList++query

structure RenderedOutput where
  name : Text
  v2raynLinks : List Text
  standardLinks : List Text
  shadowrocketLinks : List Text
  deriving DecidableEq,Repr

def renderOutput (crates : Crates) (nodes : List VMessNode) (network : RelayNetwork)
    (serviceName : Text) (output : OutputConfig) : Except Panic RenderedOutput := do
  let processed := applyPipeline crates.regex nodes output.process
  let standardLinks ← processed.mapM
    (fun node => buildVmessUrlLink crates node output network serviceName)
  return {
    name := output.name
    v2raynLinks := processed.map
      (fun node => buildVmessJsonLink crates node output network serviceName)
    standardLinks := standardLinks
    shadowrocketLinks := processed.map
      (fun node => buildShadowrocketLink crates node output network serviceName) }

structure HttpState where
  users : List HttpUser
  outputs : List RenderedOutput
  deriving DecidableEq,Repr

def HttpState.new (crates : Crates) (users : List HttpUser) (outputs : List OutputConfig)
    (nodes : List VMessNode) (network : RelayNetwork) (serviceName : Text) :
    Except Panic HttpState :=
  (outputs.mapM (renderOutput crates nodes network serviceName)).map (HttpState.mk users)

end Tobira.Http
